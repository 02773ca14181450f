import RkFlashd.Text.Fields

/-! Texts that differ in the letter case of their hex digits alone. Reading numbers, bytes
and separators from them gives the same. -/
namespace Text

/-- A hex digit in upper case, any other byte as it is. -/
def hex_upper (c : UInt8) : UInt8 := if isxdigit c then toupper c else c

/-- An upper-case hex digit in lower case, any other byte as it is. -/
def hex_lower (c : UInt8) : UInt8 := if 65 ≤ c ∧ c ≤ 70 then c + 32 else c

def upper_hex (s : Bytes) : Bytes := s.map hex_upper

/-- Equal up to the letter case of hex digits. -/
def SameHex (a b : Bytes) : Prop := upper_hex a = upper_hex b

instance (a b : Bytes) : Decidable (SameHex a b) := inferInstanceAs (Decidable (_ = _))

/-- No hex digit is in upper case. -/
def LowerHex (s : Bytes) : Prop := ∀ c ∈ s, ¬ (65 ≤ c ∧ c ≤ 70)

instance (s : Bytes) : Decidable (LowerHex s) :=
  inferInstanceAs (Decidable (∀ c ∈ s, ¬ (65 ≤ c ∧ c ≤ 70)))

@[simp] theorem isxdigit_hex_upper (c : UInt8) : isxdigit (hex_upper c) = isxdigit c := by
  grind [hex_upper, toupper, isxdigit, isdigit]

@[simp] theorem isdigit_hex_upper (c : UInt8) : isdigit (hex_upper c) = isdigit c := by
  grind [hex_upper, toupper, isxdigit, isdigit]

@[simp] theorem isspace_hex_upper (c : UInt8) : isspace (hex_upper c) = isspace c := by
  grind [hex_upper, toupper, isxdigit, isdigit, isspace]

@[simp] theorem digit_value_hex_upper (c : UInt8) : digit_value (hex_upper c) = digit_value c := by
  apply forall_byte (p := fun c => digit_value (hex_upper c) = digit_value c)
  decide +kernel

@[simp] theorem hex_upper_hex_upper (c : UInt8) : hex_upper (hex_upper c) = hex_upper c := by
  grind [hex_upper, toupper, isxdigit, isdigit]

/-- A byte that is no letter stands for itself alone. -/
theorem hex_upper_eq_iff {d : UInt8} (hd : isxdigit d = false ∨ isdigit d = true) (c : UInt8) :
    hex_upper c = d ↔ c = d := by
  constructor
  · rintro rfl
    rw [isxdigit_hex_upper, isdigit_hex_upper] at hd
    revert hd
    grind [hex_upper, toupper, isdigit]
  · rintro rfl
    revert hd
    grind [hex_upper, toupper, isdigit]

theorem hex_lower_hex_upper {c : UInt8} : ¬ (65 ≤ c ∧ c ≤ 70) → hex_lower (hex_upper c) = c := by
  grind [hex_lower, hex_upper, toupper, isxdigit, isdigit]

namespace SameHex
variable {a b c d : Bytes}

theorem refl (a : Bytes) : SameHex a a := rfl

theorem symm (h : SameHex a b) : SameHex b a := Eq.symm h

theorem trans (h : SameHex a b) (h' : SameHex b c) : SameHex a c := Eq.trans h h'

theorem upper (a : Bytes) : SameHex a (upper_hex a) := by
  simp [SameHex, upper_hex]

theorem append (h : SameHex a b) (h' : SameHex c d) : SameHex (a ++ c) (b ++ d) := by
  unfold SameHex upper_hex at *
  rw [List.map_append, List.map_append, h, h']

theorem length_eq (h : SameHex a b) : a.length = b.length := by
  simpa [upper_hex] using congrArg List.length h

/-- In lower case there is only one way to write a text. -/
theorem eq_of_lower (h : SameHex a b) (ha : LowerHex a) (hb : LowerHex b) : a = b := by
  have hMap : ∀ {s : Bytes}, LowerHex s → (upper_hex s).map hex_lower = s := by
    intro s hs
    rw [upper_hex, List.map_map]
    conv_rhs => rw [← List.map_id s]
    exact List.map_congr_left fun c hc => hex_lower_hex_upper (hs c hc)
  rw [← hMap ha, ← hMap hb, show upper_hex a = upper_hex b from h]

end SameHex

@[simp] theorem length_upper_hex (s : Bytes) : (upper_hex s).length = s.length := List.length_map _

@[simp] theorem all_isxdigit_upper_hex (s : Bytes) :
    (upper_hex s).all isxdigit = s.all isxdigit := by
  simp [upper_hex, List.all_map, Function.comp_def]

@[simp] theorem all_isdigit_upper_hex (s : Bytes) : (upper_hex s).all isdigit = s.all isdigit := by
  simp [upper_hex, List.all_map, Function.comp_def]

theorem takeWhile_upper_hex {p : UInt8 → Bool} (hp : ∀ c, p (hex_upper c) = p c) (s : Bytes) :
    (upper_hex s).takeWhile p = upper_hex (s.takeWhile p) := by
  simp only [upper_hex, List.takeWhile_map, Function.comp_def, hp]

theorem dropWhile_upper_hex {p : UInt8 → Bool} (hp : ∀ c, p (hex_upper c) = p c) (s : Bytes) :
    (upper_hex s).dropWhile p = upper_hex (s.dropWhile p) := by
  simp only [upper_hex, List.dropWhile_map, Function.comp_def, hp]

theorem c_str_upper_hex (s : Bytes) : c_str (upper_hex s) = upper_hex (c_str s) := by
  apply takeWhile_upper_hex
  intro c
  simpa using hex_upper_eq_iff (Or.inl rfl) c

@[simp] theorem numeral_upper_hex (base : Nat) (s : Bytes) :
    numeral base (upper_hex s) = numeral base s := by
  simp [numeral, upper_hex, List.foldl_map]

theorem read_sign_cons (c : UInt8) (rest : Bytes) :
    read_sign (c :: rest) =
      if c = 43 then (false, rest) else if c = 45 then (true, rest) else (false, c :: rest) := by
  by_cases hPlus : c = 43
  · subst hPlus
    rfl
  · by_cases hMinus : c = 45
    · subst hMinus
      rfl
    · simp [read_sign, hPlus, hMinus]

theorem read_sign_upper_hex (s : Bytes) :
    read_sign (upper_hex s) = ((read_sign s).1, upper_hex (read_sign s).2) := by
  cases s with
  | nil => rfl
  | cons c rest =>
      have hCons : upper_hex (c :: rest) = hex_upper c :: upper_hex rest := rfl
      have hPlus : hex_upper c = 43 ↔ c = 43 := hex_upper_eq_iff (Or.inl rfl) c
      have hMinus : hex_upper c = 45 ↔ c = 45 := hex_upper_eq_iff (Or.inl rfl) c
      rw [hCons, read_sign_cons, read_sign_cons]
      simp only [hPlus, hMinus]
      split_ifs <;> rfl

theorem skip_hex_prefix_upper_hex (s : Bytes) :
    skip_hex_prefix (upper_hex s) = upper_hex ( skip_hex_prefix s) := by
  match s with
  | [] => rfl
  | [c] => simp [upper_hex, skip_hex_prefix]
  | [c, x] => simp [upper_hex, skip_hex_prefix]
  | c :: x :: d :: rest =>
      have hCons : upper_hex (c :: x :: d :: rest) =
          hex_upper c :: hex_upper x :: hex_upper d :: upper_hex rest := rfl
      have hLower : (hex_upper x == 120) = (x == 120) := by
        rw [Bool.eq_iff_iff, beq_iff_eq, beq_iff_eq, hex_upper_eq_iff (Or.inl rfl)]
      have hUpper : (hex_upper x == 88) = (x == 88) := by
        rw [Bool.eq_iff_iff, beq_iff_eq, beq_iff_eq, hex_upper_eq_iff (Or.inl rfl)]
      by_cases hZero : c = 48
      · subst hZero
        have hDigit : hex_upper 48 = 48 := rfl
        simp only [hCons, hDigit, skip_hex_prefix, hLower, hUpper, isxdigit_hex_upper]
        split_ifs <;> rfl
      · have hOther : hex_upper c ≠ 48 := fun h => hZero ((hex_upper_eq_iff (Or.inr rfl) c).mp h)
        rw [hCons]
        simp [hCons, skip_hex_prefix, hZero, hOther]

/-- The library's reader of numbers does not look at the case of a digit. -/
@[simp] theorem strtoull_upper_hex (base : Nat) (s : Bytes) :
    strtoull base (upper_hex s) = strtoull base s := by
  have hDigits : ∀ t : Bytes, (if base = 16 then skip_hex_prefix (upper_hex t) else upper_hex t) =
      upper_hex (if base = 16 then skip_hex_prefix t else t) := by
    intro t
    split_ifs
    · exact skip_hex_prefix_upper_hex t
    · rfl
  simp only [strtoull, c_str_upper_hex, dropWhile_upper_hex isspace_hex_upper,
    read_sign_upper_hex, hDigits]
  rw [takeWhile_upper_hex (by simp), numeral_upper_hex]

theorem take_upper_hex (n : Nat) (s : Bytes) : (upper_hex s).take n = upper_hex (s.take n) :=
  List.map_take.symm

theorem drop_upper_hex (n : Nat) (s : Bytes) : (upper_hex s).drop n = upper_hex (s.drop n) :=
  List.map_drop.symm

@[simp] theorem sscanf_2x_upper_hex (s : Bytes) : sscanf_2x (upper_hex s) = sscanf_2x s := by
  have hNil : ∀ t : Bytes, upper_hex t = [] ↔ t = [] := by simp [upper_hex]
  simp only [sscanf_2x, c_str_upper_hex, dropWhile_upper_hex isspace_hex_upper, take_upper_hex,
    read_sign_upper_hex, takeWhile_upper_hex isxdigit_hex_upper, numeral_upper_hex, hNil]

theorem rfind_upper_hex (s : Bytes) {c : UInt8} (hc : isxdigit c = false) (pos : Nat) :
    rfind (upper_hex s) c pos = rfind s c pos := by
  have hSame : ((fun x => x == c) ∘ hex_upper) = fun x => x == c := by
    funext x
    rw [Function.comp_apply, Bool.eq_iff_iff, beq_iff_eq, beq_iff_eq, hex_upper_eq_iff (Or.inl hc)]
  have hReverse : ∀ t : Bytes, (upper_hex t).reverse = upper_hex t.reverse := by simp [upper_hex]
  simp only [rfind, take_upper_hex, length_upper_hex, hReverse]
  rw [upper_hex, List.findIdx?_map, hSame]

end Text
