import Mathlib

/-! Byte strings with the searches and slices of a `std::string`. Positions are
plain numbers; only the arithmetic on `size_t` is carried out modulo `2^64`,
because `npos` and a wrapped difference are values a program really computes. -/
namespace Text

abbrev Bytes := List UInt8

/-- The bytes a string literal is compiled to (UTF-8). -/
def str (s : String) : Bytes := s.toList.flatMap String.utf8EncodeChar

/-- What a C function reads of a buffer: everything before the first NUL. -/
def c_str (s : Bytes) : Bytes := s.takeWhile (· ≠ 0)

/-- A string that came in through `argv`, and so holds no NUL. -/
def CString : Type := {s : Bytes // (0 : UInt8) ∉ s}

/-- `std::string::npos`, the largest `size_t`. -/
def npos : Nat := 2 ^ 64 - 1

/-- Subtraction of two `size_t` values, wrapping below zero. -/
def size_sub (a b : Nat) : Nat := if b ≤ a then a - b else a + 2 ^ 64 - b

/-- `s.find(c, pos)`, with `none` for `npos`. -/
def find (s : Bytes) (c : UInt8) (pos : Nat) : Option Nat :=
  ((s.drop pos).findIdx? (· == c)).map (· + pos)

/-- `s.rfind(c, pos)`: the last occurrence that starts at `pos` or before. -/
def rfind (s : Bytes) (c : UInt8) (pos : Nat) : Option Nat :=
  let head := s.take (pos + 1)
  (head.reverse.findIdx? (· == c)).map fun k => head.length - 1 - k

/-- `s.find(pattern)` for a string pattern. -/
def find_str (s pattern : Bytes) : Option Nat :=
  (List.range (s.length + 1)).find? fun i => pattern.isPrefixOf (s.drop i)

/-- `s.substr(pos, n)` for a position inside the string. -/
def substr (s : Bytes) (pos n : Nat) : Bytes := (s.drop pos).take n

/-- `s.substr(pos)`. -/
def substr_from (s : Bytes) (pos : Nat) : Bytes := s.drop pos

/-- `s` begins with `pattern`. -/
def starts_with (s pattern : Bytes) : Bool := pattern.isPrefixOf s

theorem c_str_append {a b : Bytes} (h : (0 : UInt8) ∉ a) : c_str (a ++ b) = a ++ c_str b := by
  unfold c_str
  rw [List.takeWhile_append_of_pos]
  intro x hx
  simp only [ne_eq, decide_not, Bool.not_eq_eq_eq_not, Bool.not_true, decide_eq_false_iff_not]
  rintro rfl
  exact h hx

theorem c_str_eq_self {s : Bytes} (h : (0 : UInt8) ∉ s) : c_str s = s := by
  simpa [c_str] using c_str_append (b := []) h

theorem c_str_length_le_append (a b : Bytes) : (c_str a).length ≤ (c_str (a ++ b)).length := by
  unfold c_str
  rw [List.takeWhile_append]
  split
  · rename_i hAll
    rw [hAll, List.length_append]
    exact Nat.le_add_right _ _
  · rfl

theorem findIdx?_append_cons {a b : Bytes} {c : UInt8} (h : c ∉ a) :
    (a ++ c :: b).findIdx? (· == c) = some a.length := by
  induction a with
  | nil => simp [List.findIdx?_cons]
  | cons x rest ih =>
      have hx : x ≠ c := fun he => h (by simp [he])
      have hRest : c ∉ rest := fun hm => h (List.mem_cons_of_mem _ hm)
      simp [List.findIdx?_cons, hx, ih hRest]

theorem findIdx?_eq_none_of_not_mem {s : Bytes} {c : UInt8} (h : c ∉ s) :
    s.findIdx? (· == c) = none := by
  rw [List.findIdx?_eq_none_iff]
  intro x hx
  simp only [beq_eq_false_iff_ne, ne_eq]
  rintro rfl
  exact h hx

/-- The first separator after a skipped prefix ends the field between them. -/
theorem find_field (skipped rest : Bytes) {field : Bytes} {c : UInt8} (h : c ∉ field) :
    find (skipped ++ (field ++ c :: rest)) c skipped.length =
      some (field.length + skipped.length) := by
  simp [find, findIdx?_append_cons h]

theorem find_none {s : Bytes} {c : UInt8} (h : c ∉ s) : find s c 0 = none := by
  simp [find, findIdx?_eq_none_of_not_mem h]

/-- A field is cut out where it stands. -/
theorem substr_field {before field : Bytes} (after : Bytes) {pos n : Nat}
    (hPos : before.length = pos) (hLength : field.length = n) :
    substr (before ++ (field ++ after)) pos n = field := by
  rw [substr, List.drop_left' hPos, List.take_left' hLength]

theorem substr_from_field {before field : Bytes} {pos : Nat} (hPos : before.length = pos) :
    substr_from (before ++ field) pos = field := List.drop_left' hPos

theorem size_sub_of_le {a b : Nat} (h : b ≤ a) : size_sub a b = a - b := if_pos h

theorem find_str_eq_none_iff {s pattern : Bytes} :
    find_str s pattern = none ↔ ¬ pattern <:+: s := by
  rw [find_str, List.find?_eq_none]
  constructor
  · rintro h ⟨before, after, rfl⟩
    apply h before.length (by simp)
    simp
  · rintro h i - hp
    rw [List.isPrefixOf_iff_prefix] at hp
    exact h (hp.isInfix.trans (List.drop_suffix i s).isInfix)

/-- What holds of the bytes of a literal, by its characters. -/
theorem forall_mem_str {p : UInt8 → Prop} {chars : List Char}
    (h : ∀ c ∈ chars.flatMap String.utf8EncodeChar, p c) :
    ∀ c ∈ str (String.ofList chars), p c := by
  rwa [str, String.toList_ofList]

@[simp] theorem starts_with_append (pattern rest : Bytes) :
    starts_with (pattern ++ rest) pattern = true := by
  simp [starts_with]

end Text
