import RkFlashd.Text.Numeral

/-! Texts that are valid UTF-8. Validity of a text put together from pieces is that of the
pieces, wherever they are separated by characters of one byte. -/
namespace Text

/-- A text is the encoding of Unicode scalar values. -/
def ValidUtf8 (s : Bytes) : Prop := ∃ chars : List Char, s = chars.flatMap String.utf8EncodeChar

variable {a b s : Bytes} {c : UInt8}

/-- The check is that of the library for byte arrays. -/
theorem valid_utf8_iff : ValidUtf8 s ↔ s.toByteArray.IsValidUTF8 := by
  constructor
  · rintro ⟨chars, rfl⟩
    exact ⟨chars, rfl⟩
  · rintro ⟨chars, hEq⟩
    exact ⟨chars, List.toByteArray_inj.mp hEq⟩

instance : DecidablePred ValidUtf8 := fun s =>
  decidable_of_iff (s.toByteArray.validateUTF8 = true)
    (ByteArray.validateUTF8_eq_true_iff.trans valid_utf8_iff.symm)

theorem valid_str (s : String) : ValidUtf8 (str s) := ⟨s.toList, rfl⟩

theorem valid_nil : ValidUtf8 [] := ⟨[], rfl⟩

theorem ValidUtf8.append (ha : ValidUtf8 a) (hb : ValidUtf8 b) : ValidUtf8 (a ++ b) := by
  obtain ⟨first, rfl⟩ := ha
  obtain ⟨second, rfl⟩ := hb
  exact ⟨first ++ second, by rw [List.flatMap_append]⟩

/-- A text determines its first character. -/
theorem valid_char_append_iff (d : Char) :
    ValidUtf8 (String.utf8EncodeChar d ++ b) ↔ ValidUtf8 b := by
  rw [valid_utf8_iff, valid_utf8_iff, List.toByteArray_append, ← List.utf8Encode_singleton]
  exact ByteArray.isValidUTF8_utf8Encode_singleton_append_iff

/-- Behind a valid text, what matters is the rest. -/
theorem valid_append_iff (ha : ValidUtf8 a) : ValidUtf8 (a ++ b) ↔ ValidUtf8 b := by
  obtain ⟨chars, rfl⟩ := ha
  induction chars with
  | nil => rfl
  | cons d rest ih =>
      rw [List.flatMap_cons, List.append_assoc, valid_char_append_iff]
      exact ih

theorem encode_ascii (hc : c < 128) : String.utf8EncodeChar (Char.ofNat c.toNat) = [c] := by
  have hAll : ∀ n < 128, String.utf8EncodeChar (Char.ofNat n) = [UInt8.ofNat n] := by
    decide +kernel
  rw [hAll c.toNat (UInt8.lt_iff_toNat_lt.mp hc), UInt8.ofNat_toNat]

theorem valid_ascii (h : ∀ c ∈ s, c < 128) : ValidUtf8 s := by
  refine ⟨s.map fun c => Char.ofNat c.toNat, ?_⟩
  induction s with
  | nil => rfl
  | cons c rest ih =>
      rw [List.map_cons, List.flatMap_cons, encode_ascii (h c (by simp)),
        ← ih fun d hd => h d (by simp [hd])]
      rfl

theorem ascii_first_byte (c : UInt8) : c < 128 → c.IsUTF8FirstByte := by
  apply forall_byte (p := fun c => c < 128 → c.IsUTF8FirstByte)
  decide +kernel

/-- A byte below 128 is a character of its own, so the text may be cut before it. -/
theorem ValidUtf8.before (hc : c < 128) (h : ValidUtf8 (a ++ c :: b)) : ValidUtf8 a := by
  obtain ⟨chars, hEq⟩ := h
  induction chars generalizing a with
  | nil => simp at hEq
  | cons d rest ih =>
      rw [List.flatMap_cons] at hEq
      rcases List.append_eq_append_iff.mp hEq with ⟨tail, hChar, hRest⟩ | ⟨tail, rfl, hRest⟩
      · cases tail with
        | nil => exact ⟨[d], by simpa using hChar.symm⟩
        | cons first tail =>
            obtain rfl : c = first := (List.cons.inj hRest).1
            -- the byte is not the first of its character, unless nothing precedes it
            have hIndex : a.length < (String.utf8EncodeChar d).length := by simp [hChar]
            have hByte : (String.utf8EncodeChar d)[a.length] = c := by simp [hChar]
            have hFirst : (String.utf8EncodeChar d)[a.length].IsUTF8FirstByte := by
              rw [hByte]
              exact ascii_first_byte c hc
            have hNil := UInt8.isUTF8FirstByte_getElem_utf8EncodeChar.mp hFirst
            rw [List.length_eq_zero_iff.mp hNil]
            exact valid_nil
      · exact (valid_char_append_iff d).mpr (ih hRest.symm)

theorem valid_append_cons (hc : c < 128) :
    ValidUtf8 (a ++ c :: b) ↔ ValidUtf8 a ∧ ValidUtf8 b := by
  have hCons : ValidUtf8 (c :: b) ↔ ValidUtf8 b := by
    have hOne := valid_char_append_iff (b := b) (Char.ofNat c.toNat)
    rwa [encode_ascii hc] at hOne
  constructor
  · intro h
    have ha := h.before hc
    exact ⟨ha, hCons.mp ((valid_append_iff ha).mp h)⟩
  · rintro ⟨ha, hb⟩
    exact ha.append (hCons.mpr hb)

/-- A constant between two texts separates them if it begins with a byte below 128. -/
theorem valid_append_str (s : String) (h : ((str s).head?.any fun c => c < 128) = true) :
    ValidUtf8 (a ++ (str s ++ b)) ↔ ValidUtf8 a ∧ ValidUtf8 b := by
  have hValid := valid_str s
  generalize str s = text at h hValid
  cases text with
  | nil => cases h
  | cons c rest =>
      have hc : c < 128 := by simpa using h
      have hRest : ValidUtf8 rest := ((valid_append_cons (a := []) hc).mp hValid).2
      rw [List.cons_append, valid_append_cons hc, valid_append_iff hRest]

theorem ascii_of_isxdigit (c : UInt8) : isxdigit c = true → c < 128 := by
  grind [isxdigit, isdigit]

theorem valid_xdigits (h : ∀ c ∈ s, isxdigit c = true) : ValidUtf8 s :=
  valid_ascii fun c hc => ascii_of_isxdigit c (h c hc)

theorem valid_to_string (n : Nat) : ValidUtf8 (to_string n) :=
  valid_xdigits fun c hc => isxdigit_of_isdigit (to_string_isdigit n c hc)

theorem valid_int_to_string (n : Int) : ValidUtf8 (int_to_string n) := by
  cases n with
  | ofNat n => exact valid_to_string n
  | negSucc n => exact (valid_str "-").append (valid_to_string (n + 1))

theorem valid_print_hex (upper : Bool) (width n : Nat) : ValidUtf8 (print_hex upper width n) :=
  valid_xdigits (print_hex_isxdigit upper width n)

theorem toupper_high (c : UInt8) : 128 ≤ c → toupper c = c := by
  grind [toupper]

theorem toupper_ascii (c : UInt8) : c < 128 → toupper c < 128 := by
  grind [toupper]

/-- A character is one byte below 128, or all its bytes are above. -/
theorem char_bytes (d : Char) :
    (∃ c < 128, String.utf8EncodeChar d = [c]) ∨ ∀ c ∈ String.utf8EncodeChar d, 128 ≤ c := by
  have hHigh : ∀ n, 128 ≤ n → n < 256 → (128 : UInt8) ≤ UInt8.ofNat n := by
    intro n hLow hLt
    rw [UInt8.le_iff_toNat_le, UInt8.toNat_ofNat']
    exact hLow.trans_eq (Nat.mod_eq_of_lt hLt).symm
  fun_cases String.utf8EncodeChar d
  · rename_i v hv
    refine Or.inl ⟨_, ?_, rfl⟩
    rw [UInt8.lt_iff_toNat_lt, UInt8.toNat_ofNat']
    exact Nat.lt_of_le_of_lt (Nat.mod_le _ _) (Nat.lt_succ_of_le hv)
  · right
    simp only [List.mem_cons, List.not_mem_nil, or_false]
    rintro c (rfl | rfl) <;> exact hHigh _ (by omega) (by omega)
  · right
    simp only [List.mem_cons, List.not_mem_nil, or_false]
    rintro c (rfl | rfl | rfl) <;> exact hHigh _ (by omega) (by omega)
  · right
    simp only [List.mem_cons, List.not_mem_nil, or_false]
    rintro c (rfl | rfl | rfl | rfl) <;> exact hHigh _ (by omega) (by omega)

/-- Upper case is a matter of single bytes. -/
theorem ValidUtf8.map_toupper (h : ValidUtf8 s) : ValidUtf8 (s.map toupper) := by
  obtain ⟨chars, rfl⟩ := h
  induction chars with
  | nil => exact valid_nil
  | cons d rest ih =>
      rw [List.flatMap_cons, List.map_append]
      refine ValidUtf8.append ?_ ih
      rcases char_bytes d with ⟨c, hc, hEncode⟩ | hHigh
      · rw [hEncode]
        exact valid_ascii (by simpa using toupper_ascii c hc)
      · rw [List.map_congr_left fun c hc => toupper_high c (hHigh c hc), List.map_id']
        exact ⟨[d], by simp⟩

end Text
