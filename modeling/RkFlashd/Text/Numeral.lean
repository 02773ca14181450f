import RkFlashd.Text.Bytes

/-! Numerals as the C library reads and prints them: character classes, the
`strtoull` family, `sscanf` with a width of two, and the `printf` conversions.
Reading saturates where the library does, and narrowing is left to the caller. -/
namespace Text

def isdigit (c : UInt8) : Bool := 48 ≤ c && c ≤ 57

def isxdigit (c : UInt8) : Bool :=
  isdigit c || (97 ≤ c && c ≤ 102) || (65 ≤ c && c ≤ 70)

def isalnum (c : UInt8) : Bool :=
  isdigit c || (65 ≤ c && c ≤ 90) || (97 ≤ c && c ≤ 122)

/-- Blank, tab, newline, vertical tab, form feed and carriage return. -/
def isspace (c : UInt8) : Bool := c == 32 || (9 ≤ c && c ≤ 13)

def toupper (c : UInt8) : UInt8 := if 97 ≤ c && c ≤ 122 then c - 32 else c

/-- The value of a digit in any base up to 36, and 36 for every other byte. -/
def digit_value (c : UInt8) : Nat :=
  if isdigit c then c.toNat - 48
  else if 97 ≤ c && c ≤ 122 then c.toNat - 87
  else if 65 ≤ c && c ≤ 90 then c.toNat - 55
  else 36

/-- The number a digit string denotes, without any bound. -/
def numeral (base : Nat) (digits : Bytes) : Nat :=
  digits.foldl (fun value c => value * base + digit_value c) 0

/-- Skip an optional sign; the flag says that it was a minus. -/
def read_sign : Bytes → Bool × Bytes
  | 43 :: rest => (false, rest)
  | 45 :: rest => (true, rest)
  | s => (false, s)

/-- Base 16 also takes a `0x` prefix when a hex digit follows it. -/
def skip_hex_prefix : Bytes → Bytes
  | 48 :: x :: d :: rest =>
      if (x == 120 || x == 88) && isxdigit d then d :: rest else 48 :: x :: d :: rest
  | s => s

/-- `strtoull(s, nullptr, base)` with a 64-bit result, which `strtoul` shares
where `long` has 64 bits: leading blanks, a sign, the longest run of digits, and
the largest value on overflow. -/
def strtoull (base : Nat) (s : Bytes) : UInt64 :=
  let (negative, rest) := read_sign ((c_str s).dropWhile isspace)
  let digits := if base = 16 then skip_hex_prefix rest else rest
  let value := numeral base (digits.takeWhile fun c => digit_value c < base)
  if 2 ^ 64 ≤ value then UInt64.ofNat (2 ^ 64 - 1)
  else if negative then 0 - UInt64.ofNat value
  else UInt64.ofNat value

/-- `strtol(s, nullptr, 10)` with a 64-bit `long`: leading blanks, a sign, the longest run of
digits, and the nearest value on overflow. -/
def strtol (s : Bytes) : Int64 :=
  let (negative, rest) := read_sign ((c_str s).dropWhile isspace)
  let value := numeral 10 (rest.takeWhile isdigit)
  if negative then if 2 ^ 63 ≤ value then Int64.minValue else Int64.ofInt (-value)
  else if 2 ^ 63 ≤ value then Int64.maxValue else Int64.ofInt value

/-- `atoi` narrows what `strtol` reads. -/
def atoi (s : Bytes) : Int32 := (strtol s).toInt32

/-- `sscanf(s, "%2x", &v)`: blanks are skipped without counting towards the
width, and a sign counts. The result is `none` when nothing was converted. -/
def sscanf_2x (s : Bytes) : Option UInt32 :=
  let (negative, rest) := read_sign (((c_str s).dropWhile isspace).take 2)
  let digits := rest.takeWhile isxdigit
  if digits = [] then none
  else if negative then some (0 - UInt32.ofNat (numeral 16 digits))
  else some (UInt32.ofNat (numeral 16 digits))

/-- The character of a digit below ten. -/
def decimal_digit (d : Nat) : UInt8 := UInt8.ofNat (48 + d)

/-- `std::to_string` of an unsigned number. -/
def to_string (n : Nat) : Bytes :=
  if n = 0 then [48] else ((Nat.digits 10 n).reverse).map decimal_digit

/-- `std::to_string` of a signed number. -/
def int_to_string : Int → Bytes
  | .ofNat n => to_string n
  | .negSucc n => str "-" ++ to_string (n + 1)

/-- The character of a hex digit, `x` or `X` style. -/
def hex_digit (upper : Bool) (d : Nat) : UInt8 :=
  if d < 10 then UInt8.ofNat (48 + d)
  else UInt8.ofNat ((if upper then 55 else 87) + d)

/-- The `width` low hex digits of a number, most significant first. This is the
whole `%0<width>x` output for a number that fits the width. -/
def print_hex (upper : Bool) : Nat → Nat → Bytes
  | 0, _ => []
  | width + 1, n => hex_digit upper (n / 16 ^ width % 16) :: print_hex upper width n

/-- A fact about every byte is a finite check. -/
theorem forall_byte {p : UInt8 → Prop} (h : ∀ n : Fin 256, p (UInt8.ofNat n)) (c : UInt8) :
    p c := by
  simpa using h ⟨c.toNat, c.toNat_lt⟩

theorem numeral_append_singleton (base : Nat) (digits : Bytes) (c : UInt8) :
    numeral base (digits ++ [c]) = numeral base digits * base + digit_value c := by
  simp [numeral]

theorem decimal_digit_isdigit {d : Nat} (h : d < 10) : isdigit (decimal_digit d) = true := by
  interval_cases d <;> rfl

theorem digit_value_decimal {d : Nat} (h : d < 10) : digit_value (decimal_digit d) = d := by
  interval_cases d <;> rfl

/-- The last digit comes off the end of a printed number. -/
theorem to_string_eq {n : Nat} (h : n ≠ 0) :
    to_string n = (if n / 10 = 0 then [] else to_string (n / 10)) ++ [decimal_digit (n % 10)] := by
  unfold to_string
  rw [if_neg h, Nat.digits_of_two_le_of_pos (by omega) (by omega)]
  simp only [List.reverse_cons, List.map_append, List.map_cons, List.map_nil]
  by_cases hDiv : n / 10 = 0
  · simp [hDiv]
  · simp [hDiv]

theorem to_string_length_le (n : Nat) : (to_string n).length ≤ n + 1 := by
  induction n using Nat.strongRecOn with
  | ind n ih =>
      by_cases hZero : n = 0
      · subst hZero
        decide
      · rw [to_string_eq hZero]
        split
        · simp
        · have hShorter := ih (n / 10) (by omega)
          simp only [List.length_append, List.length_singleton]
          omega

theorem to_string_isdigit (n : Nat) : ∀ c ∈ to_string n, isdigit c = true := by
  intro c hc
  unfold to_string at hc
  split at hc
  · simp only [List.mem_singleton] at hc
    subst hc
    rfl
  · simp only [List.mem_map, List.mem_reverse] at hc
    obtain ⟨d, hd, rfl⟩ := hc
    exact decimal_digit_isdigit (Nat.digits_lt_base (by omega) hd)

theorem to_string_ne_nil (n : Nat) : to_string n ≠ [] := by
  by_cases h : n = 0
  · simp [to_string, h]
  · rw [to_string_eq h]
    simp

/-- Reading back a printed number gives the number. -/
theorem numeral_to_string (n : Nat) : numeral 10 (to_string n) = n := by
  induction n using Nat.strong_induction_on with
  | _ n ih =>
      by_cases h : n = 0
      · subst h
        rfl
      · rw [to_string_eq h, numeral_append_singleton, digit_value_decimal (Nat.mod_lt _ (by omega))]
        by_cases hDiv : n / 10 = 0
        · simp only [hDiv, ↓reduceIte, numeral, List.foldl_nil]
          omega
        · rw [if_neg hDiv, ih (n / 10) (by omega)]
          omega

theorem digit_value_lt_ten (c : UInt8) : isdigit c = true → digit_value c < 10 := by
  grind [isdigit, digit_value, UInt8.le_iff_toNat_le]

theorem digit_value_lt_sixteen_iff (c : UInt8) : digit_value c < 16 ↔ isxdigit c = true := by
  grind [isxdigit, isdigit, digit_value, UInt8.le_iff_toNat_le]

theorem isspace_of_isxdigit (c : UInt8) : isxdigit c = true → isspace c = false := by
  grind [isxdigit, isdigit, isspace]

theorem isxdigit_of_isdigit {c : UInt8} (h : isdigit c = true) : isxdigit c = true := by
  simp [isxdigit, h]

theorem isxdigit_ne {c d : UInt8} (h : isxdigit c = true) (hd : isxdigit d = false) : c ≠ d := by
  rintro rfl
  simp [h] at hd

/-- Digits of a base denote a number below that power of the base. -/
theorem numeral_lt {base : Nat} {s : Bytes} (h : ∀ c ∈ s, digit_value c < base) :
    numeral base s < base ^ s.length := by
  induction s using List.reverseRecOn with
  | nil => exact Nat.one_pos
  | append_singleton init c ih =>
      have hInit := ih fun d hd => h d (by simp [hd])
      have hLast := h c (by simp)
      rw [numeral_append_singleton, List.length_append, List.length_singleton, pow_succ]
      calc numeral base init * base + digit_value c
          < numeral base init * base + base := by omega
        _ = (numeral base init + 1) * base := by ring
        _ ≤ base ^ init.length * base := Nat.mul_le_mul_right _ hInit

section HexString
variable {s : Bytes} (h : ∀ c ∈ s, isxdigit c = true)
include h

theorem zero_not_mem_xdigits : (0 : UInt8) ∉ s :=
  fun hm => isxdigit_ne (h 0 hm) rfl rfl

theorem dropWhile_isspace_xdigits : s.dropWhile isspace = s := by
  cases s with
  | nil => rfl
  | cons c rest => simp [isspace_of_isxdigit c (h c (by simp))]

theorem read_sign_xdigits : read_sign s = (false, s) := by
  cases s with
  | nil => rfl
  | cons c rest =>
      have hPlus : c ≠ 43 := isxdigit_ne (h c (by simp)) rfl
      have hMinus : c ≠ 45 := isxdigit_ne (h c (by simp)) rfl
      simp [read_sign, hPlus, hMinus]

/-- A string of hex digits holds no `x`, so it has no prefix to skip. -/
theorem skip_hex_prefix_xdigits : skip_hex_prefix s = s := by
  unfold skip_hex_prefix
  split
  · rename_i x d rest
    have hLower : x ≠ 120 := isxdigit_ne (h x (by simp)) rfl
    have hUpper : x ≠ 88 := isxdigit_ne (h x (by simp)) rfl
    simp [hLower, hUpper]
  · rfl

/-- On a string of hex digits, `strtoull` in base 16 is the numeral, saturated. -/
theorem strtoull_xdigits :
    strtoull 16 s = UInt64.ofNat (min (numeral 16 s) (2 ^ 64 - 1)) := by
  have hTake : (s.takeWhile fun c => decide (digit_value c < 16)) = s := by
    rw [List.takeWhile_eq_self_iff]
    intro c hc
    simpa using (digit_value_lt_sixteen_iff c).mpr (h c hc)
  simp only [strtoull, c_str_eq_self (zero_not_mem_xdigits h), dropWhile_isspace_xdigits h,
    read_sign_xdigits h, skip_hex_prefix_xdigits h, ↓reduceIte, hTake, Bool.false_eq_true]
  split
  · rw [Nat.min_eq_right (by omega)]
  · rw [Nat.min_eq_left (by omega)]

end HexString

/-- On a string of decimal digits, `strtoull` is the numeral, saturated. -/
theorem strtoull_digits {s : Bytes} (h : ∀ c ∈ s, isdigit c = true) :
    strtoull 10 s = UInt64.ofNat (min (numeral 10 s) (2 ^ 64 - 1)) := by
  have hHex : ∀ c ∈ s, isxdigit c = true := fun c hc => isxdigit_of_isdigit (h c hc)
  have hTake : (s.takeWhile fun c => decide (digit_value c < 10)) = s := by
    rw [List.takeWhile_eq_self_iff]
    intro c hc
    simpa using digit_value_lt_ten c (h c hc)
  simp only [strtoull, c_str_eq_self (zero_not_mem_xdigits hHex), dropWhile_isspace_xdigits hHex,
    read_sign_xdigits hHex, Nat.reduceEqDiff, ↓reduceIte, hTake, Bool.false_eq_true]
  split
  · rw [Nat.min_eq_right (by omega)]
  · rw [Nat.min_eq_left (by omega)]

theorem read_sign_digits {s : Bytes} (h : ∀ c ∈ s, isdigit c = true) :
    read_sign s = (false, s) :=
  read_sign_xdigits fun c hc => isxdigit_of_isdigit (h c hc)

/-- On a numeral that fits an `int`, `atoi` is its value. -/
theorem atoi_digits {s : Bytes} (h : ∀ c ∈ s, isdigit c = true) (hFits : numeral 10 s < 2 ^ 31) :
    atoi s = Int32.ofNat (numeral 10 s) := by
  have hHex : ∀ c ∈ s, isxdigit c = true := fun c hc => isxdigit_of_isdigit (h c hc)
  have hTake : s.takeWhile isdigit = s := List.takeWhile_eq_self_iff.mpr h
  have hValue : strtol s = Int64.ofInt (numeral 10 s) := by
    have hLong : ¬ 2 ^ 63 ≤ numeral 10 s := by omega
    simp only [strtol, c_str_eq_self (zero_not_mem_xdigits hHex), dropWhile_isspace_xdigits hHex,
      read_sign_digits h, hTake, Bool.false_eq_true, if_false, if_neg hLong]
  rw [atoi, hValue, Int64.toInt32_ofInt]
  exact Int32.ofInt_eq_ofNat

theorem strtoull_to_string {n : Nat} (h : n < 2 ^ 64) :
    strtoull 10 (to_string n) = UInt64.ofNat n := by
  rw [strtoull_digits (to_string_isdigit n), numeral_to_string, Nat.min_eq_left (by omega)]

theorem hex_digit_isxdigit (upper : Bool) {d : Nat} (h : d < 16) :
    isxdigit (hex_digit upper d) = true := by
  cases upper <;> interval_cases d <;> rfl

theorem digit_value_hex (upper : Bool) {d : Nat} (h : d < 16) :
    digit_value (hex_digit upper d) = d := by
  cases upper <;> interval_cases d <;> rfl

@[simp] theorem print_hex_length (upper : Bool) (width n : Nat) :
    (print_hex upper width n).length = width := by
  induction width with
  | zero => rfl
  | succ width ih => simp [print_hex, ih]

theorem print_hex_isxdigit (upper : Bool) (width n : Nat) :
    ∀ c ∈ print_hex upper width n, isxdigit c = true := by
  induction width with
  | zero => simp [print_hex]
  | succ width ih =>
      intro c hc
      rcases List.mem_cons.mp hc with rfl | hc
      · exact hex_digit_isxdigit upper (Nat.mod_lt _ (by omega))
      · exact ih c hc

theorem foldl_print_hex (upper : Bool) (width n start : Nat) :
    (print_hex upper width n).foldl (fun value c => value * 16 + digit_value c) start =
      start * 16 ^ width + n % 16 ^ width := by
  induction width generalizing start with
  | zero => simp [print_hex, Nat.mod_one]
  | succ width ih =>
      rw [print_hex, List.foldl_cons, ih, digit_value_hex upper (Nat.mod_lt _ (by omega))]
      rw [pow_succ, Nat.mod_mul]
      ring

theorem numeral_print_hex (upper : Bool) {width n : Nat} (h : n < 16 ^ width) :
    numeral 16 (print_hex upper width n) = n := by
  simp [numeral, foldl_print_hex, Nat.mod_eq_of_lt h]

/-- `sscanf` reads a pair of hex digits as its value, whatever follows it. -/
theorem sscanf_2x_xdigits {high low : UInt8} (hHigh : isxdigit high = true)
    (hLow : isxdigit low = true) (rest : Bytes) :
    sscanf_2x (high :: low :: rest) =
      some (UInt32.ofNat (digit_value high * 16 + digit_value low)) := by
  have hPair : ∀ c ∈ [high, low], isxdigit c = true := by simp [hHigh, hLow]
  have hBlank : (c_str (high :: low :: rest)).dropWhile isspace = high :: low :: c_str rest := by
    have hCut := c_str_append (b := rest) (zero_not_mem_xdigits hPair)
    rw [List.cons_append, List.cons_append, List.nil_append] at hCut
    rw [hCut]
    simp [isspace_of_isxdigit high hHigh]
  have hAll : [high, low].takeWhile isxdigit = [high, low] := List.takeWhile_eq_self_iff.mpr hPair
  simp only [sscanf_2x, hBlank, List.take_succ_cons, List.take_zero, read_sign_xdigits hPair, hAll]
  simp [numeral]

/-- A printed pair of digits is read back as its byte. -/
theorem sscanf_2x_print_hex (upper : Bool) {n : Nat} (hn : n < 256) (rest : Bytes) :
    sscanf_2x (print_hex upper 2 n ++ rest) = some (UInt32.ofNat n) := by
  have hDigits := print_hex_isxdigit upper 2 n
  have hValue : numeral 16 (print_hex upper 2 n) = n :=
    numeral_print_hex upper (show n < 16 ^ 2 by omega)
  obtain ⟨high, low, hPair⟩ : ∃ high low, print_hex upper 2 n = [high, low] := ⟨_, _, rfl⟩
  rw [hPair] at hDigits hValue ⊢
  have hPairValue : digit_value high * 16 + digit_value low = n := by
    simpa [numeral] using hValue
  rw [← hPairValue]
  exact sscanf_2x_xdigits (hDigits high (by simp)) (hDigits low (by simp)) rest

end Text
