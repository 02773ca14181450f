import RkFlashd.Text.Fields

/-! The lines of a byte stream. A newline ends a line, and one carriage return before it
does not belong to the line; what follows the last newline is not a line yet. -/
namespace Text

/-- The end of a line on the wire. -/
def crlf : Bytes := [13, 10]

/-- A line without the carriage return at its end. -/
def chop_cr (s : Bytes) : Bytes := if s.getLast? = some 13 then s.dropLast else s

/-- The complete lines of a stream, when `line` stands before it already. -/
def split_lines (line : Bytes) : Bytes → List Bytes
  | [] => []
  | c :: rest =>
      if c = 10 then chop_cr line :: split_lines [] rest else split_lines (line ++ [c]) rest

def lines_of (s : Bytes) : List Bytes := split_lines [] s

/-- What is sent for a list of lines. -/
def wire_of (lines : List Bytes) : Bytes := (lines.map (· ++ crlf)).flatten

/-- A text without a newline. -/
def OneLine (s : Bytes) : Prop := (10 : UInt8) ∉ s

instance (s : Bytes) : Decidable (OneLine s) := inferInstanceAs (Decidable ((10 : UInt8) ∉ s))

/-- A stream at the start of a line: nothing has come yet, or a newline just now. -/
def LineStart (s : Bytes) : Prop := s = [] ∨ ∃ earlier, s = earlier ++ [10]

/-- A stream that has just brought a whole line, from the newline before it or from the
start of the stream. -/
def Brings (s line : Bytes) : Prop :=
  ∃ earlier raw, s = earlier ++ raw ++ [10] ∧ LineStart earlier ∧ (10 : UInt8) ∉ raw ∧
    line = chop_cr raw

variable {s line raw : Bytes}

/-- A text is one line if both of its parts are. -/
@[simp] theorem one_line_append {a b : Bytes} : OneLine (a ++ b) ↔ OneLine a ∧ OneLine b := by
  simp [OneLine]

theorem one_line_str {chars : List Char} (h : OneLine (chars.flatMap String.utf8EncodeChar)) :
    OneLine (str (String.ofList chars)) :=
  fun hMem => forall_mem_str (p := (· ≠ 10)) (fun _ hc hEq => h (hEq ▸ hc)) 10 hMem rfl

/-- A part of a text without newlines. -/
theorem OneLine.of_subset (h : OneLine s) (hPart : line ⊆ s) : OneLine line :=
  fun hMem => h (hPart hMem)

theorem one_line_xdigits (h : ∀ c ∈ s, isxdigit c = true) : OneLine s := by
  intro hMem
  have hDigit := h 10 hMem
  revert hDigit
  decide

@[simp] theorem one_line_to_string (n : Nat) : OneLine (to_string n) :=
  one_line_xdigits fun c hc => isxdigit_of_isdigit (to_string_isdigit n c hc)

@[simp] theorem one_line_int_to_string (n : Int) : OneLine (int_to_string n) := by
  cases n with
  | ofNat n => exact one_line_to_string n
  | negSucc n => exact one_line_append.mpr ⟨by decide, one_line_to_string (n + 1)⟩

@[simp] theorem one_line_print_hex (upper : Bool) (width n : Nat) :
    OneLine (print_hex upper width n) :=
  one_line_xdigits (print_hex_isxdigit upper width n)

theorem one_line_map_toupper (h : OneLine s) : OneLine (s.map toupper) := by
  have hByte : ∀ c, toupper c = 10 → c = 10 := by
    grind [toupper]
  intro hMem
  obtain ⟨c, hc, hEq⟩ := List.mem_map.mp hMem
  rw [hByte c hEq] at hc
  exact h hc

@[simp] theorem chop_cr_nil : chop_cr [] = [] := rfl

@[simp] theorem chop_cr_cr (s : Bytes) : chop_cr (s ++ [13]) = s := by
  simp [chop_cr]

theorem OneLine.chop_cr (h : OneLine s) : OneLine (chop_cr s) := by
  unfold Text.chop_cr
  split
  · exact h.of_subset (List.dropLast_subset s)
  · exact h

/-- The line in front of the first newline. -/
theorem split_lines_cut (h : (10 : UInt8) ∉ raw) (line s : Bytes) :
    split_lines line (raw ++ 10 :: s) = chop_cr (line ++ raw) :: lines_of s := by
  induction raw generalizing line with
  | nil => simp [split_lines, lines_of]
  | cons c rest ih =>
      have hc : c ≠ 10 := fun hEq => h (by simp [hEq])
      have hRest : (10 : UInt8) ∉ rest := fun hMem => h (List.mem_cons_of_mem _ hMem)
      simp [split_lines, hc, ih hRest]

theorem lines_of_cut (h : (10 : UInt8) ∉ raw) (s : Bytes) :
    lines_of (raw ++ 10 :: s) = chop_cr raw :: lines_of s :=
  split_lines_cut h [] s

/-- What ends with a newline and what follows it are split apart. -/
theorem split_lines_append (line a b : Bytes) :
    split_lines line (a ++ 10 :: b) = split_lines line (a ++ [10]) ++ lines_of b := by
  induction a generalizing line with
  | nil => simp [split_lines, lines_of]
  | cons c rest ih =>
      by_cases hc : c = 10
      · simp [split_lines, hc, ih]
      · simp [split_lines, hc, ih]

/-- A newline ends what comes before it, and the next line begins behind it. -/
theorem lines_of_append (a b : Bytes) :
    lines_of (a ++ 10 :: b) = lines_of (a ++ [10]) ++ lines_of b :=
  split_lines_append [] a b

/-- One more line of a stream that is at the start of a line. -/
theorem lines_of_line (h : LineStart s) (hRaw : (10 : UInt8) ∉ raw) :
    lines_of (s ++ (raw ++ [10])) = lines_of s ++ [chop_cr raw] := by
  have hLast : lines_of (raw ++ [10]) = [chop_cr raw] := lines_of_cut hRaw []
  rcases h with rfl | ⟨before, rfl⟩
  · simpa [lines_of, split_lines] using hLast
  · rw [List.append_assoc, List.singleton_append, lines_of_append, hLast]

/-- A line that a stream has brought is one of its lines, whatever comes next. -/
theorem Brings.mem_lines_of (h : Brings s line) (rest : Bytes) : line ∈ lines_of (s ++ rest) := by
  obtain ⟨earlier, raw, rfl, hStart, hRaw, rfl⟩ := h
  rw [List.append_assoc, List.append_assoc, List.singleton_append]
  rcases hStart with rfl | ⟨before, rfl⟩
  · rw [List.nil_append, lines_of_cut hRaw]
    exact List.mem_cons_self
  · rw [List.append_assoc, List.singleton_append, lines_of_append, lines_of_cut hRaw]
    simp

theorem split_lines_length (line s : Bytes) : (split_lines line s).length = s.count 10 := by
  induction s generalizing line with
  | nil => rfl
  | cons c rest ih =>
      by_cases hc : c = 10
      · simp [split_lines, hc, ih]
      · simp [split_lines, hc, ih]

/-- There are as many lines as newlines. -/
theorem lines_of_length (s : Bytes) : (lines_of s).length = s.count 10 := split_lines_length [] s

@[simp] theorem wire_of_nil : wire_of [] = [] := rfl

theorem wire_of_cons (line : Bytes) (lines : List Bytes) :
    wire_of (line :: lines) = line ++ 13 :: 10 :: wire_of lines := by
  simp [wire_of, crlf]

theorem wire_of_append (first second : List Bytes) :
    wire_of (first ++ second) = wire_of first ++ wire_of second := by
  simp [wire_of]

theorem wire_of_count (lines : List Bytes) :
    (wire_of lines).count 10 = (lines.map (List.count 10)).sum + lines.length := by
  induction lines with
  | nil => rfl
  | cons line rest ih =>
      rw [wire_of_cons]
      simp only [List.count_append, List.count_cons, List.map_cons, List.sum_cons, ih,
        List.length_cons]
      simp
      omega

/-- The lines that were sent are the lines that arrive, unless one of them holds a newline
of its own. -/
theorem lines_of_wire_of_iff (lines : List Bytes) :
    lines_of (wire_of lines) = lines ↔ ∀ line ∈ lines, OneLine line := by
  constructor
  · intro h line hLine hMem
    have hLength : (lines_of (wire_of lines)).length = lines.length := by rw [h]
    rw [lines_of_length, wire_of_count] at hLength
    have hZero : (lines.map (List.count 10)).sum = 0 := by omega
    have hCount : line.count 10 = 0 :=
      List.sum_eq_zero_iff.mp hZero _ (List.mem_map_of_mem hLine)
    exact List.count_eq_zero.mp hCount hMem
  · intro h
    induction lines with
    | nil => rfl
    | cons line rest ih =>
        have hLine : OneLine (line ++ [13]) :=
          one_line_append.mpr ⟨h line List.mem_cons_self, by decide⟩
        have hCut : line ++ 13 :: 10 :: wire_of rest = (line ++ [13]) ++ 10 :: wire_of rest := by
          simp
        rw [wire_of_cons, hCut, lines_of_cut hLine, chop_cr_cr,
          ih fun other hOther => h other (List.mem_cons_of_mem _ hOther)]

end Text
