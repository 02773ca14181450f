import RkFlashd.Text.Bytes

/-! `fgets`: a stream cut at its newlines, and wherever a buffer is full. -/
namespace Text

/-- At most `room` bytes, up to a newline, and what is left of the stream. -/
def take_line : Nat → Bytes → Bytes × Bytes
  | 0, stream => ([], stream)
  | _ + 1, [] => ([], [])
  | room + 1, c :: rest =>
      if c = 10 then ([c], rest)
      else ((c :: (take_line room rest).1), (take_line room rest).2)

/-- One call, with a buffer of `size` bytes. At the end of the stream there is no line. -/
def fgets (size : Nat) (stream : Bytes) : Option (Bytes × Bytes) :=
  if stream = [] then none else some (take_line (size - 1) stream)

/-- `while (fgets(buf, size, stream))`, for as many calls as the fuel allows. -/
def fgets_loop (size : Nat) : Nat → Bytes → List Bytes
  | 0, _ => []
  | fuel + 1, stream =>
      match fgets size stream with
      | none => []
      | some (line, rest) => line :: fgets_loop size fuel rest

/-- The lines that the loop gets. -/
def fgets_lines (size : Nat) (stream : Bytes) : List Bytes := fgets_loop size stream.length stream

variable {size room fuel : Nat} {stream line rest : Bytes}

/-- Nothing is lost between a line and the rest. -/
theorem take_line_append (room : Nat) (stream : Bytes) :
    (take_line room stream).1 ++ (take_line room stream).2 = stream := by
  fun_induction take_line room stream with
  | case1 => rfl
  | case2 => rfl
  | case3 => rfl
  | case4 room c rest hLine ih => rw [List.cons_append, ih]

theorem take_line_length_le (room : Nat) (stream : Bytes) :
    (take_line room stream).1.length ≤ room := by
  fun_induction take_line room stream with
  | case1 => simp
  | case2 => simp
  | case3 => simp
  | case4 room c rest hLine ih =>
      rw [List.length_cons]
      omega

theorem take_line_ne_nil (hRoom : room ≠ 0) (hStream : stream ≠ []) :
    (take_line room stream).1 ≠ [] := by
  cases room with
  | zero => exact absurd rfl hRoom
  | succ room =>
      cases stream with
      | nil => exact absurd rfl hStream
      | cons c rest =>
          unfold take_line
          split <;> simp

/-- With room for a byte, the loop gets to the end of the stream. -/
theorem flatten_fgets_loop (hSize : 2 ≤ size) (hFuel : stream.length ≤ fuel) :
    (fgets_loop size fuel stream).flatten = stream := by
  induction fuel generalizing stream with
  | zero =>
      obtain rfl := List.length_eq_zero_iff.mp (Nat.le_zero.mp hFuel)
      rfl
  | succ fuel ih =>
      by_cases hEnd : stream = []
      · subst hEnd
        rfl
      · have hWhole := take_line_append (size - 1) stream
        have hLine : (take_line (size - 1) stream).1 ≠ [] := take_line_ne_nil (by omega) hEnd
        have hRest : (take_line (size - 1) stream).2.length ≤ fuel := by
          have hLength := congrArg List.length hWhole
          have hSome := List.length_pos_of_ne_nil hLine
          rw [List.length_append] at hLength
          omega
        simp only [fgets_loop, fgets, if_neg hEnd, List.flatten_cons, ih hRest]
        exact hWhole

theorem flatten_fgets_lines (hSize : 2 ≤ size) (stream : Bytes) :
    (fgets_lines size stream).flatten = stream :=
  flatten_fgets_loop hSize (Nat.le_refl _)

/-- Every line fits into the buffer, with the NUL behind it. -/
theorem fgets_loop_fits (hSize : 2 ≤ size) {line : Bytes} (h : line ∈ fgets_loop size fuel stream) :
    0 < line.length ∧ line.length < size := by
  induction fuel generalizing stream with
  | zero => cases h
  | succ fuel ih =>
      by_cases hEnd : stream = []
      · simp [fgets_loop, fgets, hEnd] at h
      · simp only [fgets_loop, fgets, if_neg hEnd, List.mem_cons] at h
        rcases h with rfl | h
        · have hLength := take_line_length_le (size - 1) stream
          have hSome : (take_line (size - 1) stream).1 ≠ [] := take_line_ne_nil (by omega) hEnd
          exact ⟨List.length_pos_of_ne_nil hSome, by omega⟩
        · exact ih h

theorem flatMap_c_str_no_nul (lines : List Bytes) : (0 : UInt8) ∉ lines.flatMap c_str := by
  intro hMem
  obtain ⟨line, -, hLine⟩ := List.mem_flatMap.mp hMem
  exact absurd (List.mem_takeWhile_imp hLine) (by simp)

/-- **A stream read line by line into C strings.** It comes out whole if and only if it has no
NUL, however it is cut. -/
theorem flatMap_c_str_fgets_iff (hSize : 2 ≤ size) (stream : Bytes) :
    (fgets_lines size stream).flatMap c_str = stream ↔ (0 : UInt8) ∉ stream := by
  constructor
  · intro h
    rw [← h]
    exact flatMap_c_str_no_nul _
  · intro h
    have hWhole := flatten_fgets_lines hSize stream
    have hEach : ∀ line ∈ fgets_lines size stream, c_str line = line := by
      intro line hLine
      refine c_str_eq_self fun hMem => h ?_
      rw [← hWhole]
      exact List.mem_flatten.mpr ⟨line, hLine, hMem⟩
    rw [List.flatMap_def, List.map_congr_left hEach, List.map_id', hWhole]

end Text
