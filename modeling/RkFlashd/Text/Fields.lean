import RkFlashd.Text.Numeral

/-! Cutting a text at its first or its last separator: what a search that succeeds, or
one that does not, says about the text. -/
namespace Text

variable {s : Bytes} {c : UInt8} {pos i : Nat}

/-- The first place of a byte is where none is in front of it. -/
theorem findIdx?_eq_some_iff :
    s.findIdx? (· == c) = some i ↔ ∃ a b, s = a ++ c :: b ∧ a.length = i ∧ c ∉ a := by
  constructor
  · intro h
    induction s generalizing i with
    | nil => cases h
    | cons x rest ih =>
        rw [List.findIdx?_cons] at h
        by_cases hx : x = c
        · subst hx
          obtain rfl : 0 = i := by simpa using h
          exact ⟨[], rest, rfl, rfl, by simp⟩
        · simp only [beq_iff_eq, hx, if_false] at h
          obtain ⟨j, hFound, rfl⟩ := Option.map_eq_some_iff.mp h
          obtain ⟨a, b, rfl, rfl, hNot⟩ := ih hFound
          exact ⟨x :: a, b, rfl, rfl, by simp [hNot, Ne.symm hx]⟩
  · rintro ⟨a, b, rfl, rfl, hNot⟩
    exact findIdx?_append_cons hNot

/-- The first separator ends the first field. -/
theorem find_eq_some_iff :
    find s c 0 = some i ↔ ∃ a b, s = a ++ c :: b ∧ a.length = i ∧ c ∉ a := by
  rw [find, List.drop_zero]
  simp only [Nat.add_zero, Option.map_id', findIdx?_eq_some_iff]

/-- The two sides of the first separator. -/
theorem find_cut (h : find s c 0 = some i) : s = substr s 0 i ++ c :: substr_from s (i + 1) := by
  obtain ⟨a, b, rfl, rfl, -⟩ := find_eq_some_iff.mp h
  simp [substr, substr_from]

theorem find_eq_none_iff : find s c 0 = none ↔ c ∉ s := by
  constructor
  · intro h hMem
    obtain ⟨a, b, rfl, hNot⟩ := List.eq_append_cons_of_mem hMem
    rw [find_eq_some_iff.mpr ⟨a, b, rfl, rfl, hNot⟩] at h
    cases h
  · exact find_none

/-- A text is cut at its first separator in one way only. -/
theorem cut_unique {a b a' b' : Bytes} (h : a ++ c :: b = a' ++ c :: b') (ha : c ∉ a)
    (ha' : c ∉ a') : a = a' ∧ b = b' := by
  have hLength : some a.length = some a'.length := by
    rw [← find_eq_some_iff.mpr ⟨a, b, rfl, rfl, ha⟩, h]
    exact find_eq_some_iff.mpr ⟨a', b', rfl, rfl, ha'⟩
  obtain ⟨hField, hRest⟩ := List.append_inj h (Option.some.inj hLength)
  exact ⟨hField, (List.cons.inj hRest).2⟩

theorem cut_last_unique {a b a' b' : Bytes} (h : a ++ c :: b = a' ++ c :: b') (hb : c ∉ b)
    (hb' : c ∉ b') : a = a' ∧ b = b' := by
  have hReverse : b.reverse ++ c :: a.reverse = b'.reverse ++ c :: a'.reverse := by
    simpa using congrArg List.reverse h
  obtain ⟨hLast, hFirst⟩ := cut_unique hReverse (by simpa using hb) (by simpa using hb')
  exact ⟨List.reverse_injective hFirst, List.reverse_injective hLast⟩

/-- A separator that stands before the end of a prefix cuts the prefix. -/
theorem cut_before {before rest a b : Bytes} (h : before ++ rest = a ++ c :: b)
    (hBefore : a.length < before.length) : ∃ field, before = a ++ c :: field := by
  rcases List.append_eq_append_iff.mp h with ⟨more, rfl, -⟩ | ⟨field, rfl, hRest⟩
  · simp at hBefore
  · cases field with
    | nil => simp at hBefore
    | cons y ys =>
        obtain ⟨rfl, -⟩ := List.cons.inj hRest
        exact ⟨ys, rfl⟩

/-- A search that starts behind a separator is a search in what follows it. -/
theorem find_behind (before rest : Bytes) (c : UInt8) :
    find (before ++ c :: rest) c (before.length + 1) =
      (find rest c 0).map (· + (before.length + 1)) := by
  have hDrop : (before ++ c :: rest).drop (before.length + 1) = rest := by
    rw [← List.drop_drop, List.drop_left, List.drop_succ_cons, List.drop_zero]
  simp [find, hDrop]

/-- Scanning back from a position, the separator found has no other between it and there. -/
theorem rfind_eq_some_iff :
    rfind s c pos = some i ↔
      ∃ a b, s = a ++ c :: b ∧ a.length = i ∧ i ≤ pos ∧ c ∉ b.take (pos - i) := by
  constructor
  · intro h
    obtain ⟨k, hFound, hIndex⟩ := Option.map_eq_some_iff.mp h
    obtain ⟨after, before, hReverse, hLength, hNot⟩ := findIdx?_eq_some_iff.mp hFound
    have hHead : s.take (pos + 1) = before.reverse ++ c :: after.reverse := by
      rw [← List.reverse_reverse (s.take (pos + 1)), hReverse]
      simp
    have hCount : before.length + 1 + after.length = min (pos + 1) s.length := by
      rw [← List.length_take, hHead]
      simp
      omega
    obtain rfl : before.length = i := by
      rw [← hIndex, hHead, ← hLength]
      simp
    have hSplit : s = before.reverse ++ c :: (after.reverse ++ s.drop (pos + 1)) := by
      calc s = s.take (pos + 1) ++ s.drop (pos + 1) := (List.take_append_drop _ _).symm
        _ = _ := by rw [hHead]; simp
    refine ⟨before.reverse, after.reverse ++ s.drop (pos + 1), hSplit, by simp, by omega, ?_⟩
    by_cases hLong : pos + 1 ≤ s.length
    · rw [List.take_left' (by simp; omega)]
      simpa using hNot
    · rw [List.drop_eq_nil_of_le (by omega), List.append_nil,
        List.take_of_length_le (by simp; omega)]
      simpa using hNot
  · rintro ⟨a, b, rfl, rfl, hPos, hNot⟩
    have hHead : (a ++ c :: b).take (pos + 1) = a ++ c :: b.take (pos - a.length) := by
      rw [List.take_append, List.take_of_length_le (by omega),
        show pos + 1 - a.length = pos - a.length + 1 by omega, List.take_succ_cons]
    have hReverse : (a ++ c :: b.take (pos - a.length)).reverse =
        (b.take (pos - a.length)).reverse ++ c :: a.reverse := by
      simp
    have hNot' : c ∉ (b.take (pos - a.length)).reverse := by simpa using hNot
    simp only [rfind, hHead, hReverse, findIdx?_append_cons hNot']
    simp

theorem rfind_eq_none_iff : rfind s c pos = none ↔ c ∉ s.take (pos + 1) := by
  simp only [rfind, Option.map_eq_none_iff, List.findIdx?_eq_none_iff, List.mem_reverse,
    beq_eq_false_iff_ne]
  constructor
  · exact fun h hMem => h c hMem rfl
  · rintro h x hx rfl
    exact h hx

end Text
