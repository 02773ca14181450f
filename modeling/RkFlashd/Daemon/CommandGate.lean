import RkFlashd.Daemon.Session

/-! The two readings of a command line against each other: that of `handleCommand`,
which decides whether the session lock is asked, and that of `process`, which decides
what is executed. -/
namespace RkFlashd

open Text Transition

/-- A byte that `process` takes off the end of a line. -/
def Blank (c : UInt8) : Prop := c = 13 ∨ c = 10 ∨ c = 32

instance : DecidablePred Blank := fun _ => instDecidableOr

/-- The line is executed as one of the two resets. -/
def ExecutesReset (cmd : Bytes) : Prop := dispatch cmd = .ok .RESET ∨ dispatch cmd = .ok .FORCERESET

/-- Whoever owns the lock, the line reaches `process` without asking for it. -/
def SkipsGate (cmd : Bytes) : Prop :=
  ∀ s : SessionState, s.phase .http = .idle →
    session_machine s (.arrive .http cmd) = some (s.goto .http (.admitted cmd), .received)

/-- The two parsers agree on a line, so nothing but a reset passes the gate unasked,
and every reset does. -/
def ParsersAgree (cmd : Bytes) : Prop :=
  (bypass_lock cmd = true ↔ ExecutesReset cmd) ∧ (SkipsGate cmd → ExecutesReset cmd) ∧
    (ExecutesReset cmd → SkipsGate cmd)

/-- `AT+`, one of the two actions in any case, and what comes after it. -/
def Spells (cmd action tail : Bytes) : Prop :=
  cmd = str "AT+" ++ (action ++ tail) ∧
    (action.map toupper = str "RESET" ∨ action.map toupper = str "FORCERESET")

/-- Nothing, or an argument. -/
def Argument (tail : Bytes) : Prop := tail = [] ∨ ∃ arg, tail = 61 :: arg

/-- A reset that the gate does not recognise: blanks come straight after the action, or
the action is not all in upper case. -/
def Misread (cmd : Bytes) : Prop :=
  ∃ action tail, Spells cmd action tail ∧
    (tail ≠ [] ∧ (∀ c ∈ tail, Blank c) ∨ Argument tail ∧ action.map toupper ≠ action)

section Spelling

variable {cmd action tail : Bytes} {c : UInt8}

theorem Spells.mem (h : Spells cmd action tail) (hMem : c ∈ action) : ¬ Blank c ∧ c ≠ 61 := by
  have hUpper : toupper c ∈ str "RESET" ∨ toupper c ∈ str "FORCERESET" := by
    have hMap := List.mem_map_of_mem (f := toupper) hMem
    rcases h.2 with hAction | hAction
    · exact Or.inl (hAction ▸ hMap)
    · exact Or.inr (hAction ▸ hMap)
  constructor
  · rintro (rfl | rfl | rfl)
    · revert hUpper
      decide
    · revert hUpper
      decide
    · revert hUpper
      decide
  · rintro rfl
    revert hUpper
    decide

theorem Spells.ne_nil (h : Spells cmd action tail) : action ≠ [] := by
  rintro rfl
  rcases h.2 with hNil | hNil <;> cases hNil

theorem Spells.plain (h : Spells cmd action tail) : (61 : UInt8) ∉ action :=
  fun hMem => (h.mem hMem).2 rfl

/-- Of the action nothing is trimmed. -/
theorem Spells.trim_eq (h : Spells cmd action tail) :
    trim cmd = str "AT+" ++ (action ++ trim tail) := by
  have hEnd : trim (str "AT+" ++ action) = str "AT+" ++ action := by
    obtain ⟨init, last, rfl⟩ := (List.eq_nil_or_concat action).resolve_left h.ne_nil
    rw [List.concat_eq_append, ← List.append_assoc]
    exact trim_concat _ (h.mem (by simp)).1
  rw [h.1, ← List.append_assoc, trim_append tail hEnd, List.append_assoc]

theorem trim_blanks (h : ∀ c ∈ tail, Blank c) : trim tail = [] := by
  rw [trim, List.rdropWhile_eq_nil_iff]
  intro c hc
  simpa [Blank] using h c hc

theorem trim_decompose (cmd : Bytes) :
    ∃ blanks, cmd = trim cmd ++ blanks ∧ ∀ c ∈ blanks, Blank c := by
  refine ⟨_, (List.rdropWhile_append_rtakeWhile).symm, ?_⟩
  intro c hc
  simpa [Blank] using List.mem_rtakeWhile_imp hc

/-- The action that `parse_at` finds goes up to the end or to the first `=`. -/
theorem parse_at_sound {upper arg : Bytes} (hStart : starts_with cmd (str "AT") = true)
    (h : parse_at cmd = some (upper, arg)) :
    ∃ action tail, cmd = str "AT+" ++ (action ++ tail) ∧ action.map toupper = upper ∧
      Argument tail := by
  obtain ⟨rest, rfl⟩ := List.isPrefixOf_iff_prefix.mp hStart
  have hDrop : substr_from (str "AT" ++ rest) 2 = rest := rfl
  unfold parse_at at h
  rw [hDrop] at h
  cases rest with
  | nil => cases h
  | cons plus text =>
      dsimp only at h
      split at h
      · cases h
      · obtain rfl : plus = 43 := Decidable.not_not.mp ‹_›
        cases hFind : find text 61 0 with
        | none =>
            simp only [hFind] at h
            split at h
            · cases h
            · cases h
              refine ⟨text, [], ?_, rfl, Or.inl rfl⟩
              rw [List.append_nil]
              rfl
        | some eq =>
            simp only [hFind] at h
            split at h
            · cases h
            · cases h
              obtain ⟨hLt, hAt, -⟩ := List.findIdx?_eq_some_iff_getElem.mp
                (by simpa [find] using hFind : text.findIdx? (· == 61) = some eq)
              have hEqSign : text[eq] = 61 := by simpa using hAt
              have hTail : text.drop eq = 61 :: text.drop (eq + 1) := by
                rw [← hEqSign]
                exact List.drop_eq_getElem_cons hLt
              refine ⟨text.take eq, text.drop eq, ?_, rfl, Or.inr ⟨_, hTail⟩⟩
              rw [List.take_append_drop]
              rfl

theorem parse_at_complete (h : Spells cmd action tail) (hArgument : Argument tail) :
    ∃ arg, parse_at cmd = some (action.map toupper, arg) := by
  rcases hArgument with rfl | ⟨arg, rfl⟩
  · have hFind : find action 61 0 = none := find_none h.plain
    have hDrop : substr_from (str "AT+" ++ (action ++ [])) 2 = 43 :: action := by
      rw [List.append_nil]
      rfl
    refine ⟨[], ?_⟩
    rw [h.1, parse_at, hDrop]
    simp [hFind, h.ne_nil]
  · exact ⟨arg, h.1 ▸ parse_at_append arg h.ne_nil h.plain⟩

theorem ite_some_of_ne {c : Prop} [Decidable c] {a b : AtCommand} {rest : Option AtCommand}
    (hNe : a ≠ b) (h : (if c then some a else rest) = some b) : rest = some b := by
  by_cases hc : c
  · rw [if_pos hc] at h
    exact absurd (Option.some.inj h) hNe
  · rwa [if_neg hc] at h

theorem action_command_resets (upper arg : Bytes) :
    (action_command upper arg = some .RESET ↔ upper = str "RESET") ∧
      (action_command upper arg = some .FORCERESET ↔ upper = str "FORCERESET") := by
  constructor
  · constructor
    · intro h
      by_contra hOther
      unfold action_command at h
      iterate 2 replace h := ite_some_of_ne (by simp) h
      rw [if_neg hOther] at h
      iterate 11 replace h := ite_some_of_ne (by simp) h
      cases h
    · rintro rfl
      rfl
  · constructor
    · intro h
      by_contra hOther
      unfold action_command at h
      iterate 3 replace h := ite_some_of_ne (by simp) h
      rw [if_neg hOther] at h
      iterate 10 replace h := ite_some_of_ne (by simp) h
      cases h
    · rintro rfl
      rfl

/-- A line that is executed names its action, with an argument or with blanks behind it. -/
theorem dispatch_sound {command : AtCommand} (h : dispatch cmd = .ok command) :
    ∃ action tail arg, cmd = str "AT+" ++ (action ++ tail) ∧
      action_command (action.map toupper) arg = some command ∧
      (Argument tail ∨ ∀ c ∈ tail, Blank c) := by
  obtain ⟨blanks, hCmd, hBlanks⟩ := trim_decompose cmd
  unfold dispatch at h
  dsimp only at h
  split at h
  · cases h
  · have hStart : starts_with (trim cmd) (str "AT") = true := Decidable.not_not.mp ‹_›
    split at h
    · cases h
    · rename_i upper arg hParse
      split at h
      · cases h
      · rename_i found hFound
        cases h
        obtain ⟨action, tail, hTrim, rfl, hTail⟩ := parse_at_sound hStart hParse
        refine ⟨action, tail ++ blanks, arg, ?_, hFound, ?_⟩
        · rw [hCmd, hTrim]
          simp
        · rcases hTail with rfl | ⟨rest, rfl⟩
          · exact Or.inr (by simpa using hBlanks)
          · exact Or.inl (Or.inr ⟨rest ++ blanks, by simp⟩)

/-- A line executed as a reset spells it. -/
theorem resets_sound (h : ExecutesReset cmd) :
    ∃ action tail, Spells cmd action tail ∧ (Argument tail ∨ ∀ c ∈ tail, Blank c) := by
  rcases h with h | h
  · obtain ⟨action, tail, arg, hCmd, hAction, hTail⟩ := dispatch_sound h
    exact ⟨action, tail, ⟨hCmd, Or.inl ((action_command_resets _ arg).1.mp hAction)⟩, hTail⟩
  · obtain ⟨action, tail, arg, hCmd, hAction, hTail⟩ := dispatch_sound h
    exact ⟨action, tail, ⟨hCmd, Or.inr ((action_command_resets _ arg).2.mp hAction)⟩, hTail⟩

theorem resets_complete (h : Spells cmd action tail)
    (hTail : Argument tail ∨ ∀ c ∈ tail, Blank c) : ExecutesReset cmd := by
  have hArgument : Argument (trim tail) := by
    rcases hTail with (rfl | ⟨arg, rfl⟩) | hBlanks
    · exact Or.inl rfl
    · exact Or.inr ⟨trim arg, trim_append arg (rfl : trim [61] = [61])⟩
    · exact Or.inl (trim_blanks hBlanks)
  obtain ⟨arg, hParse⟩ := parse_at_complete ⟨h.trim_eq, h.2⟩ hArgument
  have hStart : starts_with (trim cmd) (str "AT") = true := by
    rw [h.trim_eq]
    rfl
  rcases h.2 with hReset | hForce
  · left
    have hCommand := (action_command_resets (action.map toupper) arg).1.mpr hReset
    simp [dispatch, hStart, hParse, hCommand]
  · right
    have hCommand := (action_command_resets (action.map toupper) arg).2.mpr hForce
    simp [dispatch, hStart, hParse, hCommand]

/-- The gate wants the exact spelling. -/
theorem bypass_lock_iff : bypass_lock cmd = true ↔
    ∃ action tail, Spells cmd action tail ∧ Argument tail ∧ action.map toupper = action := by
  constructor
  · intro h
    obtain ⟨action, tail, hAction, hCmd, hTail⟩ := bypass_lock_spelling h
    refine ⟨action, tail, ⟨hCmd, ?_⟩, hTail, ?_⟩
    · rcases hAction with rfl | rfl
      · exact Or.inr rfl
      · exact Or.inl rfl
    · rcases hAction with rfl | rfl <;> rfl
  · rintro ⟨action, tail, hSpells, hTail, hUpper⟩
    have hAction : action = str "FORCERESET" ∨ action = str "RESET" := by
      rw [← hUpper]
      exact hSpells.2.symm
    rcases hTail with rfl | ⟨arg, rfl⟩
    · rw [hSpells.1]
      rcases hAction with rfl | rfl <;> decide
    · have hLong : 4 < cmd.length := by
        have hTwo : 4 < (str "AT+" ++ action).length := by
          rcases hAction with rfl | rfl <;> decide
        rw [hSpells.1, ← List.append_assoc, List.length_append]
        omega
      have hStart : starts_with cmd (str "AT+") = true := by
        rw [hSpells.1, starts_with_append]
      have hFind : find cmd 61 3 = some (action.length + 3) := by
        rw [hSpells.1]
        exact find_field (str "AT+") arg hSpells.plain
      have hRead : substr cmd 3 (action.length + 3 - 3) = action := by
        have hDrop : cmd.drop 3 = action ++ 61 :: arg := by
          rw [hSpells.1]
          rfl
        rw [substr, hDrop, Nat.add_sub_cancel, List.take_left]
      simp only [bypass_lock, hLong, hStart, hFind, hRead]
      simp [hAction]

/-- Up to the first `=`, two readings of one line are the same. -/
theorem spelled_unique {action' tail' : Bytes} (h : cmd = str "AT+" ++ (action ++ tail))
    (h' : cmd = str "AT+" ++ (action' ++ tail')) (hPlain : (61 : UInt8) ∉ action)
    (hPlain' : (61 : UInt8) ∉ action') (hTail : Argument tail) (hTail' : Argument tail') :
    action = action' := by
  have hField : ∀ {a t : Bytes}, (61 : UInt8) ∉ a → Argument t →
      (a ++ t).takeWhile (· ≠ 61) = a := by
    intro a t hPlain hTail
    have hAll : ∀ c ∈ a, decide (c ≠ 61) = true := by
      intro c hc
      simpa using ne_of_mem_of_not_mem hc hPlain
    rw [List.takeWhile_append_of_pos hAll]
    rcases hTail with rfl | ⟨arg, rfl⟩ <;> simp
  have hSame : action ++ tail = action' ++ tail' := List.append_cancel_left (h.symm.trans h')
  rw [← hField hPlain hTail, hSame, hField hPlain' hTail']

end Spelling

theorem skips_gate_iff {cmd : Bytes} : SkipsGate cmd ↔ bypass_lock cmd = true := by
  constructor
  · intro h
    have hStart := h .start rfl
    have hPhase : receive .http cmd = .admitted cmd := by
      simp only [session_machine, SessionState.start, if_true, Option.some.injEq,
        Prod.mk.injEq] at hStart
      have hGoto := congrArg (fun s : SessionState => s.phase .http) hStart.1
      simpa using hGoto
    by_contra hBypass
    simp [receive, gate, hBypass] at hPhase
  · intro h s hIdle
    simp [session_machine, hIdle, receive, h]

/-- **The two parsers agree on every line but the misread ones.** -/
theorem parsers_agree_iff (cmd : Bytes) : ParsersAgree cmd ↔ ¬ Misread cmd := by
  have hBypass : bypass_lock cmd = true → ExecutesReset cmd := bypass_lock_dispatch
  constructor
  · rintro ⟨hIff, -, -⟩ ⟨action, tail, hSpells, hTail⟩
    have hExecutes : ExecutesReset cmd := by
      apply resets_complete hSpells
      rcases hTail with ⟨-, hBlanks⟩ | ⟨hArgument, -⟩
      · exact Or.inr hBlanks
      · exact Or.inl hArgument
    obtain ⟨read, rest, hRead, hArgument, hUpper⟩ := bypass_lock_iff.mp (hIff.mpr hExecutes)
    rcases hTail with ⟨hNe, hBlanks⟩ | ⟨hTail, hLower⟩
    · have hPlain : (61 : UInt8) ∉ action ++ tail := by
        intro hMem
        rcases List.mem_append.mp hMem with hMem | hMem
        · exact hSpells.plain hMem
        · exact absurd (hBlanks 61 hMem) (by decide)
      obtain ⟨c, others, rfl⟩ := List.exists_cons_of_ne_nil hNe
      have hSame : action ++ c :: others = read :=
        spelled_unique (by rw [hSpells.1, List.append_nil]) hRead.1 hPlain hRead.plain
          (Or.inl rfl) hArgument
      exact (hRead.mem (c := c) (by simp [← hSame])).1 (hBlanks c (by simp))
    · obtain rfl : action = read :=
        spelled_unique hSpells.1 hRead.1 hSpells.plain hRead.plain hTail hArgument
      exact hLower hUpper
  · intro hRead
    have hExecutes : ExecutesReset cmd → bypass_lock cmd = true := by
      intro h
      obtain ⟨action, tail, hSpells, hTail⟩ := resets_sound h
      have hArgument : Argument tail := by
        rcases hTail with hArgument | hBlanks
        · exact hArgument
        · by_contra hOther
          exact hRead ⟨action, tail, hSpells, Or.inl ⟨fun hNil => hOther (Or.inl hNil), hBlanks⟩⟩
      refine bypass_lock_iff.mpr ⟨action, tail, hSpells, hArgument, ?_⟩
      by_contra hLower
      exact hRead ⟨action, tail, hSpells, Or.inr ⟨hArgument, hLower⟩⟩
    refine ⟨⟨hBypass, hExecutes⟩, fun h => hBypass (skips_gate_iff.mp h), fun h => ?_⟩
    exact skips_gate_iff.mpr (hExecutes h)

/-- Both lines are executed as resets, and neither gets past a serial session. -/
theorem misread_resets :
    ¬ ParsersAgree (str "AT+forcereset") ∧ ¬ ParsersAgree (str "AT+FORCERESET\r\n") := by
  constructor
  · rintro ⟨hIff, -⟩
    have hExecutes : ExecutesReset (str "AT+forcereset") := Or.inr (by decide)
    exact absurd (hIff.mpr hExecutes) (by decide)
  · rintro ⟨hIff, -⟩
    have hExecutes : ExecutesReset (str "AT+FORCERESET\r\n") := Or.inr (by decide)
    exact absurd (hIff.mpr hExecutes) (by decide)

end RkFlashd
