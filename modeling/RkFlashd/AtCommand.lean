import RkFlashd.Text.Numeral

/-! `at_command.cpp`: how the processor reads a command line, and the separate
reading by which the HTTP handler decides to skip the session lock. -/
namespace RkFlashd

open Text

/-- The branches of `process`, with the argument where the handler takes one. -/
inductive AtCommand where
  | STATUS
  | VERSION
  | RESET
  | FORCERESET
  | HELP
  | FLASH (arg : Bytes)
  | TRYFLASHDONE
  | EXEC (arg : Bytes)
  | REBOOT
  | VERIFY (arg : Bytes)
  | PREUPLOAD (arg : Bytes)
  | UPLOAD (arg : Bytes)
  | UPLOADDONE
  | UPLOADCANCEL
  deriving DecidableEq, Repr

/-- The trailing `\\r`, `\\n` and blanks that `process` removes. -/
def trim (raw_cmd : Bytes) : Bytes := raw_cmd.rdropWhile fun c => c = 13 ∨ c = 10 ∨ c = 32

/-- `parse_at`: `AT+<CMD>=<arg>`, with the action in upper case. -/
def parse_at (cmd : Bytes) : Option (Bytes × Bytes) :=
  match substr_from cmd 2 with
  | [] => none
  | plus :: rest =>
      if plus ≠ 43 then none
      else
        let (out_cmd, out_arg) :=
          match find rest 61 0 with
          | none => (rest, [])
          | some eq => (substr rest 0 eq, substr_from rest (eq + 1))
        if out_cmd = [] then none else some (out_cmd.map toupper, out_arg)

/-- The comparisons of `process`, in their order. -/
def action_command (action arg : Bytes) : Option AtCommand :=
  if action = str "STATUS" then some .STATUS
  else if action = str "VERSION" then some .VERSION
  else if action = str "RESET" then some .RESET
  else if action = str "FORCERESET" then some .FORCERESET
  else if action = str "HELP" then some .HELP
  else if action = str "FLASH" then some (.FLASH arg)
  else if action = str "TRYFLASHDONE" then some .TRYFLASHDONE
  else if action = str "EXEC" then some (.EXEC arg)
  else if action = str "REBOOT" then some .REBOOT
  else if action = str "VERIFY" then some (.VERIFY arg)
  else if action = str "PREUPLOAD" then some (.PREUPLOAD arg)
  else if action = str "UPLOAD" then some (.UPLOAD arg)
  else if action = str "UPLOADDONE" then some .UPLOADDONE
  else if action = str "UPLOADCANCEL" then some .UPLOADCANCEL
  else none

/-- `process` up to the call of a handler: the command, or the answer it rejects a
line with. -/
def dispatch (raw_cmd : Bytes) : Except Bytes AtCommand :=
  let cmd := trim raw_cmd
  if ¬ starts_with cmd (str "AT") then .error (str "ERROR: commands must start with AT")
  else
    match parse_at cmd with
    | none => .error (str "ERROR: invalid AT command format")
    | some (action, arg) =>
        match action_command action arg with
        | none => .error (str "ERROR: unknown command 'AT+" ++ action ++ str "'")
        | some command => .ok command

/-- `bypass_lock` of `handleCommand`: exact spellings of two actions. -/
def bypass_lock (cmd : Bytes) : Bool :=
  if 4 < cmd.length ∧ starts_with cmd (str "AT+") then
    let action :=
      match find cmd 61 3 with
      | none => substr_from cmd 3
      | some eq => substr cmd 3 (eq - 3)
    action = str "FORCERESET" ∨ action = str "RESET"
  else false

theorem trim_append {a : Bytes} (b : Bytes) (h : trim a = a) : trim (a ++ b) = a ++ trim b := by
  unfold trim List.rdropWhile at h ⊢
  rw [List.reverse_append, List.dropWhile_append]
  split
  · rename_i hNil
    rw [List.isEmpty_iff.mp hNil, h, List.reverse_nil, List.append_nil]
  · simp

theorem trim_concat (a : Bytes) {c : UInt8} (h : ¬ (c = 13 ∨ c = 10 ∨ c = 32)) :
    trim (a ++ [c]) = a ++ [c] := by
  unfold trim
  rw [List.rdropWhile_concat_neg]
  simpa using h

/-- A line that skips the lock spells one of the two actions, alone or with an argument. -/
theorem bypass_lock_spelling {cmd : Bytes} (h : bypass_lock cmd = true) :
    ∃ action rest, (action = str "FORCERESET" ∨ action = str "RESET") ∧
      cmd = str "AT+" ++ (action ++ rest) ∧ (rest = [] ∨ ∃ arg, rest = 61 :: arg) := by
  unfold bypass_lock at h
  split at h
  · rename_i hStart
    obtain ⟨tail, rfl⟩ := List.isPrefixOf_iff_prefix.mp hStart.2
    have hTail : (str "AT+" ++ tail).drop 3 = tail := by rfl
    have hFind : find (str "AT+" ++ tail) 61 3 = (tail.findIdx? (· == 61)).map (· + 3) := by
      rw [find, hTail]
    rw [hFind] at h
    cases hEq : tail.findIdx? (· == 61) with
    | none =>
        rw [hEq] at h
        refine ⟨tail, [], by simpa [substr_from, hTail] using h, by simp, Or.inl rfl⟩
    | some k =>
        rw [hEq] at h
        obtain ⟨hLt, hAt, -⟩ := List.findIdx?_eq_some_iff_getElem.mp hEq
        refine ⟨tail.take k, tail.drop k, by simpa [substr, hTail] using h, by simp, Or.inr ?_⟩
        have hEqSign : tail[k] = 61 := by simpa using hAt
        exact ⟨tail.drop (k + 1), by rw [← hEqSign]; exact List.drop_eq_getElem_cons hLt⟩
  · cases h

/-- A command with an argument is split at its first `=`. -/
theorem parse_at_append {action : Bytes} (arg : Bytes) (hAction : action ≠ [])
    (hPlain : (61 : UInt8) ∉ action) :
    parse_at (str "AT+" ++ (action ++ 61 :: arg)) = some (action.map toupper, arg) := by
  have hDrop : substr_from (str "AT+" ++ (action ++ 61 :: arg)) 2 =
      43 :: (action ++ 61 :: arg) := rfl
  have hFind : find (action ++ 61 :: arg) 61 0 = some action.length := by
    simpa using find_field [] arg hPlain
  unfold parse_at
  rw [hDrop]
  simp [hFind, substr, substr_from, hAction]

/-- A line with an `=` is executed as the action before it. Blanks that end the line
are no part of the argument. -/
theorem dispatch_append {action arg : Bytes} {command : AtCommand} (hAction : action ≠ [])
    (hPlain : (61 : UInt8) ∉ action)
    (hCommand : action_command (action.map toupper) (trim arg) = some command) :
    dispatch (str "AT+" ++ (action ++ 61 :: arg)) = .ok command := by
  have hTrim : trim (str "AT+" ++ (action ++ 61 :: arg)) =
      str "AT+" ++ (action ++ 61 :: trim arg) := by
    have hStart : trim (str "AT+" ++ action ++ [61]) = str "AT+" ++ action ++ [61] :=
      trim_concat _ (by decide)
    simpa using trim_append arg hStart
  have hStarts : starts_with (str "AT+" ++ (action ++ 61 :: trim arg)) (str "AT") = true := by
    rfl
  simp [dispatch, hTrim, hStarts, parse_at_append _ hAction hPlain, hCommand]

/-- A line that skips the lock is executed as the action it spells. -/
theorem bypass_lock_dispatch {cmd : Bytes} (h : bypass_lock cmd = true) :
    dispatch cmd = .ok .RESET ∨ dispatch cmd = .ok .FORCERESET := by
  obtain ⟨action, rest, hAction, rfl, hRest⟩ := bypass_lock_spelling h
  rcases hAction with rfl | rfl
  · right
    rcases hRest with rfl | ⟨arg, rfl⟩
    · decide
    · exact dispatch_append (by decide) (by decide) (by rfl)
  · left
    rcases hRest with rfl | ⟨arg, rfl⟩
    · decide
    · exact dispatch_append (by decide) (by decide) (by rfl)

end RkFlashd
