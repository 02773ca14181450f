import RkFlashd.Text.Utf8
import RkFlashd.Text.Fields
import RkFlashd.AtHandler.UploadIntegrity
import RkFlashd.Process
import RkFlashd.Daemon.CommandGate

/-! Which answers of the processor are valid UTF-8. An answer is a constant text with
numbers and with strings from outside: the command line, the configuration, the script. -/
namespace RkFlashd

open Text Transition

/-- The schedule of a flash command leads to its answer, or to the end of the process. -/
def completes (cfg : Config) : FlashSystem → List FlashAction → Bool
  | _, [] => false
  | s, action :: rest =>
      match flash_step cfg s action with
      | none => false
      | some (t, none) => completes cfg t rest
      | some (_, some _) => rest = []

/-- What the `op.running.load()` of `handle_flash` returns. -/
def load_running (cfg : Config) : FlashSystem → List FlashAction → Option Bool
  | _, [] => none
  | s, action :: rest =>
      if action = .resume then some s.op.running
      else
        match flash_step cfg s action with
        | none => none
        | some (t, _) => load_running cfg t rest

/-- The strings that the next access of `handle_flashdone` reads for its answer. -/
def FlashSystem.reads (s : FlashSystem) : List Bytes :=
  match s.command with
  | .poll_elapsed => if s.elapsed_sec < ASYNC_TIMEOUT_SEC then [s.op.cmd] else []
  | .poll_result => [s.op.cmd, s.op.output]
  | _ => []

/-- The strings that it reads in the course of a schedule. -/
def poll_reads (cfg : Config) : FlashSystem → List FlashAction → List Bytes
  | _, [] => []
  | s, action :: rest =>
      (if action = .resume then s.reads else []) ++
        match flash_step cfg s action with
        | none => []
        | some (t, _) => poll_reads cfg t rest

/-- The strings from outside in an answer of the flash commands. -/
def FlashAnswer.quotes : FlashAnswer → List Bytes
  | .unknown_mode mode => [mode]
  | .submitted cmd => [cmd]
  | .running cmd _ => [cmd]
  | .ok cmd output => [cmd, output]
  | .failed cmd _ output => [cmd, output]
  | _ => []

/-- An answer about a flash is valid UTF-8 if what it quotes is. -/
theorem FlashAnswer.text_valid_iff (answer : FlashAnswer) :
    ValidUtf8 answer.text ↔ ∀ text ∈ answer.quotes, ValidUtf8 text := by
  cases answer with
  | unknown_mode mode =>
      have hModes : (str ", ").intercalate (FLASH_SCRIPTS.map Prod.fst) =
          str "ASSETS, FULL, PARTIAL" := by rfl
      simp only [FlashAnswer.text, hModes, List.append_assoc, valid_append_iff (valid_str _)]
      rw [valid_append_str _ rfl]
      simp [FlashAnswer.quotes, (valid_str "ASSETS, FULL, PARTIAL").append (valid_str ")")]
  | submitted cmd => simp [FlashAnswer.text, FlashAnswer.quotes, valid_append_iff (valid_str _)]
  | running cmd elapsed =>
      simp only [FlashAnswer.text, List.append_assoc, valid_append_iff (valid_str _)]
      rw [valid_append_str _ rfl]
      simp [FlashAnswer.quotes, valid_append_iff (valid_to_string _),
        valid_append_iff (valid_str _), valid_str]
  | ok cmd output =>
      simp only [FlashAnswer.text, List.append_assoc, valid_append_iff (valid_str _)]
      rw [valid_append_str _ rfl]
      simp [FlashAnswer.quotes]
  | failed cmd exit_code output =>
      simp only [FlashAnswer.text, List.append_assoc, valid_append_iff (valid_str _)]
      rw [valid_append_str _ rfl, valid_append_iff (valid_int_to_string _),
        valid_append_iff (valid_str _)]
      simp [FlashAnswer.quotes]
  | timeout =>
      have hText : ValidUtf8 FlashAnswer.timeout.text :=
        ((valid_str _).append (valid_to_string _)).append (valid_str _)
      simp [FlashAnswer.quotes, hText]
  | requires_file | empty_filename | in_progress | no_pending =>
      simp [FlashAnswer.text, FlashAnswer.quotes, valid_str]

section Schedule

variable {cfg : Config} {s t u : FlashSystem} {action : FlashAction} {event : Option FlashEvent}
  {schedule rest : List FlashAction}

/-- Between two accesses of a command the worker and the world move on. -/
theorem quiet_step (h : flash_step cfg s action = some (t, event)) (hBusy : s.command ≠ .none)
    (hAction : action ≠ .resume) :
    event = none ∧ t.command = s.command ∧ t.op.joinable = s.op.joinable ∧
      t.op.cmd = s.op.cmd := by
  obtain ⟨-, hStep⟩ := flash_step_cases h
  cases hStep with
  | flash_rejected hFree | flash_arrives hFree | poll_arrives hFree => exact absurd hFree hBusy
  | set_running | set_start_time | popen | popen_fails | fgets | eof | pclose | set_done
  | clear_running | script_ends | tick => exact ⟨rfl, rfl, rfl, rfl⟩
  | _ => exact absurd rfl hAction

/-- A command that is carried through gets to its next access. -/
theorem next_access (hBusy : s.command ≠ .none) (h : completes cfg s schedule = true) :
    ∃ u rest, (u.command = s.command ∧ u.op.joinable = s.op.joinable ∧ u.op.cmd = s.op.cmd) ∧
      completes cfg u (.resume :: rest) = true ∧
      await_answer cfg s schedule = await_answer cfg u (.resume :: rest) ∧
      load_running cfg s schedule = some u.op.running ∧
      poll_reads cfg s schedule = poll_reads cfg u (.resume :: rest) := by
  induction schedule generalizing s with
  | nil => cases h
  | cons action rest ih =>
      by_cases hAction : action = .resume
      · subst hAction
        exact ⟨s, rest, ⟨rfl, rfl, rfl⟩, h, rfl, by simp [load_running], rfl⟩
      · cases hStep : flash_step cfg s action with
        | none => simp [completes, hStep] at h
        | some result =>
            obtain ⟨t, event⟩ := result
            obtain ⟨rfl, hCommand, hJoinable, hCmd⟩ := quiet_step hStep hBusy hAction
            have hRest : completes cfg t rest = true := by simpa [completes, hStep] using h
            obtain ⟨u, later, ⟨hU, hUJoinable, hUCmd⟩, hCompletes, hAwait, hLoad, hReads⟩ :=
              ih (hCommand ▸ hBusy) hRest
            refine ⟨u, later, ⟨hU.trans hCommand, hUJoinable.trans hJoinable, hUCmd.trans hCmd⟩,
              hCompletes, ?_, ?_, ?_⟩
            · simpa only [await_answer, hStep] using hAwait
            · simpa [load_running, hStep, hAction] using hLoad
            · simpa [poll_reads, hStep, hAction] using hReads

/-- An access either is the last step of the schedule or leaves the rest of it. -/
theorem access_ends (h : completes cfg u (.resume :: rest) = true) :
    ∃ t event, u.resume = some (t, event) ∧
      poll_reads cfg u (.resume :: rest) = u.reads ++ poll_reads cfg t rest ∧
      (event = none → completes cfg t rest = true ∧
        await_answer cfg u (.resume :: rest) = await_answer cfg t rest) ∧
      (∀ answer, event = some (.answer answer) → rest = [] ∧
        await_answer cfg u (.resume :: rest) = some (t, answer)) ∧
      (event = some .terminate → await_answer cfg u (.resume :: rest) = none) := by
  cases hLive : u.terminated with
  | true => simp [completes, flash_step, hLive] at h
  | false =>
      have hStep : flash_step cfg u .resume = u.resume := by simp [flash_step, hLive]
      cases hResume : u.resume with
      | none => simp [completes, hStep, hResume] at h
      | some result =>
          obtain ⟨t, event⟩ := result
          rw [hResume] at hStep
          refine ⟨t, event, rfl, by simp [poll_reads, hStep], ?_, ?_, ?_⟩
          · rintro rfl
            exact ⟨by simpa [completes, hStep] using h, by simp [await_answer, hStep]⟩
          · rintro answer rfl
            have hLast : rest = [] := by simpa [completes, hStep] using h
            simp [await_answer, hStep, hLast]
          · rintro rfl
            simp [await_answer, hStep]

/-- The thread of an `AT+FLASH`: assigning to a joinable one ends the process. -/
theorem await_assign (hAt : s.command = .flash_assign) (h : completes cfg s schedule = true) :
    (s.op.joinable = true → await_answer cfg s schedule = none) ∧
      (s.op.joinable = false →
        ∃ t, await_answer cfg s schedule = some (t, .submitted s.op.cmd)) := by
  obtain ⟨u, rest, ⟨hCommand, hJoinable, hCmd⟩, hRest, hAwait, -⟩ := next_access (by simp [hAt]) h
  obtain ⟨t, event, hResume, -, -, hAnswer, hEnd⟩ := access_ends hRest
  rw [hAwait, ← hJoinable, ← hCmd]
  rw [hAt] at hCommand
  simp only [FlashSystem.resume, hCommand] at hResume
  cases hThread : u.op.joinable with
  | true =>
      rw [if_pos hThread] at hResume
      cases hResume
      exact ⟨fun _ => hEnd rfl, by simp⟩
  | false =>
      rw [if_neg (by simp [hThread])] at hResume
      cases hResume
      exact ⟨by simp, fun _ => ⟨_, (hAnswer _ rfl).2⟩⟩

/-- An `AT+FLASH` that finds nothing running goes on to its thread. -/
theorem await_flash {cmd : Bytes} (hAt : s.command = .flash_load cmd)
    (h : completes cfg s schedule = true) :
    (load_running cfg s schedule = some true ∧
      ∃ t, await_answer cfg s schedule = some (t, .in_progress)) ∨
    (load_running cfg s schedule = some false ∧
      (s.op.joinable = true → await_answer cfg s schedule = none) ∧
      (s.op.joinable = false → ∃ t, await_answer cfg s schedule = some (t, .submitted cmd))) := by
  obtain ⟨u, rest, ⟨hCommand, hJoinable, -⟩, hRest, hAwait, hLoad, -⟩ :=
    next_access (by simp [hAt]) h
  obtain ⟨t, event, hResume, -, hNext, hAnswer, -⟩ := access_ends hRest
  rw [hAwait, hLoad, ← hJoinable]
  rw [hAt] at hCommand
  simp only [FlashSystem.resume, hCommand] at hResume
  cases hRunning : u.op.running with
  | true =>
      rw [if_pos hRunning] at hResume
      cases hResume
      exact Or.inl ⟨rfl, _, (hAnswer _ rfl).2⟩
  | false =>
      rw [if_neg (by simp [hRunning])] at hResume
      cases hResume
      obtain ⟨hStores, hAwaitStores⟩ := hNext rfl
      obtain ⟨v, later, ⟨hCommandV, hJoinableV, -⟩, hRestV, hAwaitV, -⟩ :=
        next_access (by simp) hStores
      obtain ⟨w, event, hResumeV, -, hNextV, -⟩ := access_ends hRestV
      simp only [FlashSystem.resume, hCommandV] at hResumeV
      cases hResumeV
      obtain ⟨hAssign, hAwaitAssign⟩ := hNextV rfl
      obtain ⟨hEnds, hSubmits⟩ := await_assign rfl hAssign
      rw [hAwaitStores, hAwaitV, hAwaitAssign, ← show v.op.joinable = u.op.joinable from hJoinableV]
      exact Or.inr ⟨rfl, hEnds, hSubmits⟩

/-- A poll is answered, and its answer quotes what has been read before and from here on. -/
def Polled (cfg : Config) (before : List Bytes) (s : FlashSystem) (schedule : List FlashAction) :
    Prop :=
  ∃ t answer, await_answer cfg s schedule = some (t, answer) ∧
    answer.quotes = before ++ poll_reads cfg s schedule

/-- The next access of a poll either gives the answer or leads on. -/
theorem polled_step {before : List Bytes} (hBusy : s.command ≠ .none)
    (h : completes cfg s schedule = true)
    (hAccess : ∀ (u t : FlashSystem) (event : Option FlashEvent),
      u.command = s.command → u.resume = some (t, event) →
      (event = none ∧ ∀ rest, completes cfg t rest = true → Polled cfg (before ++ u.reads) t rest) ∨
      ∃ answer, event = some (.answer answer) ∧ answer.quotes = before ++ u.reads) :
    Polled cfg before s schedule := by
  obtain ⟨u, rest, ⟨hCommand, -⟩, hRest, hAwait, -, hReads⟩ := next_access hBusy h
  obtain ⟨t, event, hResume, hHere, hNext, hAnswer, -⟩ := access_ends hRest
  rcases hAccess u t event hCommand hResume with ⟨hNone, hPolled⟩ | ⟨answer, hSome, hQuotes⟩
  · obtain ⟨hLater, hSame⟩ := hNext hNone
    obtain ⟨final, answer, hFinal, hQuotes⟩ := hPolled rest hLater
    refine ⟨final, answer, by rw [hAwait, hSame, hFinal], ?_⟩
    rw [hQuotes, hReads, hHere, List.append_assoc]
  · obtain ⟨rfl, hLast⟩ := hAnswer answer hSome
    refine ⟨t, answer, by rw [hAwait, hLast], ?_⟩
    rw [hQuotes, hReads, hHere, poll_reads, List.append_nil]

theorem polled_join {result : FlashAnswer} (hAt : s.command = .poll_join result)
    (h : completes cfg s schedule = true) : Polled cfg result.quotes s schedule := by
  apply polled_step (by simp [hAt]) h
  intro u t event hCommand hResume
  rw [hAt] at hCommand
  simp only [FlashSystem.resume, hCommand] at hResume
  split at hResume
  · cases hResume
    exact Or.inr ⟨result, rfl, by simp [FlashSystem.reads, hCommand]⟩
  · cases hResume

theorem polled_result (hAt : s.command = .poll_result) (h : completes cfg s schedule = true) :
    Polled cfg [] s schedule := by
  apply polled_step (by simp [hAt]) h
  intro u t event hCommand hResume
  rw [hAt] at hCommand
  simp only [FlashSystem.resume, hCommand] at hResume
  cases hResume
  refine Or.inl ⟨rfl, fun rest hRest => ?_⟩
  have hQuotes : u.op.result.quotes = [] ++ u.reads := by
    simp only [FlashOp.result, FlashSystem.reads, hCommand]
    split <;> rfl
  rw [← hQuotes]
  exact polled_join rfl hRest

theorem polled_cancel (hAt : s.command = .poll_cancel) (h : completes cfg s schedule = true) :
    Polled cfg [] s schedule := by
  apply polled_step (by simp [hAt]) h
  intro u t event hCommand hResume
  rw [hAt] at hCommand
  simp only [FlashSystem.resume, hCommand] at hResume
  split at hResume
  · cases hResume
    exact Or.inr ⟨.timeout, rfl, by simp [FlashAnswer.quotes, FlashSystem.reads, hCommand]⟩
  · cases hResume

theorem polled_elapsed (hAt : s.command = .poll_elapsed) (h : completes cfg s schedule = true) :
    Polled cfg [] s schedule := by
  apply polled_step (by simp [hAt]) h
  intro u t event hCommand hResume
  rw [hAt] at hCommand
  simp only [FlashSystem.resume, hCommand] at hResume
  split at hResume
  · rename_i hLate
    cases hResume
    have hReads : u.reads = [] := by simp [FlashSystem.reads, hCommand, Nat.not_lt.mpr hLate]
    rw [hReads]
    exact Or.inl ⟨rfl, fun rest hRest => polled_cancel rfl hRest⟩
  · rename_i hEarly
    cases hResume
    refine Or.inr ⟨_, rfl, ?_⟩
    simp [FlashAnswer.quotes, FlashSystem.reads, hCommand, Nat.lt_of_not_le hEarly]

theorem polled_load_done (hAt : s.command = .poll_load_done)
    (h : completes cfg s schedule = true) : Polled cfg [] s schedule := by
  apply polled_step (by simp [hAt]) h
  intro u t event hCommand hResume
  rw [hAt] at hCommand
  simp only [FlashSystem.resume, hCommand] at hResume
  cases hResume
  have hReads : u.reads = [] := by simp [FlashSystem.reads, hCommand]
  rw [hReads]
  refine Or.inl ⟨rfl, fun rest hRest => ?_⟩
  by_cases hDone : u.op.done = true
  · exact polled_result (if_pos hDone) hRest
  · exact polled_elapsed (if_neg hDone) hRest

theorem polled_idle (hAt : s.command = .poll_idle) (h : completes cfg s schedule = true) :
    Polled cfg [] s schedule := by
  apply polled_step (by simp [hAt]) h
  intro u t event hCommand hResume
  rw [hAt] at hCommand
  have hReads : u.reads = [] := by simp [FlashSystem.reads, hCommand]
  rw [hReads]
  simp only [FlashSystem.resume, hCommand] at hResume
  split at hResume
  · cases hResume
    exact Or.inl ⟨rfl, fun rest hRest => polled_load_done rfl hRest⟩
  · cases hResume
    exact Or.inr ⟨.no_pending, rfl, rfl⟩

/-- An `AT+TRYFLASHDONE` that is carried through is answered. -/
theorem polled (hAt : s.command = .poll_load_running) (h : completes cfg s schedule = true) :
    Polled cfg [] s schedule := by
  apply polled_step (by simp [hAt]) h
  intro u t event hCommand hResume
  rw [hAt] at hCommand
  simp only [FlashSystem.resume, hCommand] at hResume
  cases hResume
  have hReads : u.reads = [] := by simp [FlashSystem.reads, hCommand]
  rw [hReads]
  refine Or.inl ⟨rfl, fun rest hRest => ?_⟩
  by_cases hRunning : u.op.running = true
  · exact polled_load_done (if_pos hRunning) hRest
  · exact polled_idle (if_neg hRunning) hRest

end Schedule

section Line

variable {line arg action answer : Bytes} {command : AtCommand}

theorem ValidUtf8.trim (h : ValidUtf8 line) : ValidUtf8 (trim line) := by
  obtain ⟨blanks, hEq, hBlanks⟩ := trim_decompose line
  rw [hEq] at h
  cases blanks with
  | nil => simpa using h
  | cons c rest =>
      have hc : c < 128 := by
        rcases hBlanks c (by simp) with rfl | rfl | rfl <;> decide
      exact h.before hc

/-- The action is what stands between the plus sign and the equals sign, in upper case. -/
theorem parse_at_split (h : parse_at line = some (action, arg)) :
    ∃ head name, action = name.map toupper ∧
      ((arg = [] ∧ line = head ++ 43 :: name) ∨ line = head ++ 43 :: (name ++ 61 :: arg)) := by
  unfold parse_at at h
  split at h
  · cases h
  · rename_i plus rest hDrop
    split at h
    · cases h
    · rename_i hPlus
      obtain rfl : plus = 43 := Decidable.not_not.mp hPlus
      have hLine : line = line.take 2 ++ 43 :: rest := by
        rw [← hDrop, substr_from, List.take_append_drop]
      cases hFind : find rest 61 0 with
      | none =>
          simp only [hFind] at h
          split at h <;> cases h
          exact ⟨line.take 2, rest, rfl, Or.inl ⟨rfl, hLine⟩⟩
      | some eq =>
          simp only [hFind] at h
          split at h <;> cases h
          refine ⟨line.take 2, substr rest 0 eq, rfl, Or.inr ?_⟩
          rw [← find_cut hFind]
          exact hLine

theorem parse_at_valid (h : ValidUtf8 line) (hParse : parse_at line = some (action, arg)) :
    ValidUtf8 action ∧ ValidUtf8 arg := by
  obtain ⟨head, name, rfl, ⟨rfl, rfl⟩ | rfl⟩ := parse_at_split hParse
  · exact ⟨((valid_append_cons (by decide)).mp h).2.map_toupper, valid_nil⟩
  · obtain ⟨-, hRest⟩ := (valid_append_cons (by decide)).mp h
    obtain ⟨hName, hArg⟩ := (valid_append_cons (by decide)).mp hRest
    exact ⟨hName.map_toupper, hArg⟩

def AtCommand.argument : AtCommand → Bytes
  | .FLASH arg | .EXEC arg | .VERIFY arg | .PREUPLOAD arg | .UPLOAD arg => arg
  | _ => []

theorem ite_some_cases {p : Prop} [Decidable p] {first found : AtCommand} {rest : Option AtCommand}
    (h : (if p then some first else rest) = some found) : found = first ∨ rest = some found := by
  split at h
  · exact Or.inl (Option.some.inj h).symm
  · exact Or.inr h

theorem action_command_argument (h : action_command action arg = some command) :
    command.argument = arg ∨ command.argument = [] := by
  unfold action_command at h
  iterate 14
    rcases ite_some_cases h with rfl | h
    · first
        | exact Or.inl rfl
        | exact Or.inr rfl
  cases h

/-- A line is rejected with a constant text or with its action, or it is a command whose
argument is that of the line. -/
theorem dispatch_cases (line : Bytes) :
    dispatch line = .error (str "ERROR: commands must start with AT") ∨
      dispatch line = .error (str "ERROR: invalid AT command format") ∨
      ∃ action arg, parse_at (trim line) = some (action, arg) ∧
        (dispatch line = .error (str "ERROR: unknown command 'AT+" ++ action ++ str "'") ∨
          ∃ command, dispatch line = .ok command ∧
            (command.argument = arg ∨ command.argument = [])) := by
  unfold dispatch
  dsimp only
  split
  · exact Or.inl rfl
  · right
    split
    · exact Or.inl rfl
    · rename_i action arg hParse
      refine Or.inr ⟨action, arg, hParse, ?_⟩
      split
      · exact Or.inl rfl
      · rename_i command hCommand
        exact Or.inr ⟨command, rfl, action_command_argument hCommand⟩

/-- What a line is rejected with, and the argument of a command, are valid with the line. -/
theorem dispatch_valid (h : ValidUtf8 line) :
    (∀ answer, dispatch line = .error answer → ValidUtf8 answer) ∧
      ∀ command, dispatch line = .ok command → ValidUtf8 command.argument := by
  rcases dispatch_cases line with
    hEq | hEq | ⟨action, arg, hParse, hEq | ⟨command, hEq, hArgument⟩⟩ <;> rw [hEq]
  · simp [valid_str]
  · simp [valid_str]
  · obtain ⟨hAction, -⟩ := parse_at_valid (ValidUtf8.trim h) hParse
    refine ⟨?_, by simp⟩
    rintro answer ⟨⟩
    exact ((valid_str _).append hAction).append (valid_str _)
  · obtain ⟨-, hArg⟩ := parse_at_valid (ValidUtf8.trim h) hParse
    have hCommand : ValidUtf8 command.argument := by
      rcases hArgument with hSame | hNil
      · rwa [hSame]
      · rw [hNil]
        exact valid_nil
    simpa using hCommand

end Line

section Handlers

variable {cfg : Config} {build : Build} {w : Host} {arg : Bytes}

/-- `AT+STATUS` names the device. -/
theorem handle_status_valid_iff (cfg : Config) (uptime : Nat) (is_open : Bool) (owner : Owner) :
    ValidUtf8 (handle_status cfg uptime is_open owner) ↔
      (cfg.use_serial = true → ValidUtf8 cfg.serial_device.val) := by
  have hOpen : ValidUtf8 (if is_open then str "open" else str "closed") := by
    split <;> exact valid_str _
  have hBusy : ValidUtf8 (if is_busy owner then str "yes" else str "no") := by
    split <;> exact valid_str _
  unfold handle_status
  simp only [List.append_assoc, valid_append_iff (valid_str _),
    valid_append_iff (valid_to_string _), valid_append_iff hOpen, valid_append_iff hBusy]
  cases cfg.use_serial <;> simp [valid_str]

/-- `AT+VERSION` names what the build was given. -/
theorem handle_version_valid_iff (build : Build) :
    ValidUtf8 (handle_version build) ↔
      ValidUtf8 build.version ∧ ValidUtf8 build.arch ∧ ValidUtf8 build.date ∧
        ValidUtf8 build.time := by
  unfold handle_version
  simp only [List.append_assoc, valid_append_iff (valid_str _)]
  rw [valid_append_str _ rfl, valid_append_str _ rfl, valid_append_str _ rfl]

theorem handle_reset_valid (caller owner : Owner) : ValidUtf8 (handle_reset caller owner).2 := by
  unfold handle_reset
  split <;> exact valid_str _

theorem handle_help_valid : ValidUtf8 handle_help := by
  unfold handle_help
  simp only [List.append_assoc, valid_append_iff (valid_str _), valid_str]

theorem handle_reboot_valid (build : Build) (reboot shutdown : Int) :
    ValidUtf8 (handle_reboot build reboot shutdown) := by
  unfold handle_reboot
  split
  · exact valid_str _
  · split
    · exact valid_str _
    · split
      · exact valid_str _
      · exact ((valid_str _).append (valid_int_to_string _)).append (valid_str _)

/-- `AT+EXEC` quotes what the command prints. -/
theorem handle_exec_valid_iff (build : Build) (popen : Option ShellRun) (arg : Bytes) :
    ValidUtf8 (handle_exec build popen arg) ↔
      (build.allow_rce = true → arg ≠ [] → ∀ run, popen = some run → ValidUtf8 run.output) := by
  unfold handle_exec
  split
  · rename_i hDisabled
    simp [hDisabled, valid_str]
  · rename_i hEnabled
    split
    · rename_i hNil
      simp [hNil, valid_str]
    · rename_i hArg
      split
      · simp [valid_str]
      · rename_i run
        have hRce : build.allow_rce = true := Decidable.not_not.mp hEnabled
        split
        · simp [hRce, hArg, valid_append_iff (valid_str _)]
        · simp [hRce, hArg, List.append_assoc, valid_append_iff (valid_str _),
            valid_append_iff (valid_int_to_string _)]

theorem handle_verify_valid (cfg : Config) (reads : Reads) (h : ValidUtf8 arg) (fs : FileSystem) :
    ValidUtf8 (handle_verify cfg reads arg fs) := by
  unfold handle_verify
  split
  · exact valid_str _
  · split
    · exact valid_str _
    · dsimp only
      split
      · exact (((valid_str _).append (valid_xdigits (Checksum.MD5.hex_isxdigit _))).append
          (valid_str _)).append (valid_to_string _)
      · exact ((valid_str _).append h).append (valid_str _)

theorem parse_preupload_valid {message : Bytes} (h : parse_preupload arg = .error message) :
    ValidUtf8 message := by
  unfold parse_preupload at h
  split at h
  · cases h
    exact valid_str _
  · split at h
    · cases h
      exact valid_str _
    · simp only at h
      split_ifs at h <;> cases h <;> exact valid_str _

theorem handle_preupload_valid (cfg : Config) (io : Io) (arg : Bytes) (w : Host) :
    ValidUtf8 (handle_preupload cfg io arg w).2 := by
  unfold handle_preupload
  split
  · exact valid_str _
  · split
    · exact valid_str _
    · split
      · exact parse_preupload_valid ‹_›
      · dsimp only
        split <;> exact valid_str _

theorem parse_frame_valid {message : Bytes} (h : parse_frame arg = .error message) :
    ValidUtf8 message := by
  unfold parse_frame at h
  split at h
  · cases h
    exact valid_str _
  · split at h
    · cases h
      exact valid_str _
    · simp only at h
      split_ifs at h <;> cases h
      all_goals first
        | exact valid_str _
        | exact ((((valid_str _).append (valid_to_string _)).append (valid_str _)).append
            (valid_to_string _)).append (valid_str _)

theorem parse_frame_digits {frame : Frame} (h : parse_frame arg = .ok frame) :
    ∀ c ∈ frame.crc16_hex, isxdigit c = true := by
  unfold parse_frame at h
  split at h
  · cases h
  · split at h
    · cases h
    · simp only at h
      split_ifs at h with hLength hDigits
      all_goals cases h
      exact List.all_eq_true.mp hDigits

theorem handle_upload_frame_valid (io : Io) (arg : Bytes) (w : Host) :
    ValidUtf8 (handle_upload_frame io arg w).2 := by
  unfold handle_upload_frame
  split
  · rename_i u answer hCheck
    unfold check_frame at hCheck
    split at hCheck
    · cases hCheck
      exact valid_str _
    · split at hCheck
      · split at hCheck
        · cases hCheck
          exact parse_frame_valid ‹_›
        · rename_i frame hFrame
          have hHex : ValidUtf8 frame.crc16_hex := valid_xdigits (parse_frame_digits hFrame)
          simp only at hCheck
          split at hCheck
          · cases hCheck
            exact (((((valid_str _).append (valid_to_string _)).append (valid_str _)).append
              hHex).append (valid_str _)).append (valid_print_hex _ _ _)
          · cases hCheck
      · cases hCheck
        exact valid_str _
  · dsimp only
    split
    · exact valid_str _
    · exact (valid_str _).append (valid_to_string _)

/-- An upload that is complete is reported with its filename, and one whose digest is wrong
with the digest that was announced. -/
theorem handle_uploaddone_valid_iff (cfg : Config) (io : Io) (w : Host) :
    ValidUtf8 (handle_uploaddone cfg io w).2 ↔
      (w.upload.active = true → w.upload.file.isSome = true →
        w.upload.received = w.upload.expected_size →
        (w.upload.md5_ctx.hex.2 = w.upload.expected_md5 → save_succeeds cfg io w = true →
          ValidUtf8 w.upload.filename) ∧
        (w.upload.md5_ctx.hex.2 ≠ w.upload.expected_md5 → ValidUtf8 w.upload.expected_md5)) := by
  cases hFile : w.upload.file with
  | none => simp [handle_uploaddone, hFile, valid_str]
  | some file =>
      by_cases hActive : w.upload.active = true
      · have hClose : close_file io w = ⟨{ w.upload with file := none },
            (w.fs.fclose file io.fclose).2⟩ := by simp [close_file, hFile]
        rw [uploaddone_halves cfg io hActive (by simp [hFile]), save_succeeds, hClose]
        simp only [hActive, Option.isSome_some, forall_const]
        unfold finish_upload
        dsimp only
        split
        · rename_i hSize
          refine iff_of_true ?_ fun hEq => absurd hEq hSize
          exact (((valid_str _).append (valid_to_string _)).append (valid_str _)).append
            (valid_to_string _)
        · rename_i hSize
          have hSize : w.upload.received = w.upload.expected_size := Decidable.not_not.mp hSize
          have hHex : ValidUtf8 w.upload.md5_ctx.hex.2 :=
            valid_xdigits (Checksum.MD5.hex_isxdigit _)
          split
          · rename_i hDigest
            simp only [List.append_assoc, valid_append_iff (valid_str _)]
            rw [valid_append_str _ rfl]
            simp [hSize, hDigest, hHex]
          · rename_i hDigest
            have hDigest : w.upload.md5_ctx.hex.2 = w.upload.expected_md5 :=
              Decidable.not_not.mp hDigest
            split
            · rename_i fs hRename
              simp [hDigest, hRename, valid_str]
            · rename_i fs hRename
              simp only [List.append_assoc, valid_append_iff (valid_str _)]
              rw [valid_append_str _ rfl, valid_append_iff (valid_to_string _),
                valid_append_iff (valid_str _)]
              simp [hSize, hDigest, hRename, hDigest ▸ hHex]
      · simp [handle_uploaddone, hActive, valid_str]

theorem handle_uploadcancel_valid (io : Io) (w : Host) :
    ValidUtf8 (handle_uploadcancel io w).2 := by
  unfold handle_uploadcancel
  split <;> exact valid_str _

end Handlers

/-- The schedule of a flash command does not stop short of its end. -/
def Covers (cfg : Config) (d : Daemon) (around : Circumstances) : AtCommand → Prop
  | .FLASH arg => completes cfg d.flash (.FLASH arg :: around.flash) = true
  | .TRYFLASHDONE => completes cfg d.flash (.TRYFLASHDONE :: around.flash) = true
  | _ => True

/-- The `AT+FLASH` passes its checks and finds no operation running. -/
def Submits (cfg : Config) (flash : FlashSystem) (arg : Bytes) (schedule : List FlashAction) :
    Prop :=
  ∃ script filename, parse_flash arg = .ok (script, filename) ∧
    load_running cfg { flash with command := .flash_load (flash_cmd cfg script filename) }
      schedule = some false

/-- The command does not end the process, and what it quotes from outside the command line
is valid UTF-8. -/
def Harmless (cfg : Config) (build : Build) (d : Daemon) (around : Circumstances) :
    AtCommand → Prop
  | .STATUS => cfg.use_serial = true → ValidUtf8 cfg.serial_device.val
  | .VERSION =>
      ValidUtf8 build.version ∧ ValidUtf8 build.arch ∧ ValidUtf8 build.date ∧
        ValidUtf8 build.time
  | .FLASH arg =>
      Submits cfg d.flash arg around.flash →
        d.flash.op.joinable = false ∧ ValidUtf8 cfg.scripts_dir.val
  | .TRYFLASHDONE =>
      ∀ text ∈ poll_reads cfg { d.flash with command := .poll_load_running } around.flash,
        ValidUtf8 text
  | .EXEC arg =>
      build.allow_rce = true → arg ≠ [] → ∀ run, around.popen = some run → ValidUtf8 run.output
  | .UPLOADDONE =>
      d.host.upload.active = true → d.host.upload.file.isSome = true →
        d.host.upload.received = d.host.upload.expected_size →
        (d.host.upload.md5_ctx.hex.2 = d.host.upload.expected_md5 →
          save_succeeds cfg around.io d.host = true → ValidUtf8 d.host.upload.filename) ∧
        (d.host.upload.md5_ctx.hex.2 ≠ d.host.upload.expected_md5 →
          ValidUtf8 d.host.upload.expected_md5)
  | _ => True

section Execution

variable {cfg : Config} {build : Build} {d : Daemon} {call : Call} {command : AtCommand}

/-- The command is answered with a valid text. -/
def Answers (cfg : Config) (build : Build) (d : Daemon) (call : Call) (command : AtCommand) :
    Prop :=
  ∃ d' answer, execute cfg build d call command = some (d', answer) ∧ ValidUtf8 answer

theorem answers_iff {d' : Daemon} {answer : Bytes}
    (h : execute cfg build d call command = some (d', answer)) :
    Answers cfg build d call command ↔ ValidUtf8 answer := by
  simp [Answers, h]

/-- The lines of a flash command that cannot start are those that its parser rejects. -/
theorem completes_flash {arg : Bytes} {schedule : List FlashAction}
    (h : completes cfg d.flash (.FLASH arg :: schedule) = true) :
    (∃ answer, parse_flash arg = .error answer ∧
      await_answer cfg d.flash (.FLASH arg :: schedule) = some (d.flash, answer)) ∨
    ∃ script filename, parse_flash arg = .ok (script, filename) ∧
      completes cfg { d.flash with command := .flash_load (flash_cmd cfg script filename) }
        schedule = true ∧
      await_answer cfg d.flash (.FLASH arg :: schedule) = await_answer cfg
        { d.flash with command := .flash_load (flash_cmd cfg script filename) } schedule := by
  cases hStep : flash_step cfg d.flash (.FLASH arg) with
  | none => simp [completes, hStep] at h
  | some result =>
      obtain ⟨t, event⟩ := result
      cases (flash_step_cases hStep).2 with
      | flash_rejected hFree hParse =>
          have hLast : schedule = [] := by simpa [completes, hStep] using h
          exact Or.inl ⟨_, hParse, by simp [await_answer, hStep, hLast]⟩
      | flash_arrives hFree hParse =>
          exact Or.inr ⟨_, _, hParse, by simpa [completes, hStep] using h,
            by simp [await_answer, hStep]⟩

theorem completes_poll {schedule : List FlashAction}
    (h : completes cfg d.flash (.TRYFLASHDONE :: schedule) = true) :
    completes cfg { d.flash with command := .poll_load_running } schedule = true ∧
      await_answer cfg d.flash (.TRYFLASHDONE :: schedule) =
        await_answer cfg { d.flash with command := .poll_load_running } schedule := by
  cases hStep : flash_step cfg d.flash .TRYFLASHDONE with
  | none => simp [completes, hStep] at h
  | some result =>
      obtain ⟨t, event⟩ := result
      cases (flash_step_cases hStep).2 with
      | poll_arrives hFree =>
          exact ⟨by simpa [completes, hStep] using h, by simp [await_answer, hStep]⟩

/-- The file and the mode of an `AT+FLASH` are cut at the first comma. -/
theorem parse_flash_cases (arg : Bytes) :
    parse_flash arg = .error .requires_file ∨ parse_flash arg = .error .empty_filename ∨
      ∃ filename mode,
        ((arg = filename ∧ mode = str "FULL") ∨ arg = filename ++ 44 :: mode) ∧
        (parse_flash arg = .error (.unknown_mode mode) ∨
          ∃ pair ∈ FLASH_SCRIPTS, parse_flash arg = .ok (pair.2, filename)) := by
  unfold parse_flash
  split
  · exact Or.inl rfl
  · right
    split
    rename_i filename mode hEq
    have hParts : (arg = filename ∧ mode = str "FULL") ∨ arg = filename ++ 44 :: mode := by
      cases hFind : find arg 44 0 with
      | none =>
          rw [hFind] at hEq
          cases hEq
          exact Or.inl ⟨rfl, rfl⟩
      | some comma =>
          rw [hFind] at hEq
          cases hEq
          exact Or.inr (find_cut hFind)
    split
    · exact Or.inl rfl
    · refine Or.inr ⟨filename, mode, hParts, ?_⟩
      split
      · exact Or.inl rfl
      · rename_i script hLookup
        obtain ⟨before, after, hScripts, -⟩ := List.lookup_eq_some_iff.mp hLookup
        exact Or.inr ⟨(mode, script), by simp [hScripts], rfl⟩

/-- The parts of the argument of an `AT+FLASH` are valid with it. -/
theorem parse_flash_valid {arg : Bytes} (h : ValidUtf8 arg) :
    (∀ answer, parse_flash arg = .error answer → ValidUtf8 answer.text) ∧
      ∀ script filename, parse_flash arg = .ok (script, filename) →
        ValidUtf8 script ∧ ValidUtf8 filename := by
  have hScripts : ∀ pair ∈ FLASH_SCRIPTS, ValidUtf8 pair.2 := by simp [FLASH_SCRIPTS, valid_str]
  rcases parse_flash_cases arg with hEq | hEq | ⟨filename, mode, hSplit, hEq⟩
  · simp [hEq, FlashAnswer.text, valid_str]
  · simp [hEq, FlashAnswer.text, valid_str]
  · have hParts : ValidUtf8 filename ∧ ValidUtf8 mode := by
      rcases hSplit with ⟨rfl, rfl⟩ | rfl
      · exact ⟨h, valid_str _⟩
      · exact (valid_append_cons (by decide)).mp h
    rcases hEq with hEq | ⟨pair, hPair, hEq⟩
    · simp [hEq, FlashAnswer.text_valid_iff, FlashAnswer.quotes, hParts.2]
    · simpa [hEq] using ⟨hScripts pair hPair, hParts.1⟩

theorem flash_cmd_valid_iff {script filename : Bytes} (hScript : ValidUtf8 script)
    (hFilename : ValidUtf8 filename) :
    ValidUtf8 (flash_cmd cfg script filename) ↔ ValidUtf8 cfg.scripts_dir.val := by
  unfold flash_cmd
  simp only [List.append_assoc]
  rw [valid_append_str _ rfl, valid_append_iff hScript, valid_append_iff (valid_str _)]
  simp [hFilename]

/-- What comes of an `AT+FLASH` that is carried through. -/
inductive FlashOutcome (cfg : Config) (d : Daemon) (arg : Bytes) (schedule : List FlashAction) :
    Option (Daemon × Bytes) → Prop where
  | rejected {answer : FlashAnswer} {d' : Daemon} (parsed : parse_flash arg = .error answer)
      (idle : ¬ Submits cfg d.flash arg schedule) :
      FlashOutcome cfg d arg schedule (some (d', answer.text))
  | in_progress {d' : Daemon} (idle : ¬ Submits cfg d.flash arg schedule) :
      FlashOutcome cfg d arg schedule (some (d', FlashAnswer.in_progress.text))
  | submitted {script filename : Bytes} {d' : Daemon}
      (parsed : parse_flash arg = .ok (script, filename))
      (starts : Submits cfg d.flash arg schedule) (free : d.flash.op.joinable = false) :
      FlashOutcome cfg d arg schedule
        (some (d', (FlashAnswer.submitted (flash_cmd cfg script filename)).text))
  | ends (starts : Submits cfg d.flash arg schedule) (thread : d.flash.op.joinable = true) :
      FlashOutcome cfg d arg schedule none

theorem flash_outcome {arg : Bytes}
    (h : completes cfg d.flash (.FLASH arg :: call.around.flash) = true) :
    FlashOutcome cfg d arg call.around.flash (execute cfg build d call (.FLASH arg)) := by
  have hExecute : execute cfg build d call (.FLASH arg) =
      (await_answer cfg d.flash (.FLASH arg :: call.around.flash)).map fun result =>
        ({ d with flash := result.1 }, result.2.text) := rfl
  rw [hExecute]
  rcases completes_flash h with
    ⟨answer, hParse, hAwait⟩ | ⟨script, filename, hParse, hCompletes, hAwait⟩
  · rw [hAwait]
    refine FlashOutcome.rejected hParse ?_
    rintro ⟨script, filename, hOther, -⟩
    rw [hParse] at hOther
    cases hOther
  · have hSubmits : Submits cfg d.flash arg call.around.flash ↔ load_running cfg
        { d.flash with command := .flash_load (flash_cmd cfg script filename) }
          call.around.flash = some false := by
      simp [Submits, hParse]
    rcases await_flash rfl hCompletes with
      ⟨hLoad, t, hAnswer⟩ | ⟨hLoad, hEnds, hSubmitted⟩
    · rw [hAwait, hAnswer]
      refine FlashOutcome.in_progress fun hStarts => ?_
      rw [hSubmits, hLoad] at hStarts
      cases hStarts
    · cases hThread : d.flash.op.joinable with
      | true =>
          rw [hAwait, hEnds hThread]
          exact FlashOutcome.ends (hSubmits.mpr hLoad) hThread
      | false =>
          obtain ⟨t, hAnswer⟩ := hSubmitted hThread
          rw [hAwait, hAnswer]
          exact FlashOutcome.submitted hParse (hSubmits.mpr hLoad) hThread

/-- A submission is answered with a valid text exactly if it is harmless. -/
theorem flash_answers_iff {arg : Bytes} (hArg : ValidUtf8 arg)
    (h : completes cfg d.flash (.FLASH arg :: call.around.flash) = true) :
    Answers cfg build d call (.FLASH arg) ↔ Harmless cfg build d call.around (.FLASH arg) := by
  obtain ⟨hRejected, hAccepted⟩ := parse_flash_valid hArg
  have hOutcome : FlashOutcome cfg d arg call.around.flash
      (execute cfg build d call (.FLASH arg)) := flash_outcome h
  generalize hResult : execute cfg build d call (.FLASH arg) = result at hOutcome
  cases hOutcome with
  | rejected hParse hIdle =>
      exact iff_of_true ((answers_iff hResult).mpr (hRejected _ hParse)) fun hStarts =>
        absurd hStarts hIdle
  | in_progress hIdle =>
      exact iff_of_true ((answers_iff hResult).mpr (valid_str _)) fun hStarts =>
        absurd hStarts hIdle
  | submitted hParse hStarts hFree =>
      obtain ⟨hScript, hFilename⟩ := hAccepted _ _ hParse
      rw [answers_iff hResult, FlashAnswer.text_valid_iff]
      simp only [FlashAnswer.quotes, List.mem_singleton, forall_eq]
      rw [flash_cmd_valid_iff hScript hFilename]
      exact ⟨fun hDir _ => ⟨hFree, hDir⟩, fun hHarmless => (hHarmless hStarts).2⟩
  | ends hStarts hThread =>
      refine iff_of_false ?_ fun hHarmless => ?_
      · rintro ⟨d', answer, hSome, -⟩
        rw [hResult] at hSome
        cases hSome
      · have hFree := (hHarmless hStarts).1
        rw [hThread] at hFree
        cases hFree

/-- A poll is answered with a valid text exactly if it is harmless. -/
theorem poll_answers_iff
    (h : completes cfg d.flash (.TRYFLASHDONE :: call.around.flash) = true) :
    Answers cfg build d call .TRYFLASHDONE ↔ Harmless cfg build d call.around .TRYFLASHDONE := by
  obtain ⟨hPolls, hAwait⟩ := completes_poll h
  obtain ⟨t, answer, hAnswer, hQuotes⟩ := polled rfl hPolls
  rw [hAnswer] at hAwait
  have hExecute : execute cfg build d call .TRYFLASHDONE =
      some ({ d with flash := t }, answer.text) := by
    simp [execute, Daemon.flash_command, hAwait]
  rw [answers_iff hExecute, answer.text_valid_iff, hQuotes, List.nil_append]
  rfl

/-- A command is answered with a valid text if and only if it does no harm. -/
theorem execute_answers_iff (hArgument : ValidUtf8 command.argument)
    (hCovers : Covers cfg d call.around command) :
    Answers cfg build d call command ↔ Harmless cfg build d call.around command := by
  cases command with
  | STATUS => exact (answers_iff rfl).trans (handle_status_valid_iff cfg _ _ _)
  | VERSION => exact (answers_iff rfl).trans (handle_version_valid_iff build)
  | RESET => exact (answers_iff rfl).trans (iff_true_intro (handle_reset_valid _ _))
  | FORCERESET => exact (answers_iff rfl).trans (iff_true_intro (valid_str _))
  | HELP => exact (answers_iff rfl).trans (iff_true_intro handle_help_valid)
  | FLASH arg => exact flash_answers_iff hArgument hCovers
  | TRYFLASHDONE => exact poll_answers_iff hCovers
  | EXEC arg => exact (answers_iff rfl).trans (handle_exec_valid_iff build _ arg)
  | REBOOT => exact (answers_iff rfl).trans (iff_true_intro (handle_reboot_valid _ _ _))
  | VERIFY arg =>
      exact (answers_iff rfl).trans (iff_true_intro (handle_verify_valid cfg _ hArgument _))
  | PREUPLOAD arg =>
      exact (answers_iff rfl).trans (iff_true_intro (handle_preupload_valid cfg _ arg _))
  | UPLOAD arg =>
      exact (answers_iff rfl).trans (iff_true_intro (handle_upload_frame_valid _ arg _))
  | UPLOADDONE => exact (answers_iff rfl).trans (handle_uploaddone_valid_iff cfg _ _)
  | UPLOADCANCEL =>
      exact (answers_iff rfl).trans (iff_true_intro (handle_uploadcancel_valid _ _))

/-- The same for a whole line: one that is rejected is quoted and does no harm. -/
theorem process_answers_iff (hLine : ValidUtf8 call.line)
    (hCovers : ∀ command, dispatch call.line = .ok command → Covers cfg d call.around command) :
    (∃ d' answer, process cfg build d call = some (d', answer) ∧ ValidUtf8 answer) ↔
      ∀ command, dispatch call.line = .ok command → Harmless cfg build d call.around command := by
  obtain ⟨hRejected, hArgument⟩ := dispatch_valid hLine
  cases hDispatch : dispatch call.line with
  | error answer =>
      refine iff_of_true ⟨d, answer, ?_, hRejected answer hDispatch⟩ (by simp)
      simp [process, hDispatch]
  | ok command =>
      rw [process_ok hDispatch]
      have hIff : Answers cfg build d call command ↔ Harmless cfg build d call.around command :=
        execute_answers_iff (hArgument command hDispatch) (hCovers command hDispatch)
      simp only [Except.ok.injEq, forall_eq']
      exact hIff

end Execution

end RkFlashd
