import RkFlashd.AtHandler.FlashReports

/-! When `AT+TRYFLASHDONE` waits for the script: whether a join it calls can return
on the worker's own steps, and how it then comes to its answer. -/
namespace RkFlashd

open Text Transition

variable {cfg : Config} {s t : FlashSystem} {action : FlashAction} {event : Option FlashEvent}
  {trace : List FlashLabel} {clock : Nat}

/-- The command in progress is in a call of `worker.join()`. -/
def Command.is_joining : Command → Bool
  | .poll_cancel | .poll_join _ => true
  | _ => false

/-- A poll is in a join that cannot return before the script has ended. -/
def FlashSystem.waits_for_script (s : FlashSystem) : Prop :=
  s.command.is_joining = true ∧ s.op.joinable = true ∧ s.script_open = true

/-- No poll that finds the operation not done and 60 s old does so before its script
has ended. -/
def NoEarlyTimeout (s : FlashSystem) (label : FlashLabel) : Prop :=
  label.1 = .resume → s.command = .poll_elapsed → ASYNC_TIMEOUT_SEC ≤ s.elapsed_sec →
    s.script_open = false

instance (s : FlashSystem) (label : FlashLabel) : Decidable (NoEarlyTimeout s label) :=
  inferInstanceAs (Decidable (_ → _ → _ → _))

/-- A poll that has given an operation up has seen its script end, and only a
submission ends the daemon. -/
structure CancelsLate (s : FlashSystem) : Prop where
  ended : s.command = .poll_cancel → s.script_open = false
  assigning : s.terminated = true → s.command = .flash_assign

/-- An operation is given up only when its script has ended. -/
theorem CancelsLate.step (h : CancelsLate s) (hLive : s.terminated = false)
    (hStep : FlashStep cfg s action event t)
    (hLate : NoEarlyTimeout s (action, event)) : CancelsLate t := by
  have hEnded := h.ended
  cases hStep with
  | flash_terminates hAt => exact ⟨hEnded, fun _ => hAt⟩
  | poll_expires hAt hElapsed => exact ⟨fun _ => hLate rfl hAt hElapsed, by simp [hLive]⟩
  | flash_rejected => exact h
  | fgets | tick => exact ⟨hEnded, by simp [hLive]⟩
  | set_running hAt | set_start_time hAt | popen hAt | popen_fails hAt | eof hAt | pclose hAt
  | set_done hAt | clear_running hAt =>
      refine ⟨fun hCancel => ?_, by simp [hLive]⟩
      have hClosed := hEnded hCancel
      simp_all [FlashSystem.script_open]
  | script_ends hScript =>
      refine ⟨fun hCancel => ?_, by simp [hLive]⟩
      have hClosed := hEnded hCancel
      unfold FlashSystem.script_open at hClosed ⊢
      cases hAt : s.worker <;> simp_all
  | _ => exact ⟨by simp, by simp [hLive]⟩

/-- In a run without early timeouts no poll is at the join while the script is open. -/
theorem cancels_late_of_run
    (run : Runs (Guarded (flash_machine cfg).Step NoEarlyTimeout) (idle_at clock) trace s) :
    CancelsLate s := by
  refine run.invariant ?_ ⟨by simp [idle_at], by simp [idle_at]⟩
  rintro u ⟨action, event⟩ v hBefore ⟨hStep, hLate⟩
  obtain ⟨hLive, hRule⟩ := flash_step_cases hStep
  exact hBefore.step hLive hRule hLate

/-- A report waits for a worker that is done with its script. -/
theorem Recorded.report_ended (h : Recorded trace s) {result : FlashAnswer}
    (hAt : s.command = .poll_join result) : s.script_open = false := by
  have hDone := h.coherent.done (h.coherent.reported _ hAt).1
  cases hOpen : s.script_open with
  | false => rfl
  | true =>
      have hUncoded := (script_open_live h.fits hOpen).2
      cases hWorker : s.worker <;> simp_all [Worker.is_done, Worker.is_coded]

/-- The worker can return on its own steps, without the script. -/
def Returns (cfg : Config) (s : FlashSystem) : Prop :=
  ∃ trace t, Runs (flash_machine cfg).Step s trace t ∧ t.worker = .finished ∧
    t.command = s.command ∧ t.terminated = false ∧
    ∀ label ∈ trace, ∀ ending, label.1 ≠ .script_ends ending

/-- A worker returns if it does so after a step of its own. -/
theorem Returns.of_step (hStep : flash_step cfg s action = some (t, none))
    (hCommand : t.command = s.command) (hOwn : ∀ ending, action ≠ .script_ends ending)
    (h : Returns cfg t) : Returns cfg s := by
  obtain ⟨trace, u, run, hFinished, hSame, hLive, hQuiet⟩ := h
  have hFirst : (flash_machine cfg).Step s (action, none) t := hStep
  refine ⟨[(action, none)] ++ trace, u, (Runs.single hFirst).trans run, hFinished,
    hSame.trans hCommand, hLive, ?_⟩
  intro label hMem
  rcases List.mem_append.mp hMem with hHead | hTail
  · rw [List.mem_singleton.mp hHead]
    exact hOwn
  · exact hQuiet label hTail

theorem Returns.done_set (hLive : s.terminated = false) (hAt : s.worker = .done_set) :
    Returns cfg s := by
  have hStep : flash_step cfg s .clear_running =
      some ({ s with op := { s.op with running := false }, worker := .finished }, none) := by
    simp [flash_step, hLive, hAt]
  exact Returns.of_step hStep rfl (by simp)
    ⟨[], _, Runs.zero _, rfl, rfl, hLive, by simp⟩

theorem Returns.coded (hLive : s.terminated = false) (hAt : s.worker = .coded) :
    Returns cfg s := by
  have hStep : flash_step cfg s .set_done =
      some ({ s with op := { s.op with done := true }, worker := .done_set }, none) := by
    simp [flash_step, hLive, hAt]
  exact Returns.of_step hStep rfl (by simp) (Returns.done_set hLive rfl)

theorem Returns.closing {ending : Ending} (hLive : s.terminated = false)
    (hAt : s.worker = .closing) (hScript : s.script = .ended ending) : Returns cfg s := by
  have hStep : flash_step cfg s (.pclose false) =
      some ({ s with
        op := { s.op with exit_code := WEXITSTATUS (wait_status ending) }
        worker := .coded }, none) := by
    simp [flash_step, hLive, hAt, hScript]
  exact Returns.of_step hStep rfl (by simp) (Returns.coded hLive rfl)

/-- A worker that reads the output of an ended script returns. -/
theorem Returns.reading {ending : Ending} (hLive : s.terminated = false)
    (hAt : s.worker = .reading) (hScript : s.script = .ended ending) : Returns cfg s := by
  have hStep : flash_step cfg s .eof =
      some ({ s with
        op := { s.op with output := trim_newlines s.op.output }, worker := .closing }, none) := by
    simp [flash_step, hLive, hAt]
  exact Returns.of_step hStep rfl (by simp) (Returns.closing hLive rfl hScript)

/-- Once the script is over, the thread returns by itself. -/
theorem Recorded.returns (h : Recorded trace s) (hLive : s.terminated = false)
    (hOver : s.script_open = false) (hUsed : s.worker ≠ .none) : Returns cfg s := by
  have hFits := h.fits
  unfold FlashSystem.script_fits at hFits
  unfold FlashSystem.script_open at hOver
  have hEnded : s.script ≠ .none → s.script ≠ .running → ∃ ending, s.script = .ended ending := by
    intro hSome hStill
    cases hScript : s.script with
    | none => exact absurd hScript hSome
    | running => exact absurd hScript hStill
    | ended ending => exact ⟨ending, rfl⟩
  cases hAt : s.worker with
  | none => exact absurd hAt hUsed
  | begun | running_set | time_set => simp [hAt] at hOver
  | reading =>
      rw [hAt] at hFits hOver
      obtain ⟨ending, hScript⟩ := hEnded hFits (by simpa using hOver)
      exact Returns.reading hLive hAt hScript
  | closing =>
      rw [hAt] at hFits hOver
      obtain ⟨ending, hScript⟩ := hEnded hFits (by simpa using hOver)
      exact Returns.closing hLive hAt hScript
  | coded => exact Returns.coded hLive hAt
  | done_set => exact Returns.done_set hLive hAt
  | finished => exact ⟨[], s, Runs.zero s, hAt, rfl, hLive, by simp⟩

/-- A poll whose thread has returned comes to its answer. -/
theorem join_answers (cfg : Config) (hLive : s.terminated = false)
    (hAt : s.command.is_joining = true) (hFinished : s.worker = .finished) :
    ∃ answer t, flash_step cfg s .resume = some (t, some (.answer answer)) := by
  cases hCommand : s.command with
  | poll_cancel =>
      simp [flash_step, FlashSystem.resume, FlashSystem.join_returns, hLive, hCommand, hFinished]
  | poll_join result =>
      simp [flash_step, FlashSystem.resume, FlashSystem.join_returns, hLive, hCommand, hFinished]
  | _ => simp [hCommand, Command.is_joining] at hAt

/-- **Polls do not wait for the script**, as long as none finds an operation 60 s old
before its script has ended: no join then waits for a script, and from every join
the answer is reached without a step of the script. A poll that does find such an
operation waits for its script. -/
theorem polls_do_not_wait (cfg : Config) (clock : Nat) :
    (∀ trace s, Runs (Guarded (flash_machine cfg).Step NoEarlyTimeout) (idle_at clock) trace s →
      ¬ s.waits_for_script ∧
      (s.command.is_joining = true → ∃ more t answer u,
        Runs (flash_machine cfg).Step s more t ∧
        (∀ label ∈ more, ∀ ending, label.1 ≠ .script_ends ending) ∧
        (flash_machine cfg).Step t (.resume, some (.answer answer)) u)) ∧
    (∀ trace s label t, Runs (flash_machine cfg).Step (idle_at clock) trace s →
      (flash_machine cfg).Step s label t → ¬ NoEarlyTimeout s label → t.waits_for_script) := by
  constructor
  · intro trace s run
    have hLate := cancels_late_of_run run
    have hJoining : s.command.is_joining = true → s.terminated = false := by
      intro hAt
      cases hTerminated : s.terminated with
      | false => rfl
      | true => simp [hLate.assigning hTerminated, Command.is_joining] at hAt
    have hOver : s.command.is_joining = true → s.script_open = false := by
      intro hAt
      have hRecorded := recorded_of_run run.unguard (hJoining hAt)
      cases hCommand : s.command with
      | poll_cancel => exact hLate.ended hCommand
      | poll_join result => exact hRecorded.report_ended hCommand
      | _ => simp [hCommand, Command.is_joining] at hAt
    refine ⟨fun ⟨hAt, _, hOpen⟩ => by simp [hOver hAt] at hOpen, fun hAt => ?_⟩
    have hRecorded := recorded_of_run run.unguard (hJoining hAt)
    have hUsed : s.worker ≠ .none := by
      intro hNone
      have hPolling := (hRecorded.coherent.unused hNone).2
      cases hCommand : s.command <;>
        simp [hCommand, Command.is_joining, Command.is_polling] at hAt hPolling
    obtain ⟨more, t, hMore, hFinished, hCommand, hLive, hQuiet⟩ :=
      hRecorded.returns (hJoining hAt) (hOver hAt) hUsed
    obtain ⟨answer, u, hAnswer⟩ := join_answers cfg hLive (hCommand ▸ hAt) hFinished
    exact ⟨more, t, answer, u, hMore, hQuiet, hAnswer⟩
  · rintro trace s ⟨action, event⟩ t run hStep hEarly
    obtain ⟨hLive, hRule⟩ := flash_step_cases hStep
    have hRecorded := recorded_of_run run hLive
    have hFound : action = .resume ∧ s.command = .poll_elapsed ∧
        ASYNC_TIMEOUT_SEC ≤ s.elapsed_sec ∧ s.script_open = true := by
      simpa [NoEarlyTimeout] using hEarly
    obtain ⟨rfl, hAt, hElapsed, hOpen⟩ := hFound
    have hJoinable := hRecorded.coherent.live (script_open_live hRecorded.fits hOpen).1
    cases hRule with
    | poll_expires => exact ⟨rfl, hJoinable, hOpen⟩
    | poll_running hCommand hYoung => omega
    | _ => simp_all

/-- Ask 60 s into a script that is still running. -/
def poll_late : List FlashAction :=
  [.FLASH (str "a.img"), .resume, .resume, .resume,
   .set_running, .set_start_time, .popen true, .tick 60000000000,
   .TRYFLASHDONE, .resume, .resume, .resume]

/-- The poll is at the join, and the process has no step for it. -/
theorem late_poll_waits : ∃ trace s,
    Runs (flash_machine {}).Step (idle_at 0) trace s ∧ s.waits_for_script ∧
      flash_step {} s .resume = none := by
  obtain ⟨⟨s, trace⟩, hExec, hResult⟩ := Option.map_eq_some_iff.mp
    (by rfl : ((flash_machine {}).exec (idle_at 0) poll_late).map
      (fun result => (result.1.command.is_joining, result.1.op.joinable, result.1.script_open,
        (flash_step {} result.1 .resume).isNone)) = some (true, true, true, true))
  rw [Prod.mk.injEq, Prod.mk.injEq, Prod.mk.injEq] at hResult
  obtain ⟨hJoining, hJoinable, hOpen, hBlocked⟩ := hResult
  exact ⟨trace, s, Machine.runs_of_exec hExec, ⟨hJoining, hJoinable, hOpen⟩,
    Option.isNone_iff_eq_none.mp hBlocked⟩

/-- A poll after the script has ended has nothing to wait for. -/
theorem polls_do_not_wait_after_end : ∃ trace s,
    ((flash_machine {}).guard NoEarlyTimeout).exec (idle_at 0)
      ((flash_until (.exited 0)).take 17) = some (s, trace) ∧ ¬ s.waits_for_script := by
  obtain ⟨⟨s, trace⟩, hExec⟩ := Option.isSome_iff_exists.mp
    (by rfl : (((flash_machine {}).guard NoEarlyTimeout).exec (idle_at 0)
      ((flash_until (.exited 0)).take 17)).isSome = true)
  exact ⟨trace, s, hExec,
    ((polls_do_not_wait {} 0).1 trace s (Machine.runs_of_guard_exec hExec)).1⟩

end RkFlashd
