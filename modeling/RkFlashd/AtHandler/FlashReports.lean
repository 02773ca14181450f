import RkFlashd.AtHandler.FlashRuns

/-! What the flash commands promise a client, and exactly when: the thread handle,
the one operation at a time, and the reports. -/
namespace RkFlashd

open Text Transition

variable {cfg : Config} {s t : FlashSystem} {action : FlashAction} {event : Option FlashEvent}
  {trace : List FlashLabel} {clock : Nat}

/-- `op.worker = std::thread(…)`, whether the daemon survives it or not. -/
def FlashEvent.is_assignment (event : Option FlashEvent) : Bool :=
  event == some .terminate || is_submitted event

/-- The process goes on exactly if no thread is assigned over one that is joinable. -/
theorem assignment_step (h : Coherent s) (hLive : s.terminated = false)
    (hStep : FlashStep cfg s action event t) :
    t.terminated = false ↔ (FlashEvent.is_assignment event = true → s.op.joinable = false) := by
  cases hStep with
  | flash_terminates hAt hJoinable => simp [FlashEvent.is_assignment, hJoinable]
  | flash_submits hAt hJoinable => simp [hLive, hJoinable]
  | flash_rejected hFree hParse =>
      rcases parse_flash_error hParse with rfl | rfl | ⟨mode, rfl⟩ <;>
        simp [hLive, FlashEvent.is_assignment, FlashEvent.is_submitted]
  | poll_reports hAt hJoin =>
      obtain ⟨-, rfl⟩ := h.reported _ hAt
      simp [hLive, FlashEvent.is_assignment, s.op.result_is_terminal.2]
  | _ => simp [hLive, FlashEvent.is_assignment, FlashEvent.is_submitted]

/-- **The thread handle.** A run never assigns to a joinable handle, which would
terminate the daemon, if and only if every submission that gets as far as starting
its thread comes after the terminal answer to the one before. -/
theorem handle_not_overwritten_iff
    (run : Runs (flash_machine cfg).Step (idle_at clock) trace s) :
    s.terminated = false ↔
      Always (fun past label => FlashEvent.is_assignment label.2 = true → owed past = false)
        trace := by
  refine Runs.history (I := fun trace s => s.terminated = false ↔
    Always (fun past label => FlashEvent.is_assignment label.2 = true → owed past = false) trace)
    ?_ ?_ run
  · exact ⟨fun _ => always_nil, fun _ => rfl⟩
  · rintro past u ⟨action, event⟩ v prior hBefore hStep
    obtain ⟨hLive, hRule⟩ := flash_step_cases hStep
    have hRecorded := recorded_of_run prior hLive
    rw [always_concat, assignment_step hRecorded.coherent hLive hRule, ← hRecorded.owed]
    exact ⟨fun h => ⟨hBefore.mp hLive, h⟩, fun h => h.2⟩

/-- Submit, let the worker run a script to its end, and submit again without asking
for the result. -/
def resubmit_unpolled : List FlashAction :=
  [.FLASH (str "a.img"), .resume, .resume, .resume,
   .set_running, .set_start_time, .popen true, .script_ends (.exited 0), .eof, .pclose false,
   .set_done, .clear_running,
   .FLASH (str "b.img"), .resume, .resume, .resume]

/-- The second submission ends the daemon. -/
theorem resubmission_terminates : ∃ trace s,
    Runs (flash_machine {}).Step (idle_at 0) trace s ∧ s.terminated = true := by
  obtain ⟨⟨s, trace⟩, hExec, hTerminated⟩ := Option.map_eq_some_iff.mp
    (by rfl : ((flash_machine {}).exec (idle_at 0) resubmit_unpolled).map
      (fun result => result.1.terminated) = some true)
  exact ⟨trace, s, Machine.runs_of_exec hExec, hTerminated⟩

/-- Submit, let the script end in the given way, and ask for the result. -/
def flash_until (ending : Ending) : List FlashAction :=
  [.FLASH (str "a.img"), .resume, .resume, .resume,
   .set_running, .set_start_time, .popen true, .script_ends ending, .eof, .pclose false,
   .set_done, .clear_running,
   .TRYFLASHDONE, .resume, .resume, .resume, .resume, .resume]

/-- Submit, ask for the result, and submit again. -/
def resubmit_polled : List FlashAction :=
  flash_until (.exited 0) ++ [.FLASH (str "b.img"), .resume, .resume, .resume]

set_option maxRecDepth 2000 in
/-- Two submissions with the terminal answer to the first between them. -/
theorem handle_not_overwritten_once : ∃ trace s,
    (flash_machine {}).exec (idle_at 0) resubmit_polled = some (s, trace) ∧
    trace.filterMap Prod.snd = [.answer (.submitted (str "/sbin/flash_full.sh a.img")),
      .answer (.ok (str "/sbin/flash_full.sh a.img") []),
      .answer (.submitted (str "/sbin/flash_full.sh b.img"))] ∧
    Always (fun past label => FlashEvent.is_assignment label.2 = true → owed past = false)
      trace := by
  obtain ⟨⟨s, trace⟩, hExec, hResult⟩ := Option.map_eq_some_iff.mp
    (by rfl : ((flash_machine {}).exec (idle_at 0) resubmit_polled).map
      (fun result => (result.2.filterMap Prod.snd, result.1.terminated)) =
        some ([.answer (.submitted (str "/sbin/flash_full.sh a.img")),
          .answer (.ok (str "/sbin/flash_full.sh a.img") []),
          .answer (.submitted (str "/sbin/flash_full.sh b.img"))], false))
  obtain ⟨hAnswers, hGoesOn⟩ := Prod.mk.inj hResult
  exact ⟨trace, s, hExec, hAnswers,
    (handle_not_overwritten_iff (Machine.runs_of_exec hExec)).mp hGoesOn⟩

/-! One operation at a time. -/

/-- The accesses that read `running` first. -/
def Command.loads_running : Command → Bool
  | .flash_load _ | .poll_load_running => true
  | _ => false

/-- A command loads `running` only when no worker has been started that has not yet
stored it. -/
def RunningStored (s : FlashSystem) (label : FlashLabel) : Prop :=
  label.1 = .resume → s.command.loads_running = true → s.worker ≠ .begun

instance (s : FlashSystem) (label : FlashLabel) : Decidable (RunningStored s label) :=
  inferInstanceAs (Decidable (_ → _ → _))

/-- A command that has found `running` clear. -/
def Command.found_idle : Command → Bool
  | .flash_stores _ | .flash_assign | .poll_idle => true
  | _ => false

/-- Under the guard a command that found `running` clear found no thread at work. -/
theorem found_idle_step (h : Coherent s) (hStep : FlashStep cfg s action event t)
    (hStored : RunningStored s (action, event))
    (hIdle : s.command.found_idle = true → s.worker.is_live = false) :
    t.command.found_idle = true → t.worker.is_live = false := by
  have hClear : s.op.running = false → s.worker ≠ .begun → s.worker.is_live = false := by
    intro hRunning hBegun
    rw [h.running] at hRunning
    cases hAt : s.worker <;> simp_all [Worker.is_running, Worker.is_live]
  cases hStep with
  | flash_admitted hAt hRunning =>
      intro _
      exact hClear hRunning (hStored rfl (by rw [hAt]; rfl))
  | poll_finds_idle hAt hRunning =>
      intro _
      exact hClear hRunning (hStored rfl (by rw [hAt]; rfl))
  | flash_stores hAt =>
      intro _
      exact hIdle (by rw [hAt]; rfl)
  | set_running hAt | set_start_time hAt | popen hAt | popen_fails hAt | eof hAt | pclose hAt
  | set_done hAt | clear_running hAt =>
      intro hFound
      have hDead := hIdle hFound
      simp [hAt, Worker.is_live] at hDead
  | flash_rejected | flash_terminates | fgets | script_ends | tick => exact hIdle
  | _ => simp [Command.found_idle]

/-- A script that may still run, or is running, has a thread. -/
theorem script_open_live (hFits : s.script_fits) (hOpen : s.script_open = true) :
    s.worker.is_live = true ∧ s.worker.is_coded = false := by
  unfold FlashSystem.script_fits at hFits
  unfold FlashSystem.script_open at hOpen
  cases hAt : s.worker <;> simp_all [Worker.is_live, Worker.is_coded]

/-- The command that has come in and has not been answered. -/
def unanswered (trace : List FlashLabel) : Option FlashAction :=
  trace.foldl (fun command label =>
    match label with
    | (.FLASH arg, none) => some (.FLASH arg)
    | (.TRYFLASHDONE, none) => some .TRYFLASHDONE
    | (_, none) => command
    | (_, some _) => none) none

/-- What the command in progress has come in as. -/
def Command.came_as : Command → Option FlashAction → Prop
  | .none, command => command = Option.none
  | .flash_load _, command | .flash_stores _, command | .flash_assign, command =>
      ∃ arg, command = some (.FLASH arg)
  | _, command => command = some .TRYFLASHDONE

/-- A command stays the one that came in until it is answered. -/
theorem came_as_step (h : s.command.came_as (unanswered trace))
    (hStep : FlashStep cfg s action event t) (hGoesOn : t.terminated = false) :
    t.command.came_as (unanswered (trace ++ [(action, event)])) := by
  have hNext : unanswered (trace ++ [(action, event)]) =
      match (action, event) with
      | (.FLASH arg, none) => some (.FLASH arg)
      | (.TRYFLASHDONE, none) => some .TRYFLASHDONE
      | (_, none) => unanswered trace
      | (_, some _) => none := by
    rw [unanswered, List.foldl_append]
    rfl
  rw [hNext]
  cases hStep with
  | flash_rejected hFree => exact hFree ▸ rfl
  | flash_arrives => exact ⟨_, rfl⟩
  | poll_arrives | flash_refused | flash_submits | poll_nothing | poll_running | poll_timeout
  | poll_reports => rfl
  | flash_terminates => cases hGoesOn
  | flash_admitted hAt | flash_stores hAt | poll_finds_running hAt | poll_finds_idle hAt
  | poll_idle_done hAt | poll_finds_done hAt | poll_finds_undone hAt | poll_expires hAt
  | poll_result hAt =>
      rw [hAt] at h
      exact h
  | set_running | set_start_time | popen | popen_fails | fgets | eof | pclose | set_done
  | clear_running | script_ends | tick => exact h

/-- In every run the command that is being handled is the one that came in last. -/
theorem came_as_of_run (run : Runs (flash_machine cfg).Step (idle_at clock) trace s)
    (hGoesOn : s.terminated = false) : s.command.came_as (unanswered trace) := by
  refine Runs.history (I := fun trace s => s.terminated = false →
    s.command.came_as (unanswered trace)) (fun _ => rfl) ?_ run hGoesOn
  rintro past u ⟨action, event⟩ v - hBefore hStep hAfter
  obtain ⟨hLive, hRule⟩ := flash_step_cases hStep
  exact came_as_step (hBefore hLive) hRule hAfter

/-- What is answered while a script is due or running: to a submission that it is refused, or
what is wrong with it, and to a poll that the operation is running or has been given up. -/
def BusyAnswer (past : List FlashLabel) (label : FlashLabel) (answer : FlashAnswer) : Prop :=
  ((∃ arg, unanswered past = some (.FLASH arg)) ∧ answer = .in_progress) ∨
  (∃ arg, label.1 = .FLASH arg ∧ parse_flash arg = .error answer) ∨
  unanswered past = some .TRYFLASHDONE ∧
    (answer = .timeout ∨ ∃ cmd elapsed, answer = .running cmd elapsed)

/-- While a script runs, a step answers a submission and a poll as they are to be answered. -/
theorem busy_step (h : Coherent s) (hFits : s.script_fits) (hOpen : s.script_open = true)
    (hIdle : s.command.found_idle = true → s.worker.is_live = false)
    (hCame : s.command.came_as (unanswered trace))
    (hStep : FlashStep cfg s action event t) :
    event ≠ some .terminate ∧
      ∀ answer, event = some (.answer answer) → BusyAnswer trace (action, event) answer := by
  obtain ⟨hLive, hUncoded⟩ := script_open_live hFits hOpen
  have hBusy : s.command.found_idle = false := by
    cases hFound : s.command.found_idle with
    | false => rfl
    | true => simp [hIdle hFound] at hLive
  cases hStep with
  | flash_rejected hFree hParse =>
      refine ⟨by simp, ?_⟩
      rintro answer ⟨⟩
      exact Or.inr (Or.inl ⟨_, rfl, hParse⟩)
  | flash_refused hAt =>
      rw [hAt] at hCame
      refine ⟨by simp, ?_⟩
      rintro answer ⟨⟩
      exact Or.inl ⟨hCame, rfl⟩
  | flash_terminates hAt | flash_submits hAt | poll_nothing hAt =>
      simp [hAt, Command.found_idle] at hBusy
  | poll_running hAt =>
      rw [hAt] at hCame
      refine ⟨by simp, ?_⟩
      rintro answer ⟨⟩
      exact Or.inr (Or.inr ⟨hCame, Or.inr ⟨_, _, rfl⟩⟩)
  | poll_timeout hAt =>
      rw [hAt] at hCame
      refine ⟨by simp, ?_⟩
      rintro answer ⟨⟩
      exact Or.inr (Or.inr ⟨hCame, Or.inl rfl⟩)
  | poll_reports hAt =>
      have hDone := h.done (h.reported _ hAt).1
      cases hWorker : s.worker <;> simp_all [Worker.is_done, Worker.is_coded]
  | _ => simp

theorem found_idle_of_run
    (run : Runs (Guarded (flash_machine cfg).Step RunningStored) (idle_at clock) trace s) :
    s.command.found_idle = true → s.worker.is_live = false := by
  refine Runs.history (I := fun _ s => s.command.found_idle = true → s.worker.is_live = false)
    (by simp [idle_at, Command.found_idle]) ?_ run
  rintro past u ⟨action, event⟩ v prior hBefore ⟨hStep, hStored⟩
  obtain ⟨hLive, hRule⟩ := flash_step_cases hStep
  exact found_idle_step (recorded_of_run prior.unguard hLive).coherent hRule hStored hBefore

/-- **One operation at a time.** When no command loads `running` between the start
of a worker and the worker's own store of it, then from the submission to the end of
its script every submission is refused and every poll says `RUNNING` or `TIMEOUT`. -/
theorem one_flash_at_a_time
    (run : Runs (Guarded (flash_machine cfg).Step RunningStored) (idle_at clock) trace s) :
    Always (fun past label => script_pending past = true →
      label.2 ≠ some .terminate ∧
        ∀ answer, label.2 = some (.answer answer) → BusyAnswer past label answer) trace := by
  refine Runs.always ?_ run
  rintro past u ⟨action, event⟩ v prior ⟨hStep, -⟩ hPending
  obtain ⟨hLive, hRule⟩ := flash_step_cases hStep
  have hRecorded := recorded_of_run prior.unguard hLive
  rw [hRecorded.pending] at hPending
  exact busy_step hRecorded.coherent hRecorded.fits hPending (found_idle_of_run prior)
    (came_as_of_run prior.unguard hLive) hRule

/-- Submit and ask before the worker has taken its first step. -/
def poll_at_once : List FlashAction :=
  [.FLASH (str "a.img"), .resume, .resume, .resume, .TRYFLASHDONE, .resume, .resume]

/-- The first poll after a submission may find nothing pending. -/
theorem poll_at_once_finds_nothing : ∃ trace s,
    Runs (flash_machine {}).Step (idle_at 0) trace s ∧ trace.map Prod.snd =
      [none, none, none, some (.answer (.submitted (str "/sbin/flash_full.sh a.img"))),
       none, none, some (.answer .no_pending)] ∧ script_pending trace = true := by
  obtain ⟨⟨s, trace⟩, hExec, hResult⟩ := Option.map_eq_some_iff.mp
    (by rfl : ((flash_machine {}).exec (idle_at 0) poll_at_once).map
      (fun result => (result.2.map Prod.snd, script_pending result.2)) =
        some ([none, none, none, some (.answer (.submitted (str "/sbin/flash_full.sh a.img"))),
          none, none, some (.answer .no_pending)], true))
  rw [Prod.mk.injEq] at hResult
  exact ⟨trace, s, Machine.runs_of_exec hExec, hResult.1, hResult.2⟩

/-- Once the worker has stored `running`, another submission and a poll. -/
def busy_commands : List FlashAction :=
  poll_at_once.take 4 ++
    [.set_running, .FLASH (str "b.img"), .resume, .TRYFLASHDONE, .resume, .resume, .resume]

/-- The submission is refused, and the poll finds the first one running. -/
theorem one_flash_at_a_time_refused : ∃ trace s,
    ((flash_machine {}).guard RunningStored).exec (idle_at 0) busy_commands = some (s, trace) ∧
    trace.filterMap Prod.snd = [.answer (.submitted (str "/sbin/flash_full.sh a.img")),
      .answer .in_progress, .answer (.running (str "/sbin/flash_full.sh a.img") 0)] ∧
    Always (fun past label => script_pending past = true →
      label.2 ≠ some .terminate ∧
        ∀ answer, label.2 = some (.answer answer) → BusyAnswer past label answer) trace := by
  obtain ⟨⟨s, trace⟩, hExec, hAnswers⟩ := Option.map_eq_some_iff.mp
    (by rfl : (((flash_machine {}).guard RunningStored).exec (idle_at 0) busy_commands).map
      (fun result => result.2.filterMap Prod.snd) =
        some [.answer (.submitted (str "/sbin/flash_full.sh a.img")),
          .answer .in_progress, .answer (.running (str "/sbin/flash_full.sh a.img") 0)])
  exact ⟨trace, s, hExec, hAnswers, one_flash_at_a_time (Machine.runs_of_guard_exec hExec)⟩

/-! What `OK` means. -/

/-- `OK` or `ERROR … failed`. -/
def FlashEvent.is_report : Option FlashEvent → Bool
  | some (.answer (.ok _ _)) | some (.answer (.failed _ _ _)) => true
  | _ => false

/-- `pclose` returned the status of a script that a signal had killed. -/
def Outcome.killed (o : Outcome) : Prop := ∃ sig core, o.status = some (.signaled sig core)

/-- `WEXITSTATUS` is zero after every signal, too. -/
theorem exit_status_eq_zero_iff (ending : Ending) :
    WEXITSTATUS (wait_status ending) = 0 ↔
      ending = .exited 0 ∨ ∃ sig core, ending = .signaled sig core := by
  cases ending with
  | exited code =>
      have hCode : WEXITSTATUS (wait_status (.exited code)) = code.toNat := by
        have hLt := code.toNat_lt
        simp only [WEXITSTATUS, wait_status]
        omega
      rw [hCode]
      simp [UInt8.ext_iff]
  | signaled sig core =>
      obtain ⟨hPos, hLt⟩ := sig.property
      have hZero : WEXITSTATUS (wait_status (.signaled sig core)) = 0 := by
        simp only [WEXITSTATUS, wait_status]
        cases core <;> simp <;> omega
      simp [hZero]

/-- The report that a finished worker leaves is right unless its script was killed. -/
theorem Recorded.result (h : Recorded trace s) (hDone : s.op.done = true)
    (hCommand : s.command ≠ .flash_assign) :
    (s.op.exit_code = 0 → (outcome_of trace).ending = some (.exited 0)) ↔
      ¬ (outcome_of trace).killed := by
  have hCoded : s.worker.is_coded = true := by
    have hWorker := h.coherent.done hDone
    cases hAt : s.worker <;> simp_all [Worker.is_done, Worker.is_coded]
  have hStatus := h.status
  unfold Outcome.killed
  cases hReported : (outcome_of trace).status with
  | none =>
      rw [hReported] at hStatus
      have hCode : s.op.exit_code ≠ 0 := hStatus hCoded hCommand
      simp [hCode]
  | some ending =>
      rw [hReported] at hStatus
      obtain ⟨-, hScript, hCode⟩ := hStatus
      have hEnding : (outcome_of trace).ending = some ending := by
        rw [h.ending, hScript]
        rfl
      rw [hCode hCommand, exit_status_eq_zero_iff, hEnding]
      cases ending <;> simp

/-- A step says `OK` of a script that has failed exactly if it reports on one that was killed. -/
theorem Recorded.report (h : Recorded trace s) (hStep : FlashStep cfg s action event t) :
    (∀ cmd output, event = some (.answer (.ok cmd output)) →
      (outcome_of trace).ending = some (.exited 0)) ↔
    (FlashEvent.is_report event = true → ¬ (outcome_of trace).killed) := by
  cases hStep with
  | flash_rejected hFree hParse =>
      rcases parse_flash_error hParse with rfl | rfl | ⟨mode, rfl⟩ <;>
        simp [FlashEvent.is_report]
  | poll_reports hAt hJoin =>
      obtain ⟨hDone, rfl⟩ := h.coherent.reported _ hAt
      rw [← h.result hDone (by simp [hAt])]
      unfold FlashOp.result
      split
      · rename_i hCode
        simp [FlashEvent.is_report, hCode]
      · rename_i hCode
        simp [FlashEvent.is_report, hCode]
  | _ => simp [FlashEvent.is_report]

/-- **What `OK` means.** Every `OK` of a run is for a script that exited with code 0,
if and only if no report is for a script that a signal had killed. -/
theorem ok_means_success_iff
    (run : Runs (flash_machine cfg).Step (idle_at clock) trace s) :
    Always (fun past label => ∀ cmd output, label.2 = some (.answer (.ok cmd output)) →
      (outcome_of past).ending = some (.exited 0)) trace ↔
    Always (fun past label => FlashEvent.is_report label.2 = true →
      ¬ (outcome_of past).killed) trace := by
  refine Runs.always_iff ?_ run
  rintro past u ⟨action, event⟩ v prior hStep
  obtain ⟨hLive, hRule⟩ := flash_step_cases hStep
  exact (recorded_of_run prior hLive).report hRule

/-- SIGKILL. -/
def killed_by_9 : Ending := .signaled ⟨9, by decide⟩ false

/-- A script that was killed is reported as done. -/
theorem killed_script_is_ok : ∃ trace s,
    Runs (flash_machine {}).Step (idle_at 0) trace s ∧
    trace.getLast? = some (.resume, some (.answer (.ok (str "/sbin/flash_full.sh a.img") []))) ∧
    (outcome_of trace).ending = some killed_by_9 := by
  obtain ⟨⟨s, trace⟩, hExec, hResult⟩ := Option.map_eq_some_iff.mp
    (by rfl : ((flash_machine {}).exec (idle_at 0) (flash_until killed_by_9)).map
      (fun result => (result.2.getLast?, (outcome_of result.2).ending)) =
        some (some (.resume, some (.answer (.ok (str "/sbin/flash_full.sh a.img") []))),
          some killed_by_9))
  rw [Prod.mk.injEq] at hResult
  exact ⟨trace, s, Machine.runs_of_exec hExec, hResult.1, hResult.2⟩

instance (o : Outcome) : Decidable o.killed :=
  match hStatus : o.status with
  | some (.signaled sig core) => isTrue ⟨sig, core, hStatus⟩
  | some (.exited code) => isFalse (by rintro ⟨sig, core, h⟩; cases hStatus.symm.trans h)
  | none => isFalse (by rintro ⟨sig, core, h⟩; cases hStatus.symm.trans h)

set_option maxRecDepth 2000 in
/-- A script that exits with code 0 is reported as done, and nothing else is. -/
theorem ok_means_success_exited : ∃ trace s,
    (flash_machine {}).exec (idle_at 0) (flash_until (.exited 0)) = some (s, trace) ∧
    trace.getLast? = some (.resume, some (.answer (.ok (str "/sbin/flash_full.sh a.img") []))) ∧
    Always (fun past label => ∀ cmd output, label.2 = some (.answer (.ok cmd output)) →
      (outcome_of past).ending = some (.exited 0)) trace := by
  obtain ⟨⟨s, trace⟩, hExec, hResult⟩ := Option.map_eq_some_iff.mp
    (by rfl : ((flash_machine {}).exec (idle_at 0) (flash_until (.exited 0))).map
      (fun result => (result.2.getLast?, decide (Always (fun past label =>
        FlashEvent.is_report label.2 = true → ¬ (outcome_of past).killed) result.2))) =
      some (some (.resume, some (.answer (.ok (str "/sbin/flash_full.sh a.img") []))), true))
  obtain ⟨hLast, hUnkilled⟩ := Prod.mk.inj hResult
  exact ⟨trace, s, hExec, hLast,
    (ok_means_success_iff (Machine.runs_of_exec hExec)).mpr (of_decide_eq_true hUnkilled)⟩

/-! One terminal answer. -/

/-- Once nothing is owed, a poll finds nothing pending. -/
def ReportedOnce (past : List FlashLabel) (label : FlashLabel) : Prop :=
  FlashEvent.is_poll label.2 = true → owed past = false → label.2 = some (.answer .no_pending)

/-- No poll is answered between a `TIMEOUT` and the next accepted submission. -/
def NoPollAfterTimeout (past : List FlashLabel) (label : FlashLabel) : Prop :=
  FlashEvent.is_poll label.2 = true → timed_out past = false

/-- After a `TIMEOUT`, `done` stays set until a poll or a submission clears it. -/
def Abandoned (trace : List FlashLabel) (s : FlashSystem) : Prop :=
  timed_out trace = true → s.op.joinable = false ∧
    (s.op.done = true ∨ s.command = .flash_assign) ∧
    s.command ≠ .poll_elapsed ∧ s.command ≠ .poll_cancel

theorem FlashOp.result_is_poll (op : FlashOp) :
    FlashEvent.is_poll (some (.answer op.result)) = true := by
  unfold FlashOp.result
  split <;> rfl

/-- If nobody polls, an operation that was given up stays done, with nothing to join. -/
theorem Recorded.abandoned_step (h : Recorded trace s) (hAbandoned : Abandoned trace s)
    (hStep : FlashStep cfg s action event t) (hQuiet : NoPollAfterTimeout trace (action, event)) :
    Abandoned (trace ++ [(action, event)]) t := by
  intro hAfter
  by_cases hTimeout : event = some (.answer .timeout)
  · cases hStep with
    | poll_timeout => simp
    | poll_reports hAt =>
        obtain ⟨-, rfl⟩ := h.coherent.reported _ hAt
        simp only [FlashOp.result, Option.some.injEq, FlashEvent.answer.injEq] at hTimeout
        split at hTimeout <;> cases hTimeout
    | flash_rejected hFree hParse =>
        rcases parse_flash_error hParse with rfl | rfl | ⟨mode, rfl⟩ <;> cases hTimeout
    | _ => cases hTimeout
  · have hBefore : timed_out trace = true ∧ FlashEvent.is_submitted event = false := by
      simpa [timed_out, hTimeout] using hAfter
    obtain ⟨hOld, hNot⟩ := hBefore
    obtain ⟨hJoinable, hDone, hElapsed, hCancel⟩ := hAbandoned hOld
    have hDead := h.coherent.not_live hJoinable
    have hNoPoll : FlashEvent.is_poll event = false := by
      cases hPoll : FlashEvent.is_poll event with
      | false => rfl
      | true => simp [hQuiet hPoll] at hOld
    cases hStep with
    | flash_rejected | flash_terminates | script_ends | tick =>
        exact ⟨hJoinable, hDone, hElapsed, hCancel⟩
    | flash_arrives hAt | poll_arrives hAt | flash_refused hAt | flash_admitted hAt
    | poll_finds_idle hAt | poll_idle_done hAt | poll_finds_done hAt | poll_result hAt =>
        exact ⟨hJoinable, Or.inl (hDone.resolve_right (by simp [hAt])), by simp, by simp⟩
    | flash_stores => exact ⟨hJoinable, Or.inr rfl, by simp, by simp⟩
    | flash_submits => cases hNot
    | poll_finds_running hAt hRunning =>
        simp [h.coherent.not_running hDead] at hRunning
    | poll_finds_undone hAt hUndone =>
        have hSet := hDone.resolve_right (by simp [hAt])
        simp [hUndone] at hSet
    | poll_expires hAt => exact absurd hAt hElapsed
    | poll_nothing | poll_running | poll_timeout => cases hNoPoll
    | poll_reports hAt =>
        obtain ⟨-, rfl⟩ := h.coherent.reported _ hAt
        simp [s.op.result_is_poll] at hNoPoll
    | set_running hAt | set_start_time hAt | popen hAt | popen_fails hAt | fgets hAt | eof hAt
    | pclose hAt | set_done hAt | clear_running hAt =>
        simp [hAt, Worker.is_live] at hDead

/-- On one answer, as long as no poll has come after a `TIMEOUT` yet. -/
theorem Recorded.reported_once_iff (h : Recorded trace s) (hAbandoned : Abandoned trace s)
    (hStep : FlashStep cfg s action event t) :
    ReportedOnce trace (action, event) ↔ NoPollAfterTimeout trace (action, event) := by
  constructor
  · intro hOnce hPoll
    cases hOld : timed_out trace with
    | false => rfl
    | true =>
        obtain ⟨hJoinable, hDone, -, -⟩ := hAbandoned hOld
        have hNothing := hOnce hPoll (by rw [h.owed, hJoinable])
        cases hStep with
        | poll_nothing hAt hUndone =>
            have hSet := hDone.resolve_right (by simp [hAt])
            simp [hUndone] at hSet
        | poll_reports hAt =>
            obtain ⟨-, rfl⟩ := h.coherent.reported _ hAt
            simp only [FlashOp.result, Option.some.injEq, FlashEvent.answer.injEq] at hNothing
            split at hNothing <;> cases hNothing
        | flash_rejected hFree hParse =>
            rcases parse_flash_error hParse with rfl | rfl | ⟨mode, rfl⟩ <;> cases hNothing
        | _ => cases hNothing
  · intro hQuiet hPoll hOwed
    have hOld := hQuiet hPoll
    obtain ⟨hDone, hPolling⟩ := h.settled (by rw [← h.owed]; exact hOwed) hOld
    cases hStep with
    | poll_nothing => rfl
    | poll_running hAt | poll_timeout hAt | poll_reports hAt =>
        simp [hAt, Command.is_polling] at hPolling
    | flash_rejected hFree hParse =>
        rcases parse_flash_error hParse with rfl | rfl | ⟨mode, rfl⟩ <;> cases hPoll
    | _ => cases hPoll

/-- **One terminal answer.** Each submission of a run gets at most one terminal
answer, and after it every poll finds nothing pending, if and only if no poll is
answered between a `TIMEOUT` and the next accepted submission. -/
theorem one_terminal_answer_iff
    (run : Runs (flash_machine cfg).Step (idle_at clock) trace s) :
    Always ReportedOnce trace ↔ Always NoPollAfterTimeout trace := by
  have hBoth : (Always ReportedOnce trace ↔ Always NoPollAfterTimeout trace) ∧
      (Always NoPollAfterTimeout trace → Abandoned trace s) := by
    refine Runs.history (I := fun trace s =>
      (Always ReportedOnce trace ↔ Always NoPollAfterTimeout trace) ∧
      (Always NoPollAfterTimeout trace → Abandoned trace s)) ?_ ?_ run
    · exact ⟨⟨fun _ => always_nil, fun _ => always_nil⟩, by simp [Abandoned, timed_out]⟩
    · rintro past u ⟨action, event⟩ v prior ⟨hIff, hAbandoned⟩ hStep
      obtain ⟨hLive, hRule⟩ := flash_step_cases hStep
      have hRecorded := recorded_of_run prior hLive
      rw [always_concat, always_concat]
      constructor
      · constructor
        · rintro ⟨hPast, hLast⟩
          have hQuiet := hIff.mp hPast
          exact ⟨hQuiet, (hRecorded.reported_once_iff (hAbandoned hQuiet) hRule).mp hLast⟩
        · rintro ⟨hQuiet, hLast⟩
          exact ⟨hIff.mpr hQuiet,
            (hRecorded.reported_once_iff (hAbandoned hQuiet) hRule).mpr hLast⟩
      · rintro ⟨hQuiet, hLast⟩
        exact hRecorded.abandoned_step (hAbandoned hQuiet) hRule hLast
  exact hBoth.1

/-- Ask after 60 s, let the script end while the poll waits for it, and ask again. -/
def poll_past_timeout : List FlashAction :=
  [.FLASH (str "a.img"), .resume, .resume, .resume,
   .set_running, .set_start_time, .popen true, .tick 60000000000,
   .TRYFLASHDONE, .resume, .resume, .resume,
   .script_ends (.exited 0), .eof, .pclose false, .set_done, .clear_running, .resume,
   .TRYFLASHDONE, .resume, .resume, .resume, .resume, .resume]

set_option maxRecDepth 2000 in
/-- The operation that was given up is reported once more. -/
theorem timeout_is_reported_again : ∃ trace s,
    Runs (flash_machine {}).Step (idle_at 0) trace s ∧ trace.filterMap Prod.snd =
      [.answer (.submitted (str "/sbin/flash_full.sh a.img")), .answer .timeout,
       .answer (.ok (str "/sbin/flash_full.sh a.img") [])] := by
  obtain ⟨⟨s, trace⟩, hExec, hResult⟩ := Option.map_eq_some_iff.mp
    (by rfl : ((flash_machine {}).exec (idle_at 0) poll_past_timeout).map
      (fun result => result.2.filterMap Prod.snd) =
        some [.answer (.submitted (str "/sbin/flash_full.sh a.img")), .answer .timeout,
          .answer (.ok (str "/sbin/flash_full.sh a.img") [])])
  exact ⟨trace, s, Machine.runs_of_exec hExec, hResult⟩

instance (past : List FlashLabel) (label : FlashLabel) :
    Decidable (NoPollAfterTimeout past label) :=
  inferInstanceAs (Decidable (_ → _))

/-- Ask for the result of a script that failed, and ask once more. -/
def poll_twice : List FlashAction :=
  flash_until (.exited 1) ++ [.TRYFLASHDONE, .resume, .resume]

/-- Without a `TIMEOUT` there is one report, and nothing is pending after it. -/
theorem one_terminal_answer_polled : ∃ trace s,
    (flash_machine {}).exec (idle_at 0) poll_twice = some (s, trace) ∧
    trace.filterMap Prod.snd = [.answer (.submitted (str "/sbin/flash_full.sh a.img")),
      .answer (.failed (str "/sbin/flash_full.sh a.img") 1 []), .answer .no_pending] ∧
    Always ReportedOnce trace := by
  obtain ⟨⟨s, trace⟩, hExec, hResult⟩ := Option.map_eq_some_iff.mp
    (by decide +kernel : ((flash_machine {}).exec (idle_at 0) poll_twice).map
      (fun result => (result.2.filterMap Prod.snd, decide (Always NoPollAfterTimeout result.2))) =
        some ([.answer (.submitted (str "/sbin/flash_full.sh a.img")),
          .answer (.failed (str "/sbin/flash_full.sh a.img") 1 []), .answer .no_pending], true))
  obtain ⟨hAnswers, hQuiet⟩ := Prod.mk.inj hResult
  exact ⟨trace, s, hExec, hAnswers,
    (one_terminal_answer_iff (Machine.runs_of_exec hExec)).mpr (of_decide_eq_true hQuiet)⟩

end RkFlashd
