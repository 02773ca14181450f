import RkFlashd.AtHandler.FlashReports

/-! The times that flash answers speak of. `start_time` belongs to an object that
outlives its operations, and the worker stores it only after it has set `running`. -/
namespace RkFlashd

open Text Transition

variable {cfg : Config} {s t : FlashSystem} {action : FlashAction} {event : Option FlashEvent}
  {trace : List FlashLabel} {clock : Nat}

/-- What a clock beside the daemon reads in a run: the time, and when the current
submission was accepted, its start taken and its script opened. -/
structure Times where
  now : Nat
  submitted : Option Nat := none
  started : Option Nat := none
  opened : Option Nat := none
  deriving DecidableEq

def Times.next (o : Times) (label : FlashLabel) : Times :=
  match label with
  | (.tick ns, _) => { o with now := o.now + ns }
  | (.set_start_time, _) => { o with started := some o.now }
  | (.popen _, _) => { o with opened := some o.now }
  | (_, event) =>
      if FlashEvent.is_submitted event then { now := o.now, submitted := some o.now } else o

def times_of (clock : Nat) (trace : List FlashLabel) : Times :=
  trace.foldl Times.next { now := clock }

/-- A `TIMEOUT` comes 60 s after the current operation began, and the seconds of a
`RUNNING` are no more than have passed since its submission. -/
def Current (began : Times → Option Nat) (times : Times) (event : Option FlashEvent) : Prop :=
  (event = some (.answer .timeout) →
    ∃ start, began times = some start ∧ start + ASYNC_TIMEOUT_SEC * 10 ^ 9 ≤ times.now) ∧
  ∀ cmd elapsed, event = some (.answer (.running cmd elapsed)) →
    ∃ submitted, times.submitted = some submitted ∧ submitted + elapsed * 10 ^ 9 ≤ times.now

/-- The worker function has been entered. -/
def Worker.has_entered : Worker → Bool
  | .none | .begun => false
  | _ => true

/-- The worker function has stored `start_time`. -/
def Worker.has_stored : Worker → Bool
  | .none | .begun | .running_set => false
  | _ => true

/-- The worker function has called `popen`. -/
def Worker.has_opened : Worker → Bool
  | .none | .begun | .running_set | .time_set => false
  | _ => true

/-- `start_time` is the current operation's once the worker has stored it, and older than
the submission until then. -/
structure Timed (times : Times) (s : FlashSystem) : Prop where
  now : times.now = s.clock
  past : s.op.start_time ≤ s.clock
  submitted : s.worker ≠ .none → ∃ submitted, times.submitted = some submitted ∧
    submitted ≤ s.clock ∧ (s.worker.has_stored = false → s.op.start_time ≤ submitted) ∧
    (s.worker.has_stored = true → submitted ≤ s.op.start_time)
  unstored : s.worker.has_stored = false → times.started = none
  stored : s.worker.has_stored = true → times.started = some s.op.start_time
  polling : s.command.is_polling = true → s.worker.has_entered = true

theorem timed_initial (clock : Nat) : Timed { now := clock } (idle_at clock) where
  now := rfl
  past := Nat.zero_le clock
  submitted hUsed := absurd rfl hUsed
  unstored _ := rfl
  stored hStored := by simp [idle_at, Worker.has_stored] at hStored
  polling hPolling := by simp [idle_at, Command.is_polling] at hPolling

/-- Nothing but time, the start, the opening and a submission is noted. -/
theorem Times.next_quiet {o : Times} (hTick : ∀ ns, action ≠ .tick ns)
    (hStart : action ≠ .set_start_time) (hOpen : ∀ succeeds, action ≠ .popen succeeds)
    (hNot : FlashEvent.is_submitted event = false) : o.next (action, event) = o := by
  simp only [Times.next]
  rw [hNot]
  rfl

theorem rejection_not_submitted {arg : Bytes} {answer : FlashAnswer}
    (h : parse_flash arg = .error answer) :
    FlashEvent.is_submitted (some (.answer answer)) = false := by
  rcases parse_flash_error h with rfl | rfl | ⟨mode, rfl⟩ <;> rfl

/-- A step that touches neither the times nor the worker's stage. -/
theorem Timed.same {times : Times} (h : Timed times s) (hClock : t.clock = s.clock)
    (hStart : t.op.start_time = s.op.start_time) (hUsed : s.worker = .none → t.worker = .none)
    (hStored : t.worker.has_stored = s.worker.has_stored)
    (hPolling : t.command.is_polling = true → t.worker.has_entered = true) : Timed times t where
  now := h.now.trans hClock.symm
  past := by
    rw [hStart, hClock]
    exact h.past
  submitted hNow := by
    rw [hStart, hClock, hStored]
    exact h.submitted (mt hUsed hNow)
  unstored := by
    rw [hStored]
    exact h.unstored
  stored := by
    rw [hStart, hStored]
    exact h.stored
  polling := hPolling

/-- A command moves on. -/
theorem Timed.move {times : Times} (h : Timed times s) {op : FlashOp} {command : Command}
    (hStart : op.start_time = s.op.start_time)
    (hPolling : command.is_polling = true → s.worker.has_entered = true) :
    Timed times { s with op := op, command := command } :=
  h.same rfl hStart id rfl hPolling

/-- The worker moves on within a stage. -/
theorem Timed.work {times : Times} (h : Timed times s) {op : FlashOp} {worker : Worker}
    {script : Script} (hStart : op.start_time = s.op.start_time) (hUsed : s.worker ≠ .none)
    (hStored : worker.has_stored = s.worker.has_stored) (hEntered : worker.has_entered = true) :
    Timed times { s with op := op, worker := worker, script := script } :=
  h.same rfl hStart (fun hNone => absurd hNone hUsed) hStored fun _ => hEntered

theorem Timed.opens {times : Times} (h : Timed times s) {opened : Option Nat} :
    Timed { times with opened := opened } s :=
  ⟨h.now, h.past, h.submitted, h.unstored, h.stored, h.polling⟩

/-- The times on record stay true of the state, whatever step is taken. -/
theorem Timed.step {times : Times} (h : Timed times s) (hCoherent : Coherent s)
    (hStep : FlashStep cfg s action event t) : Timed (times.next (action, event)) t := by
  have hPolling := h.polling
  cases hStep with
  | flash_rejected hFree hParse =>
      rwa [Times.next_quiet (by simp) (by simp) (by simp) (rejection_not_submitted hParse)]
  | flash_submits hAt hJoinable =>
      exact
        { now := h.now
          past := h.past
          submitted := fun _ => ⟨s.clock, by simp [Times.next, FlashEvent.is_submitted, h.now],
            le_refl s.clock, fun _ => h.past, by simp [Worker.has_stored]⟩
          unstored := fun _ => by simp [Times.next, FlashEvent.is_submitted]
          stored := by simp [Worker.has_stored]
          polling := by simp [Command.is_polling] }
  | set_start_time hAt =>
      obtain ⟨submitted, hSubmitted, hBefore, -, -⟩ := h.submitted (by simp [hAt])
      exact
        { now := h.now
          past := le_refl s.clock
          submitted := fun _ => ⟨submitted, hSubmitted, hBefore, by simp [Worker.has_stored],
            fun _ => hBefore⟩
          unstored := by simp [Worker.has_stored]
          stored := fun _ => by simp [Times.next, h.now]
          polling := fun _ => rfl }
  | @tick ns =>
      exact
        { now := by simp [Times.next, h.now]
          past := Nat.le_add_right_of_le h.past
          submitted := fun hUsed => by
            obtain ⟨submitted, hSubmitted, hBefore, hStages⟩ := h.submitted hUsed
            exact ⟨submitted, hSubmitted, Nat.le_add_right_of_le hBefore, hStages⟩
          unstored := h.unstored
          stored := h.stored
          polling := h.polling }
  | popen hAt | popen_fails hAt =>
      exact h.opens.work rfl (by simp [hAt]) (by rw [hAt]; rfl) rfl
  | poll_reports hAt hJoin =>
      obtain ⟨-, rfl⟩ := hCoherent.reported _ hAt
      rw [Times.next_quiet (by simp) (by simp) (by simp) s.op.result_is_terminal.2]
      exact h.move rfl (by simp [Command.is_polling])
  | poll_finds_running hAt hRunning =>
      rw [Times.next_quiet (by simp) (by simp) (by simp) rfl]
      refine h.move rfl fun _ => ?_
      rw [hCoherent.running] at hRunning
      cases hWorker : s.worker <;> simp_all [Worker.is_running, Worker.has_entered]
  | poll_idle_done hAt hDone =>
      rw [Times.next_quiet (by simp) (by simp) (by simp) rfl]
      refine h.move rfl fun _ => ?_
      have hWorkerDone := hCoherent.done hDone
      cases hWorker : s.worker <;> simp_all [Worker.is_done, Worker.has_entered]
  | poll_finds_done hAt | poll_finds_undone hAt | poll_expires hAt | poll_result hAt =>
      rw [Times.next_quiet (by simp) (by simp) (by simp) rfl]
      exact h.move rfl fun _ => hPolling (by rw [hAt]; rfl)
  | set_running hAt | eof hAt | pclose hAt | set_done hAt | clear_running hAt =>
      rw [Times.next_quiet (by simp) (by simp) (by simp) rfl]
      exact h.work rfl (by simp [hAt]) (by rw [hAt]; rfl) rfl
  | flash_terminates | fgets | script_ends =>
      rw [Times.next_quiet (by simp) (by simp) (by simp) rfl]
      exact h.same rfl rfl id rfl hPolling
  | _ =>
      rw [Times.next_quiet (by simp) (by simp) (by simp) rfl]
      exact h.move rfl (by simp [Command.is_polling])

/-- The times on record are true of the state that a run leads to. -/
theorem timed_of_run (run : Runs (flash_machine cfg).Step (idle_at clock) trace s) :
    Timed (times_of clock trace) s := by
  refine Runs.history (I := fun trace s => Timed (times_of clock trace) s)
    (timed_initial clock) ?_ run
  rintro past u ⟨action, event⟩ v prior hBefore hStep
  obtain ⟨hLive, hRule⟩ := flash_step_cases hStep
  have hNext := hBefore.step (recorded_of_run prior hLive).coherent hRule
  rwa [times_of, List.foldl_concat]

/-- A poll looks at `start_time` only once the worker has stored it. -/
def ReadsStored (s : FlashSystem) (label : FlashLabel) : Prop :=
  label.1 = .resume → s.command = .poll_elapsed → s.worker ≠ .running_set

instance (s : FlashSystem) (label : FlashLabel) : Decidable (ReadsStored s label) :=
  inferInstanceAs (Decidable (_ → _ → _))

/-- Besides, no time passes between the worker's look at the clock and its `popen`. -/
def OpensAtOnce (s : FlashSystem) (label : FlashLabel) : Prop :=
  ReadsStored s label ∧ (s.worker = .time_set → s.clock = s.op.start_time)

/-- Where a poll may look, `start_time` is the current operation's. -/
theorem Timed.reads {times : Times} (h : Timed times s) (hAt : s.command = .poll_elapsed)
    (hReads : ReadsStored s (.resume, event)) : s.worker.has_stored = true := by
  have hEntered := h.polling (by rw [hAt]; rfl)
  have hNot := hReads rfl hAt
  cases hWorker : s.worker <;> simp_all [Worker.has_entered, Worker.has_stored]

instance (s : FlashSystem) (label : FlashLabel) : Decidable (OpensAtOnce s label) :=
  inferInstanceAs (Decidable (_ ∧ (_ → _)))

/-- A poll that has given the operation up found it 60 s old. -/
def Expired (s : FlashSystem) : Prop :=
  s.command = .poll_cancel →
    s.worker.has_stored = true ∧ s.op.start_time + ASYNC_TIMEOUT_SEC * 10 ^ 9 ≤ s.clock

theorem FlashSystem.elapsed_ns {seconds : Nat} (hPast : s.op.start_time ≤ s.clock)
    (hElapsed : seconds ≤ s.elapsed_sec) : s.op.start_time + seconds * 10 ^ 9 ≤ s.clock := by
  have hWhole := (Nat.le_div_iff_mul_le (by decide)).mp hElapsed
  omega

/-- A poll that sees the stored `start_time` gives an operation up only when it is 60 s old. -/
theorem Expired.step {times : Times} (h : Expired s) (hTimed : Timed times s)
    (hStep : FlashStep cfg s action event t) (hReads : ReadsStored s (action, event)) :
    Expired t := by
  intro hAt
  cases hStep with
  | poll_expires hElapsed hLate =>
      exact ⟨hTimed.reads hElapsed hReads, FlashSystem.elapsed_ns hTimed.past hLate⟩
  | tick => exact ⟨(h hAt).1, Nat.le_add_right_of_le (h hAt).2⟩
  | set_running hWorker | set_start_time hWorker =>
      have hStored := (h hAt).1
      simp [hWorker, Worker.has_stored] at hStored
  | popen | popen_fails | eof | pclose | set_done | clear_running => exact ⟨rfl, (h hAt).2⟩
  | flash_rejected | flash_terminates | fgets | script_ends => exact h hAt
  | _ => cases hAt

/-- When the join of a poll returns, the worker has. -/
theorem Timed.join_finished {times : Times} (h : Timed times s) (hCoherent : Coherent s)
    (hAt : s.command.is_polling = true) (hJoin : s.join_returns = true) :
    s.worker = .finished := by
  have hEntered := h.polling hAt
  cases hLive : s.worker.is_live with
  | true => simpa [FlashSystem.join_returns, hCoherent.live hLive] using hJoin
  | false => cases hWorker : s.worker <;> simp_all [Worker.is_live, Worker.has_entered]

/-- The answers of one step, when the operation began at its `start_time`. -/
theorem Timed.current {times : Times} {began : Times → Option Nat} (h : Timed times s)
    (hCoherent : Coherent s) (hExpired : Expired s) (hReads : ReadsStored s (action, event))
    (hBegan : s.worker = .finished → began times = some s.op.start_time)
    (hStep : FlashStep cfg s action event t) : Current began times event := by
  constructor
  · intro hTimeout
    cases hStep with
    | poll_timeout hAt hJoin =>
        have hFinished := h.join_finished hCoherent (by rw [hAt]; rfl) hJoin
        refine ⟨s.op.start_time, hBegan hFinished, ?_⟩
        rw [h.now]
        exact (hExpired hAt).2
    | poll_reports hAt =>
        obtain ⟨-, rfl⟩ := hCoherent.reported _ hAt
        simp only [FlashOp.result, Option.some.injEq, FlashEvent.answer.injEq] at hTimeout
        split at hTimeout <;> cases hTimeout
    | flash_rejected hFree hParse =>
        rcases parse_flash_error hParse with rfl | rfl | ⟨mode, rfl⟩ <;> cases hTimeout
    | _ => cases hTimeout
  · intro cmd elapsed hRunning
    cases hStep with
    | poll_running hAt hEarly =>
        cases hRunning
        have hStored := h.reads hAt hReads
        obtain ⟨submitted, hSubmitted, -, -, hBefore⟩ := h.submitted (by
          intro hNone
          simp [hNone, Worker.has_stored] at hStored)
        refine ⟨submitted, hSubmitted, ?_⟩
        have hElapsed := FlashSystem.elapsed_ns h.past (le_refl s.elapsed_sec)
        rw [h.now]
        exact le_trans (Nat.add_le_add_right (hBefore hStored) _) hElapsed
    | poll_reports hAt =>
        obtain ⟨-, rfl⟩ := hCoherent.reported _ hAt
        simp only [FlashOp.result, Option.some.injEq, FlashEvent.answer.injEq] at hRunning
        split at hRunning <;> cases hRunning
    | flash_rejected hFree hParse =>
        rcases parse_flash_error hParse with rfl | rfl | ⟨mode, rfl⟩ <;> cases hRunning
    | _ => cases hRunning

/-- `popen` was called at the time in `start_time`. -/
def Punctual (times : Times) (s : FlashSystem) : Prop :=
  s.worker.has_opened = true → times.opened = some s.op.start_time

/-- A script that is opened at once is opened at the time in `start_time`. -/
theorem Punctual.step {times : Times} (h : Punctual times s) (hTimed : Timed times s)
    (hCoherent : Coherent s) (hStep : FlashStep cfg s action event t)
    (hOpens : OpensAtOnce s (action, event)) : Punctual (times.next (action, event)) t := by
  intro hOpened
  cases hStep with
  | popen hAt | popen_fails hAt =>
      show some times.now = some s.op.start_time
      rw [hTimed.now, hOpens.2 hAt]
  | flash_submits | set_running | set_start_time => simp [Worker.has_opened] at hOpened
  | flash_rejected hFree hParse =>
      rw [Times.next_quiet (by simp) (by simp) (by simp) (rejection_not_submitted hParse)]
      exact h hOpened
  | poll_reports hAt hJoin =>
      obtain ⟨-, rfl⟩ := hCoherent.reported _ hAt
      rw [Times.next_quiet (by simp) (by simp) (by simp) s.op.result_is_terminal.2]
      exact h hOpened
  | tick => exact h hOpened
  | eof hAt | pclose hAt | set_done hAt | clear_running hAt =>
      rw [Times.next_quiet (by simp) (by simp) (by simp) rfl]
      exact h (by rw [hAt]; rfl)
  | _ =>
      rw [Times.next_quiet (by simp) (by simp) (by simp) rfl]
      exact h hOpened

/-- One more step of a run whose polls look at stored times only. -/
theorem current_concat {began : Times → Option Nat} {v : FlashSystem} {label : FlashLabel}
    (run : Runs (flash_machine cfg).Step (idle_at clock) trace s)
    (hStep : (flash_machine cfg).Step s label v) (hReads : ReadsStored s label)
    (hExpired : Expired s)
    (hBegan : s.worker = .finished → began (times_of clock trace) = some s.op.start_time)
    (hBefore : Always (fun past label => Current began (times_of clock past) label.2) trace) :
    Expired v ∧
      Always (fun past label => Current began (times_of clock past) label.2)
        (trace ++ [label]) := by
  obtain ⟨action, event⟩ := label
  obtain ⟨hLive, hRule⟩ := flash_step_cases hStep
  have hTimed := timed_of_run run
  have hCoherent := (recorded_of_run run hLive).coherent
  refine ⟨hExpired.step hTimed hRule hReads, always_concat.mpr ⟨hBefore, ?_⟩⟩
  exact hTimed.current hCoherent hExpired hReads hBegan hRule

/-- **The flash timeout.** As long as no poll looks at `start_time` between the worker's
store to `running` and the one to `start_time`, a `TIMEOUT` comes 60 s after the worker
has looked at the clock for its script, and 60 s after its `popen` if the two calls come
at one time; and no `RUNNING` tells more than has passed since the submission. A poll
that does look there measures from before the submission. -/
theorem timeout_is_current (cfg : Config) (clock : Nat) :
    (∀ trace s, Runs (Guarded (flash_machine cfg).Step ReadsStored) (idle_at clock) trace s →
      Always (fun past label => Current Times.started (times_of clock past) label.2) trace) ∧
    (∀ trace s, Runs (Guarded (flash_machine cfg).Step OpensAtOnce) (idle_at clock) trace s →
      Always (fun past label => Current Times.opened (times_of clock past) label.2) trace) ∧
    (∀ trace s label t, Runs (flash_machine cfg).Step (idle_at clock) trace s →
      (flash_machine cfg).Step s label t → ¬ ReadsStored s label →
      ∃ submitted, (times_of clock trace).submitted = some submitted ∧
        s.op.start_time ≤ submitted ∧ (times_of clock trace).started = none) := by
  refine ⟨fun trace s run => ?_, fun trace s run => ?_, ?_⟩
  · refine (Runs.history (I := fun trace s => Expired s ∧
      Always (fun past label => Current Times.started (times_of clock past) label.2) trace)
      ⟨by simp [Expired, idle_at], always_nil⟩ ?_ run).2
    rintro past u label v prior ⟨hExpired, hBefore⟩ ⟨hStep, hReads⟩
    refine current_concat prior.unguard hStep hReads hExpired (fun hFinished => ?_) hBefore
    exact (timed_of_run prior.unguard).stored (by rw [hFinished]; rfl)
  · refine (Runs.history (I := fun trace s => Punctual (times_of clock trace) s ∧ Expired s ∧
      Always (fun past label => Current Times.opened (times_of clock past) label.2) trace)
      ⟨by simp [Punctual, idle_at, Worker.has_opened], by simp [Expired, idle_at], always_nil⟩
      ?_ run).2.2
    rintro past u label v prior ⟨hPunctual, hExpired, hBefore⟩ ⟨hStep, hOpens⟩
    obtain ⟨hLive, hRule⟩ := flash_step_cases hStep
    have hNext := hPunctual.step (timed_of_run prior.unguard)
      (recorded_of_run prior.unguard hLive).coherent hRule hOpens
    refine ⟨by rwa [times_of, List.foldl_concat], ?_⟩
    refine current_concat prior.unguard hStep hOpens.1 hExpired (fun hFinished => ?_) hBefore
    exact hPunctual (by rw [hFinished]; rfl)
  · rintro trace s ⟨action, event⟩ t run - hEarly
    have hTimed := timed_of_run run
    have hAt : s.worker = .running_set := by
      by_contra hNot
      exact hEarly fun _ _ => hNot
    obtain ⟨submitted, hSubmitted, -, hStale, -⟩ := hTimed.submitted (by simp [hAt])
    exact ⟨submitted, hSubmitted, hStale (by rw [hAt]; rfl), hTimed.unstored (by rw [hAt]; rfl)⟩

/-- Ask a script that takes a minute after 5 s, and again after 60 s. -/
def poll_in_time : List FlashAction :=
  [.FLASH (str "a.img"), .resume, .resume, .resume,
   .set_running, .set_start_time, .popen true, .tick 5000000000,
   .TRYFLASHDONE, .resume, .resume, .resume, .tick 55000000000,
   .TRYFLASHDONE, .resume, .resume, .resume,
   .script_ends (.exited 0), .eof, .pclose false, .set_done, .clear_running, .resume]

set_option maxRecDepth 2000 in
/-- The first poll is told how long the script has run, the second that it has timed out. -/
theorem timeout_is_current_in_time : ∃ trace s,
    ((flash_machine {}).guard OpensAtOnce).exec (idle_at 0) poll_in_time = some (s, trace) ∧
    trace.filterMap Prod.snd =
      [.answer (.submitted (str "/sbin/flash_full.sh a.img")),
       .answer (.running (str "/sbin/flash_full.sh a.img") 5), .answer .timeout] ∧
    Always (fun past label => Current Times.opened (times_of 0 past) label.2) trace := by
  obtain ⟨⟨s, trace⟩, hExec, hResult⟩ := Option.map_eq_some_iff.mp
    (by rfl : (((flash_machine {}).guard OpensAtOnce).exec (idle_at 0) poll_in_time).map
      (fun result => result.2.filterMap Prod.snd) =
        some [.answer (.submitted (str "/sbin/flash_full.sh a.img")),
          .answer (.running (str "/sbin/flash_full.sh a.img") 5), .answer .timeout])
  exact ⟨trace, s, hExec, hResult,
    (timeout_is_current {} 0).2.1 trace s (Machine.runs_of_guard_exec hExec)⟩

/-- A whole operation; a minute later another, and a poll before its `start_time` is stored. -/
def poll_stale : List FlashAction :=
  [.FLASH (str "a.img"), .resume, .resume, .resume,
   .set_running, .set_start_time, .popen true, .script_ends (.exited 0), .eof, .pclose false,
   .set_done, .clear_running,
   .TRYFLASHDONE, .resume, .resume, .resume, .resume, .resume, .tick 60000000000,
   .FLASH (str "b.img"), .resume, .resume, .resume, .set_running,
   .TRYFLASHDONE, .resume, .resume, .resume,
   .set_start_time, .popen true, .script_ends (.exited 0), .eof, .pclose false,
   .set_done, .clear_running, .resume]

set_option maxRecDepth 2000 in
/-- The second operation is reported as timed out in the second in which it was submitted. -/
theorem timeout_at_once : ∃ trace s,
    Runs (flash_machine {}).Step (idle_at 0) trace s ∧
      ¬ Always (fun past label => Current Times.started (times_of 0 past) label.2) trace := by
  obtain ⟨⟨s, trace⟩, hExec, hResult⟩ := Option.map_eq_some_iff.mp
    (by rfl : ((flash_machine {}).exec (idle_at 0) poll_stale).map
      (fun result => (result.2.getLast?, times_of 0 result.2.dropLast)) =
        some (some (.resume, some (.answer .timeout)),
          ⟨60000000000, some 60000000000, some 60000000000, some 60000000000⟩))
  rw [Prod.mk.injEq] at hResult
  have hLast : trace.getLast? = some (.resume, some (.answer .timeout)) := hResult.1
  have hTimes : times_of 0 trace.dropLast =
      ⟨60000000000, some 60000000000, some 60000000000, some 60000000000⟩ := hResult.2
  refine ⟨trace, s, Machine.runs_of_exec hExec, fun hAlways => ?_⟩
  rw [← List.dropLast_append_getLast? _ hLast, always_concat] at hAlways
  obtain ⟨start, hStart, hLate⟩ := hAlways.2.1 rfl
  rw [hTimes] at hStart hLate
  obtain rfl := Option.some.inj hStart
  exact absurd hLate (by decide)

end RkFlashd
