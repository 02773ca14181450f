import RkFlashd.AtHandler.Flash

/-! What holds in every state that commands, worker, script and clock can reach
together: where the worker is decides the flags, and where a command is remembers
what it has read of them. -/
namespace RkFlashd

open Text Transition

abbrev FlashLabel := FlashAction × Option FlashEvent

/-- The worker function has set `running` and not yet cleared it. -/
def Worker.is_running : Worker → Bool
  | .none | .begun | .finished => false
  | _ => true

/-- The worker function has not yet returned. -/
def Worker.is_live : Worker → Bool
  | .none | .finished => false
  | _ => true

/-- The worker function has set `done`. -/
def Worker.is_done : Worker → Bool
  | .done_set | .finished => true
  | _ => false

/-- The worker function is past `pclose` or its failed `popen`. -/
def Worker.is_coded : Worker → Bool
  | .coded | .done_set | .finished => true
  | _ => false

/-- A poll that has found an operation. -/
def Command.is_polling : Command → Bool
  | .poll_load_done | .poll_elapsed | .poll_cancel | .poll_result | .poll_join _ => true
  | _ => false

/-- The flags and the thread handle, as the worker's position determines them. A
submission that is about to replace the thread has already cleared `done`. -/
structure Coherent (s : FlashSystem) : Prop where
  live : s.worker.is_live = true → s.op.joinable = true
  unused : s.worker = .none → s.op.joinable = false ∧ s.command.is_polling = false
  running : s.op.running = s.worker.is_running
  done : s.op.done = true → s.worker.is_done = true
  undone : s.worker.is_done = true → s.op.joinable = true →
    s.op.done = true ∨ s.command = .flash_assign
  stored : s.command = .flash_assign → s.op.joinable = false →
    s.op.done = false ∧ s.op.exit_code = -1
  uncoded : s.worker.is_coded = false → s.worker ≠ .none → s.op.exit_code = -1
  result : s.command = .poll_result → s.op.done = true
  reported : ∀ result, s.command = .poll_join result → s.op.done = true ∧ result = s.op.result

/-- Nothing submitted yet, at any reading of the clock. -/
def idle_at (clock : Nat) : FlashSystem := { clock := clock }

/-- Before the first command no thread has been created. -/
theorem coherent_initial (clock : Nat) : Coherent (idle_at clock) := by
  constructor <;>
    simp [idle_at, Worker.is_live, Worker.is_running, Worker.is_done, Command.is_polling]

variable {cfg : Config} {s t : FlashSystem} {action : FlashAction} {event : Option FlashEvent}

/-- A command moves on without touching anything shared. -/
theorem Coherent.move (h : Coherent s) {command : Command} (hFrom : s.command ≠ .flash_assign)
    (hTo : command ≠ .flash_assign)
    (hPolling : command.is_polling = true → s.worker ≠ .none)
    (hResult : command = .poll_result → s.op.done = true)
    (hReported : ∀ result, command = .poll_join result → s.op.done = true ∧ result = s.op.result) :
    Coherent { s with command := command } where
  live := h.live
  unused hNone := by
    refine ⟨(h.unused hNone).1, ?_⟩
    simpa using mt hPolling (not_not_intro hNone)
  running := h.running
  done := h.done
  undone hDone hJoinable := Or.inl ((h.undone hDone hJoinable).resolve_right hFrom)
  stored hAt := absurd hAt hTo
  uncoded := h.uncoded
  result := hResult
  reported := hReported

theorem Coherent.free (h : Coherent s) (hFrom : s.command ≠ .flash_assign) :
    Coherent { s with command := .none } :=
  h.move hFrom (by simp) (by simp [Command.is_polling]) (by simp) (by simp)

/-- A worker that has not set `done` takes a step. A poll that has seen `done` is then
out of the question. -/
theorem Coherent.work (h : Coherent s) (hLive : s.worker.is_live = true)
    (hUndone : s.worker.is_done = false) {op : FlashOp} {worker : Worker} {script : Script}
    (hJoinable : op.joinable = s.op.joinable) (hRunning : op.running = worker.is_running)
    (hDone : op.done = worker.is_done) (hCode : worker.is_coded = false → op.exit_code = -1)
    (hUsed : worker ≠ .none) :
    Coherent { s with op := op, worker := worker, script := script } where
  live _ := hJoinable.trans (h.live hLive)
  unused hNone := absurd hNone hUsed
  running := hRunning
  done hTrue := hDone ▸ hTrue
  undone hTrue _ := Or.inl (hDone.trans hTrue)
  stored _ hFalse := by simp [hJoinable, h.live hLive] at hFalse
  uncoded hUncoded _ := hCode hUncoded
  result hAt := by simp [h.done (h.result hAt)] at hUndone
  reported result hAt := by simp [h.done (h.reported result hAt).1] at hUndone

/-- After a join there is no thread, and only the worker's last flags remain. -/
theorem Coherent.joined (h : Coherent s) (hAt : s.command.is_polling = true)
    (hJoin : s.join_returns = true) (done : Bool) :
    Coherent { s with
      op := { s.op with joinable := false, running := false, done := done }
      command := .none } := by
  have hUsed : s.worker ≠ .none := by
    intro hNone
    simp [(h.unused hNone).2] at hAt
  have hFinished : s.worker = .finished := by
    cases hLive : s.worker.is_live with
    | true => simpa [FlashSystem.join_returns, h.live hLive] using hJoin
    | false =>
        cases hWorker : s.worker <;> simp_all [Worker.is_live]
  constructor <;> simp [hFinished, Worker.is_live, Worker.is_running, Worker.is_done,
    Worker.is_coded]

/-- Every step keeps flags and positions together, except the one that ends it all. -/
theorem Coherent.step (h : Coherent s) (hStep : FlashStep cfg s action event t)
    (hGoesOn : t.terminated = false) : Coherent t := by
  have hBusy : s.command.is_polling = true → s.worker ≠ .none := by
    intro hPolling hNone
    simp [(h.unused hNone).2] at hPolling
  have hUndone : s.worker.is_done = false → s.op.done = false := by
    simpa using mt h.done
  cases hStep with
  | flash_rejected => exact h
  | flash_arrives hFree =>
      exact h.move (by simp [hFree]) (by simp) (by simp [Command.is_polling]) (by simp) (by simp)
  | poll_arrives hFree =>
      exact h.move (by simp [hFree]) (by simp) (by simp [Command.is_polling]) (by simp) (by simp)
  | flash_refused hAt => exact h.free (by simp [hAt])
  | flash_admitted hAt =>
      exact h.move (by simp [hAt]) (by simp) (by simp [Command.is_polling]) (by simp) (by simp)
  | flash_stores hAt =>
      exact
        { live := h.live
          unused := fun hNone => ⟨(h.unused hNone).1, rfl⟩
          running := h.running
          done := by simp
          undone := by simp
          stored := by simp
          uncoded := by simp
          result := by simp
          reported := by simp }
  | flash_terminates => simp at hGoesOn
  | flash_submits hAt hJoinable =>
      obtain ⟨hDone, hCode⟩ := h.stored hAt hJoinable
      have hIdle : s.worker.is_live = false := by
        cases hLive : s.worker.is_live with
        | false => rfl
        | true => simp [h.live hLive] at hJoinable
      have hRunning : s.op.running = false := by
        rw [h.running]
        cases hWorker : s.worker <;> simp_all [Worker.is_live, Worker.is_running]
      constructor <;> simp [hDone, hCode, hRunning, Worker.is_running, Worker.is_done]
  | poll_finds_running hAt hRunning =>
      refine h.move (by simp [hAt]) (by simp) (fun _ hNone => ?_) (by simp) (by simp)
      simp [h.running, hNone, Worker.is_running] at hRunning
  | poll_finds_idle hAt =>
      exact h.move (by simp [hAt]) (by simp) (by simp [Command.is_polling]) (by simp) (by simp)
  | poll_idle_done hAt hDone =>
      refine h.move (by simp [hAt]) (by simp) (fun _ hNone => ?_) (by simp) (by simp)
      simpa [hNone, Worker.is_done] using h.done hDone
  | poll_nothing hAt => exact h.free (by simp [hAt])
  | poll_finds_done hAt hDone =>
      exact h.move (by simp [hAt]) (by simp) (fun _ => hBusy (by simp [hAt, Command.is_polling]))
        (fun _ => hDone) (by simp)
  | poll_finds_undone hAt =>
      exact h.move (by simp [hAt]) (by simp) (fun _ => hBusy (by simp [hAt, Command.is_polling]))
        (by simp) (by simp)
  | poll_expires hAt =>
      exact h.move (by simp [hAt]) (by simp) (fun _ => hBusy (by simp [hAt, Command.is_polling]))
        (by simp) (by simp)
  | poll_running hAt => exact h.free (by simp [hAt])
  | poll_timeout hAt hJoin => exact h.joined (by simp [hAt, Command.is_polling]) hJoin true
  | poll_result hAt =>
      have hDone := h.result hAt
      exact h.move (by simp [hAt]) (by simp) (fun _ => hBusy (by simp [hAt, Command.is_polling]))
        (by simp) (by simp [hDone, eq_comm])
  | poll_reports hAt hJoin => exact h.joined (by simp [hAt, Command.is_polling]) hJoin false
  | set_running hAt =>
      exact h.work (by rw [hAt]; rfl) (by rw [hAt]; rfl) rfl rfl (hUndone (by rw [hAt]; rfl))
        (fun _ => h.uncoded (by rw [hAt]; rfl) (by simp [hAt])) (by simp)
  | set_start_time hAt =>
      exact h.work (by rw [hAt]; rfl) (by rw [hAt]; rfl) rfl (h.running.trans (by rw [hAt]; rfl))
        (hUndone (by rw [hAt]; rfl)) (fun _ => h.uncoded (by rw [hAt]; rfl) (by simp [hAt]))
        (by simp)
  | popen hAt =>
      exact h.work (by rw [hAt]; rfl) (by rw [hAt]; rfl) rfl (h.running.trans (by rw [hAt]; rfl))
        (hUndone (by rw [hAt]; rfl)) (fun _ => h.uncoded (by rw [hAt]; rfl) (by simp [hAt]))
        (by simp)
  | popen_fails hAt =>
      exact h.work (by rw [hAt]; rfl) (by rw [hAt]; rfl) rfl (h.running.trans (by rw [hAt]; rfl))
        (hUndone (by rw [hAt]; rfl)) (by simp [Worker.is_coded]) (by simp)
  | fgets hAt =>
      exact h.work (by rw [hAt]; rfl) (by rw [hAt]; rfl) rfl h.running
        (by rw [hUndone (by rw [hAt]; rfl), hAt]; rfl)
        (fun _ => h.uncoded (by rw [hAt]; rfl) (by simp [hAt])) (by simp [hAt])
  | eof hAt =>
      exact h.work (by rw [hAt]; rfl) (by rw [hAt]; rfl) rfl (h.running.trans (by rw [hAt]; rfl))
        (hUndone (by rw [hAt]; rfl)) (fun _ => h.uncoded (by rw [hAt]; rfl) (by simp [hAt]))
        (by simp)
  | pclose hAt hScript =>
      exact h.work (by rw [hAt]; rfl) (by rw [hAt]; rfl) rfl (h.running.trans (by rw [hAt]; rfl))
        (hUndone (by rw [hAt]; rfl)) (by simp [Worker.is_coded]) (by simp)
  | set_done hAt =>
      exact h.work (by rw [hAt]; rfl) (by rw [hAt]; rfl) rfl (h.running.trans (by rw [hAt]; rfl))
        rfl (by simp [Worker.is_coded]) (by simp)
  | clear_running hAt =>
      exact
        { live := by simp [Worker.is_live]
          unused := by simp
          running := rfl
          done := fun _ => rfl
          undone := fun _ => h.undone (by rw [hAt]; rfl)
          stored := h.stored
          uncoded := by simp [Worker.is_coded]
          result := h.result
          reported := h.reported }
  | script_ends hScript =>
      exact ⟨h.live, h.unused, h.running, h.done, h.undone, h.stored, h.uncoded, h.result,
        h.reported⟩
  | tick =>
      exact ⟨h.live, h.unused, h.running, h.done, h.undone, h.stored, h.uncoded, h.result,
        h.reported⟩

/-- A handle that is not joinable belongs to no thread. -/
theorem Coherent.not_live (h : Coherent s) (hJoinable : s.op.joinable = false) :
    s.worker.is_live = false := by
  cases hLive : s.worker.is_live with
  | false => rfl
  | true => simp [h.live hLive] at hJoinable

/-- Without a thread the operation does not count as running. -/
theorem Coherent.not_running (h : Coherent s) (hDead : s.worker.is_live = false) :
    s.op.running = false := by
  rw [h.running]
  cases hAt : s.worker <;> simp [hAt, Worker.is_live, Worker.is_running] at hDead ⊢

/-! What the history of a run says: which answers have been given, and what has
become of the script of the last submission. -/

/-- `OK`, `ERROR … failed` or `TIMEOUT`. -/
def FlashAnswer.is_terminal : FlashAnswer → Bool
  | .timeout | .ok _ _ | .failed _ _ _ => true
  | _ => false

def FlashEvent.is_submitted : Option FlashEvent → Bool
  | some (.answer (.submitted _)) => true
  | _ => false

def FlashEvent.is_terminal : Option FlashEvent → Bool
  | some (.answer given) => given.is_terminal
  | _ => false

/-- The last submission has not been given a terminal answer yet. -/
def owed (trace : List FlashLabel) : Bool :=
  trace.foldl (fun owed label => (owed || FlashEvent.is_submitted label.2) &&
    !FlashEvent.is_terminal label.2) false

/-- The last submission has been given up with `TIMEOUT`. -/
def timed_out (trace : List FlashLabel) : Bool :=
  trace.foldl (fun timed_out label =>
    (timed_out || label.2 == some (.answer .timeout)) && !FlashEvent.is_submitted label.2) false

/-- The script of the last submission has neither ended nor failed to start. -/
def script_pending (trace : List FlashLabel) : Bool :=
  trace.foldl (fun pending label =>
    match label with
    | (.script_ends _, _) => false
    | (.popen false, _) => false
    | (_, event) => pending || FlashEvent.is_submitted event) false

/-- How the script of the last submission ended, and the ending `pclose` reported. -/
structure Outcome where
  ending : Option Ending := none
  status : Option Ending := none

def Outcome.next (o : Outcome) (label : FlashLabel) : Outcome :=
  match label with
  | (.script_ends ending, _) => { o with ending := some ending }
  | (.pclose false, _) => { o with status := o.ending }
  | (_, event) => if FlashEvent.is_submitted event then {} else o

def outcome_of (trace : List FlashLabel) : Outcome := trace.foldl Outcome.next {}

/-- The answer to an `AT+TRYFLASHDONE`. -/
def FlashEvent.is_poll : Option FlashEvent → Bool
  | some (.answer .no_pending) | some (.answer .timeout) | some (.answer (.running _ _))
  | some (.answer (.ok _ _)) | some (.answer (.failed _ _ _)) => true
  | _ => false

theorem FlashOp.result_is_terminal (op : FlashOp) :
    op.result.is_terminal = true ∧ FlashEvent.is_submitted (some (.answer op.result)) = false := by
  unfold FlashOp.result
  split <;> exact ⟨rfl, rfl⟩

/-- The handle is joinable exactly while a terminal answer is owed. -/
theorem Coherent.owed_step (h : Coherent s) (hStep : FlashStep cfg s action event t)
    (hGoesOn : t.terminated = false) :
    t.op.joinable = ((s.op.joinable || FlashEvent.is_submitted event) &&
      !FlashEvent.is_terminal event) := by
  cases hStep with
  | poll_reports hAt hJoin =>
      obtain ⟨-, rfl⟩ := h.reported _ hAt
      simp [FlashEvent.is_terminal, s.op.result_is_terminal.1]
  | flash_terminates => simp at hGoesOn
  | flash_rejected hFree hParse =>
      rcases parse_flash_error hParse with rfl | rfl | ⟨mode, rfl⟩ <;>
        simp [FlashEvent.is_terminal, FlashEvent.is_submitted, FlashAnswer.is_terminal]
  | _ => simp [FlashEvent.is_terminal, FlashEvent.is_submitted, FlashAnswer.is_terminal]

/-- A script exists from `popen` on, and has ended when `pclose` returns. -/
def FlashSystem.script_fits (s : FlashSystem) : Prop :=
  match s.worker with
  | .none | .begun | .running_set | .time_set => s.script = .none
  | .reading | .closing => s.script ≠ .none
  | .coded | .done_set | .finished => s.script ≠ .running

/-- The script is where the worker takes it to be, after every step. -/
theorem script_fits_step (h : s.script_fits) (hStep : FlashStep cfg s action event t) :
    t.script_fits := by
  unfold FlashSystem.script_fits at h ⊢
  cases hStep with
  | flash_submits => rfl
  | set_running hAt => simpa [hAt] using h
  | set_start_time hAt => simpa [hAt] using h
  | popen hAt => simp
  | popen_fails hAt => simp_all
  | eof hAt => simpa [hAt] using h
  | pclose hAt hScript => simp [hScript]
  | set_done hAt => simpa [hAt] using h
  | clear_running hAt => simpa [hAt] using h
  | script_ends hScript => cases hAt : s.worker <;> simp_all
  | _ => exact h

/-- The script of the last submission may still come to run, or is running. -/
def FlashSystem.script_open (s : FlashSystem) : Bool :=
  match s.worker with
  | .begun | .running_set | .time_set => true
  | _ => s.script == .running

def Script.ending : Script → Option Ending
  | .ended ending => some ending
  | _ => Option.none

/-- The exit code is that of the status `pclose` gave, and no success without one. -/
def FlashSystem.reports (s : FlashSystem) : Option Ending → Prop
  | none => s.worker.is_coded = true → s.command ≠ .flash_assign → s.op.exit_code ≠ 0
  | some ending => s.worker.is_coded = true ∧ s.script = .ended ending ∧
      (s.command ≠ .flash_assign → s.op.exit_code = WEXITSTATUS (wait_status ending))

/-- What the history of a run says about the state it has reached. -/
structure Recorded (trace : List FlashLabel) (s : FlashSystem) : Prop where
  coherent : Coherent s
  fits : s.script_fits
  owed : owed trace = s.op.joinable
  settled : s.op.joinable = false → timed_out trace = false →
    s.op.done = false ∧ s.command.is_polling = false
  pending : script_pending trace = s.script_open
  ending : (outcome_of trace).ending = s.script.ending
  status : s.reports (outcome_of trace).status

theorem recorded_initial (clock : Nat) : Recorded [] (idle_at clock) where
  coherent := coherent_initial clock
  fits := rfl
  owed := rfl
  settled _ _ := ⟨rfl, rfl⟩
  pending := rfl
  ending := rfl
  status hCoded := by simp [idle_at, Worker.is_coded] at hCoded

variable {trace : List FlashLabel}

/-- With nothing joinable and no timeout on record, nothing is done and no poll goes on. -/
theorem Recorded.settled_step (h : Recorded trace s) (hStep : FlashStep cfg s action event t)
    (hJoinable : t.op.joinable = false)
    (hTimedOut : timed_out (trace ++ [(action, event)]) = false) :
    t.op.done = false ∧ t.command.is_polling = false := by
  have hBefore : FlashEvent.is_submitted event = false → s.op.joinable = false →
      s.op.done = false ∧ s.command.is_polling = false := by
    intro hNot hSame
    have hOld : timed_out trace = false ∧ event ≠ some (.answer .timeout) := by
      simpa [timed_out, hNot] using hTimedOut
    exact h.settled hSame hOld.1
  have hDead : s.op.joinable = false → s.worker.is_live = false := h.coherent.not_live
  cases hStep with
  | flash_rejected hFree hParse =>
      rcases parse_flash_error hParse with rfl | rfl | ⟨mode, rfl⟩ <;> exact hBefore rfl hJoinable
  | flash_arrives | poll_arrives | flash_refused | flash_admitted | poll_finds_idle
  | poll_nothing | poll_running => exact ⟨(hBefore rfl hJoinable).1, rfl⟩
  | flash_stores | poll_reports => exact ⟨rfl, rfl⟩
  | flash_submits => simp at hJoinable
  | poll_finds_running hAt hRunning =>
      simp [h.coherent.not_running (hDead hJoinable)] at hRunning
  | poll_idle_done hAt hDone => simp [(hBefore rfl hJoinable).1] at hDone
  | poll_finds_done hAt | poll_finds_undone hAt | poll_expires hAt | poll_result hAt =>
      have hPolling := (hBefore rfl hJoinable).2
      simp [hAt, Command.is_polling] at hPolling
  | poll_timeout => simp [timed_out, FlashEvent.is_submitted] at hTimedOut
  | set_running hAt | set_start_time hAt | popen hAt | popen_fails hAt | fgets hAt | eof hAt
  | pclose hAt | set_done hAt | clear_running hAt =>
      have hLive := hDead hJoinable
      simp [hAt, Worker.is_live] at hLive
  | flash_terminates | script_ends | tick => exact hBefore rfl hJoinable

/-- The history says whether the script is open, after every step. -/
theorem script_pending_step (h : Coherent s) (hFits : s.script_fits)
    (hStep : FlashStep cfg s action event t) (hPending : script_pending trace = s.script_open) :
    script_pending (trace ++ [(action, event)]) = t.script_open := by
  have hQuiet : (∀ ending, action ≠ .script_ends ending) → action ≠ .popen false →
      FlashEvent.is_submitted event = false →
      script_pending (trace ++ [(action, event)]) = s.script_open := by
    intro hEnds hOpens hNot
    rw [← hPending]
    simp only [script_pending, List.foldl_append, List.foldl_cons, List.foldl_nil]
    rw [hNot, Bool.or_false]
  unfold FlashSystem.script_fits at hFits
  cases hStep with
  | flash_rejected hFree hParse =>
      rcases parse_flash_error hParse with rfl | rfl | ⟨mode, rfl⟩ <;>
        exact hQuiet (by simp) (by simp) rfl
  | flash_submits =>
      simp [script_pending, FlashSystem.script_open, FlashEvent.is_submitted]
  | poll_reports hAt =>
      obtain ⟨-, rfl⟩ := h.reported _ hAt
      exact hQuiet (by simp) (by simp) s.op.result_is_terminal.2
  | set_running hAt | set_start_time hAt | popen hAt | eof hAt
  | set_done hAt | clear_running hAt =>
      rw [hQuiet (by simp) (by simp) rfl]
      simp [FlashSystem.script_open, hAt]
  | popen_fails hAt => simp_all [script_pending, FlashSystem.script_open]
  | pclose hAt hScript =>
      rw [hQuiet (by simp) (by simp) rfl]
      simp [FlashSystem.script_open, hAt, hScript]
  | script_ends hScript =>
      cases hAt : s.worker <;> simp_all [script_pending, FlashSystem.script_open]
  | _ => exact hQuiet (by simp) (by simp) rfl

theorem outcome_quiet (hEnds : ∀ ending, action ≠ .script_ends ending)
    (hCloses : action ≠ .pclose false) (hNot : FlashEvent.is_submitted event = false) :
    outcome_of (trace ++ [(action, event)]) = outcome_of trace := by
  simp only [outcome_of, List.foldl_append, List.foldl_cons, List.foldl_nil, Outcome.next]
  rw [hNot]
  rfl

/-- The history says how the script ended, after every step. -/
theorem ending_step (h : Coherent s) (hFits : s.script_fits)
    (hStep : FlashStep cfg s action event t)
    (hEnding : (outcome_of trace).ending = s.script.ending) :
    (outcome_of (trace ++ [(action, event)])).ending = t.script.ending := by
  unfold FlashSystem.script_fits at hFits
  cases hStep with
  | flash_rejected hFree hParse =>
      rcases parse_flash_error hParse with rfl | rfl | ⟨mode, rfl⟩ <;>
        rwa [outcome_quiet (by simp) (by simp) rfl]
  | flash_submits => simp [outcome_of, Outcome.next, FlashEvent.is_submitted, Script.ending]
  | poll_reports hAt =>
      obtain ⟨-, rfl⟩ := h.reported _ hAt
      rwa [outcome_quiet (by simp) (by simp) s.op.result_is_terminal.2]
  | popen hAt =>
      rw [outcome_quiet (by simp) (by simp) rfl, hEnding]
      simp_all [Script.ending]
  | @pclose fails ending hAt hScript =>
      cases fails with
      | true => rwa [outcome_quiet (by simp) (by simp) rfl]
      | false => simpa [outcome_of, Outcome.next] using hEnding
  | script_ends => simp [outcome_of, Outcome.next, Script.ending]
  | _ => rwa [outcome_quiet (by simp) (by simp) rfl]

/-- A step that leaves worker, script and exit code alone leaves the report alone. -/
theorem FlashSystem.reports.same {status : Option Ending} (h : s.reports status)
    (hWorker : t.worker.is_coded = s.worker.is_coded) (hScript : t.script = s.script)
    (hCode : t.op.exit_code = s.op.exit_code ∨ t.command = .flash_assign)
    (hCommand : s.command = .flash_assign → t.command = .flash_assign) : t.reports status := by
  cases status with
  | none =>
      intro hCoded hAssign
      rw [hCode.resolve_right hAssign]
      exact h (hWorker ▸ hCoded) (mt hCommand hAssign)
  | some ending =>
      obtain ⟨hCoded, hEnded, hExit⟩ := h
      refine ⟨hWorker ▸ hCoded, hScript ▸ hEnded, fun hAssign => ?_⟩
      rw [hCode.resolve_right hAssign]
      exact hExit (mt hCommand hAssign)

/-- As long as no exit code has been stored, nothing is reported. -/
theorem FlashSystem.reports.uncoded {status : Option Ending} (h : s.reports status)
    (hUncoded : s.worker.is_coded = false) : status = none := by
  cases status with
  | none => rfl
  | some ending => simp [h.1] at hUncoded

/-- What the state reports is the status on record, after every step. -/
theorem Recorded.status_step (h : Recorded trace s) (hStep : FlashStep cfg s action event t) :
    t.reports (outcome_of (trace ++ [(action, event)])).status := by
  have hStatus := h.status
  cases hStep with
  | flash_rejected hFree hParse =>
      rcases parse_flash_error hParse with rfl | rfl | ⟨mode, rfl⟩ <;>
        rwa [outcome_quiet (by simp) (by simp) rfl]
  | flash_submits =>
      simp [outcome_of, Outcome.next, FlashEvent.is_submitted, FlashSystem.reports,
        Worker.is_coded]
  | poll_reports hAt =>
      obtain ⟨-, rfl⟩ := h.coherent.reported _ hAt
      rw [outcome_quiet (by simp) (by simp) s.op.result_is_terminal.2]
      exact hStatus.same rfl rfl (Or.inl rfl) (by simp [hAt])
  | set_running hAt | set_start_time hAt | popen hAt | fgets hAt | eof hAt =>
      rw [outcome_quiet (by simp) (by simp) rfl, hStatus.uncoded (by rw [hAt]; rfl)]
      intro hCoded
      simp [hAt, Worker.is_coded] at hCoded
  | popen_fails hAt =>
      rw [outcome_quiet (by simp) (by simp) rfl, hStatus.uncoded (by rw [hAt]; rfl)]
      intro _ _
      simp [h.coherent.uncoded (by rw [hAt]; rfl) (by simp [hAt])]
  | @pclose fails ending hAt hScript =>
      cases fails with
      | true =>
          rw [outcome_quiet (by simp) (by simp) rfl, hStatus.uncoded (by rw [hAt]; rfl)]
          intro _ _
          simp [WEXITSTATUS]
      | false =>
          have hReported :
              (outcome_of (trace ++ [(.pclose false, none)])).status = some ending := by
            simpa [outcome_of, Outcome.next, hScript, Script.ending] using h.ending
          rw [hReported]
          exact ⟨rfl, hScript, fun _ => rfl⟩
  | set_done hAt | clear_running hAt =>
      rw [outcome_quiet (by simp) (by simp) rfl]
      exact hStatus.same (by rw [hAt]; rfl) rfl (Or.inl rfl) id
  | script_ends hScript =>
      have hFits := h.fits
      have hUncoded : s.worker.is_coded = false := by
        unfold FlashSystem.script_fits at hFits
        cases hAt : s.worker <;> simp_all [Worker.is_coded]
      have hSame (ending : Ending) :
          (outcome_of (trace ++ [(.script_ends ending, none)])).status =
            (outcome_of trace).status := by
        simp [outcome_of, Outcome.next]
      rw [hSame, hStatus.uncoded hUncoded]
      intro hCoded
      simp [hUncoded] at hCoded
  | flash_stores hAt =>
      rw [outcome_quiet (by simp) (by simp) rfl]
      exact hStatus.same rfl rfl (Or.inr rfl) (fun _ => rfl)
  | _ =>
      rw [outcome_quiet (by simp) (by simp) rfl]
      exact hStatus.same rfl rfl (Or.inl rfl) (by simp [*])

/-- An answer is owed exactly as long as the thread is joinable. -/
theorem Recorded.owed_step (h : Recorded trace s) (hStep : FlashStep cfg s action event t)
    (hGoesOn : t.terminated = false) :
    RkFlashd.owed (trace ++ [(action, event)]) = t.op.joinable := by
  rw [h.coherent.owed_step hStep hGoesOn, ← h.owed]
  simp [RkFlashd.owed]

/-- The record survives every step, except the one that ends it all. -/
theorem Recorded.step (h : Recorded trace s) (hStep : FlashStep cfg s action event t)
    (hGoesOn : t.terminated = false) : Recorded (trace ++ [(action, event)]) t where
  coherent := h.coherent.step hStep hGoesOn
  fits := script_fits_step h.fits hStep
  owed := h.owed_step hStep hGoesOn
  settled := h.settled_step hStep
  pending := script_pending_step h.coherent h.fits hStep h.pending
  ending := ending_step h.coherent h.fits hStep h.ending
  status := h.status_step hStep

/-- The history of every run that goes on describes the state it leads to. -/
theorem recorded_of_run {clock : Nat}
    (run : Runs (flash_machine cfg).Step (idle_at clock) trace s)
    (hGoesOn : s.terminated = false) : Recorded trace s := by
  refine Runs.history (I := fun trace s => s.terminated = false → Recorded trace s)
    (fun _ => recorded_initial clock) ?_ run hGoesOn
  rintro trace s ⟨action, event⟩ t - hBefore hStep hAfter
  obtain ⟨hLive, hRule⟩ := flash_step_cases hStep
  exact (hBefore hLive).step hRule hAfter

end RkFlashd
