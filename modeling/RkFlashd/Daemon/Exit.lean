import RkFlashd.AtHandler.FlashReports
import RkFlashd.Daemon.Components

/-! The end of the process. The commands are over and `main` has returned; what is left is to
destroy the static `FlashOp`, with the handle of the thread that it was last given. -/
namespace RkFlashd

open Text Transition

/-- How the process ends. -/
inductive ProcessEnd where
  | exited (status : Nat)
  | aborted
  deriving DecidableEq, Repr

/-- `main` returns. The destructor of a `std::thread` that is joinable is `std::terminate`. -/
def main_returns (status : Nat) (d : Daemon) : ProcessEnd :=
  if d.flash.op.joinable then .aborted else .exited status

/-- An `AT+FLASH` that is answered with `OK`. -/
def submits : DaemonLabel → Bool
  | (.command call, some answer) =>
      match flash_arrival call.line with
      | some (.FLASH _) => starts_with answer (str "OK")
      | _ => false
  | _ => false

/-- The first words of the answers that end an operation. `ERROR:` is not among them. -/
def conclusions : List Bytes := [str "OK ", str "ERROR ", str "TIMEOUT: "]

/-- An `AT+TRYFLASHDONE` that is answered with a result or with `TIMEOUT`. -/
def concludes : DaemonLabel → Bool
  | (.command call, some answer) =>
      match flash_arrival call.line with
      | some .TRYFLASHDONE => conclusions.any fun word => starts_with answer word
      | _ => false
  | _ => false

/-- What the clients know of it: a submission for which nobody has been told how it ended. -/
def outstanding (trace : List DaemonLabel) : Bool :=
  trace.foldl (fun owed label => (owed || submits label) && !concludes label) false

/-- The accesses of an `AT+TRYFLASHDONE`. -/
def Command.polls : Command → Bool
  | .none | .flash_load _ | .flash_stores _ | .flash_assign => false
  | _ => true

/-- A process that has not been ended by a second thread. -/
structure Standing (s : FlashSystem) : Prop where
  coherent : Coherent s
  fits : s.script_fits
  alive : s.terminated = false

section Answers

variable {cfg : Config} {s t : FlashSystem} {action : FlashAction} {event : Option FlashEvent}
  {given : FlashAnswer} {actions : List FlashAction}

theorem standing_idle (clock : Nat) : Standing (idle_at clock) :=
  ⟨coherent_initial clock, rfl, rfl⟩

/-- A submission leaves a thread to join, and a report leaves none. -/
theorem Standing.step (h : Standing s) (hStep : flash_step cfg s action = some (t, event))
    (hEvent : event ≠ some .terminate) :
    Standing t ∧ t.op.joinable = ((s.op.joinable || FlashEvent.is_submitted event) &&
      !FlashEvent.is_terminal event) := by
  obtain ⟨-, hRule⟩ := flash_step_cases hStep
  have hAlive : t.terminated = false := by
    cases hRule with
    | flash_terminates => exact absurd rfl hEvent
    | _ => exact h.alive
  exact ⟨⟨h.coherent.step hRule hAlive, script_fits_step h.fits hRule, hAlive⟩,
    h.coherent.owed_step hRule hAlive⟩

/-- A command in progress stays what it is, up to its answer. -/
theorem Coherent.in_hand (h : Coherent s) (hStep : FlashStep cfg s action event t)
    (hBusy : s.command ≠ .none) :
    (event = none → t.command ≠ .none ∧ t.command.polls = s.command.polls) ∧
      (∀ given, event = some (.answer given) →
        t.command = .none ∧ FlashEvent.is_poll event = s.command.polls) := by
  cases hStep with
  | flash_rejected hFree | flash_arrives hFree | poll_arrives hFree => exact absurd hFree hBusy
  | poll_reports hAt hJoin =>
      obtain ⟨-, rfl⟩ := h.reported _ hAt
      simp [hAt, Command.polls, s.op.result_is_poll]
  | flash_refused hAt | flash_admitted hAt | flash_stores hAt | flash_terminates hAt
  | flash_submits hAt | poll_finds_running hAt | poll_finds_idle hAt | poll_idle_done hAt
  | poll_nothing hAt | poll_finds_done hAt | poll_finds_undone hAt | poll_expires hAt
  | poll_running hAt | poll_timeout hAt | poll_result hAt =>
      simp [hAt, Command.polls, FlashEvent.is_poll]
  | set_running | set_start_time | popen | popen_fails | fgets | eof | pclose | set_done
  | clear_running | script_ends | tick => simp [hBusy]

theorem FlashStep.background (hStep : FlashStep cfg s action event t)
    (hBackground : action.is_background = true) : t.command = s.command := by
  cases hStep <;> first | rfl | cases hBackground

/-- The handle after a command, by the answer that it was given. -/
theorem Standing.await (h : Standing s) (hBusy : s.command ≠ .none)
    (hAwait : await_answer cfg s actions = some (t, given)) :
    Standing t ∧ t.command = .none ∧ FlashEvent.is_poll (some (.answer given)) = s.command.polls ∧
      t.op.joinable = ((s.op.joinable || FlashEvent.is_submitted (some (.answer given))) &&
        !given.is_terminal) := by
  induction actions generalizing s with
  | nil => cases hAwait
  | cons action rest ih =>
      rw [await_answer] at hAwait
      cases hStep : flash_step cfg s action with
      | none => simp [hStep] at hAwait
      | some result =>
          obtain ⟨u, event⟩ := result
          obtain ⟨-, hRule⟩ := flash_step_cases hStep
          obtain ⟨hGoesOn, hEnds⟩ := h.coherent.in_hand hRule hBusy
          rw [hStep] at hAwait
          cases event with
          | none =>
              obtain ⟨hStanding, hJoinable⟩ := h.step hStep (by simp)
              obtain ⟨hStill, hPolls⟩ := hGoesOn rfl
              obtain ⟨hLast, hFree, hKind, hHandle⟩ := ih hStanding hStill hAwait
              refine ⟨hLast, hFree, hKind.trans hPolls, ?_⟩
              rw [hHandle, hJoinable]
              simp [FlashEvent.is_submitted, FlashEvent.is_terminal]
          | some event =>
              cases event with
              | terminate => cases hAwait
              | answer answer =>
                  simp only at hAwait
                  split at hAwait
                  · cases hAwait
                    obtain ⟨hStanding, hJoinable⟩ := h.step hStep (by simp)
                    obtain ⟨hFree, hKind⟩ := hEnds _ rfl
                    exact ⟨hStanding, hFree, hKind, hJoinable⟩
                  · cases hAwait

/-- A flash command from its arrival on. -/
theorem Standing.arrival {line : Bytes} {arrival : FlashAction} (h : Standing s)
    (hFree : s.command = .none) (hArrival : flash_arrival line = some arrival)
    (hAwait : await_answer cfg s (arrival :: actions) = some (t, given)) :
    Standing t ∧ t.command = .none ∧
      FlashEvent.is_poll (some (.answer given)) = (arrival == .TRYFLASHDONE) ∧
      t.op.joinable = ((s.op.joinable || FlashEvent.is_submitted (some (.answer given))) &&
        !given.is_terminal) := by
  rw [await_answer] at hAwait
  cases hStep : flash_step cfg s arrival with
  | none => simp [hStep] at hAwait
  | some result =>
      obtain ⟨u, event⟩ := result
      rw [hStep] at hAwait
      cases (flash_step_cases hStep).2 with
      | flash_rejected _ hParse =>
          obtain ⟨hStanding, hJoinable⟩ := h.step hStep (by simp)
          simp only at hAwait
          split at hAwait
          · cases hAwait
            refine ⟨hStanding, hFree, ?_, hJoinable⟩
            rcases parse_flash_error hParse with rfl | rfl | ⟨mode, rfl⟩ <;> rfl
          · cases hAwait
      | flash_arrives =>
          obtain ⟨hStanding, hJoinable⟩ := h.step hStep (by simp)
          obtain ⟨hLast, hNone, hKind, hHandle⟩ := hStanding.await (by simp) hAwait
          exact ⟨hLast, hNone, hKind, hHandle⟩
      | poll_arrives =>
          obtain ⟨hStanding, hJoinable⟩ := h.step hStep (by simp)
          obtain ⟨hLast, hNone, hKind, hHandle⟩ := hStanding.await (by simp) hAwait
          exact ⟨hLast, hNone, hKind, hHandle⟩
      | _ => exact absurd hArrival (by unfold flash_arrival; split <;> simp)

/-- A client tells a submission by its answer. -/
theorem FlashAnswer.submits_text (h : FlashEvent.is_poll (some (.answer given)) = false) :
    starts_with given.text (str "OK") = FlashEvent.is_submitted (some (.answer given)) ∧
      given.is_terminal = false := by
  cases given <;> first | exact ⟨rfl, rfl⟩ | cases h

/-- And so it tells how an operation has ended from everything else it can be told. -/
theorem FlashAnswer.concludes_text (h : FlashEvent.is_poll (some (.answer given)) = true) :
    (conclusions.any fun word => starts_with given.text word) = given.is_terminal ∧
      FlashEvent.is_submitted (some (.answer given)) = false := by
  cases given <;> first | exact ⟨rfl, rfl⟩ | cases h

end Answers

variable {cfg : Config} {build : Build} {d d' : Daemon} {trace : List DaemonLabel}
  {label : DaemonLabel}

/-- The thread has a handle as long as a submission is outstanding. -/
theorem Standing.daemon_step (h : Standing d.flash) (hFree : d.flash.command = .none)
    (hStep : (daemon_machine cfg build).Step d label d') :
    Standing d'.flash ∧ d'.flash.command = .none ∧
      d'.flash.op.joinable = ((d.flash.op.joinable || submits label) && !concludes label) := by
  obtain ⟨action, output⟩ := label
  cases action with
  | background action =>
      obtain ⟨hBackground, rfl, -, hFlash⟩ := background_step hStep
      obtain ⟨hStanding, hJoinable⟩ := h.step hFlash (by simp)
      have hSame := (flash_step_cases hFlash).2.background hBackground
      exact ⟨hStanding, hSame.trans hFree, hJoinable⟩
  | command call =>
      obtain ⟨⟨next, answer⟩, hProcess, hEq⟩ := Option.map_eq_some_iff.mp hStep
      cases hEq
      rcases process_flash hProcess with ⟨hNone, hSame⟩ | ⟨arrival, given, hArrival, hAwait, rfl⟩
      · rw [hSame]
        exact ⟨h, hFree, by simp [submits, concludes, hNone]⟩
      · obtain ⟨hStanding, hLast, hKind, hJoinable⟩ := h.arrival hFree hArrival hAwait
        refine ⟨hStanding, hLast, ?_⟩
        rw [hJoinable]
        by_cases hPoll : arrival = .TRYFLASHDONE
        · subst hPoll
          obtain ⟨hConcludes, hSubmits⟩ := FlashAnswer.concludes_text (hKind.trans (by simp))
          simp [submits, concludes, hArrival, hConcludes, hSubmits]
        · obtain ⟨hSubmits, hTerminal⟩ :=
            FlashAnswer.submits_text (hKind.trans (by simpa using hPoll))
          obtain ⟨arg, rfl⟩ : ∃ arg, arrival = .FLASH arg := by
            unfold flash_arrival at hArrival
            split at hArrival
            · cases hArrival
              exact ⟨_, rfl⟩
            · cases hArrival
              exact absurd rfl hPoll
            · cases hArrival
          simp [submits, concludes, hArrival, hSubmits, hTerminal]

/-- What the answers say of the handle, in every run of the daemon. -/
theorem outstanding_of_run {clock : Nat} (hIdle : d.flash = idle_at clock)
    (run : Runs (daemon_machine cfg build).Step d trace d') :
    Standing d'.flash ∧ d'.flash.command = .none ∧
      d'.flash.op.joinable = outstanding trace := by
  refine Runs.history (I := fun trace d => Standing d.flash ∧ d.flash.command = .none ∧
    d.flash.op.joinable = outstanding trace) ?_ ?_ run
  · rw [hIdle]
    exact ⟨standing_idle clock, rfl, rfl⟩
  · rintro past u label v - ⟨hStanding, hFree, hJoinable⟩ hStep
    obtain ⟨hNext, hLast, hHandle⟩ := hStanding.daemon_step hFree hStep
    refine ⟨hNext, hLast, ?_⟩
    rw [hHandle, hJoinable]
    simp [outstanding]

/-- A thread that is not joinable has returned, and its script has ended or never run. -/
theorem Standing.quiet {s : FlashSystem} (h : Standing s) (hGone : s.op.joinable = false) :
    s.worker.is_live = false ∧ s.script ≠ .running := by
  have hDead := h.coherent.not_live hGone
  refine ⟨hDead, ?_⟩
  have hFits := h.fits
  unfold FlashSystem.script_fits at hFits
  cases hWorker : s.worker <;> simp_all [Worker.is_live]

/-- **A clean end.** In every run of the daemon, whatever the worker, the script and the clock
do in between, the process ends with the status that `main` returns if and only if the answers
so far conclude the last submission; and then no thread and no script is left. Otherwise it
ends in an abort, be the script ever so successful. -/
theorem exit_is_clean_iff {clock : Nat} (hIdle : d.flash = idle_at clock)
    (run : Runs (daemon_machine cfg build).Step d trace d') (status : Nat) :
    (main_returns status d' = .exited status ↔ outstanding trace = false) ∧
      (main_returns status d' = .aborted ↔ outstanding trace = true) ∧
      (outstanding trace = false → d'.flash.worker.is_live = false ∧
        d'.flash.script ≠ .running) := by
  obtain ⟨hStanding, -, hJoinable⟩ := outstanding_of_run hIdle run
  refine ⟨?_, ?_, fun hNone => hStanding.quiet (hJoinable.trans hNone)⟩ <;>
    cases hOutstanding : outstanding trace <;> simp [main_returns, hJoinable, hOutstanding]

/-- A submission whose script comes to a good end, and nobody who asks for it. -/
def flash_unpolled : List DaemonAction :=
  .command ⟨.SERIAL, str "AT+FLASH=a.img", { flash := [.resume, .resume, .resume] }⟩ ::
    [.set_running, .set_start_time, .popen true, .script_ends (.exited 0), .eof, .pclose false,
      .set_done, .clear_running].map .background

/-- The operation is done, and the process aborts all the same. -/
theorem exit_is_clean_unpolled : ∃ trace d',
    (daemon_machine {} { date := [], time := [] }).exec idle_daemon flash_unpolled =
      some (d', trace) ∧
    d'.flash.op.exit_code = 0 ∧ d'.flash.op.done = true ∧ main_returns 0 d' = .aborted := by
  obtain ⟨⟨d', trace⟩, hExec, hState⟩ := Option.map_eq_some_iff.mp
    (by rfl : ((daemon_machine {} { date := [], time := [] }).exec idle_daemon
      flash_unpolled).map (fun result => (result.1.flash.op.exit_code, result.1.flash.op.done,
        outstanding result.2)) = some (0, true, true))
  have hIdle : idle_daemon.flash = idle_at 0 := rfl
  obtain ⟨-, hAborts, -⟩ := exit_is_clean_iff hIdle (Machine.runs_of_exec hExec) 0
  simp only [Prod.mk.injEq] at hState
  exact ⟨trace, d', hExec, hState.1, hState.2.1, hAborts.mpr hState.2.2⟩

end RkFlashd
