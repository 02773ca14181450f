import RkFlashd.Serial.Reconnect

/-! The end of the daemon: `main` stops the reader thread and then the `SerialDaemon`, at every
access to what it shares with the thread, while that goes on with whatever it was doing. -/
namespace RkFlashd

open Text Transition

/-- Where `main` is. `stop_reader` runs twice, on its own and once more inside `stop`. -/
inductive MainPhase where
  | serving
  | checking (in_stop : Bool)
  | storing (in_stop : Bool)
  | closing (in_stop : Bool)
  | joining (in_stop : Bool)
  | releasing_port
  | releasing_lock
  | stopped
  deriving DecidableEq, Repr

/-- `joinable` is `reader_thread_.joinable()`. -/
structure ShutdownState where
  reader : ReaderState
  joinable : Bool
  main : MainPhase

inductive ShutdownAction where
  -- a step of the reader thread, or what the other threads do
  | reader (action : ReaderAction)
  -- the main loop is over and `http_server.stop()` has returned
  | shut_down
  -- the HTTP server has not started
  | give_up
  | main

/-- The steps of `stop_reader` are those of `main` here. -/
def ReaderAction.is_stop : ReaderAction → Bool
  | .stop_store | .stop_close => true
  | _ => false

/-- The access of a thread other than the reader. -/
def ReaderAction.is_other : ReaderAction → Bool
  | .other _ => true
  | _ => false

/-- What follows `stop_reader`. -/
def MainPhase.after_stop_reader (in_stop : Bool) : MainPhase :=
  if in_stop then .releasing_port else .checking true

/-- `if (serial_.is_open()) serial_.close()`. -/
def SerialPort.shut (p : SerialPort) : SerialPort := if p.is_open then p.close else p

/-- The next access of `main`. -/
def ShutdownState.step (s : ShutdownState) : Option ShutdownState :=
  match s.main with
  | .serving | .stopped => none
  | .checking in_stop =>
      some { s with
        main := if s.reader.reader_running_ then .storing in_stop
          else .after_stop_reader in_stop }
  | .storing in_stop =>
      some { s with reader := { s.reader with reader_running_ := false }, main := .closing in_stop }
  | .closing in_stop =>
      some { s with
        reader := { s.reader with serial_ := s.reader.serial_.shut }, main := .joining in_stop }
  | .joining in_stop =>
      -- the join returns when the thread has
      if s.joinable = true ∧ s.reader.phase ≠ .exited then none
      else some { s with joinable := false, main := .after_stop_reader in_stop }
  | .releasing_port =>
      some { s with
        reader := { s.reader with serial_ := s.reader.serial_.shut }, main := .releasing_lock }
  | .releasing_lock =>
      some { s with
        reader := { s.reader with daemon := { s.reader.daemon with owner := .NONE } }
        main := .stopped }

def shutdown_machine (cfg : Config) (build : Build) :
    Machine ShutdownState ShutdownAction (Option ReaderEvent) := fun s action =>
  match action with
  | .reader action =>
      -- the threads of the HTTP server end before `main` goes on
      if action.is_stop = true ∨ (action.is_other = true ∧ s.main ≠ .serving) then none
      else (reader_machine cfg build s.reader action).map fun result =>
        ({ s with reader := result.1 }, some result.2)
  | .shut_down =>
      if s.main = .serving then some ({ s with main := .checking false }, none) else none
  | .give_up => if s.main = .serving then some ({ s with main := .checking true }, none) else none
  | .main => s.step.map fun t => (t, none)

abbrev ShutdownLabel := ShutdownAction × Option ReaderEvent

/-- The daemon has started, with a reader thread or without. -/
inductive Started : ShutdownState → Prop where
  | reading (port : SerialPort) (daemon : Daemon) :
      Started ⟨⟨true, port, daemon, .loop⟩, true, .serving⟩
  | unread (port : SerialPort) (daemon : Daemon) :
      Started ⟨⟨false, port, daemon, .exited⟩, false, .serving⟩

/-- `stop_reader` has closed the port. -/
def MainPhase.has_closed : MainPhase → Bool
  | .joining _ | .releasing_port | .releasing_lock | .stopped => true
  | _ => false

/-- The last `stop_reader` has returned. -/
def MainPhase.has_joined : MainPhase → Bool
  | .releasing_port | .releasing_lock | .stopped => true
  | _ => false

/-- `main` and the thread, as far as each knows of the other. -/
structure Orderly (s : ShutdownState) : Prop where
  unthreaded : s.joinable = false → s.reader.phase = .exited ∧ s.reader.reader_running_ = false
  told : s.reader.reader_running_ = false →
    s.joinable = false ∨ ∃ in_stop, s.main = .closing in_stop ∨ s.main = .joining in_stop
  telling : ∀ in_stop, s.main = .closing in_stop ∨ s.main = .joining in_stop →
    s.reader.reader_running_ = false
  joined : s.main.has_joined = true → s.joinable = false
  shut : s.main.has_closed = true → Shut s.reader
  port : s.main = .releasing_lock ∨ s.main = .stopped → s.reader.serial_.is_open = false
  lock : s.main = .stopped → s.reader.daemon.owner = .NONE

/-- The steps of the end one by one. -/
inductive ShutdownMove (cfg : Config) (build : Build) (s : ShutdownState) :
    ShutdownLabel → ShutdownState → Prop where
  | reader {action : ReaderAction} {event : ReaderEvent} {t : ReaderState}
      (own : action.is_stop = false) (served : action.is_other = true → s.main = .serving)
      (move : ReaderMove cfg build s.reader (action, event) t) :
      ShutdownMove cfg build s (.reader action, some event) { s with reader := t }
  | shut_down (serving : s.main = .serving) :
      ShutdownMove cfg build s (.shut_down, none) { s with main := .checking false }
  | give_up (serving : s.main = .serving) :
      ShutdownMove cfg build s (.give_up, none) { s with main := .checking true }
  | skip {in_stop : Bool} (at_check : s.main = .checking in_stop)
      (stopped : s.reader.reader_running_ = false) :
      ShutdownMove cfg build s (.main, none) { s with main := .after_stop_reader in_stop }
  | check {in_stop : Bool} (at_check : s.main = .checking in_stop)
      (running : s.reader.reader_running_ = true) :
      ShutdownMove cfg build s (.main, none) { s with main := .storing in_stop }
  | store {in_stop : Bool} (at_store : s.main = .storing in_stop) :
      ShutdownMove cfg build s (.main, none)
        { s with reader := { s.reader with reader_running_ := false }, main := .closing in_stop }
  | close {in_stop : Bool} (at_close : s.main = .closing in_stop) :
      ShutdownMove cfg build s (.main, none)
        { s with
          reader := { s.reader with serial_ := s.reader.serial_.shut }, main := .joining in_stop }
  | join {in_stop : Bool} (at_join : s.main = .joining in_stop)
      (ended : s.joinable = true → s.reader.phase = .exited) :
      ShutdownMove cfg build s (.main, none)
        { s with joinable := false, main := .after_stop_reader in_stop }
  | release_port (at_port : s.main = .releasing_port) :
      ShutdownMove cfg build s (.main, none)
        { s with
          reader := { s.reader with serial_ := s.reader.serial_.shut }, main := .releasing_lock }
  | release_lock (at_lock : s.main = .releasing_lock) :
      ShutdownMove cfg build s (.main, none)
        { s with
          reader := { s.reader with daemon := { s.reader.daemon with owner := .NONE } }
          main := .stopped }

variable {cfg : Config} {build : Build} {s t : ShutdownState} {label : ShutdownLabel}
  {trace : List ShutdownLabel}

/-- The moves of the process that is being stopped. -/
theorem shutdown_step_cases (h : (shutdown_machine cfg build).Step s label t) :
    ShutdownMove cfg build s label t := by
  obtain ⟨action, event⟩ := label
  simp only [Machine.Step, shutdown_machine] at h
  cases action with
  | reader action =>
      simp only at h
      split at h
      · cases h
      · rename_i hAllowed
        simp only [not_or, Bool.not_eq_true, not_and, not_not] at hAllowed
        obtain ⟨⟨u, shown⟩, hStep, hEq⟩ := Option.map_eq_some_iff.mp h
        cases hEq
        exact ShutdownMove.reader hAllowed.1 hAllowed.2 (reader_step_cases hStep)
  | shut_down =>
      simp only at h
      split at h
      · cases h
        exact ShutdownMove.shut_down ‹_›
      · cases h
  | give_up =>
      simp only at h
      split at h
      · cases h
        exact ShutdownMove.give_up ‹_›
      · cases h
  | main =>
      obtain ⟨u, hStep, hEq⟩ := Option.map_eq_some_iff.mp h
      cases hEq
      cases hMain : s.main with
      | serving | stopped => simp [ShutdownState.step, hMain] at hStep
      | checking in_stop =>
          by_cases hRunning : s.reader.reader_running_ = true
          · simp only [ShutdownState.step, hMain, if_pos hRunning, Option.some.injEq] at hStep
            subst hStep
            exact ShutdownMove.check hMain hRunning
          · simp only [ShutdownState.step, hMain, if_neg hRunning, Option.some.injEq] at hStep
            subst hStep
            exact ShutdownMove.skip hMain (by simpa using hRunning)
      | storing in_stop =>
          simp only [ShutdownState.step, hMain, Option.some.injEq] at hStep
          subst hStep
          exact ShutdownMove.store hMain
      | closing in_stop =>
          simp only [ShutdownState.step, hMain, Option.some.injEq] at hStep
          subst hStep
          exact ShutdownMove.close hMain
      | joining in_stop =>
          simp only [ShutdownState.step, hMain] at hStep
          split at hStep
          · cases hStep
          · rename_i hEnded
            cases hStep
            exact ShutdownMove.join hMain fun h => by
              by_contra hPhase
              exact hEnded ⟨h, hPhase⟩
      | releasing_port =>
          simp only [ShutdownState.step, hMain, Option.some.injEq] at hStep
          subst hStep
          exact ShutdownMove.release_port hMain
      | releasing_lock =>
          simp only [ShutdownState.step, hMain, Option.some.injEq] at hStep
          subst hStep
          exact ShutdownMove.release_lock hMain

@[simp] theorem SerialPort.close_is_open (p : SerialPort) : p.close.is_open = false := rfl

@[simp] theorem SerialPort.shut_is_open (p : SerialPort) : p.shut.is_open = false := by
  unfold SerialPort.shut
  split
  · rfl
  · simpa using ‹¬ p.is_open = true›

/-- A thread that has left its loop does nothing. -/
theorem ReaderMove.exited {s t : ReaderState} {label : ReaderLabel}
    (h : ReaderMove cfg build s label t) (hExited : s.phase = .exited)
    (hOwn : label.1.is_stop = false) : label.1.is_other = true ∧ t.phase = .exited := by
  cases h with
  | other => exact ⟨rfl, hExited⟩
  | stopping | closed | stopped => cases hOwn
  | exit hPhase => rcases hPhase with hPhase | hPhase <;> rw [hExited] at hPhase <;> cases hPhase
  | _ => simp_all

/-- Only `stop_reader` changes the flag. -/
theorem ReaderMove.running {s t : ReaderState} {label : ReaderLabel}
    (h : ReaderMove cfg build s label t) (hOwn : label.1.is_stop = false) :
    t.reader_running_ = s.reader_running_ := by
  cases h with
  | stopping => cases hOwn
  | _ => rfl

theorem Started.orderly (h : Started s) : Orderly s := by
  cases h <;> constructor <;> simp [MainPhase.has_joined, MainPhase.has_closed]

/-- After the last join there is no thread left to take a step. -/
theorem Orderly.no_reader (h : Orderly s) (hJoined : s.main.has_joined = true)
    {action : ReaderAction} {event : ReaderEvent} {t : ReaderState}
    (hOwn : action.is_stop = false) (hServed : action.is_other = true → s.main = .serving)
    (hMove : ReaderMove cfg build s.reader (action, event) t) : False := by
  obtain ⟨hOther, -⟩ := hMove.exited (h.unthreaded (h.joined hJoined)).1 hOwn
  rw [hServed hOther] at hJoined
  cases hJoined

/-- A thread that is gone, or never was, reads no port. -/
theorem Orderly.shut_of_unthreaded (h : Orderly s) (hGone : s.joinable = false) :
    Shut s.reader :=
  ⟨(h.unthreaded hGone).2, fun _ => Or.inr (h.unthreaded hGone).1⟩

/-- What `main` and the thread know of each other stays true. -/
theorem Orderly.step (h : Orderly s) (hMove : ShutdownMove cfg build s label t) : Orderly t := by
  cases hMove with
  | @reader action event u hOwn hServed hMove =>
      have hRunning := hMove.running hOwn
      refine ⟨fun hGone => ?_, ?_, ?_, h.joined, fun hClosed => (h.shut hClosed).step hMove,
        fun hMain => ?_, fun hMain => ?_⟩
      · obtain ⟨hExited, hStopped⟩ := h.unthreaded hGone
        exact ⟨(hMove.exited hExited hOwn).2, hRunning.trans hStopped⟩
      · exact fun hStopped => h.told (hRunning.symm.trans hStopped)
      · exact fun in_stop hMain => hRunning.trans (h.telling in_stop hMain)
      · refine (h.no_reader ?_ hOwn hServed hMove).elim
        rcases hMain with hMain | hMain <;> simp only at hMain <;> rw [hMain] <;> rfl
      · refine (h.no_reader ?_ hOwn hServed hMove).elim
        simp only at hMain
        rw [hMain]
        rfl
  | shut_down hServing | give_up hServing =>
      refine ⟨h.unthreaded, fun hStopped => ?_, ?_, ?_, ?_, ?_, ?_⟩
      · refine Or.inl ((h.told hStopped).resolve_right ?_)
        rintro ⟨in_stop, hMain | hMain⟩ <;> rw [hServing] at hMain <;> cases hMain
      all_goals simp [MainPhase.has_joined, MainPhase.has_closed]
  | @skip in_stop hCheck hStopped =>
      have hGone : s.joinable = false := by
        refine (h.told hStopped).resolve_right ?_
        rintro ⟨other, hMain | hMain⟩ <;> rw [hCheck] at hMain <;> cases hMain
      refine ⟨h.unthreaded, fun _ => Or.inl hGone, ?_, fun _ => hGone,
        fun _ => h.shut_of_unthreaded hGone, ?_, ?_⟩
      all_goals cases in_stop <;> simp [MainPhase.after_stop_reader]
  | @check in_stop hCheck hRunning =>
      refine ⟨h.unthreaded, fun hStopped => ?_, ?_, ?_, ?_, ?_, ?_⟩
      · rw [hRunning] at hStopped
        cases hStopped
      all_goals simp [MainPhase.has_joined, MainPhase.has_closed]
  | @store in_stop hStore =>
      refine ⟨fun hGone => ⟨(h.unthreaded hGone).1, rfl⟩,
        fun _ => Or.inr ⟨in_stop, Or.inl rfl⟩, fun _ _ => rfl, ?_, ?_, ?_, ?_⟩
      all_goals simp [MainPhase.has_joined, MainPhase.has_closed]
  | @close in_stop hClose =>
      have hStopped := h.telling in_stop (Or.inl hClose)
      refine ⟨h.unthreaded, fun _ => Or.inr ⟨in_stop, Or.inr rfl⟩, fun _ _ => hStopped, ?_,
        fun _ => ⟨hStopped, fun hOpen => ?_⟩, ?_, ?_⟩
      · simp [MainPhase.has_joined]
      · rw [SerialPort.shut_is_open] at hOpen
        cases hOpen
      all_goals simp
  | @join in_stop hJoin hEnded =>
      have hStopped := h.telling in_stop (Or.inr hJoin)
      have hExited : s.reader.phase = .exited := by
        by_cases hThread : s.joinable = true
        · exact hEnded hThread
        · exact (h.unthreaded (by simpa using hThread)).1
      refine ⟨fun _ => ⟨hExited, hStopped⟩, fun _ => Or.inl rfl, fun _ _ => hStopped,
        fun _ => rfl, fun _ => ⟨hStopped, fun _ => Or.inr hExited⟩, ?_, ?_⟩
      all_goals cases in_stop <;> simp [MainPhase.after_stop_reader]
  | release_port hPort =>
      have hGone : s.joinable = false := h.joined (by rw [hPort]; rfl)
      have hShut := h.shut_of_unthreaded hGone
      refine ⟨h.unthreaded, fun _ => Or.inl hGone, ?_, fun _ => hGone,
        fun _ => ⟨hShut.stopped, fun _ => Or.inr (h.unthreaded hGone).1⟩,
        fun _ => SerialPort.shut_is_open _, ?_⟩
      all_goals simp
  | release_lock hLock =>
      have hGone : s.joinable = false := h.joined (by rw [hLock]; rfl)
      have hShut := h.shut_of_unthreaded hGone
      refine ⟨h.unthreaded, fun _ => Or.inl hGone, ?_, fun _ => hGone,
        fun _ => ⟨hShut.stopped, hShut.unread⟩, fun _ => h.port (Or.inl hLock), fun _ => rfl⟩
      simp

/-- The rest of the way of a thread that has been told to stop. -/
def ReaderPhase.rank : ReaderPhase → Nat
  | .exited => 0
  | .loop | .failed => 1
  | .answering _ | .reconnect => 2
  | .admitted _ => 3
  | .comparing _ => 4
  | .acquiring _ => 5
  | .reading => 6

def MainPhase.rank : MainPhase → Nat
  | .stopped => 0
  | .releasing_lock => 1
  | .releasing_port => 2
  | .joining true => 3
  | .closing true => 4
  | .storing true => 5
  | .checking true => 6
  | .joining false => 7
  | .closing false => 8
  | .storing false => 9
  | .checking false => 10
  | .serving => 11

/-- What is left to do once the thread has been told. -/
def ShutdownState.rank (s : ShutdownState) : Nat := s.reader.phase.rank + s.main.rank

/-- The loop is left at its next turn, and nothing on the way there is repeated. -/
theorem ReaderMove.rank_lt {s t : ReaderState} {label : ReaderLabel}
    (h : ReaderMove cfg build s label t) (hStopped : s.reader_running_ = false)
    (hOwn : label.1.is_stop = false) (hOther : label.1.is_other = false) :
    t.phase.rank < s.phase.rank := by
  cases h with
  | next _ hRunning | retry _ hRunning =>
      rw [hStopped] at hRunning
      cases hRunning
  | exit hPhase => rcases hPhase with hPhase | hPhase <;> simp [hPhase, ReaderPhase.rank]
  | @handled line answer _ _ hPhase =>
      by_cases hSilent : answer = [] <;> simp [hPhase, hSilent, ReaderPhase.rank]
  | stopping | closed | stopped => cases hOwn
  | other => cases hOther
  | got_line hPhase | no_line hPhase | still_open hPhase | opened hPhase | acquired hPhase
  | contended hPhase | refused hPhase | reused hPhase | wrote hPhase =>
      simp [hPhase, ReaderPhase.rank]

/-- The thread has been told to stop, and the requests of the HTTP server are over. -/
structure Told (s : ShutdownState) : Prop where
  orderly : Orderly s
  stopped : s.reader.reader_running_ = false
  past : s.main ≠ .serving

theorem MainPhase.after_stop_reader_rank (in_stop : Bool) :
    (MainPhase.after_stop_reader in_stop).rank < (MainPhase.joining in_stop).rank ∧
      (MainPhase.after_stop_reader in_stop).rank < (MainPhase.checking in_stop).rank := by
  cases in_stop <;> decide

theorem MainPhase.after_stop_reader_past (in_stop : Bool) :
    MainPhase.after_stop_reader in_stop ≠ .serving := by
  cases in_stop <;> decide

/-- Once the reader has been told to stop, every step brings the end nearer. -/
theorem Told.step (h : Told s) (hMove : ShutdownMove cfg build s label t) :
    Told t ∧ t.rank < s.rank := by
  have hOrderly := h.orderly.step hMove
  cases hMove with
  | @reader action event u hOwn hServed hMove =>
      have hOther : action.is_other = false := by
        by_contra hOther
        exact h.past (hServed (by simpa using hOther))
      refine ⟨⟨hOrderly, (hMove.running hOwn).trans h.stopped, h.past⟩, ?_⟩
      exact Nat.add_lt_add_right (hMove.rank_lt h.stopped hOwn hOther) _
  | shut_down hServing | give_up hServing => exact absurd hServing h.past
  | check _ hRunning =>
      rw [h.stopped] at hRunning
      cases hRunning
  | @skip in_stop hCheck =>
      refine ⟨⟨hOrderly, h.stopped, MainPhase.after_stop_reader_past in_stop⟩, ?_⟩
      simp only [ShutdownState.rank, hCheck]
      exact Nat.add_lt_add_left (MainPhase.after_stop_reader_rank in_stop).2 _
  | @join in_stop hJoin =>
      refine ⟨⟨hOrderly, h.stopped, MainPhase.after_stop_reader_past in_stop⟩, ?_⟩
      simp only [ShutdownState.rank, hJoin]
      exact Nat.add_lt_add_left (MainPhase.after_stop_reader_rank in_stop).1 _
  | @store in_stop hMain | @close in_stop hMain =>
      refine ⟨⟨hOrderly, by simp [h.stopped], by simp⟩, ?_⟩
      cases in_stop <;> simp [ShutdownState.rank, hMain, MainPhase.rank]
  | release_port hMain | release_lock hMain =>
      refine ⟨⟨hOrderly, h.stopped, by simp⟩, ?_⟩
      simp [ShutdownState.rank, hMain, MainPhase.rank]

/-- The thread takes nothing from the device and gives it nothing. -/
def Silent (label : ShutdownLabel) : Prop :=
  ∀ action, label.1 = .reader action →
    action.reads = [] ∧ ∀ ok bytes, label.2 = some (.wrote ok bytes) → bytes = []

theorem Shut.writes {s t : ReaderState} {action : ReaderAction} {ok : Bool} {bytes : Bytes}
    (hShut : Shut s) (h : ReaderMove cfg build s (action, .wrote ok bytes) t) : bytes = [] := by
  cases h with
  | wrote hPhase hResult =>
      have hClosed : s.serial_.is_open = false := by
        by_contra hOpen
        have hHere := hShut.unread (by simpa using hOpen)
        rw [hPhase] at hHere
        simp at hHere
      rw [SerialDaemon.writeLine_eq, SerialPort.writeLine_closed hClosed] at hResult
      cases hResult
      rfl

/-- The port was closed under the thread, which stays away from it. -/
theorem Shut.shutdown_step (hShut : Shut s.reader) (hMove : ShutdownMove cfg build s label t) :
    Shut t.reader ∧ Silent label := by
  have hQuiet : ∀ action, (ShutdownAction.main : ShutdownAction) ≠ .reader action := by
    intro action h
    cases h
  cases hMove with
  | reader _ _ hMove =>
      refine ⟨hShut.step hMove, fun action hEq => ?_⟩
      cases hEq
      refine ⟨hShut.reads hMove, fun ok bytes hWrote => ?_⟩
      cases hWrote
      exact hShut.writes hMove
  | shut_down | give_up =>
      refine ⟨hShut, fun action hEq => ?_⟩
      cases hEq
  | skip | check | join => exact ⟨hShut, fun action hEq => absurd hEq (hQuiet action)⟩
  | store =>
      exact ⟨⟨rfl, hShut.unread⟩, fun action hEq => absurd hEq (hQuiet action)⟩
  | close | release_port =>
      refine ⟨⟨hShut.stopped, fun hOpen => ?_⟩, fun action hEq => absurd hEq (hQuiet action)⟩
      rw [SerialPort.shut_is_open] at hOpen
      cases hOpen
  | release_lock =>
      exact ⟨⟨hShut.stopped, hShut.unread⟩, fun action hEq => absurd hEq (hQuiet action)⟩

/-- A thread that has been told to stop, with its port closed, can go on, unless its command
does not return. -/
theorem Shut.can_step (cfg : Config) (build : Build) {s : ReaderState} (hShut : Shut s)
    (hPhase : s.phase ≠ .exited) :
    (∃ action : ReaderAction, action.is_stop = false ∧ action.is_other = false ∧
      (reader_machine cfg build s action).isSome = true) ∨
    ∃ line, s.phase = .admitted line ∧
      ∀ around, process cfg build s.daemon ⟨.SERIAL, line, around⟩ = none := by
  have hClosed : s.phase ≠ .loop → s.serial_.is_open = false := by
    intro hLoop
    by_contra hOpen
    rcases hShut.unread (by simpa using hOpen) with h | h
    · exact hLoop h
    · exact hPhase h
  cases hNow : s.phase with
  | exited => exact absurd hNow hPhase
  | loop | failed => exact Or.inl ⟨.go, rfl, rfl, by simp [reader_machine, hNow]⟩
  | reading =>
      have hPort := hClosed (by simp [hNow])
      exact Or.inl ⟨.read (fun _ => 0) [], rfl, rfl,
        by simp [reader_machine, hNow, SerialDaemon.readLine, hPort]⟩
  | reconnect =>
      have hPort := hClosed (by simp [hNow])
      exact Or.inl ⟨.reopen {}, rfl, rfl, by simp [reader_machine, hNow, hPort, SerialPort.open]⟩
  | acquiring line =>
      refine Or.inl ⟨.go, rfl, rfl, ?_⟩
      by_cases hFree : s.daemon.owner = .NONE <;> simp [reader_machine, hNow, try_acquire, hFree]
  | comparing line =>
      refine Or.inl ⟨.go, rfl, rfl, ?_⟩
      by_cases hOwn : s.daemon.owner = .SERIAL <;> simp [reader_machine, hNow, hOwn]
  | answering response => exact Or.inl ⟨.write 0, rfl, rfl, by simp [reader_machine, hNow]⟩
  | admitted line =>
      by_cases hHangs : ∀ around, process cfg build s.daemon ⟨.SERIAL, line, around⟩ = none
      · exact Or.inr ⟨line, rfl, hHangs⟩
      · obtain ⟨around, hReturns⟩ := not_forall.mp hHangs
        obtain ⟨result, hResult⟩ := Option.ne_none_iff_exists'.mp hReturns
        exact Or.inl ⟨.handle around, rfl, rfl, by simp [reader_machine, hNow, hResult]⟩

/-- Nothing but a command that does not return keeps the daemon from its end. -/
theorem Told.progress (h : Told s)
    (hStuck : ∀ label t, ¬ (shutdown_machine cfg build).Step s label t) :
    s.main = .stopped ∨ ∃ line in_stop, s.reader.phase = .admitted line ∧
      s.main = .joining in_stop ∧
      ∀ around, process cfg build s.reader.daemon ⟨.SERIAL, line, around⟩ = none := by
  have hMain : s.step = none := by
    cases hNext : s.step with
    | none => rfl
    | some t =>
        refine absurd ?_ (hStuck (.main, none) t)
        simp [Machine.Step, shutdown_machine, hNext]
  unfold ShutdownState.step at hMain
  split at hMain
  case h_1 hServing => exact absurd hServing h.past
  case h_2 hStopped => exact Or.inl hStopped
  case h_6 in_stop hJoin =>
      refine Or.inr ?_
      split at hMain
      · rename_i hWaits
        rcases (h.orderly.shut (by rw [hJoin]; rfl)).can_step cfg build hWaits.2 with
          ⟨action, hOwn, hOther, hSome⟩ | ⟨line, hPhase, hHangs⟩
        · obtain ⟨result, hStep⟩ := Option.isSome_iff_exists.mp hSome
          refine absurd ?_ (hStuck (.reader action, some result.2) { s with reader := result.1 })
          simp [Machine.Step, shutdown_machine, hOwn, hOther, hStep]
        · exact ⟨line, in_stop, hPhase, hJoin, hHangs⟩
      · cases hMain
  all_goals cases hMain

/-- Once the thread has been told to stop, the end of the daemon takes a bounded number of
steps in any order. After the close nothing goes over the line any more, whatever the thread
was doing; only a command that does not return can hold up the join; and in the end the thread
is gone, the port closed and the lock free. -/
theorem shutdown_is_orderly {started : ShutdownState} (hStart : Started started)
    (run : Runs (shutdown_machine cfg build).Step started trace s)
    (hTold : s.reader.reader_running_ = false) (hPast : s.main ≠ .serving) :
    (∀ rest t, Runs (shutdown_machine cfg build).Step s rest t →
      rest.length + t.rank ≤ s.rank ∧ (s.main.has_closed = true → ∀ label ∈ rest, Silent label)) ∧
    ((∀ label t, ¬ (shutdown_machine cfg build).Step s label t) →
      s.main = .stopped ∨ ∃ line in_stop, s.reader.phase = .admitted line ∧
        s.main = .joining in_stop ∧
        ∀ around, process cfg build s.reader.daemon ⟨.SERIAL, line, around⟩ = none) ∧
    (s.main = .stopped → s.reader.phase = .exited ∧ s.joinable = false ∧
      s.reader.serial_.is_open = false ∧ s.reader.daemon.owner = .NONE ∧
      ∀ label t, ¬ (shutdown_machine cfg build).Step s label t) := by
  have hOrderly : Orderly s :=
    run.invariant (fun _ _ _ h hStep => h.step (shutdown_step_cases hStep)) hStart.orderly
  have hNow : Told s := ⟨hOrderly, hTold, hPast⟩
  have hStep : ∀ u label v, Told u → (shutdown_machine cfg build).Step u label v →
      Told v ∧ v.rank < u.rank := fun u label v h hStep => h.step (shutdown_step_cases hStep)
  refine ⟨fun rest t hRest => ⟨(hRest.length_le_rank hStep hNow).2, fun hClosed => ?_⟩,
    hNow.progress, fun hStopped => ?_⟩
  · have hQuiet := Runs.history
      (I := fun past u => Shut u.reader ∧ ∀ label ∈ past, Silent label)
      ⟨hOrderly.shut hClosed, by simp⟩
      (fun past u label v _ h hStep => by
        obtain ⟨hShut, hSilent⟩ := h.1.shutdown_step (shutdown_step_cases hStep)
        refine ⟨hShut, fun found hFound => ?_⟩
        rcases List.mem_append.mp hFound with hBefore | hLast
        · exact h.2 found hBefore
        · rw [List.mem_singleton.mp hLast]
          exact hSilent) hRest
    exact hQuiet.2
  · have hGone := hOrderly.joined (by rw [hStopped]; rfl)
    refine ⟨(hOrderly.unthreaded hGone).1, hGone, hOrderly.port (Or.inr hStopped),
      hOrderly.lock hStopped, fun label t hLast => ?_⟩
    cases shutdown_step_cases hLast with
    | reader hOwn hServed hMove =>
        exact hOrderly.no_reader (by rw [hStopped]; rfl) hOwn hServed hMove
    | shut_down h | give_up h | skip h | check h | store h | close h | join h | release_port h
    | release_lock h =>
        rw [hStopped] at h
        cases h

/-- The signal comes while the thread reads: it gets its line, answers into the closed port
and is joined. -/
theorem shutdown_is_orderly_reading :
    ∃ trace s, Runs (shutdown_machine {} { date := [], time := [] }).Step
        ⟨waiting_reader, true, .serving⟩ trace s ∧
      s.main = .joining false ∧ s.rank = 13 ∧
      ∀ rest t, Runs (shutdown_machine {} { date := [], time := [] }).Step s rest t →
        rest.length + t.rank ≤ 13 ∧ ∀ label ∈ rest, Silent label := by
  obtain ⟨⟨s, trace⟩, hExec, hEq⟩ := Option.map_eq_some_iff.mp
    (by rfl : (((shutdown_machine {} { date := [], time := [] }).exec
      ⟨waiting_reader, true, .serving⟩
      [.reader .go, .shut_down, .main, .main, .main]).map
        fun result => (result.1.main, result.1.rank, result.1.reader.reader_running_)) =
      some (.joining false, 13, false))
  obtain ⟨hMain, hRest⟩ := Prod.mk.inj hEq
  obtain ⟨hRank, hTold⟩ := Prod.mk.inj hRest
  have run := Machine.runs_of_exec hExec
  refine ⟨trace, s, run, hMain, hRank, fun rest t hRest => ?_⟩
  obtain ⟨hLength, hQuiet⟩ := (shutdown_is_orderly (Started.reading _ _) run hTold
    (by rw [hMain]; decide)).1 rest t hRest
  rw [hRank] at hLength
  exact ⟨hLength, hQuiet (by rw [hMain]; rfl)⟩

end RkFlashd
