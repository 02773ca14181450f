import RkFlashd.Process
import RkFlashd.Serial.SerialPort

/-! The reader thread of `SerialDaemon`: the loop of `start_reader` at its accesses to the
port, to `reader_running_` and to `owner_`, with `stop_reader` and the other threads in
between. -/
namespace RkFlashd

open Text Transition

namespace SerialDaemon

/-- `SerialDaemon::readLine`, under `io_mutex_`. -/
def readLine (serial_ : SerialPort) (line : Bytes) (call : ReadCall) (device : List ReadResult) :
    Option ((Bool × Bytes) × List ReadResult) :=
  if serial_.is_open then serial_.readLine line call device else some ((false, line), device)

/-- `SerialDaemon::writeLine`, under `io_mutex_`. -/
def writeLine (serial_ : SerialPort) (line : Bytes) (written : Int) : Bool × Bytes :=
  if serial_.is_open then serial_.writeLine line written else (false, [])

/-- The daemon adds nothing to the calls of the port. -/
theorem readLine_eq (serial_ : SerialPort) (line : Bytes) (call : ReadCall)
    (device : List ReadResult) :
    readLine serial_ line call device = serial_.readLine line call device := by
  unfold readLine SerialPort.readLine
  split <;> rfl

theorem writeLine_eq (serial_ : SerialPort) (line : Bytes) (written : Int) :
    writeLine serial_ line written = serial_.writeLine line written := by
  unfold writeLine
  split
  · rfl
  · rename_i hClosed
    exact (SerialPort.writeLine_closed (by simpa using hClosed) line written).symm

end SerialDaemon

/-- What the loop does next, with the line or the answer it works on. -/
inductive ReaderPhase where
  | loop
  | reading
  | failed
  | reconnect
  | acquiring (line : Bytes)
  | comparing (line : Bytes)
  | admitted (line : Bytes)
  | answering (response : Bytes)
  | exited
  deriving DecidableEq, Repr

structure ReaderState where
  reader_running_ : Bool
  serial_ : SerialPort
  daemon : Daemon
  phase : ReaderPhase

/-- A step of the loop, with what the device, the library or the handler contributes; the two
steps of `stop_reader`; or whatever another thread does to the shared state. -/
inductive ReaderAction where
  | go
  | read (clock : Nat → Nat) (reads : List ReadResult)
  | reopen (outcome : OpenOutcome)
  | handle (around : Circumstances)
  | write (written : Int)
  | stop_store
  | stop_close
  | other (daemon : Daemon)

/-- What a step shows. -/
inductive ReaderEvent where
  | moved
  | read (ok : Bool) (line : Bytes)
  | opened (ok : Bool)
  | closed
  | refused
  | handled (line answer : Bytes)
  | wrote (ok : Bool) (bytes : Bytes)
  deriving DecidableEq, Repr

abbrev ReaderLabel := ReaderAction × ReaderEvent

/-- The outcomes of the reads that a step makes on the open port. -/
def ReaderAction.reads : ReaderAction → List ReadResult
  | .read _ reads => reads
  | _ => []

/-- All that has been read in the course of a run. -/
def reads_of (trace : List ReaderLabel) : List ReadResult :=
  trace.flatMap fun label => label.1.reads

/-- The thread of `start_reader`, and `stop_reader`. A read step makes just the reads that
its call of `readLine` makes. -/
def reader_machine (cfg : Config) (build : Build) :
    Machine ReaderState ReaderAction ReaderEvent := fun s action =>
  match action, s.phase with
  | .go, .loop =>
      some ({ s with phase := if s.reader_running_ then .reading else .exited }, .moved)
  | .read clock reads, .reading =>
      match SerialDaemon.readLine s.serial_ [] ⟨500, clock⟩ reads with
      | some ((true, line), []) => some ({ s with phase := .acquiring line }, .read true line)
      | some ((false, line), []) => some ({ s with phase := .failed }, .read false line)
      | _ => none
  | .go, .failed =>
      some ({ s with phase := if s.reader_running_ then .reconnect else .exited }, .moved)
  | .reopen outcome, .reconnect =>
      if s.serial_.is_open then some ({ s with phase := .loop }, .moved)
      else
        match s.serial_.open cfg.serial_device.val outcome with
        | none => none
        | some (ok, port) => some ({ s with serial_ := port, phase := .loop }, .opened ok)
  | .go, .acquiring line =>
      match try_acquire s.daemon.owner .SERIAL with
      | (true, owner) =>
          some ({ s with daemon := { s.daemon with owner := owner }, phase := .admitted line },
            .moved)
      | (false, _) => some ({ s with phase := .comparing line }, .moved)
  | .go, .comparing line =>
      if s.daemon.owner ≠ .SERIAL then
        some ({ s with phase := .answering (str "BUSY") }, .refused)
      else some ({ s with phase := .admitted line }, .moved)
  | .handle around, .admitted line =>
      match process cfg build s.daemon ⟨.SERIAL, line, around⟩ with
      | none => none
      | some (daemon, response) =>
          let phase := if response ≠ [] then .answering response else .loop
          some ({ s with daemon := daemon, phase := phase }, .handled line response)
  | .write written, .answering response =>
      let (ok, bytes) := SerialDaemon.writeLine s.serial_ response written
      some ({ s with phase := .loop }, .wrote ok bytes)
  | .stop_store, _ =>
      if s.reader_running_ then some ({ s with reader_running_ := false }, .moved) else none
  | .stop_close, _ =>
      if s.reader_running_ then none
      else if s.serial_.is_open then some ({ s with serial_ := s.serial_.close }, .closed)
      else some (s, .moved)
  | .other daemon, _ => some ({ s with daemon := daemon }, .moved)
  | _, _ => none

/-- The steps one by one. -/
inductive ReaderMove (cfg : Config) (build : Build) (s : ReaderState) :
    ReaderLabel → ReaderState → Prop where
  | next (at_loop : s.phase = .loop) (running : s.reader_running_ = true) :
      ReaderMove cfg build s (.go, .moved) { s with phase := .reading }
  | exit (at_check : s.phase = .loop ∨ s.phase = .failed) (stopped : s.reader_running_ = false) :
      ReaderMove cfg build s (.go, .moved) { s with phase := .exited }
  | got_line {clock : Nat → Nat} {reads : List ReadResult} {line : Bytes}
      (at_read : s.phase = .reading)
      (result : SerialDaemon.readLine s.serial_ [] ⟨500, clock⟩ reads = some ((true, line), [])) :
      ReaderMove cfg build s (.read clock reads, .read true line)
        { s with phase := .acquiring line }
  | no_line {clock : Nat → Nat} {reads : List ReadResult} {line : Bytes}
      (at_read : s.phase = .reading)
      (result : SerialDaemon.readLine s.serial_ [] ⟨500, clock⟩ reads = some ((false, line), [])) :
      ReaderMove cfg build s (.read clock reads, .read false line) { s with phase := .failed }
  | retry (at_check : s.phase = .failed) (running : s.reader_running_ = true) :
      ReaderMove cfg build s (.go, .moved) { s with phase := .reconnect }
  | still_open {outcome : OpenOutcome} (at_reconnect : s.phase = .reconnect)
      (present : s.serial_.is_open = true) :
      ReaderMove cfg build s (.reopen outcome, .moved) { s with phase := .loop }
  | opened {outcome : OpenOutcome} {ok : Bool} {port : SerialPort}
      (at_reconnect : s.phase = .reconnect) (absent : s.serial_.is_open = false)
      (result : s.serial_.open cfg.serial_device.val outcome = some (ok, port)) :
      ReaderMove cfg build s (.reopen outcome, .opened ok)
        { s with serial_ := port, phase := .loop }
  | acquired {line : Bytes} (at_acquire : s.phase = .acquiring line)
      (free : s.daemon.owner = .NONE) :
      ReaderMove cfg build s (.go, .moved)
        { s with daemon := { s.daemon with owner := .SERIAL }, phase := .admitted line }
  | contended {line : Bytes} (at_acquire : s.phase = .acquiring line)
      (held : s.daemon.owner ≠ .NONE) :
      ReaderMove cfg build s (.go, .moved) { s with phase := .comparing line }
  | refused {line : Bytes} (at_compare : s.phase = .comparing line)
      (foreign : s.daemon.owner ≠ .SERIAL) :
      ReaderMove cfg build s (.go, .refused) { s with phase := .answering (str "BUSY") }
  | reused {line : Bytes} (at_compare : s.phase = .comparing line)
      (own : s.daemon.owner = .SERIAL) :
      ReaderMove cfg build s (.go, .moved) { s with phase := .admitted line }
  | handled {line answer : Bytes} {around : Circumstances} {daemon : Daemon}
      (at_handler : s.phase = .admitted line)
      (result : process cfg build s.daemon ⟨.SERIAL, line, around⟩ = some (daemon, answer)) :
      ReaderMove cfg build s (.handle around, .handled line answer)
        { s with daemon := daemon, phase := if answer ≠ [] then .answering answer else .loop }
  | wrote {response bytes : Bytes} {written : Int} {ok : Bool}
      (at_write : s.phase = .answering response)
      (result : SerialDaemon.writeLine s.serial_ response written = (ok, bytes)) :
      ReaderMove cfg build s (.write written, .wrote ok bytes) { s with phase := .loop }
  | stopping (running : s.reader_running_ = true) :
      ReaderMove cfg build s (.stop_store, .moved) { s with reader_running_ := false }
  | closed (stopped : s.reader_running_ = false) (present : s.serial_.is_open = true) :
      ReaderMove cfg build s (.stop_close, .closed) { s with serial_ := s.serial_.close }
  | stopped (stopped : s.reader_running_ = false) (absent : s.serial_.is_open = false) :
      ReaderMove cfg build s (.stop_close, .moved) s
  | other {daemon : Daemon} :
      ReaderMove cfg build s (.other daemon, .moved) { s with daemon := daemon }

variable {cfg : Config} {build : Build} {s t : ReaderState} {label : ReaderLabel}

/-- The moves of the reader, one for each place it can be at. -/
theorem reader_step_cases (h : (reader_machine cfg build).Step s label t) :
    ReaderMove cfg build s label t := by
  obtain ⟨action, event⟩ := label
  simp only [Machine.Step, reader_machine] at h
  split at h
  case h_1 hPhase =>
      by_cases hRunning : s.reader_running_ = true
      · simp only [if_pos hRunning] at h
        cases h
        exact ReaderMove.next hPhase hRunning
      · simp only [if_neg hRunning] at h
        cases h
        exact ReaderMove.exit (Or.inl hPhase) (by simpa using hRunning)
  case h_2 clock reads hPhase =>
      split at h
      · cases h
        exact ReaderMove.got_line hPhase ‹_›
      · cases h
        exact ReaderMove.no_line hPhase ‹_›
      · cases h
  case h_3 hPhase =>
      by_cases hRunning : s.reader_running_ = true
      · simp only [if_pos hRunning] at h
        cases h
        exact ReaderMove.retry hPhase hRunning
      · simp only [if_neg hRunning] at h
        cases h
        exact ReaderMove.exit (Or.inr hPhase) (by simpa using hRunning)
  case h_4 outcome hPhase =>
      split at h
      · cases h
        exact ReaderMove.still_open hPhase ‹_›
      · rename_i hClosed
        split at h
        · cases h
        · cases h
          exact ReaderMove.opened hPhase (by simpa using hClosed) ‹_›
  case h_5 line hPhase =>
      by_cases hFree : s.daemon.owner = .NONE
      · simp only [try_acquire, hFree, if_true] at h
        cases h
        exact ReaderMove.acquired hPhase hFree
      · simp only [try_acquire, hFree, if_false] at h
        cases h
        exact ReaderMove.contended hPhase hFree
  case h_6 line hPhase =>
      split at h
      · cases h
        exact ReaderMove.refused hPhase ‹_›
      · rename_i hOwn
        cases h
        exact ReaderMove.reused hPhase (Decidable.not_not.mp hOwn)
  case h_7 around line hPhase =>
      split at h
      · cases h
      · cases h
        exact ReaderMove.handled hPhase ‹_›
  case h_8 written response hPhase =>
      cases h
      exact ReaderMove.wrote hPhase rfl
  case h_9 =>
      split at h
      · cases h
        exact ReaderMove.stopping ‹_›
      · cases h
  case h_10 =>
      split at h
      · cases h
      · rename_i hStopped
        have hStopped : s.reader_running_ = false := by simpa using hStopped
        split at h
        · cases h
          exact ReaderMove.closed hStopped ‹_›
        · rename_i hClosed
          cases h
          exact ReaderMove.stopped hStopped (by simpa using hClosed)
  case h_11 =>
      cases h
      exact ReaderMove.other
  case h_12 => cases h

@[simp] theorem reads_of_concat (trace : List ReaderLabel) (label : ReaderLabel) :
    reads_of (trace ++ [label]) = reads_of trace ++ label.1.reads := by
  simp [reads_of]

end RkFlashd
