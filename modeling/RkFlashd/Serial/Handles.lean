import RkFlashd.Machine.Ledger
import RkFlashd.Serial.SerialPort

/-! `SerialPort` with its mutex: which handles of the library and of the kernel its calls
acquire and release, and where they lock. -/
namespace RkFlashd

open Text Transition

/-- The port with `mutex_`, as the calling thread sees it. -/
structure LockedPort where
  serial : SerialPort := {}
  mutex_ : Bool := false
  deriving DecidableEq, Repr

/-- The calls that bring a handle in or give it back, where they succeed. -/
inductive SysCall where
  | sp_get_port_by_name (port : Nat)
  | sp_open (port : Nat)
  | sp_close (port : Nat)
  | sp_free_port (port : Nat)
  | posix_open (fd : Int)
  | posix_close (fd : Int)
  deriving DecidableEq, Repr

/-- A port structure of the library, the device it has open, or a descriptor. -/
inductive Handle where
  | port (id : Nat)
  | device (id : Nat)
  | fd (n : Int)
  deriving DecidableEq, Repr

def SysCall.deal : SysCall → Deal Handle
  | .sp_get_port_by_name port => .acquire (.port port)
  | .sp_open port => .acquire (.device port)
  | .sp_close port => .release (.device port)
  | .sp_free_port port => .release (.port port)
  | .posix_open fd => .acquire (.fd fd)
  | .posix_close fd => .release (.fd fd)

/-- The outcomes of the calls that `open` may make, in their order. -/
structure DeviceOutcome where
  get_port_by_name : Option Nat := none
  sp_open : Bool := false
  posix_open : Option Nat := none
  tcsetattr : Bool := false
  deriving DecidableEq, Repr

/-- `open_posix`. -/
def open_posix (outcome : DeviceOutcome) : Int × List SysCall :=
  match outcome.posix_open with
  | none => (-1, [])
  | some fd =>
      if outcome.tcsetattr then (fd, [.posix_open fd])
      else (-1, [.posix_open fd, .posix_close fd])

/-- One of the calls of a lock_guard: it does not come back from a mutex that is held. -/
def LockedPort.lock (p : LockedPort) : Option LockedPort :=
  if p.mutex_ then none else some { p with mutex_ := true }

def LockedPort.unlock (p : LockedPort) : LockedPort := { p with mutex_ := false }

/-- What `close` gives back. -/
def SerialPort.releases (p : SerialPort) : List SysCall :=
  (p.port_.elim [] fun port => [.sp_close port, .sp_free_port port]) ++
    if 0 ≤ p.raw_fd_ then [.posix_close p.raw_fd_] else []

/-- `SerialPort::close`. -/
def LockedPort.close (p : LockedPort) : Option (LockedPort × List SysCall) :=
  p.lock.map fun p => ({ p with serial := p.serial.close }.unlock, p.serial.releases)

/-- The two attempts of `open` on a port that holds nothing. -/
def SerialPort.attempt (p : SerialPort) (outcome : DeviceOutcome) :
    (Bool × SerialPort) × List SysCall :=
  let (fd, calls) := open_posix outcome
  let fallback := (decide (0 ≤ fd), { p with port_ := none, raw_fd_ := fd })
  match outcome.get_port_by_name with
  | none => (fallback, calls)
  | some port =>
      if outcome.sp_open then
        ((true, { p with port_ := some port }), [.sp_get_port_by_name port, .sp_open port])
      else (fallback, [.sp_get_port_by_name port, .sp_free_port port] ++ calls)

/-- `SerialPort::open`. The mutex is held when an open port is to be closed first. -/
def LockedPort.open (p : LockedPort) (device : Bytes) (outcome : DeviceOutcome) :
    Option ((Bool × LockedPort) × List SysCall) :=
  p.lock.bind fun p =>
    (if p.serial.is_open then p.close else some (p, [])).map fun closed =>
      let result := { closed.1.serial with device_ := device }.attempt outcome
      ((result.1.1, { closed.1 with serial := result.1.2 }.unlock), closed.2 ++ result.2)

/-- A call of `readLine` with as many outcomes of the device as its loop looks at. -/
structure CompleteRead where
  response : Bytes
  call : ReadCall
  device : List ReadResult
  ends : (SerialPort.read_loop call device 0 []).isSome = true

inductive PortCall where
  | «open» (device : Bytes) (outcome : DeviceOutcome)
  | close
  | is_open
  | readLine (read : CompleteRead)
  | writeLine (cmd : Bytes) (written : Int)

inductive PortReturn where
  | opened (ok : Bool)
  | closed
  | is_open (value : Bool)
  | read (ok : Bool) (response : Bytes)
  | wrote (ok : Bool)
  deriving DecidableEq, Repr

/-- The calls on one port, with what they return and the handles they deal in. A call that
does not come back is no step. -/
def port_machine : Machine LockedPort PortCall (PortReturn × List SysCall) := fun p call =>
  match call with
  | .open device outcome =>
      (p.open device outcome).map fun result => (result.1.2, .opened result.1.1, result.2)
  | .close => p.close.map fun result => (result.1, .closed, result.2)
  | .is_open => p.lock.map fun p => (p.unlock, .is_open p.serial.is_open, [])
  | .readLine read =>
      p.lock.bind fun p =>
        (p.serial.readLine read.response read.call read.device).map fun result =>
          (p.unlock, .read result.1.1 result.1.2, [])
  | .writeLine cmd written =>
      p.lock.map fun p => (p.unlock, .wrote (p.serial.writeLine cmd written).1, [])

abbrev PortLabel := PortCall × PortReturn × List SysCall

/-- What has been acquired and released in the course of some calls. -/
def deals_of (trace : List PortLabel) : List (Deal Handle) :=
  trace.flatMap fun label => label.2.2.map SysCall.deal

/-- The handles behind the fields of a port. -/
def SerialPort.handles (p : SerialPort) : List Handle :=
  (p.port_.elim [] fun port => [.device port, .port port]) ++
    if 0 ≤ p.raw_fd_ then [.fd p.raw_fd_] else []

/-- One of the two attempts succeeds. -/
def DeviceOutcome.succeeds (outcome : DeviceOutcome) : Bool :=
  (outcome.get_port_by_name.isSome && outcome.sp_open) ||
    (outcome.posix_open.isSome && outcome.tcsetattr)

/-- Whether the port is to be open after a call, if it was before. -/
def PortCall.leaves_open (was : Bool) : PortCall → Bool
  | .open _ outcome => outcome.succeeds
  | .close => false
  | _ => was

/-- The last `open` has succeeded, and no `close` has followed. -/
def left_open (calls : List PortCall) : Bool := calls.foldl PortCall.leaves_open false

def PortCall.is_reopening (past : List PortCall) : PortCall → Bool
  | .open _ _ => left_open past
  | _ => false

/-- What a call returns after others: `open` whether it has succeeded, and `is_open` whether
the last `open` has and no `close` has followed. -/
def PortCall.returns (past : List PortCall) : PortCall → PortReturn → Prop
  | .open _ outcome, result => result = .opened outcome.succeeds
  | .is_open, result => result = .is_open (left_open past)
  | .close, result => result = .closed
  | .readLine _, result => ∃ ok response, result = .read ok response
  | .writeLine _ _, result => ∃ ok, result = .wrote ok

/-- What holds between two calls. -/
structure WellHeld (past : List PortCall) (trace : List PortLabel) (p : LockedPort) : Prop where
  unlocked : p.mutex_ = false
  one_backend : ¬ (p.serial.port_.isSome = true ∧ 0 ≤ p.serial.raw_fd_)
  held : settle [] (deals_of trace) = some p.serial.handles
  is_open : p.serial.is_open = left_open past
  calls : trace.map Prod.fst = past
  returned : Always (fun earlier label => label.1.returns (earlier.map Prod.fst) label.2.1) trace

/-- Every call comes back, and what is between the calls holds after each of them. -/
def Disciplined (calls : List PortCall) : Prop :=
  ∀ past rest, calls = past ++ rest →
    ∃ p trace, port_machine.exec {} past = some (p, trace) ∧ WellHeld past trace p

section Ports

variable {p q : SerialPort} {outcome : DeviceOutcome} {past : List PortCall}
  {trace : List PortLabel} {port : LockedPort}

theorem SerialPort.handles_closed (h : p.is_open = false) : p.handles = [] := by
  simp only [SerialPort.is_open, Bool.or_eq_false_iff, decide_eq_false_iff_not] at h
  obtain ⟨hPort, hFd⟩ := h
  have hNone : p.port_ = none := by simpa using hPort
  simp [SerialPort.handles, hNone, hFd]

/-- `close` gives back just what the port holds. -/
theorem SerialPort.settle_releases (h : ¬ (p.port_.isSome = true ∧ 0 ≤ p.raw_fd_)) :
    settle p.handles (p.releases.map SysCall.deal) = some [] := by
  unfold SerialPort.handles SerialPort.releases
  cases hPort : p.port_ with
  | none =>
      by_cases hFd : 0 ≤ p.raw_fd_
      · simp [hFd, SysCall.deal]
      · simp [hFd]
  | some id =>
      have hFd : ¬ 0 ≤ p.raw_fd_ := fun hFd => h ⟨by simp [hPort], hFd⟩
      simp [hFd, SysCall.deal]

/-- A descriptor that cannot be configured is closed again. -/
theorem open_posix_settle (outcome : DeviceOutcome) :
    settle [] ((open_posix outcome).2.map SysCall.deal) =
        some (if 0 ≤ (open_posix outcome).1 then [.fd (open_posix outcome).1] else []) ∧
      decide (0 ≤ (open_posix outcome).1) = (outcome.posix_open.isSome && outcome.tcsetattr) := by
  unfold open_posix
  cases outcome.posix_open with
  | none => simp
  | some fd => cases outcome.tcsetattr <;> simp [SysCall.deal]

/-- The attempts of `open` keep what they end with, and give back the rest. -/
theorem SerialPort.settle_attempt (h : p.is_open = false) (outcome : DeviceOutcome) :
    settle [] ((p.attempt outcome).2.map SysCall.deal) = some (p.attempt outcome).1.2.handles ∧
      ¬ ((p.attempt outcome).1.2.port_.isSome = true ∧ 0 ≤ (p.attempt outcome).1.2.raw_fd_) ∧
      (p.attempt outcome).1.2.is_open = outcome.succeeds ∧
      (p.attempt outcome).1.1 = outcome.succeeds := by
  simp only [SerialPort.is_open, Bool.or_eq_false_iff, decide_eq_false_iff_not] at h
  obtain ⟨hPosix, hFd⟩ := open_posix_settle outcome
  unfold SerialPort.attempt SerialPort.handles SerialPort.is_open DeviceOutcome.succeeds
  cases outcome.get_port_by_name with
  | none => exact ⟨by simpa using hPosix, by simp, by simpa using hFd, by simpa using hFd⟩
  | some port =>
      cases outcome.sp_open with
      | true => simp [h.2, SysCall.deal]
      | false =>
          exact ⟨by simpa [SysCall.deal] using hPosix, by simp, by simpa using hFd,
            by simpa using hFd⟩

/-- Without the mutex and the handles this is the `open` of the port alone. -/
theorem locked_open_eq (h : port.mutex_ = false) (device : Bytes) (outcome : DeviceOutcome) :
    (port.open device outcome).map (fun result => (result.1.1, result.1.2.serial)) =
      port.serial.open device
        ⟨outcome.get_port_by_name, outcome.sp_open, (open_posix outcome).1⟩ := by
  cases hOpen : port.serial.is_open with
  | true =>
      simp [LockedPort.open, LockedPort.lock, LockedPort.close, h, hOpen, SerialPort.open]
  | false =>
      simp only [LockedPort.open, LockedPort.lock, h, hOpen, SerialPort.open, SerialPort.attempt,
        LockedPort.unlock, Bool.false_eq_true, if_false, Option.bind_some, Option.map_some]
      cases outcome.get_port_by_name with
      | none => by_cases hFd : 0 ≤ (open_posix outcome).1 <;> simp [hFd]
      | some id =>
          cases outcome.sp_open with
          | true => simp
          | false => by_cases hFd : 0 ≤ (open_posix outcome).1 <;> simp [hFd]

theorem left_open_concat (past : List PortCall) (call : PortCall) :
    left_open (past ++ [call]) = call.leaves_open (left_open past) := by
  simp [left_open]

theorem deals_of_concat (trace : List PortLabel) (label : PortLabel) :
    deals_of (trace ++ [label]) = deals_of trace ++ label.2.2.map SysCall.deal := by
  simp [deals_of]

theorem WellHeld.start : WellHeld [] [] {} :=
  ⟨rfl, by simp, rfl, rfl, rfl, always_nil⟩

/-- The history goes on with a call and what it returns. -/
theorem WellHeld.history (h : WellHeld past trace port) {call : PortCall} {result : PortReturn}
    (hReturns : call.returns past result) (made : List SysCall) :
    (trace ++ [(call, result, made)]).map Prod.fst = past ++ [call] ∧
      Always (fun earlier label => label.1.returns (earlier.map Prod.fst) label.2.1)
        (trace ++ [(call, result, made)]) := by
  refine ⟨by simp [h.calls], always_concat.mpr ⟨h.returned, ?_⟩⟩
  rw [h.calls]
  exact hReturns

/-- A call that does not touch the handles. -/
theorem WellHeld.passes (h : WellHeld past trace port) {call : PortCall} {result : PortReturn}
    (hCall : call.leaves_open (left_open past) = left_open past)
    (hReturns : call.returns past result) :
    WellHeld (past ++ [call]) (trace ++ [(call, result, [])]) port := by
  obtain ⟨hCalls, hReturned⟩ := h.history hReturns []
  refine ⟨h.unlocked, h.one_backend, ?_, ?_, hCalls, hReturned⟩
  · rw [deals_of_concat]
    simpa using h.held
  · rw [left_open_concat, hCall]
    exact h.is_open

theorem WellHeld.lock_eq (h : WellHeld past trace port) :
    port.lock = some { port with mutex_ := true } := by
  simp [LockedPort.lock, h.unlocked]

theorem WellHeld.unlock_eq (h : WellHeld past trace port) :
    LockedPort.unlock { port with mutex_ := true } = port := by
  obtain ⟨serial, mutex_⟩ := port
  obtain rfl : mutex_ = false := h.unlocked
  rfl

/-- A call that opens no open port comes back and leaves the port well held. -/
theorem WellHeld.step (h : WellHeld past trace port) {call : PortCall}
    (hCall : call.is_reopening past = false) :
    ∃ next result, port_machine port call = some (next, result) ∧
      WellHeld (past ++ [call]) (trace ++ [(call, result)]) next := by
  cases call with
  | «open» device outcome =>
      have hClosed : port.serial.is_open = false := h.is_open.trans hCall
      have hSame : ({ port.serial with device_ := device } : SerialPort).is_open = false := hClosed
      obtain ⟨hSettle, hOne, hOpen, hOk⟩ := SerialPort.settle_attempt hSame outcome
      generalize hResult : ({ port.serial with device_ := device } : SerialPort).attempt outcome =
        result at hSettle hOne hOpen hOk
      have hReturns : PortCall.returns past (.open device outcome) (.opened result.1.1) :=
        congrArg PortReturn.opened hOk
      obtain ⟨hCalls, hReturned⟩ := h.history hReturns result.2
      refine ⟨⟨result.1.2, false⟩, (.opened result.1.1, result.2), ?_, rfl, hOne, ?_, ?_, hCalls,
        hReturned⟩
      · simp [port_machine, LockedPort.open, h.lock_eq, hClosed, LockedPort.unlock, hResult]
      · rw [deals_of_concat, settle_append, h.held, Option.bind_some,
          SerialPort.handles_closed hClosed]
        exact hSettle
      · rw [left_open_concat]
        exact hOpen
  | close =>
      have hClosed : port.serial.close.is_open = false := rfl
      have hReturns : PortCall.returns past .close .closed := rfl
      obtain ⟨hCalls, hReturned⟩ := h.history hReturns port.serial.releases
      refine ⟨⟨port.serial.close, false⟩, (.closed, port.serial.releases), ?_, rfl, ?_, ?_, ?_,
        hCalls, hReturned⟩
      · simp [port_machine, LockedPort.close, h.lock_eq, LockedPort.unlock]
      · simp [SerialPort.close]
      · rw [deals_of_concat, settle_append, h.held, Option.bind_some,
          SerialPort.handles_closed hClosed]
        exact SerialPort.settle_releases h.one_backend
      · rw [left_open_concat]
        exact hClosed
  | is_open =>
      refine ⟨port, (.is_open port.serial.is_open, []), ?_,
        h.passes rfl (congrArg PortReturn.is_open h.is_open)⟩
      simp [port_machine, h.lock_eq, h.unlock_eq]
  | readLine read =>
      obtain ⟨result, hResult⟩ : ∃ result,
          port.serial.readLine read.response read.call read.device = some result := by
        unfold SerialPort.readLine
        split
        · exact Option.isSome_iff_exists.mp read.ends
        · exact ⟨_, rfl⟩
      refine ⟨port, (.read result.1.1 result.1.2, []), ?_, h.passes rfl ⟨_, _, rfl⟩⟩
      simp [port_machine, h.lock_eq, h.unlock_eq, hResult]
  | writeLine cmd written =>
      refine ⟨port, (.wrote (port.serial.writeLine cmd written).1, []), ?_,
        h.passes rfl ⟨_, rfl⟩⟩
      simp [port_machine, h.lock_eq, h.unlock_eq]

/-- A call that opens an open port does not come back: `close` locks the mutex again. -/
theorem WellHeld.reopening_hangs (h : WellHeld past trace port) {call : PortCall}
    (hCall : call.is_reopening past = true) : port_machine port call = none := by
  cases call with
  | «open» device outcome =>
      have hOpen : port.serial.is_open = true := h.is_open.trans hCall
      simp [port_machine, LockedPort.open, LockedPort.close, hOpen, LockedPort.lock]
  | close => cases hCall
  | is_open => cases hCall
  | readLine read => cases hCall
  | writeLine cmd written => cases hCall

/-- Calls none of which opens an open port all come back. -/
theorem well_held_of_calls {calls : List PortCall}
    (h : Always (fun past call => PortCall.is_reopening past call = false) calls) :
    ∃ p trace, port_machine.exec {} calls = some (p, trace) ∧ WellHeld calls trace p := by
  induction calls using List.reverseRecOn with
  | nil => exact ⟨{}, [], rfl, WellHeld.start⟩
  | append_singleton past call ih =>
      obtain ⟨hPast, hCall⟩ := always_concat.mp h
      obtain ⟨p, trace, hExec, hHeld⟩ := ih hPast
      obtain ⟨next, result, hStep, hNext⟩ := hHeld.step hCall
      have hLast : port_machine.exec p [call] = some (next, [(call, result)]) :=
        Machine.exec_cons hStep rfl
      exact ⟨next, _, Machine.exec_append hExec hLast, hNext⟩

/-- **Handle discipline.** It is kept by just those sequences of calls in which no port is
opened that has been opened and not closed since. -/
theorem handle_discipline_iff (calls : List PortCall) :
    Disciplined calls ↔
      Always (fun past call => PortCall.is_reopening past call = false) calls := by
  constructor
  · rintro h past call rest rfl
    obtain ⟨p, trace, hExec, hHeld⟩ := h past (call :: rest) rfl
    obtain ⟨q, longer, hMore, -⟩ := h (past ++ [call]) rest (by simp)
    by_contra hReopens
    have hHangs := hHeld.reopening_hangs (by simpa using hReopens)
    rw [Machine.exec_stops hExec hHangs] at hMore
    cases hMore
  · rintro h past rest rfl
    apply well_held_of_calls
    exact fun first call more hEq => h first call (more ++ rest) (by simp [hEq])

end Ports

/-- A device that opens through the library. -/
def library_device : PortCall :=
  .open (str "/dev/ttyS0") { get_port_by_name := some 1, sp_open := true }

/-- A line that comes in time. -/
def short_read : CompleteRead := ⟨[], ⟨500, fun _ => 0⟩, [.byte 65, .idle, .byte 10], rfl⟩

example : (port_machine.exec {} [library_device, .is_open, .readLine short_read, .close, .is_open,
    library_device]).map (fun result => result.2.map fun label => label.2.1) =
    some [.opened true, .is_open true, .read true [65], .closed, .is_open false, .opened true] := by
  rfl

/-- The second `open` finds the port open and waits for a mutex that it holds itself. -/
theorem reopening_deadlocks :
    port_machine.exec {} [library_device, library_device] = none ∧
      ¬ Disciplined [library_device, library_device] := by
  have hHangs : port_machine.exec {} [library_device, library_device] = none := by rfl
  refine ⟨hHangs, fun h => ?_⟩
  obtain ⟨p, trace, hExec, -⟩ := h [library_device, library_device] [] rfl
  rw [hHangs] at hExec
  cases hExec

end RkFlashd
