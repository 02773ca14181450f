import RkFlashd.Text.Lines
import RkFlashd.Machine.Lockstep

/-! `SerialPort`: lines over one of two backends, a libserialport handle or a plain file
descriptor. The library, the kernel and the device are the outcomes of the calls to them. -/
namespace RkFlashd

open Text Transition

/-- `SerialPort`: the port of the library, or the descriptor of the fallback. -/
structure SerialPort where
  port_ : Option Nat := none
  raw_fd_ : Int := -1
  device_ : Bytes := []
  deriving DecidableEq, Repr

/-- `sp_get_port_by_name`, then `sp_open`, then `open_posix`. -/
structure OpenOutcome where
  get_port_by_name : Option Nat := none
  sp_open : Bool := false
  posix : Int := -1
  deriving DecidableEq, Repr

/-- One read of the device: `sp_blocking_read_next` or `read`, by the sign of the result. -/
inductive ReadResult where
  | byte (c : UInt8)
  | idle
  | error
  deriving DecidableEq, Repr

namespace SerialPort

def is_open (p : SerialPort) : Bool := p.port_.isSome || decide (0 ≤ p.raw_fd_)

def close (p : SerialPort) : SerialPort := { p with port_ := none, raw_fd_ := -1 }

/-- `SerialPort::open`. It does not return on an open port: `close()` locks `mutex_`,
which `open` holds. -/
def «open» (p : SerialPort) (device : Bytes) (outcome : OpenOutcome) :
    Option (Bool × SerialPort) :=
  if p.is_open then none
  else
    let p := { p with device_ := device }
    match outcome.get_port_by_name, outcome.sp_open with
    | some port, true => some (true, { p with port_ := some port })
    | _, _ =>
        let p := { p with port_ := none, raw_fd_ := outcome.posix }
        if 0 ≤ p.raw_fd_ then some (true, p) else some (false, p)

/-- `SerialPort::writeLine`, with the result of `sp_blocking_write` or `write` and the bytes
that went out. Either branch looks at the sign of the count only. -/
def writeLine (p : SerialPort) (cmd : Bytes) (written : Int) : Bool × Bytes :=
  let data := cmd ++ crlf
  if p.port_.isSome then
    if written < 0 then (false, []) else (true, data.take written.toNat)
  else if 0 ≤ p.raw_fd_ then
    if written < 0 then (false, []) else (true, data.take written.toNat)
  else (false, [])

theorem writeLine_closed {p : SerialPort} (h : p.is_open = false) (cmd : Bytes) (written : Int) :
    p.writeLine cmd written = (false, []) := by
  simp only [is_open, Bool.or_eq_false_iff, decide_eq_false_iff_not] at h
  simp [writeLine, h.1, h.2]

/-- The two backends do the same with the result of the write. -/
theorem writeLine_open {p : SerialPort} (h : p.is_open = true) (cmd : Bytes) (written : Int) :
    p.writeLine cmd written =
      if written < 0 then (false, []) else (true, (cmd ++ crlf).take written.toNat) := by
  simp only [is_open, Bool.or_eq_true, decide_eq_true_eq] at h
  unfold writeLine
  by_cases hPort : p.port_.isSome = true
  · simp only [if_pos hPort]
  · simp only [if_neg hPort, if_pos (h.resolve_left hPort)]

/-- A write that takes all that it is offered. -/
theorem writeLine_whole {p : SerialPort} {cmd : Bytes} {written : Int} (hOpen : p.is_open = true)
    (hWhole : written = (cmd ++ crlf).length) : p.writeLine cmd written = (true, cmd ++ crlf) := by
  have hCount : ¬ written < 0 := by omega
  rw [writeLine_open hOpen, if_neg hCount, hWhole, Int.toNat_natCast, List.take_length]

/-- `MAX_LINE_LEN`. -/
def MAX_LINE_LEN : Nat := 8192

/-- The end of a line: the length is checked without the carriage return. -/
def end_line (response : Bytes) : Bool × Bytes :=
  if MAX_LINE_LEN < (chop_cr response).length then (false, []) else (true, chop_cr response)

end SerialPort

/-- One call of `readLine`: how long it may take, and what the clock shows at its turns,
in milliseconds since the call. -/
structure ReadCall where
  timeout_ms : Int32
  clock : Nat → Nat

/-- The time is up when the loop gets to this turn. -/
def ReadCall.expired (call : ReadCall) (turn : Nat) : Bool :=
  call.timeout_ms.toInt ≤ call.clock turn

namespace SerialPort

/-- The loop of `readLine`, with what is left of the outcomes of the device. There is no
result when they run out first. -/
def read_loop (call : ReadCall) :
    List ReadResult → Nat → Bytes → Option ((Bool × Bytes) × List ReadResult)
  | device, turn, response =>
      if call.expired turn then some ((false, response), device)
      else
        match device with
        | [] => none
        | .byte c :: rest =>
            if c = 10 then some (end_line response, rest)
            else read_loop call rest (turn + 1) (response ++ [c])
        | .error :: rest => some ((false, response), rest)
        | .idle :: rest => read_loop call rest (turn + 1) response

/-- `SerialPort::readLine`. On a closed port `response` stays as it is. -/
def readLine (p : SerialPort) (response : Bytes) (call : ReadCall) (device : List ReadResult) :
    Option ((Bool × Bytes) × List ReadResult) :=
  if p.is_open then read_loop call device 0 [] else some ((false, response), device)

/-- Calls of `readLine` one after the other on one port, each with a fresh string. -/
def read_machine (p : SerialPort) : Machine (List ReadResult) ReadCall (Bool × Bytes) :=
  fun device call => (p.readLine [] call device).map fun (result, rest) => (rest, result)

end SerialPort

/-- The bytes that a device has given. -/
def arrived (reads : List ReadResult) : Bytes :=
  reads.filterMap fun
    | .byte c => some c
    | _ => none

@[simp] theorem arrived_nil : arrived [] = [] := rfl

@[simp] theorem arrived_append (a b : List ReadResult) :
    arrived (a ++ b) = arrived a ++ arrived b := List.filterMap_append

@[simp] theorem arrived_byte (c : UInt8) (reads : List ReadResult) :
    arrived (.byte c :: reads) = c :: arrived reads := rfl

@[simp] theorem arrived_idle (reads : List ReadResult) :
    arrived (.idle :: reads) = arrived reads := rfl

@[simp] theorem arrived_error (reads : List ReadResult) :
    arrived (.error :: reads) = arrived reads := rfl

/-- Reads that neither end a line nor fail. -/
structure Quiet (reads : List ReadResult) : Prop where
  no_newline : .byte 10 ∉ reads
  no_error : .error ∉ reads

theorem Quiet.nil : Quiet [] := ⟨by simp, by simp⟩

theorem Quiet.cons {read : ReadResult} {reads : List ReadResult} (h : Quiet reads)
    (hLine : read ≠ .byte 10) (hError : read ≠ .error) : Quiet (read :: reads) :=
  ⟨by simp [hLine.symm, h.no_newline], by simp [hError.symm, h.no_error]⟩

theorem Quiet.newline_not_mem {reads : List ReadResult} (h : Quiet reads) :
    (10 : UInt8) ∉ arrived reads := by
  intro hMem
  obtain ⟨read, hRead, hByte⟩ := List.mem_filterMap.mp hMem
  cases read with
  | byte c =>
      cases hByte
      exact h.no_newline hRead
  | idle | error => cases hByte

/-- How a call of `readLine` that is at some turn with some bytes in hand comes to its end. -/
inductive Reading (call : ReadCall) (turn : Nat) (response : Bytes) :
    List ReadResult → Bool × Bytes → List ReadResult → Prop where
  | line {quiet rest : List ReadResult} (h : Quiet quiet)
      (inTime : ∀ k ≤ quiet.length, call.expired (turn + k) = false) :
      Reading call turn response (quiet ++ .byte 10 :: rest)
        (SerialPort.end_line (response ++ arrived quiet)) rest
  | expired {quiet rest : List ReadResult} (h : Quiet quiet)
      (inTime : ∀ k < quiet.length, call.expired (turn + k) = false)
      (late : call.expired (turn + quiet.length) = true) :
      Reading call turn response (quiet ++ rest) (false, response ++ arrived quiet) rest
  | failed {quiet rest : List ReadResult} (h : Quiet quiet)
      (inTime : ∀ k ≤ quiet.length, call.expired (turn + k) = false) :
      Reading call turn response (quiet ++ .error :: rest) (false, response ++ arrived quiet) rest

variable {call : ReadCall} {turn : Nat} {response : Bytes} {read : ReadResult}
  {device rest : List ReadResult} {result : Bool × Bytes}

/-- One more read at the front of a call. -/
theorem Reading.cons (h : Reading call (turn + 1) (response ++ arrived [read]) device result rest)
    (hTurn : call.expired turn = false) (hLine : read ≠ .byte 10) (hError : read ≠ .error) :
    Reading call turn response (read :: device) result rest := by
  have hBytes : ∀ quiet, response ++ arrived [read] ++ arrived quiet =
      response ++ arrived (read :: quiet) := by
    intro quiet
    rw [List.append_assoc, ← arrived_append, List.singleton_append]
  have hShift : ∀ n : Nat, (∀ k < n, call.expired (turn + 1 + k) = false) →
      ∀ k < n + 1, call.expired (turn + k) = false := by
    intro n hTimes k hk
    cases k with
    | zero => exact hTurn
    | succ k =>
        have hEq : turn + (k + 1) = turn + 1 + k := by omega
        rw [hEq]
        exact hTimes k (by omega)
  cases h with
  | @line quiet rest hQuiet inTime =>
      rw [hBytes]
      exact Reading.line (hQuiet.cons hLine hError) fun k hk =>
        hShift (quiet.length + 1) (fun j hj => inTime j (by omega)) k
          (by rw [List.length_cons] at hk; omega)
  | @expired quiet rest hQuiet inTime late =>
      rw [hBytes]
      refine Reading.expired (hQuiet.cons hLine hError) (hShift quiet.length inTime) ?_
      have hEq : turn + (read :: quiet).length = turn + 1 + quiet.length := by
        rw [List.length_cons]
        omega
      rw [hEq]
      exact late
  | @failed quiet rest hQuiet inTime =>
      rw [hBytes]
      exact Reading.failed (hQuiet.cons hLine hError) fun k hk =>
        hShift (quiet.length + 1) (fun j hj => inTime j (by omega)) k
          (by rw [List.length_cons] at hk; omega)

/-- What the loop makes of the device is one of these ends. -/
theorem read_loop_cases (h : SerialPort.read_loop call device turn response = some (result, rest)) :
    Reading call turn response device result rest := by
  induction device generalizing turn response with
  | nil =>
      unfold SerialPort.read_loop at h
      split at h
      · cases h
        simpa using @Reading.expired call turn response [] [] Quiet.nil (by simp)
          ‹call.expired turn = true›
      · cases h
  | cons read device ih =>
      unfold SerialPort.read_loop at h
      by_cases hTime : call.expired turn = true
      · rw [if_pos hTime] at h
        cases h
        simpa using @Reading.expired call turn response [] (read :: device) Quiet.nil (by simp)
          hTime
      · rw [if_neg hTime] at h
        have hTurn : call.expired turn = false := by simpa using hTime
        cases read with
        | byte c =>
            by_cases hc : c = 10
            · subst hc
              simp only [if_true, Option.some.injEq, Prod.mk.injEq] at h
              obtain ⟨rfl, rfl⟩ := h
              simpa using
                @Reading.line call turn response [] device Quiet.nil (by simpa using hTurn)
            · simp only [hc, if_false] at h
              exact (ih h).cons hTurn (by simpa using hc) (by simp)
        | idle =>
            exact Reading.cons (by simpa using ih h) hTurn (by simp) (by simp)
        | error =>
            simp only [Option.some.injEq, Prod.mk.injEq] at h
            obtain ⟨rfl, rfl⟩ := h
            simpa using
              @Reading.failed call turn response [] device Quiet.nil (by simpa using hTurn)

/-- The loop over reads that neither end the line nor fail. -/
theorem read_loop_quiet {quiet : List ReadResult} (hQuiet : Quiet quiet)
    (inTime : ∀ k < quiet.length, call.expired (turn + k) = false) :
    SerialPort.read_loop call (quiet ++ rest) turn response =
      SerialPort.read_loop call rest (turn + quiet.length) (response ++ arrived quiet) := by
  induction quiet generalizing turn response with
  | nil => simp
  | cons read tail ih =>
      have hTurn : call.expired turn = false := inTime 0 (by simp)
      have hTail : Quiet tail := ⟨fun hMem => hQuiet.no_newline (List.mem_cons_of_mem _ hMem),
        fun hMem => hQuiet.no_error (List.mem_cons_of_mem _ hMem)⟩
      have hLater : ∀ k < tail.length, call.expired (turn + 1 + k) = false := by
        intro k hk
        have hEq : turn + 1 + k = turn + (k + 1) := by omega
        rw [hEq]
        exact inTime (k + 1) (by simpa using hk)
      have hLength : turn + (read :: tail).length = turn + 1 + tail.length := by
        rw [List.length_cons]
        omega
      rw [List.cons_append, hLength]
      conv_lhs => unfold SerialPort.read_loop
      cases read with
      | byte c =>
          have hc : c ≠ 10 := fun hEq => hQuiet.no_newline (by simp [hEq])
          simp [hTurn, hc, ih hTail hLater]
      | idle => simp [hTurn, ih hTail hLater]
      | error => exact absurd List.mem_cons_self hQuiet.no_error

/-- Each of these ends is what the loop makes of the device. -/
theorem Reading.read_loop (h : Reading call turn response device result rest) :
    SerialPort.read_loop call device turn response = some (result, rest) := by
  cases h with
  | line hQuiet inTime =>
      rw [read_loop_quiet hQuiet fun k hk => inTime k (Nat.le_of_lt hk)]
      simp [SerialPort.read_loop, inTime _ (Nat.le_refl _)]
  | expired hQuiet inTime late =>
      rw [read_loop_quiet hQuiet inTime]
      unfold SerialPort.read_loop
      rw [if_pos late]
  | failed hQuiet inTime =>
      rw [read_loop_quiet hQuiet fun k hk => inTime k (Nat.le_of_lt hk)]
      simp [SerialPort.read_loop, inTime _ (Nat.le_refl _)]

end RkFlashd
