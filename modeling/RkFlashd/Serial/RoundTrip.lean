import RkFlashd.Serial.SerialPort

/-! Lines written to one port and read from another: what arrives when every write is
complete, and what a sequence of writes leaves on the wire otherwise. -/
namespace RkFlashd

open Text Transition SerialPort

/-- One call of `writeLine`, with the count its write returns. -/
structure WriteCall where
  cmd : Bytes
  written : Int

/-- `cmd + "\r\n"`. -/
def WriteCall.data (call : WriteCall) : Bytes := call.cmd ++ crlf

namespace SerialPort

/-- What each call returns, and the bytes it puts on the wire. -/
def write_lines (p : SerialPort) (calls : List WriteCall) : List (Bool × Bytes) :=
  calls.map fun call => p.writeLine call.cmd call.written

/-- The stream that a sequence of calls puts on the wire. -/
def sent (p : SerialPort) (calls : List WriteCall) : Bytes :=
  ((p.write_lines calls).map Prod.snd).flatten

end SerialPort

/-- The clock lets a call read up to the first newline that the device gives. -/
def ReadCall.Prompt (call : ReadCall) (device : List ReadResult) : Prop :=
  ∀ turn ≤ (device.takeWhile (· ≠ .byte 10)).length, call.expired turn = false

/-- No call of a sequence times out. -/
def Untimed (p : SerialPort) (device : List ReadResult) (calls : List ReadCall) : Prop :=
  ∀ past call later left trace, calls = past ++ call :: later →
    p.read_machine.exec device past = some (left, trace) → call.Prompt left

/-- What a call of `readLine` makes of a line that was sent. -/
def line_answer (cmd : Bytes) : Bool × Bytes :=
  if cmd.length ≤ MAX_LINE_LEN then (true, cmd) else (false, [])

variable {p : SerialPort} {call : ReadCall} {calls : List ReadCall} {w : WriteCall}
  {writes : List WriteCall} {device rest : List ReadResult} {raw s : Bytes}

/-- When every call that succeeds puts its line on the wire, so do calls that all succeed. -/
theorem sent_of_success {calls : List WriteCall}
    (h : ∀ call ∈ calls, (p.writeLine call.cmd call.written).1 = true →
      (p.writeLine call.cmd call.written).2 = call.data)
    (hAll : ∀ result ∈ p.write_lines calls, result.1 = true) :
    p.sent calls = wire_of (calls.map WriteCall.cmd) := by
  induction calls with
  | nil => rfl
  | cons call later ih =>
      have hFirst := h call List.mem_cons_self (hAll _ List.mem_cons_self)
      have hLater := ih (fun other hOther => h other (List.mem_cons_of_mem _ hOther))
        fun result hResult => hAll result (List.mem_cons_of_mem _ hResult)
      simp only [SerialPort.sent, SerialPort.write_lines, List.map_cons, List.flatten_cons,
        wire_of_cons] at hLater ⊢
      rw [hLater, hFirst]
      simp [WriteCall.data, crlf]

theorem sent_whole (hOpen : p.is_open = true) (hWhole : ∀ w ∈ writes, w.written = w.data.length) :
    p.sent writes = wire_of (writes.map WriteCall.cmd) := by
  have hWritten : ∀ w ∈ writes, p.writeLine w.cmd w.written = (true, w.data) :=
    fun w hw => writeLine_whole hOpen (hWhole w hw)
  apply sent_of_success
  · intro w hw _
    rw [hWritten w hw]
  · intro result hResult
    obtain ⟨w, hw, rfl⟩ := List.mem_map.mp hResult
    rw [hWritten w hw]

/-- A stream that holds a newline is read in two: up to its first newline, and from there. -/
theorem arrived_cut (h : arrived device = raw ++ 10 :: s) (hRaw : (10 : UInt8) ∉ raw)
    (hError : .error ∉ device) :
    ∃ quiet rest, device = quiet ++ .byte 10 :: rest ∧ Quiet quiet ∧ arrived quiet = raw ∧
      arrived rest = s := by
  induction device generalizing raw with
  | nil => simp at h
  | cons read later ih =>
      have hLater : .error ∉ later := fun hMem => hError (List.mem_cons_of_mem _ hMem)
      cases read with
      | error => exact absurd List.mem_cons_self hError
      | idle =>
          obtain ⟨quiet, rest, rfl, hQuiet, hBytes, hRest⟩ := ih h hRaw hLater
          exact ⟨.idle :: quiet, rest, rfl, hQuiet.cons (by simp) (by simp), hBytes, hRest⟩
      | byte c =>
          cases raw with
          | nil =>
              rw [arrived_byte, List.nil_append] at h
              obtain ⟨rfl, hRest⟩ := List.cons.inj h
              exact ⟨[], later, rfl, Quiet.nil, rfl, hRest⟩
          | cons d tail =>
              rw [arrived_byte, List.cons_append] at h
              obtain ⟨rfl, hTail⟩ := List.cons.inj h
              have hc : c ≠ 10 := fun hEq => hRaw (by simp [hEq])
              obtain ⟨quiet, rest, rfl, hQuiet, hBytes, hRest⟩ :=
                ih hTail (fun hMem => hRaw (List.mem_cons_of_mem _ hMem)) hLater
              exact ⟨.byte c :: quiet, rest, rfl, hQuiet.cons (by simpa using hc) (by simp),
                by rw [arrived_byte, hBytes], hRest⟩

theorem takeWhile_quiet {quiet : List ReadResult} (h : Quiet quiet) (rest : List ReadResult) :
    (quiet ++ .byte 10 :: rest).takeWhile (· ≠ .byte 10) = quiet := by
  rw [List.takeWhile_append_of_pos]
  · simp
  · intro read hRead
    have hNe : read ≠ .byte 10 := by
      rintro rfl
      exact h.no_newline hRead
    simpa using hNe

/-- A call that does not time out reads the line that was sent first. -/
theorem readLine_sent (hOpen : p.is_open = true) {cmd : Bytes} (hCmd : (10 : UInt8) ∉ cmd)
    (hStream : arrived device = cmd ++ 13 :: 10 :: s) (hError : .error ∉ device)
    (hPrompt : call.Prompt device) :
    ∃ rest, p.read_machine device call = some (rest, line_answer cmd) ∧ arrived rest = s ∧
      .error ∉ rest := by
  have hRaw : (10 : UInt8) ∉ cmd ++ [13] := by simpa using hCmd
  obtain ⟨quiet, rest, rfl, hQuiet, hBytes, hRest⟩ :=
    arrived_cut (by simpa using hStream) hRaw hError
  have hTimes : ∀ k ≤ quiet.length, call.expired (0 + k) = false := by
    intro k hk
    rw [Nat.zero_add]
    exact hPrompt k (by rwa [takeWhile_quiet hQuiet])
  have hLoop := (@Reading.line call 0 [] quiet rest hQuiet hTimes).read_loop
  have hEnd : end_line ([] ++ arrived quiet) = line_answer cmd := by
    rw [List.nil_append, hBytes, end_line, chop_cr_cr, line_answer]
    by_cases hLength : cmd.length ≤ MAX_LINE_LEN
    · rw [if_neg (by omega), if_pos hLength]
    · rw [if_pos (by omega), if_neg hLength]
  refine ⟨rest, ?_, hRest, fun hMem => hError (by simp [hMem])⟩
  rw [SerialPort.read_machine, SerialPort.readLine, if_pos hOpen, hLoop, hEnd]
  rfl

/-- No call times out after the first one either. -/
theorem Untimed.tail {result : Bool × Bytes}
    (h : Untimed p device (call :: calls))
    (hStep : p.read_machine device call = some (rest, result)) :
    Untimed p rest calls := by
  intro past next later left trace hCalls hExec
  exact h (call :: past) next later left ((call, result) :: trace)
    (by rw [hCalls, List.cons_append]) (Machine.exec_cons hStep hExec)

/-- Calls that do not time out read the lines that were sent, one each. -/
theorem exec_sent (hOpen : p.is_open = true) {lines : List Bytes}
    (hLines : ∀ line ∈ lines, (10 : UInt8) ∉ line) (hStream : arrived device = wire_of lines)
    (hError : .error ∉ device) (hCount : calls.length = lines.length)
    (hUntimed : Untimed p device calls) :
    ∃ rest, p.read_machine.exec device calls = some (rest, calls.zip (lines.map line_answer)) ∧
      arrived rest = [] := by
  induction lines generalizing device calls with
  | nil =>
      obtain rfl := List.length_eq_zero_iff.mp hCount
      exact ⟨device, rfl, hStream⟩
  | cons line later ih =>
      cases calls with
      | nil => simp at hCount
      | cons call calls =>
          rw [wire_of_cons] at hStream
          have hPrompt : call.Prompt device := hUntimed [] call calls device [] rfl rfl
          obtain ⟨next, hStep, hNext, hNextError⟩ :=
            readLine_sent hOpen (hLines line List.mem_cons_self) hStream hError hPrompt
          obtain ⟨rest, hExec, hRest⟩ :=
            ih (fun other hOther => hLines other (List.mem_cons_of_mem _ hOther)) hNext hNextError
              (by simpa using hCount) (hUntimed.tail hStep)
          exact ⟨rest, by simpa using Machine.exec_cons hStep hExec, hRest⟩

/-- Lines without a newline that are written whole are read back in order, one call each.
A line that is too long costs its own call and no other. -/
theorem serial_round_trip (sender receiver : SerialPort) (writes : List WriteCall)
    (device : List ReadResult) (calls : List ReadCall)
    (hSender : sender.is_open = true) (hReceiver : receiver.is_open = true)
    (hLines : ∀ w ∈ writes, (10 : UInt8) ∉ w.cmd)
    (hWhole : ∀ w ∈ writes, w.written = w.data.length)
    (hStream : arrived device = sender.sent writes) (hError : .error ∉ device)
    (hCount : calls.length = writes.length) (hUntimed : Untimed receiver device calls) :
    ∃ rest, receiver.read_machine.exec device calls =
        some (rest, calls.zip (writes.map fun w => line_answer w.cmd)) ∧
      arrived rest = [] := by
  have hCmds : ∀ line ∈ writes.map WriteCall.cmd, (10 : UInt8) ∉ line := by
    intro line hLine
    obtain ⟨w, hw, rfl⟩ := List.mem_map.mp hLine
    exact hLines w hw
  rw [sent_whole hSender hWhole] at hStream
  obtain ⟨rest, hExec, hRest⟩ :=
    exec_sent hReceiver hCmds hStream hError (by simpa using hCount) hUntimed
  rw [List.map_map] at hExec
  exact ⟨rest, hExec, hRest⟩

/-- A stream with an idle read before each byte. -/
def spaced (s : Bytes) : List ReadResult := s.flatMap fun c => [.idle, .byte c]

theorem arrived_spaced (s : Bytes) : arrived (spaced s) = s := by
  induction s with
  | nil => rfl
  | cons c s ih => exact congrArg (c :: ·) ih

theorem spaced_no_error (s : Bytes) : .error ∉ spaced s := by
  simp [spaced]

/-- An empty line and one that ends in a carriage return, with a line between them that is
one byte too long. -/
def mixed_lines : List Bytes := [[], List.replicate 8193 66, [65, 13]]

/-- The line that is too long is dropped, and its neighbours are returned. -/
theorem serial_round_trip_two :
    ∃ rest, (⟨some 0, -1, []⟩ : SerialPort).read_machine.exec (spaced (wire_of mixed_lines))
        [⟨500, fun _ => 0⟩, ⟨500, fun _ => 499⟩, ⟨500, fun _ => 0⟩] =
      some (rest, [(⟨500, fun _ => 0⟩, (true, [])), (⟨500, fun _ => 499⟩, (false, [])),
        (⟨500, fun _ => 0⟩, (true, [65, 13]))]) ∧
      arrived rest = [] := by
  let writes : List WriteCall := mixed_lines.map fun line => ⟨line, (line ++ crlf).length⟩
  have hLine : ∀ w ∈ writes, w.cmd ∈ mixed_lines ∧ w.written = w.data.length := by
    intro w hw
    obtain ⟨line, hMem, rfl⟩ := List.mem_map.mp hw
    exact ⟨hMem, rfl⟩
  have hUnbroken : ∀ line ∈ mixed_lines, (10 : UInt8) ∉ line := by
    simp [mixed_lines, List.mem_replicate, -List.reduceReplicate]
  have hCmds : writes.map WriteCall.cmd = mixed_lines := by
    rw [List.map_map]
    exact List.map_id mixed_lines
  have hSent : SerialPort.sent ⟨none, 3, []⟩ writes = wire_of mixed_lines := by
    rw [sent_whole rfl fun w hw => (hLine w hw).2, hCmds]
  have hUntimed : Untimed ⟨some 0, -1, []⟩ (spaced (wire_of mixed_lines))
      [⟨500, fun _ => 0⟩, ⟨500, fun _ => 499⟩, ⟨500, fun _ => 0⟩] := by
    intro past call later left trace hCalls hExec turn hTurn
    have hMem : call ∈ [(⟨500, fun _ => 0⟩ : ReadCall), ⟨500, fun _ => 499⟩,
        ⟨500, fun _ => 0⟩] := by
      rw [hCalls]
      simp
    simp only [List.mem_cons, List.not_mem_nil, or_false] at hMem
    rcases hMem with rfl | rfl | rfl <;> rfl
  have hAnswers : writes.map (fun w => line_answer w.cmd) =
      [(true, []), (false, []), (true, [65, 13])] := by
    simp [writes, mixed_lines, line_answer, MAX_LINE_LEN, -List.reduceReplicate]
  obtain ⟨rest, hExec, hRest⟩ := serial_round_trip ⟨none, 3, []⟩ ⟨some 0, -1, []⟩ writes _ _ rfl rfl
    (fun w hw => hUnbroken _ (hLine w hw).1) (fun w hw => (hLine w hw).2)
    ((arrived_spaced _).trans hSent.symm) (spaced_no_error _) rfl hUntimed
  rw [hAnswers] at hExec
  exact ⟨rest, hExec, hRest⟩

/-- A write that is cut short. -/
def WriteCall.Short (call : WriteCall) : Prop :=
  0 ≤ call.written ∧ call.written < call.data.length

/-- What a caller of `writeLine` may count on: a call that succeeds has put its line on the
wire, and calls that all succeed have put their lines there one after the other. -/
def WriteContract (p : SerialPort) (calls : List WriteCall) : Prop :=
  (∀ call ∈ calls, (p.writeLine call.cmd call.written).1 = true →
      (p.writeLine call.cmd call.written).2 = call.data) ∧
    ((∀ result ∈ p.write_lines calls, result.1 = true) →
      p.sent calls = wire_of (calls.map WriteCall.cmd))

/-- A call puts its line on the wire or reports that it did not, unless it is cut short. -/
theorem writeLine_contract_iff (hOpen : p.is_open = true) (w : WriteCall) :
    ((p.writeLine w.cmd w.written).1 = true → (p.writeLine w.cmd w.written).2 = w.data) ↔
      ¬ w.Short := by
  rw [writeLine_open hOpen, ← WriteCall.data]
  by_cases hFail : w.written < 0
  · simp [hFail, WriteCall.Short]
  · simp only [hFail, if_false, forall_const, List.take_eq_self_iff, WriteCall.Short]
    omega

/-- The calls of a sequence keep the contract if and only if none of them is cut short. -/
theorem write_contract_iff (p : SerialPort) (calls : List WriteCall) :
    WriteContract p calls ↔ (p.is_open = true → ∀ call ∈ calls, ¬ call.Short) := by
  constructor
  · intro h hOpen call hCall
    exact (writeLine_contract_iff hOpen call).mp (h.1 call hCall)
  · intro h
    cases hOpen : p.is_open with
    | false =>
        refine ⟨by simp [writeLine_closed hOpen], fun hAll => ?_⟩
        cases calls with
        | nil => rfl
        | cons call later => simp [SerialPort.write_lines, writeLine_closed hOpen] at hAll
    | true =>
        have hWhole : ∀ call ∈ calls, (p.writeLine call.cmd call.written).1 = true →
            (p.writeLine call.cmd call.written).2 = call.data := fun call hCall =>
          (writeLine_contract_iff hOpen call).mpr (h hOpen call hCall)
        exact ⟨hWhole, sent_of_success hWhole⟩

/-- `AT\r\n` of which the write takes two bytes, as `sp_blocking_write` may when its second
is up. -/
theorem short_write_reported_as_success :
    ¬ WriteContract ⟨some 0, -1, []⟩ [⟨[65, 84], 2⟩, ⟨[65, 84], 4⟩] := by
  intro h
  have hStream := h.2 (by decide)
  revert hStream
  decide

end RkFlashd
