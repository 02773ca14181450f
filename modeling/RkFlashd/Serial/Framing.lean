import RkFlashd.Serial.Reader
import RkFlashd.AtHandler.UploadIntegrity

/-! Which lines the calls of `readLine` return: whole lines of the stream, as long as no call
gives up in the middle of one. -/
namespace RkFlashd

open Text Transition

/-- The call gives up, on its clock or on an error of the device, after it has taken a part
of a line. -/
def Torn (call : ReadCall) (device : List ReadResult) : Prop :=
  ∃ quiet rest, device = quiet ++ rest ∧ Quiet quiet ∧ arrived quiet ≠ [] ∧
    (∀ turn < quiet.length, call.expired turn = false) ∧
    (call.expired quiet.length = true ∨ rest.head? = some .error)

variable {call : ReadCall} {device rest : List ReadResult} {result : Bool × Bytes}
  {p : SerialPort}

/-- Whether a call is torn is found by a search for the turn at which it gives up. -/
theorem torn_iff : Torn call device ↔ ∃ k ≤ device.length, Quiet (device.take k) ∧
    arrived (device.take k) ≠ [] ∧ (∀ turn < k, call.expired turn = false) ∧
    (call.expired k = true ∨ (device.drop k).head? = some .error) := by
  constructor
  · rintro ⟨quiet, rest, rfl, hQuiet, hEmpty, inTime, hEnd⟩
    exact ⟨quiet.length, by simp, by simpa using hQuiet, by simpa using hEmpty, inTime,
      by simpa using hEnd⟩
  · rintro ⟨k, hLe, hQuiet, hEmpty, inTime, hEnd⟩
    have hLength : (device.take k).length = k := List.length_take_of_le hLe
    exact ⟨device.take k, device.drop k, (List.take_append_drop k device).symm, hQuiet, hEmpty,
      by rwa [hLength], by rwa [hLength]⟩

instance (reads : List ReadResult) : Decidable (Quiet reads) :=
  decidable_of_iff (.byte 10 ∉ reads ∧ .error ∉ reads)
    ⟨fun h => ⟨h.1, h.2⟩, fun h => ⟨h.no_newline, h.no_error⟩⟩

instance (call : ReadCall) (device : List ReadResult) : Decidable (Torn call device) :=
  decidable_of_iff _ torn_iff.symm

/-- A call that is not torn takes nothing from the stream or a line, and the line decides what
it returns. -/
theorem Reading.consumed (h : Reading call 0 [] device result rest) (hWhole : ¬ Torn call device) :
    ∃ taken, device = taken ++ rest ∧
      ((arrived taken = [] ∧ result.1 = false) ∨
        ∃ raw, arrived taken = raw ++ [10] ∧ (10 : UInt8) ∉ raw ∧
          result = SerialPort.end_line raw) := by
  cases h with
  | @line quiet rest hQuiet inTime =>
      exact ⟨quiet ++ [.byte 10], by simp, Or.inr ⟨arrived quiet, by simp,
        hQuiet.newline_not_mem, by simp⟩⟩
  | @expired quiet rest hQuiet inTime late =>
      by_cases hEmpty : arrived quiet = []
      · exact ⟨quiet, rfl, Or.inl ⟨hEmpty, rfl⟩⟩
      · refine absurd ⟨quiet, rest, rfl, hQuiet, hEmpty, ?_, Or.inl ?_⟩ hWhole
        · simpa using inTime
        · simpa using late
  | @failed quiet rest hQuiet inTime =>
      by_cases hEmpty : arrived quiet = []
      · exact ⟨quiet ++ [.error], by simp, Or.inl ⟨by simp [hEmpty], rfl⟩⟩
      · refine absurd ⟨quiet, .error :: rest, rfl, hQuiet, hEmpty, ?_, Or.inr rfl⟩ hWhole
        intro turn hTurn
        simpa using inTime turn (Nat.le_of_lt hTurn)

/-- A line that such a call returns is the one it has taken. -/
theorem Reading.untorn (h : Reading call 0 [] device result rest) (hWhole : ¬ Torn call device) :
    ∃ taken, device = taken ++ rest ∧
      ((arrived taken = [] ∧ result.1 = false) ∨
        ∃ raw, arrived taken = raw ++ [10] ∧ (10 : UInt8) ∉ raw ∧
          ∀ line, result = (true, line) → line = chop_cr raw) := by
  obtain ⟨taken, hTaken, hNothing | ⟨raw, hRaw, hUnbroken, rfl⟩⟩ := h.consumed hWhole
  · exact ⟨taken, hTaken, Or.inl hNothing⟩
  · refine ⟨taken, hTaken, Or.inr ⟨raw, hRaw, hUnbroken, fun line hLine => ?_⟩⟩
    rw [SerialPort.end_line] at hLine
    split at hLine
    · cases hLine
    · exact (Prod.mk.inj hLine).2.symm

/-- What such a call leaves of a stream that was at the start of a line. -/
theorem Reading.framed {past : Bytes} (h : Reading call 0 [] device result rest)
    (hWhole : ¬ Torn call device) (hPast : LineStart past) :
    ∃ taken, device = taken ++ rest ∧ LineStart (past ++ arrived taken) ∧
      ∀ line, result = (true, line) → Brings (past ++ arrived taken) line := by
  obtain ⟨taken, hTaken, ⟨hEmpty, hFalse⟩ | ⟨raw, hRaw, hUnbroken, hLine⟩⟩ := h.untorn hWhole
  · refine ⟨taken, hTaken, by rwa [hEmpty, List.append_nil], ?_⟩
    rintro line rfl
    cases hFalse
  · refine ⟨taken, hTaken, Or.inr ⟨past ++ raw, by rw [hRaw, List.append_assoc]⟩, ?_⟩
    intro line hResult
    exact ⟨past, raw, by rw [hRaw, List.append_assoc], hPast, hUnbroken, hLine line hResult⟩

/-- Every line that a call returns is a whole line of the stream: the one that ends where the
call has got to. -/
def PortFramed (Next : List ReadResult → ReadCall × (Bool × Bytes) → List ReadResult → Prop) :
    Prop :=
  ∀ device past call line left, Runs Next device (past ++ [(call, (true, line))]) left →
    ∃ taken, device = taken ++ left ∧ Brings (arrived taken) line

/-- No call is torn, in the state in which it is made. -/
def Whole (device : List ReadResult) (label : ReadCall × (Bool × Bytes)) : Prop :=
  ¬ Torn label.1 device

theorem read_machine_reading {label : ReadCall × (Bool × Bytes)}
    (h : p.read_machine.Step device label rest) :
    (rest = device ∧ label.2 = (false, [])) ∨ Reading label.1 0 [] device label.2 rest := by
  obtain ⟨call, result⟩ := label
  simp only [Machine.Step, SerialPort.read_machine, SerialPort.readLine] at h
  split at h
  · obtain ⟨⟨found, left⟩, hLoop, hEq⟩ := Option.map_eq_some_iff.mp h
    cases hEq
    exact Or.inr (read_loop_cases hLoop)
  · cases h
    exact Or.inl ⟨rfl, rfl⟩

/-- One call in a stream that is at the start of a line. -/
theorem whole_step {past : Bytes} {label : ReadCall × (Bool × Bytes)}
    (h : Guarded p.read_machine.Step Whole device label rest) (hPast : LineStart past) :
    ∃ taken, device = taken ++ rest ∧ LineStart (past ++ arrived taken) ∧
      ∀ line, label.2 = (true, line) → Brings (past ++ arrived taken) line := by
  rcases read_machine_reading h.1 with ⟨rfl, hClosed⟩ | hReading
  · refine ⟨[], rfl, by simpa using hPast, ?_⟩
    intro line hLine
    rw [hClosed] at hLine
    cases hLine
  · exact hReading.framed h.2 hPast

/-- After any number of calls the stream is at the start of a line. -/
theorem whole_run {trace : List (ReadCall × (Bool × Bytes))}
    (run : Runs (Guarded p.read_machine.Step Whole) device trace rest) :
    ∃ taken, device = taken ++ rest ∧ LineStart (arrived taken) := by
  induction run with
  | zero => exact ⟨[], rfl, Or.inl rfl⟩
  | succ prior last ih =>
      obtain ⟨taken, rfl, hStart⟩ := ih
      obtain ⟨more, rfl, hNext, -⟩ := whole_step last hStart
      exact ⟨taken ++ more, by simp, by simpa using hNext⟩

theorem port_framed (p : SerialPort) : PortFramed (Guarded p.read_machine.Step Whole) := by
  intro device past call line left run
  obtain ⟨before, hPrior, hLast⟩ := run.split_last
  obtain ⟨taken, rfl, hStart⟩ := whole_run hPrior
  obtain ⟨more, rfl, -, hBrings⟩ := whole_step hLast hStart
  exact ⟨taken ++ more, by simp, by simpa using hBrings line rfl⟩

/-- Every line that the loop has its handler execute is a whole line of the stream: the last
one that has come. -/
def ReaderFramed (Next : ReaderState → ReaderLabel → ReaderState → Prop) : Prop :=
  ∀ s past around line answer t, s.phase = .loop →
    Runs Next s (past ++ [(.handle around, .handled line answer)]) t →
    Brings (arrived (reads_of past)) line

/-- The same for a step of the reader thread. -/
def WholeRead (_ : ReaderState) (label : ReaderLabel) : Prop :=
  match label.1 with
  | .read clock reads => ¬ Torn ⟨500, clock⟩ reads
  | _ => True

instance (device : List ReadResult) (label : ReadCall × (Bool × Bytes)) :
    Decidable (Whole device label) :=
  inferInstanceAs (Decidable (¬ _))

instance (s : ReaderState) : (label : ReaderLabel) → Decidable (WholeRead s label)
  | (.read _ _, _) => inferInstanceAs (Decidable (¬ _))
  | (.go, _) | (.reopen _, _) | (.handle _, _) | (.write _, _) | (.stop_store, _)
  | (.stop_close, _) | (.other _, _) => isTrue trivial

/-- The line that the loop works on. -/
def ReaderPhase.line : ReaderPhase → Option Bytes
  | .acquiring line | .comparing line | .admitted line => some line
  | _ => none

/-- What a run of the loop has made of the stream. -/
structure InStep (past : List ReaderLabel) (s : ReaderState) : Prop where
  start : LineStart (arrived (reads_of past))
  current : ∀ line, s.phase.line = some line → Brings (arrived (reads_of past)) line

variable {cfg : Config} {build : Build} {s t : ReaderState} {label : ReaderLabel}
  {past : List ReaderLabel}

/-- A step without reads that takes up no new line. -/
theorem InStep.quiet (h : InStep past s) (hReads : label.1.reads = [])
    (hLine : ∀ line, t.phase.line = some line → s.phase.line = some line) :
    InStep (past ++ [label]) t where
  start := by
    rw [reads_of_concat, hReads, List.append_nil]
    exact h.start
  current := by
    intro line hPhase
    rw [reads_of_concat, hReads, List.append_nil]
    exact h.current line (hLine line hPhase)

/-- A call of the daemon reads nothing if the port is closed, and else reads as the port does. -/
theorem daemon_readLine_reading {serial_ : SerialPort} {reads : List ReadResult}
    (h : SerialDaemon.readLine serial_ [] call reads = some (result, [])) :
    (reads = [] ∧ result = (false, [])) ∨ Reading call 0 [] reads result [] := by
  rw [SerialDaemon.readLine_eq, SerialPort.readLine] at h
  split at h
  · exact Or.inr (read_loop_cases h)
  · cases h
    exact Or.inl ⟨rfl, rfl⟩

/-- A call of the loop that is not torn. -/
theorem InStep.read {clock : Nat → Nat} {reads : List ReadResult} (h : InStep past s)
    (hResult : SerialDaemon.readLine s.serial_ [] ⟨500, clock⟩ reads = some (result, []))
    (hWhole : ¬ Torn ⟨500, clock⟩ reads) (event : ReaderEvent)
    (hLine : ∀ line, t.phase.line = some line → result = (true, line)) :
    InStep (past ++ [(.read clock reads, event)]) t := by
  rcases daemon_readLine_reading hResult with ⟨rfl, rfl⟩ | hReading
  · refine h.quiet rfl fun line hPhase => ?_
    cases hLine line hPhase
  · obtain ⟨taken, hTaken, hStart, hBrings⟩ := hReading.framed hWhole h.start
    rw [List.append_nil] at hTaken
    subst hTaken
    refine ⟨by simpa [ReaderAction.reads] using hStart, fun line hPhase => ?_⟩
    simpa [ReaderAction.reads] using hBrings line (hLine line hPhase)

/-- A step keeps the lines read in step with those that arrived. -/
theorem InStep.step (h : InStep past s)
    (hStep : Guarded (reader_machine cfg build).Step WholeRead s label t) :
    InStep (past ++ [label]) t := by
  obtain ⟨hMove, hWhole⟩ := hStep
  cases reader_step_cases hMove with
  | got_line hPhase hResult =>
      refine h.read hResult hWhole _ fun line hLine => ?_
      cases hLine
      rfl
  | no_line hPhase hResult =>
      refine h.read hResult hWhole _ fun line hLine => ?_
      cases hLine
  | handled hPhase hResult =>
      refine h.quiet rfl fun line hLine => ?_
      dsimp only at hLine
      split at hLine <;> cases hLine
  | acquired hPhase | contended hPhase | reused hPhase =>
      refine h.quiet rfl fun line hLine => ?_
      rw [hPhase]
      exact hLine
  | stopping | closed | stopped | other => exact h.quiet rfl fun line hLine => hLine
  | next | exit | retry | still_open | opened | refused | wrote =>
      refine h.quiet rfl fun line hLine => ?_
      cases hLine

theorem reader_framed (cfg : Config) (build : Build) :
    ReaderFramed (Guarded (reader_machine cfg build).Step WholeRead) := by
  intro s past around line answer t hLoop run
  obtain ⟨u, hPrior, hLast⟩ := run.split_last
  have hStart : InStep [] s := ⟨Or.inl rfl, fun line hLine => by rw [hLoop] at hLine; cases hLine⟩
  have hInStep : InStep past u :=
    hPrior.history hStart fun _ _ _ _ _ h hStep => h.step hStep
  cases reader_step_cases hLast.1 with
  | handled hPhase hResult => exact hInStep.current line (by rw [hPhase]; rfl)

/-- As long as no call gives up in the middle of a line, a line that `readLine` returns and
a line that the loop executes are whole lines of the stream. -/
theorem serial_framing (p : SerialPort) (cfg : Config) (build : Build) :
    PortFramed (Guarded p.read_machine.Step Whole) ∧
      ReaderFramed (Guarded (reader_machine cfg build).Step WholeRead) :=
  ⟨port_framed p, reader_framed cfg build⟩

/-- The bytes of `AT+FLASH=AT+RESET` up to the equals sign, and the rest of the line. -/
def first_half : List ReadResult := (str "AT+FLASH=").map .byte

def second_half : List ReadResult := (str "AT+RESET").map .byte ++ [.byte 10]

def quick_call : ReadCall := ⟨500, fun _ => 0⟩

/-- The time of this call is up after the first half. -/
def slow_call : ReadCall := ⟨500, fun turn => if turn < 9 then 0 else 500⟩

theorem quick_call_not_torn {device : List ReadResult} (hError : .error ∉ device) :
    ¬ Torn quick_call device := by
  rintro ⟨quiet, rest, rfl, -, -, -, hLate | hHead⟩
  · cases hLate
  · exact hError (List.mem_append_right quiet (List.mem_of_head? hHead))

def waiting_reader : ReaderState where
  reader_running_ := true
  serial_ := ⟨some 0, -1, []⟩
  daemon := { host := fresh_host }
  phase := .loop

/-- The time of this call is up after two reads. -/
def early_call : ReadCall := ⟨500, fun turn => 250 * turn⟩

/-- `AT+RESET` with a pause in it. -/
def paused_line : List ReadResult :=
  (str "AT+").map .byte ++ .idle :: ((str "RESET").map .byte ++ [.byte 10])

/-- The loop with a call that times out before the line comes, and the next one. -/
def patient_actions : List ReaderAction :=
  [.go, .read early_call.clock [.idle, .idle], .go, .reopen {}, .go,
    .read quick_call.clock paused_line, .go]

/-- A call whose time is up between two lines takes nothing away from the next line, which the
port returns whole and the loop executes whole. -/
theorem serial_framing_quick :
    (∃ taken, [.idle, .idle] ++ paused_line = taken ++ [] ∧
      Brings (arrived taken) (str "AT+RESET")) ∧
    ∃ past t, Runs (reader_machine {} { date := [], time := [] }).Step waiting_reader
        (past ++ [(.handle {}, .handled (str "AT+RESET") (str "OK"))]) t ∧
      past.map Prod.snd = [.moved, .read false [], .moved, .moved, .moved,
        .read true (str "AT+RESET"), .moved] ∧
      Brings (arrived (reads_of past)) (str "AT+RESET") := by
  obtain ⟨hPort, hReader⟩ := serial_framing ⟨some 0, -1, []⟩ {} { date := [], time := [] }
  constructor
  · obtain ⟨⟨left, trace⟩, hExec, hEq⟩ := Option.map_eq_some_iff.mp
      (by decide +kernel : (((⟨some 0, -1, []⟩ : SerialPort).read_machine.guard Whole).exec
        ([.idle, .idle] ++ paused_line) [early_call, quick_call]).map
          (fun result => (result.1, result.2.map Prod.snd)) =
        some ([], [(false, []), (true, str "AT+RESET")]))
    obtain ⟨rfl, hResults⟩ := Prod.mk.inj hEq
    obtain rfl := List.zip_of_prod (Machine.exec_actions hExec) hResults
    exact hPort _ [(early_call, (false, []))] quick_call _ [] (Machine.runs_of_guard_exec hExec)
  · obtain ⟨t, hExec⟩ := Machine.exec_of_outputs
      (by decide +kernel : (((reader_machine {} { date := [], time := [] }).guard WholeRead).exec
        waiting_reader (patient_actions ++ [.handle {}])).map
          (fun result => result.2.map Prod.snd) =
        some ([.moved, .read false [], .moved, .moved, .moved, .read true (str "AT+RESET"),
          .moved] ++ [.handled (str "AT+RESET") (str "OK")]))
    have run := Machine.runs_of_guard_exec hExec
    exact ⟨patient_actions.zip [.moved, .read false [], .moved, .moved, .moved,
        .read true (str "AT+RESET"), .moved], t, run.unguard, rfl,
      hReader waiting_reader _ {} (str "AT+RESET") (str "OK") t rfl run⟩

/-- The loop with a call that is torn, and the next one. -/
def split_actions : List ReaderAction :=
  [.go, .read slow_call.clock first_half, .go, .reopen {}, .go,
    .read quick_call.clock second_half, .go]

/-- The time of a call is up behind `AT+FLASH=`, and the next call returns the rest of the
line, which the loop executes. -/
theorem tail_of_line_executed :
    ¬ PortFramed (⟨some 0, -1, []⟩ : SerialPort).read_machine.Step ∧
      ¬ ReaderFramed (reader_machine {} { date := [], time := [] }).Step := by
  have hForeign : str "AT+RESET" ∉ lines_of (arrived (first_half ++ second_half)) := by
    decide +kernel
  constructor
  · intro h
    obtain ⟨left, hExec⟩ := Machine.exec_of_outputs
      (by decide +kernel : ((⟨some 0, -1, []⟩ : SerialPort).read_machine.exec
        (first_half ++ second_half) [slow_call, quick_call]).map
          (fun result => result.2.map Prod.snd) =
        some [(false, str "AT+FLASH="), (true, str "AT+RESET")])
    obtain ⟨taken, hTaken, hBrings⟩ :=
      h _ [(slow_call, (false, str "AT+FLASH="))] quick_call _ left (Machine.runs_of_exec hExec)
    apply hForeign
    rw [hTaken, arrived_append]
    exact hBrings.mem_lines_of _
  · intro h
    obtain ⟨t, hExec⟩ := Machine.exec_of_outputs
      (by decide +kernel : ((reader_machine {} { date := [], time := [] }).exec waiting_reader
        (split_actions ++ [.handle {}])).map (fun result => result.2.map Prod.snd) =
        some [.moved, .read false (str "AT+FLASH="), .moved, .moved, .moved,
          .read true (str "AT+RESET"), .moved, .handled (str "AT+RESET") (str "OK")])
    have hBrings := h waiting_reader
      [(.go, .moved), (.read slow_call.clock first_half, .read false (str "AT+FLASH=")),
        (.go, .moved), (.reopen {}, .moved), (.go, .moved),
        (.read quick_call.clock second_half, .read true (str "AT+RESET")), (.go, .moved)]
      {} (str "AT+RESET") (str "OK") t rfl (Machine.runs_of_exec hExec)
    apply hForeign
    simpa [reads_of, ReaderAction.reads] using hBrings.mem_lines_of []

end RkFlashd
