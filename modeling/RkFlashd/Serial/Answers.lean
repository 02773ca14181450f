import RkFlashd.Daemon.AnswerLines
import RkFlashd.Serial.Framing

/-! The answers of the serial reader as the peer reads them: line by line, one line a
command unless an answer holds a newline of its own. -/
namespace RkFlashd

open Text Transition

/-- The nonempty answer of a command that has been executed or turned away. -/
def ReaderEvent.answer : ReaderEvent → List Bytes
  | .refused => [str "BUSY"]
  | .handled _ answer => if answer ≠ [] then [answer] else []
  | _ => []

/-- The bytes that a step puts on the wire. -/
def ReaderEvent.sent : ReaderEvent → Bytes
  | .wrote _ bytes => bytes
  | _ => []

def answers_of (trace : List ReaderLabel) : List Bytes := trace.flatMap fun label => label.2.answer

def wire (trace : List ReaderLabel) : Bytes := trace.flatMap fun label => label.2.sent

/-- The answer that waits to be written. -/
def ReaderPhase.pending : ReaderPhase → List Bytes
  | .answering response => [response]
  | _ => []

/-- A write takes all that it is offered, on an open port. -/
def complete_write (s : ReaderState) (label : ReaderLabel) : Bool :=
  match label.1, s.phase with
  | .write written, .answering response =>
      s.serial_.is_open && written == (response ++ crlf).length
  | _, _ => true

def CompleteWrite (s : ReaderState) (label : ReaderLabel) : Prop := complete_write s label = true

instance (s : ReaderState) (label : ReaderLabel) : Decidable (CompleteWrite s label) :=
  inferInstanceAs (Decidable (complete_write s label = true))

/-- A command that is executed quotes no newline in its answer. -/
def UnbrokenStep (cfg : Config) (build : Build) (s : ReaderState) (label : ReaderLabel) : Prop :=
  match label with
  | (.handle around, .handled line _) =>
      ∀ command, dispatch line = .ok command → Unbroken cfg build s.daemon around command
  | _ => True

variable {cfg : Config} {build : Build} {s t : ReaderState} {label : ReaderLabel}
  {trace : List ReaderLabel}

/-- A step adds an answer to those that wait, or sends the one that does. -/
theorem wire_step (h : ReaderMove cfg build s label t) (hComplete : CompleteWrite s label) :
    wire_of s.phase.pending ++ wire_of label.2.answer =
      label.2.sent ++ wire_of t.phase.pending := by
  cases h with
  | @wrote response bytes written ok hPhase hResult =>
      simp only [CompleteWrite, complete_write, hPhase, Bool.and_eq_true, beq_iff_eq] at hComplete
      obtain ⟨hOpen, hWritten⟩ := hComplete
      rw [SerialDaemon.writeLine_eq, SerialPort.writeLine_whole hOpen hWritten] at hResult
      cases hResult
      simp [hPhase, ReaderPhase.pending, ReaderEvent.answer, ReaderEvent.sent, wire_of]
  | @handled line answer around daemon hPhase hResult =>
      rw [hPhase]
      by_cases hEmpty : answer = []
      · simp [hEmpty, ReaderPhase.pending, ReaderEvent.answer, ReaderEvent.sent]
      · simp [hEmpty, ReaderPhase.pending, ReaderEvent.answer, ReaderEvent.sent]
  | next hPhase | got_line hPhase | no_line hPhase | retry hPhase | still_open hPhase
  | opened hPhase | acquired hPhase | contended hPhase | refused hPhase | reused hPhase =>
      simp [hPhase, ReaderPhase.pending, ReaderEvent.answer, ReaderEvent.sent]
  | exit hPhase =>
      rcases hPhase with hPhase | hPhase <;>
        simp [hPhase, ReaderPhase.pending, ReaderEvent.answer, ReaderEvent.sent]
  | stopping | closed | stopped | other =>
      simp [ReaderEvent.answer, ReaderEvent.sent]

/-- All along a run the wire holds the answers so far, but for the one that waits. -/
theorem wire_run (run : Runs (Guarded (reader_machine cfg build).Step CompleteWrite) s trace t)
    (hStart : s.phase.pending = []) :
    wire_of (answers_of trace) = wire trace ++ wire_of t.phase.pending := by
  induction run with
  | zero => simp [answers_of, wire, hStart]
  | @succ t u trace label prior last ih =>
      have hStep := wire_step (reader_step_cases last.1) last.2
      simp only [answers_of, wire, List.flatMap_append, List.flatMap_singleton, wire_of_append]
        at ih ⊢
      rw [ih, List.append_assoc, hStep, List.append_assoc]

/-- The line that the loop works on holds no newline. -/
def LineWhole (s : ReaderState) : Prop := ∀ line, s.phase.line = some line → OneLine line

theorem Reading.one_line {call : ReadCall} {device rest : List ReadResult} {line : Bytes}
    (h : Reading call 0 [] device (true, line) rest) : OneLine line := by
  generalize hResult : (true, line) = result at h
  cases h with
  | line hQuiet inTime =>
      rw [List.nil_append, SerialPort.end_line] at hResult
      split at hResult
      · cases hResult
      · cases hResult
        exact OneLine.chop_cr hQuiet.newline_not_mem
  | expired => cases hResult
  | failed => cases hResult

/-- A line that the loop takes up holds no newline. -/
theorem LineWhole.step (hLine : LineWhole s) (h : ReaderMove cfg build s label t) :
    LineWhole t := by
  intro line hPhase
  cases h with
  | got_line hAt hResult =>
      cases hPhase
      rcases daemon_readLine_reading hResult with ⟨-, hFalse⟩ | hReading
      · cases hFalse
      · exact hReading.one_line
  | handled =>
      dsimp only at hPhase
      split at hPhase <;> cases hPhase
  | acquired hAt | contended hAt | reused hAt =>
      refine hLine line ?_
      rw [hAt]
      exact hPhase
  | stopping | closed | stopped | other => exact hLine line hPhase
  | next | exit | no_line | retry | still_open | opened | refused | wrote => cases hPhase

/-- The answer to a command is one line if and only if the command quotes no newline. -/
theorem answer_step (hLine : LineWhole s) (h : ReaderMove cfg build s label t) :
    (∀ answer ∈ label.2.answer, OneLine answer) ↔ UnbrokenStep cfg build s label := by
  cases h with
  | @handled line answer around daemon hPhase hResult =>
      have hIff := process_one_line_iff (hLine line (by rw [hPhase]; rfl)) hResult
      by_cases hEmpty : answer = []
      · have hOne : OneLine answer := by
          rw [hEmpty]
          decide
        exact iff_of_true (by simp [ReaderEvent.answer, hEmpty]) (hIff.mp hOne)
      · simpa [ReaderEvent.answer, hEmpty, UnbrokenStep] using hIff
  | refused =>
      refine iff_of_true (fun answer hAnswer => ?_) trivial
      rw [List.mem_singleton.mp hAnswer]
      exact one_line_str (by decide)
  | next | exit | got_line | no_line | retry | still_open | opened | acquired | contended | reused
  | wrote | stopping | closed | stopped | other =>
      exact iff_of_true (by simp [ReaderEvent.answer]) trivial

/-- Every answer of a run is one line if and only if no command of it quotes a newline. -/
theorem answers_one_line_iff (run : Runs (reader_machine cfg build).Step s trace t)
    (hStart : LineWhole s) :
    (∀ answer ∈ answers_of trace, OneLine answer) ↔
      (reader_machine cfg build).Along (UnbrokenStep cfg build) s trace := by
  have hWhole : ∀ {past u}, Runs (reader_machine cfg build).Step s past u → LineWhole u :=
    fun prior => prior.invariant (fun _ _ _ hLine hStep => hLine.step (reader_step_cases hStep))
      hStart
  constructor
  · rintro h past label rest u rfl hPast
    obtain ⟨v, w, hPrior, hStep, -⟩ := run.split_cons
    obtain rfl := Machine.runs_unique hPast hPrior
    refine (answer_step (hWhole hPast) (reader_step_cases hStep)).mp fun answer hAnswer => ?_
    exact h answer (by simp [answers_of, hAnswer])
  · intro h answer hAnswer
    obtain ⟨label, hLabel, hHere⟩ := List.mem_flatMap.mp hAnswer
    obtain ⟨past, rest, rfl⟩ := List.append_of_mem hLabel
    obtain ⟨u, w, hPrior, hStep, -⟩ := run.split_cons
    exact (answer_step (hWhole hPrior) (reader_step_cases hStep)).mpr
      (h past label rest u rfl hPrior) answer hHere

/-- The wire holds the answers in the order of the commands, each with its end of line. The
peer that reads it line by line gets just one line for each if and only if no command quotes
a newline. -/
theorem answers_in_step
    (run : Runs (Guarded (reader_machine cfg build).Step CompleteWrite) s trace t)
    (hStart : s.phase = .loop) (hDone : t.phase.pending = []) :
    wire trace = wire_of (answers_of trace) ∧
      (lines_of (wire trace) = answers_of trace ↔
        (reader_machine cfg build).Along (UnbrokenStep cfg build) s trace) := by
  have hWire := wire_run run (by rw [hStart]; rfl)
  rw [hDone, wire_of_nil, List.append_nil] at hWire
  have hLine : LineWhole s := by
    intro line hPhase
    rw [hStart] at hPhase
    cases hPhase
  refine ⟨hWire.symm, ?_⟩
  rw [← hWire, lines_of_wire_of_iff]
  exact answers_one_line_iff run.unguard hLine

/-- The reads of one line. -/
def line_reads (line : Bytes) : List ReadResult := line.map .byte ++ [.byte 13, .byte 10]

/-- The loop with one line, up to the write of its answer. -/
def line_actions (line : Bytes) (around : Circumstances) (written : Int) : List ReaderAction :=
  [.go, .read quick_call.clock (line_reads line), .go, .handle around, .write written]

/-- A line that is executed, and one that comes when the other side has taken the lock. -/
def contended_actions : List ReaderAction :=
  line_actions (str "AT+RESET") {} 4 ++ [.other { host := fresh_host, owner := .HTTP }, .go,
    .read quick_call.clock (line_reads (str "AT+HELP")), .go, .go, .write 6]

/-- A command with its answer and one that is turned away, each one line to the peer. -/
theorem answers_in_step_reset :
    ∃ trace t, Runs (Guarded (reader_machine {} { date := [], time := [] }).Step CompleteWrite)
        waiting_reader trace t ∧ answers_of trace = [str "OK", str "BUSY"] ∧
      lines_of (wire trace) = answers_of trace := by
  obtain ⟨⟨t, trace⟩, hExec, hEq⟩ := Option.map_eq_some_iff.mp
    (by decide +kernel : (((reader_machine {} { date := [], time := [] }).guard CompleteWrite).exec
      waiting_reader contended_actions).map
        (fun result => (result.1.phase, result.2.map Prod.snd)) =
      some (.loop, [.moved, .read true (str "AT+RESET"), .moved,
        .handled (str "AT+RESET") (str "OK"), .wrote true (str "OK" ++ crlf), .moved, .moved,
        .read true (str "AT+HELP"), .moved, .refused, .wrote true (str "BUSY" ++ crlf)]))
  obtain ⟨hPhase, hEvents⟩ := Prod.mk.inj hEq
  have run := Machine.runs_of_guard_exec hExec
  have hAnswers : answers_of trace = [str "OK", str "BUSY"] := by
    have hMap : answers_of trace = (trace.map Prod.snd).flatMap ReaderEvent.answer := by
      rw [List.flatMap_map]
      rfl
    rw [hMap, hEvents]
    rfl
  have hHandled : ∀ line answer, ReaderEvent.handled line answer ∈ trace.map Prod.snd →
      line = str "AT+RESET" := by
    intro line answer hMem
    simp only [hEvents, List.mem_cons, ReaderEvent.handled.injEq, reduceCtorEq, List.not_mem_nil,
      or_false, false_or] at hMem
    exact hMem.1
  refine ⟨trace, t, run, hAnswers, (answers_in_step run rfl (by rw [hPhase]; rfl)).2.mpr ?_⟩
  intro past label rest u hSplit hPast
  unfold UnbrokenStep
  split
  · rename_i around line answer
    intro command hCommand
    have hLine : line = str "AT+RESET" := hHandled line answer (by simp [hSplit])
    have hReset : dispatch (str "AT+RESET") = .ok .RESET := by decide
    rw [hLine, hReset] at hCommand
    cases hCommand
    trivial
  · trivial

/-- A command that a build with `ALLOW_RCE` executes is answered in two lines. -/
theorem exec_answer_two_lines :
    ∃ trace t, Runs (Guarded (reader_machine {} { allow_rce := true, date := [], time := [] }).Step
        CompleteWrite) waiting_reader trace t ∧ t.phase.pending = [] ∧
      answers_of trace = [str "OK\nuid=0"] ∧ lines_of (wire trace) = [str "OK", str "uid=0"] := by
  obtain ⟨⟨t, trace⟩, hExec, hEq⟩ := Option.map_eq_some_iff.mp
    (by decide +kernel : (((reader_machine {} { allow_rce := true, date := [], time := [] }).guard
      CompleteWrite).exec waiting_reader (line_actions (str "AT+EXEC=id")
        { popen := some ⟨[str "uid=0\n"], .exited 0, false⟩ } 10)).map
        (fun result => (result.1.phase.pending, result.2.map Prod.snd)) =
      some ([], [.moved, .read true (str "AT+EXEC=id"), .moved,
        .handled (str "AT+EXEC=id") (str "OK\nuid=0"),
        .wrote true (str "OK\nuid=0" ++ crlf)]))
  obtain ⟨hPending, hEvents⟩ := Prod.mk.inj hEq
  obtain rfl := List.zip_of_prod (Machine.exec_actions hExec) hEvents
  exact ⟨_, t, Machine.runs_of_guard_exec hExec, hPending, by decide +kernel, by decide +kernel⟩

end RkFlashd
