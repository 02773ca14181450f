import RkFlashd.Daemon.AnswerStatus
import RkFlashd.Serial.Answers

/-! The stream of the port against the commands of the loop: a line that is not too long is
executed or turned away just once and in its turn, and so is its answer sent. -/
namespace RkFlashd

open Text Transition

/-- The lines of a stream that `readLine` does not drop for their length. -/
def deliverable (s : Bytes) : List Bytes :=
  (lines_of s).filter fun line => line.length ≤ SerialPort.MAX_LINE_LEN

/-- The loop is done with a line. -/
def ReaderEvent.settles : ReaderEvent → Bool
  | .handled _ _ | .refused => true
  | _ => false

def settled (trace : List ReaderLabel) : List ReaderEvent :=
  (trace.map Prod.snd).filter ReaderEvent.settles

/-- The answer to a line that the loop is done with. -/
def ReaderEvent.reply : ReaderEvent → Bytes
  | .handled _ answer => answer
  | .refused => str "BUSY"
  | _ => []

/-- What becomes of a line. -/
inductive Settles : ReaderEvent → Bytes → Prop where
  | executed (line answer : Bytes) : Settles (.handled line answer) line
  | turned_away (line : Bytes) : Settles .refused line

theorem Settles.settles {event : ReaderEvent} {line : Bytes} (h : Settles event line) :
    event.settles = true := by
  cases h <;> rfl

/-- Every step that is done with a line is done with one of them. -/
theorem settles_of_mem {events : List ReaderEvent} {lines : List Bytes} {event : ReaderEvent}
    (h : List.Forall₂ Settles events lines) (hMem : event ∈ events) :
    ∃ line ∈ lines, Settles event line := by
  induction h with
  | nil => cases hMem
  | cons hFirst hRest ih =>
      rcases List.mem_cons.mp hMem with rfl | hLater
      · exact ⟨_, List.mem_cons_self, hFirst⟩
      · obtain ⟨line, hLine, hSettles⟩ := ih hLater
        exact ⟨line, List.mem_cons_of_mem _ hLine, hSettles⟩

variable {call : ReadCall} {device rest : List ReadResult} {result : Bool × Bytes}

theorem deliverable_line {a raw : Bytes} (h : LineStart a) (hRaw : (10 : UInt8) ∉ raw) :
    deliverable (a ++ (raw ++ [10])) = deliverable a ++
      if SerialPort.MAX_LINE_LEN < (chop_cr raw).length then [] else [chop_cr raw] := by
  rw [deliverable, lines_of_line h hRaw, List.filter_append]
  split
  · rename_i hLong
    simp [deliverable, hLong]
  · rename_i hShort
    simp [deliverable, Nat.le_of_not_lt hShort]

/-- The stream so far is at the start of a line, and its lines are done with but for the one
that the loop works on. -/
structure Delivered (past : List ReaderLabel) (s : ReaderState) : Prop where
  start : LineStart (arrived (reads_of past))
  balance : ∃ done, deliverable (arrived (reads_of past)) = done ++ s.phase.line.toList ∧
    List.Forall₂ Settles (settled past) done

variable {cfg : Config} {build : Build} {s t : ReaderState} {label : ReaderLabel}
  {past trace : List ReaderLabel}

theorem settled_concat (trace : List ReaderLabel) (label : ReaderLabel) :
    settled (trace ++ [label]) = settled trace ++ settled [label] := by
  simp [settled]

/-- A step that leaves the stream and the line alone. -/
theorem Delivered.quiet (h : Delivered past s) (hReads : label.1.reads = [])
    (hSettles : label.2.settles = false) (hLine : t.phase.line = s.phase.line) :
    Delivered (past ++ [label]) t where
  start := by
    rw [reads_of_concat, hReads, List.append_nil]
    exact h.start
  balance := by
    have hNone : settled [label] = [] := by simp [settled, hSettles]
    rw [reads_of_concat, hReads, List.append_nil, settled_concat, hNone, List.append_nil, hLine]
    exact h.balance

/-- The step that is done with the line. -/
theorem Delivered.settle {line : Bytes} (h : Delivered past s) (hReads : label.1.reads = [])
    (hLine : s.phase.line = some line) (hSettles : Settles label.2 line)
    (hNext : t.phase.line = none) : Delivered (past ++ [label]) t where
  start := by
    rw [reads_of_concat, hReads, List.append_nil]
    exact h.start
  balance := by
    obtain ⟨done, hBalance, hDone⟩ := h.balance
    have hOne : settled [label] = [label.2] := by
      simp [settled, hSettles.settles]
    refine ⟨done ++ [line], ?_, ?_⟩
    · rw [reads_of_concat, hReads, List.append_nil, hBalance, hLine, hNext]
      simp
    · rw [settled_concat, hOne]
      exact List.rel_append hDone (List.Forall₂.cons hSettles List.Forall₂.nil)

/-- A call of `readLine` that is not torn. -/
theorem Delivered.read {clock : Nat → Nat} {reads : List ReadResult} {event : ReaderEvent}
    (h : Delivered past s) (hIdle : s.phase.line = none)
    (hResult : SerialDaemon.readLine s.serial_ [] ⟨500, clock⟩ reads = some (result, []))
    (hWhole : ¬ Torn ⟨500, clock⟩ reads) (hSettles : event.settles = false)
    (hLine : t.phase.line = if result.1 then some result.2 else none) :
    Delivered (past ++ [(.read clock reads, event)]) t := by
  rcases daemon_readLine_reading hResult with ⟨rfl, rfl⟩ | hReading
  · exact h.quiet rfl hSettles (by rw [hLine, hIdle]; rfl)
  · obtain ⟨taken, hTaken, hConsumed⟩ := hReading.consumed hWhole
    rw [List.append_nil] at hTaken
    subst hTaken
    have hNone : settled [(ReaderAction.read clock reads, event)] = [] := by
      simp [settled, hSettles]
    obtain ⟨done, hBalance, hDone⟩ := h.balance
    rw [hIdle, Option.toList_none, List.append_nil] at hBalance
    rcases hConsumed with ⟨hEmpty, hFalse⟩ | ⟨raw, hRaw, hUnbroken, rfl⟩
    · refine ⟨by simpa [ReaderAction.reads, hEmpty] using h.start, done, ?_, ?_⟩
      · simp [ReaderAction.reads, hEmpty, hBalance, hLine, hFalse]
      · rwa [settled_concat, hNone, List.append_nil]
    · have hArrived : arrived (reads_of (past ++ [(ReaderAction.read clock reads, event)])) =
          arrived (reads_of past) ++ (raw ++ [10]) := by
        simp [ReaderAction.reads, hRaw]
      refine ⟨?_, done, ?_, ?_⟩
      · rw [hArrived]
        exact Or.inr ⟨arrived (reads_of past) ++ raw, by simp⟩
      · rw [hArrived, deliverable_line h.start hUnbroken, hBalance, hLine, SerialPort.end_line]
        split <;> simp [*]
      · rwa [settled_concat, hNone, List.append_nil]

/-- A step settles the line that the loop works on, or takes up the next. -/
theorem Delivered.step (h : Delivered past s) (hMove : ReaderMove cfg build s label t)
    (hWhole : WholeRead s label) : Delivered (past ++ [label]) t := by
  cases hMove with
  | got_line hPhase hResult =>
      exact h.read (by rw [hPhase]; rfl) hResult hWhole rfl rfl
  | no_line hPhase hResult =>
      exact h.read (by rw [hPhase]; rfl) hResult hWhole rfl rfl
  | handled hPhase hResult =>
      refine h.settle rfl (by rw [hPhase]; rfl) (Settles.executed _ _) ?_
      dsimp only
      split <;> rfl
  | refused hPhase hForeign =>
      exact h.settle rfl (by rw [hPhase]; rfl) (Settles.turned_away _) rfl
  | exit hPhase =>
      refine h.quiet rfl rfl ?_
      rcases hPhase with hPhase | hPhase <;> rw [hPhase] <;> rfl
  | next hPhase | retry hPhase | still_open hPhase | opened hPhase | acquired hPhase
  | contended hPhase | reused hPhase | wrote hPhase =>
      exact h.quiet rfl rfl (by rw [hPhase]; rfl)
  | stopping | closed | stopped | other => exact h.quiet rfl rfl rfl

/-- In every run the lines are settled in the order in which they arrived. -/
theorem delivered_run (run : Runs (Guarded (reader_machine cfg build).Step WholeRead) s trace t)
    (hStart : s.phase.line = none) : Delivered trace t := by
  have hEmpty : Delivered [] s := ⟨Or.inl rfl, [], by rw [hStart]; rfl, List.Forall₂.nil⟩
  exact run.history hEmpty fun _ _ _ _ _ h hStep => h.step (reader_step_cases hStep.1) hStep.2

/-- A line that is done with has an answer with a status, and no other step has one. -/
theorem reply_step (h : ReaderMove cfg build s label t) :
    label.2.answer = (settled [label]).map ReaderEvent.reply ∧
      ∀ event ∈ settled [label], event.reply = str "BUSY" ∨ reports event.reply = true := by
  cases h with
  | @handled line answer around daemon hPhase hResult =>
      have hReports := process_reports hResult
      have hSettled : settled [(ReaderAction.handle around, ReaderEvent.handled line answer)] =
          [.handled line answer] := rfl
      rw [hSettled]
      refine ⟨by simp [ReaderEvent.answer, ReaderEvent.reply, reports_ne_nil hReports], ?_⟩
      simp [ReaderEvent.reply, hReports]
  | refused =>
      refine ⟨rfl, ?_⟩
      intro event hEvent
      rw [List.mem_singleton.mp hEvent]
      exact Or.inl rfl
  | next | exit | got_line | no_line | retry | still_open | opened | acquired | contended | reused
  | wrote | stopping | closed | stopped | other =>
      exact ⟨rfl, fun event hEvent => absurd hEvent List.not_mem_nil⟩

/-- The answers of a run are those to the lines that it is done with. -/
theorem reply_run (run : Runs (reader_machine cfg build).Step s trace t) :
    answers_of trace = (settled trace).map ReaderEvent.reply ∧
      ∀ event ∈ settled trace, event.reply = str "BUSY" ∨ reports event.reply = true := by
  induction run with
  | zero => exact ⟨rfl, fun event hEvent => absurd hEvent List.not_mem_nil⟩
  | @succ t u trace label prior last ih =>
      obtain ⟨hAnswer, hStatus⟩ := reply_step (reader_step_cases last)
      refine ⟨?_, ?_⟩
      · rw [settled_concat, List.map_append, ← ih.1, ← hAnswer]
        simp [answers_of]
      · rw [settled_concat]
        intro event hEvent
        rcases List.mem_append.mp hEvent with hPast | hLast
        · exact ih.2 event hPast
        · exact hStatus event hLast

/-- In every run whose calls of `readLine` are not torn and whose writes are complete, the
lines of the stream that are not too long are executed or turned away once each, in their
order, but for the one in hand, and the wire holds one answer for each of them, in the same
order, that begins with its status. -/
theorem lines_settled_once
    (run : Runs (Guarded (reader_machine cfg build).Step fun u label =>
      WholeRead u label ∧ CompleteWrite u label) s trace t)
    (hStart : s.phase = .loop) :
    ∃ done, deliverable (arrived (reads_of trace)) = done ++ t.phase.line.toList ∧
      List.Forall₂ Settles (settled trace) done ∧
      wire_of ((settled trace).map ReaderEvent.reply) = wire trace ++ wire_of t.phase.pending ∧
      ∀ event ∈ settled trace, event.reply = str "BUSY" ∨ reports event.reply = true := by
  obtain ⟨done, hBalance, hDone⟩ :=
    (delivered_run (run.mono fun _ _ _ h => ⟨h.1, h.2.1⟩) (by rw [hStart]; rfl)).balance
  have hWire := wire_run (run.mono fun _ _ _ h => ⟨h.1, h.2.2⟩) (by rw [hStart]; rfl)
  obtain ⟨hAnswers, hStatus⟩ := reply_run run.unguard
  rw [hAnswers] at hWire
  exact ⟨done, hBalance, hDone, hWire, hStatus⟩

/-- The first is executed and the second turned away, and the wire holds both answers. -/
theorem lines_settled_once_contended :
    ∃ trace t done,
      Runs (reader_machine {} { date := [], time := [] }).Step waiting_reader trace t ∧
      deliverable (arrived (reads_of trace)) = done ∧ List.Forall₂ Settles (settled trace) done ∧
      settled trace = [.handled (str "AT+RESET") (str "OK"), .refused] ∧
      wire trace = wire_of [str "OK", str "BUSY"] := by
  obtain ⟨⟨t, trace⟩, hExec, hEq⟩ := Option.map_eq_some_iff.mp
    (by decide +kernel : (((reader_machine {} { date := [], time := [] }).guard fun u label =>
        WholeRead u label ∧ CompleteWrite u label).exec waiting_reader contended_actions).map
        (fun result => (result.1.phase, result.2.map Prod.snd)) =
      some (.loop, [.moved, .read true (str "AT+RESET"), .moved,
        .handled (str "AT+RESET") (str "OK"), .wrote true (str "OK" ++ crlf), .moved, .moved,
        .read true (str "AT+HELP"), .moved, .refused, .wrote true (str "BUSY" ++ crlf)]))
  obtain ⟨hPhase, hEvents⟩ := Prod.mk.inj hEq
  have run := Machine.runs_of_guard_exec hExec
  have hSettled : settled trace = [.handled (str "AT+RESET") (str "OK"), .refused] := by
    rw [settled, hEvents]
    rfl
  obtain ⟨done, hBalance, hDone, hWire, -⟩ := lines_settled_once run rfl
  rw [hPhase] at hBalance hWire
  rw [hSettled] at hWire
  exact ⟨trace, t, done, run.unguard, by simpa [ReaderPhase.line] using hBalance, hDone,
    hSettled, by simpa [ReaderPhase.pending, ReaderEvent.reply] using hWire.symm⟩

end RkFlashd
