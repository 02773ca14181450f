import RkFlashd.Serial.Framing

/-! What the reader loop does after an error of the device. Whether it reopens the port
depends on `is_open`, and a read that fails leaves the handle in place. -/
namespace RkFlashd

open Text Transition

/-- Between a read that failed and any later read the handle is closed and the port opened
anew. -/
def Recovers (past : List ReaderLabel) (label : ReaderLabel) : Prop :=
  label.1.reads ≠ [] → ∀ before failing after, past = before ++ failing :: after →
    .error ∈ failing.1.reads →
    ∃ a closing b opening c, after = a ++ closing :: b ++ opening :: c ∧
      closing.2 = .closed ∧ opening.2 = .opened true

/-- No read has failed before a step that reads. -/
def NoErrorBefore (past : List ReaderLabel) (label : ReaderLabel) : Prop :=
  label.1.reads ≠ [] → ∀ earlier ∈ past, .error ∉ earlier.1.reads

/-- The reader has been told to stop. The port may be opened once more, but not read. -/
structure Shut (s : ReaderState) : Prop where
  stopped : s.reader_running_ = false
  unread : s.serial_.is_open = true → s.phase = .loop ∨ s.phase = .exited

variable {cfg : Config} {build : Build} {s t : ReaderState} {label : ReaderLabel}
  {trace : List ReaderLabel}

/-- Only `stop_reader` closes the handle. -/
theorem ReaderMove.shut_of_closed (h : ReaderMove cfg build s label t)
    (hClosed : label.2 = .closed) : Shut t := by
  cases h with
  | closed hStopped => exact ⟨hStopped, fun hOpen => by cases hOpen⟩
  | _ => cases hClosed

/-- A reader that has been told to stop reads nothing more. -/
theorem Shut.step (hShut : Shut s) (h : ReaderMove cfg build s label t) : Shut t := by
  cases h with
  | next hPhase hRunning | retry hPhase hRunning =>
      rw [hShut.stopped] at hRunning
      cases hRunning
  | stopping hRunning =>
      rw [hShut.stopped] at hRunning
      cases hRunning
  | exit => exact ⟨hShut.stopped, fun _ => Or.inr rfl⟩
  | still_open | wrote | opened => exact ⟨hShut.stopped, fun _ => Or.inl rfl⟩
  | closed => exact ⟨hShut.stopped, fun hOpen => by cases hOpen⟩
  | stopped | other => exact ⟨hShut.stopped, hShut.unread⟩
  | got_line hPhase | no_line hPhase | acquired hPhase | contended hPhase | refused hPhase
  | reused hPhase | handled hPhase =>
      refine ⟨hShut.stopped, fun hOpen => ?_⟩
      have hHere := hShut.unread hOpen
      rw [hPhase] at hHere
      simp at hHere

/-- A closed port is not read, and an open one only on the way through the loop. -/
theorem Shut.reads (hShut : Shut s) (h : ReaderMove cfg build s label t) : label.1.reads = [] := by
  have hClosed : s.phase = .reading → s.serial_.is_open = false := by
    intro hPhase
    by_contra hOpen
    have hHere := hShut.unread (by simpa using hOpen)
    rw [hPhase] at hHere
    simp at hHere
  cases h with
  | got_line hPhase hResult =>
      simp only [SerialDaemon.readLine, hClosed hPhase] at hResult
      cases hResult
  | no_line hPhase hResult =>
      simp only [SerialDaemon.readLine, hClosed hPhase] at hResult
      cases hResult
      rfl
  | _ => rfl

/-- After a close no step reads any more. -/
theorem reads_of_closed {past : List ReaderLabel} {closing : ReaderLabel}
    (run : Runs (reader_machine cfg build).Step s past t) (hMem : closing ∈ past)
    (hClosed : closing.2 = .closed) {u : ReaderState}
    (hStep : (reader_machine cfg build).Step t label u) : label.1.reads = [] := by
  obtain ⟨before, after, rfl⟩ := List.append_of_mem hMem
  obtain ⟨v, w, -, hClosing, hRest⟩ := run.split_cons
  have hShut : Shut w := (reader_step_cases hClosing).shut_of_closed hClosed
  have hNow : Shut t :=
    hRest.invariant (fun _ _ _ h hNext => h.step (reader_step_cases hNext)) hShut
  exact hNow.reads (reader_step_cases hStep)

/-- The loop recovers from the errors of a run if and only if it has nothing to recover from:
it makes no read after one that failed. -/
theorem reader_recovers_iff (run : Runs (reader_machine cfg build).Step s trace t) :
    Always Recovers trace ↔ Always NoErrorBefore trace := by
  apply run.always_iff
  intro past u label v hPast hStep
  constructor
  · intro h hReads earlier hEarlier hError
    obtain ⟨before, after, rfl⟩ := List.append_of_mem hEarlier
    obtain ⟨a, closing, b, opening, c, rfl, hClosed, -⟩ := h hReads before earlier after rfl hError
    exact hReads (reads_of_closed hPast (by simp) hClosed hStep)
  · rintro h hReads before failing after rfl hError
    exact absurd hError (h hReads failing (by simp))

instance (past : List ReaderLabel) (label : ReaderLabel) : Decidable (NoErrorBefore past label) :=
  inferInstanceAs (Decidable (_ → _))

/-- A port that is not there at first and is opened and read later, until a read of it fails
and the reader is stopped. -/
def unplugged_at_last : List ReaderAction :=
  [.go, .read quick_call.clock [], .go, .reopen { posix := 3 }, .go,
    .read quick_call.clock [.byte 65, .idle, .byte 10], .go, .handle {}, .write 33, .go,
    .read quick_call.clock [.error], .stop_store, .go, .stop_close]

/-- The failed read is the last one. -/
theorem reader_recovers_missing :
    ∃ trace t, Runs (reader_machine {} { date := [], time := [] }).Step
        { waiting_reader with serial_ := {} } trace t ∧
      .error ∈ reads_of trace ∧ t.phase = .exited ∧ t.serial_.is_open = false ∧
      Always Recovers trace := by
  obtain ⟨⟨t, trace⟩, hExec, hEq⟩ := Option.map_eq_some_iff.mp
    (by decide +kernel : ((reader_machine {} { date := [], time := [] }).exec
      { waiting_reader with serial_ := {} } unplugged_at_last).map
        (fun result => (decide (.error ∈ reads_of result.2), result.1.phase,
          result.1.serial_.is_open, decide (Always NoErrorBefore result.2))) =
      some (true, .exited, false, true))
  simp only [Prod.mk.injEq, decide_eq_true_eq] at hEq
  obtain ⟨hError, hPhase, hClosed, hQuiet⟩ := hEq
  have run := Machine.runs_of_exec hExec
  exact ⟨trace, t, run, hError, hPhase, hClosed, (reader_recovers_iff run).mpr hQuiet⟩

/-- The adapter is unplugged: the loop finds the handle in place and reads it again. -/
theorem failed_handle_read_again :
    ∃ trace t, Runs (reader_machine {} { date := [], time := [] }).Step waiting_reader trace t ∧
      ¬ Always Recovers trace := by
  obtain ⟨t, hExec⟩ := Machine.exec_of_outputs
    (by rfl : ((reader_machine {} { date := [], time := [] }).exec waiting_reader
      [.go, .read quick_call.clock [.error], .go, .reopen {}, .go,
        .read quick_call.clock [.error]]).map (fun result => result.2.map Prod.snd) =
      some [.moved, .read false [], .moved, .moved, .moved, .read false []])
  refine ⟨_, t, Machine.runs_of_exec hExec, fun h => ?_⟩
  obtain ⟨a, closing, b, opening, c, hAfter, hClosed, -⟩ :=
    h [(.go, .moved), (.read quick_call.clock [.error], .read false []), (.go, .moved),
        (.reopen {}, .moved), (.go, .moved)]
      (.read quick_call.clock [.error], .read false []) [] rfl (by simp [ReaderAction.reads])
      [(.go, .moved)] (.read quick_call.clock [.error], .read false [])
      [(.go, .moved), (.reopen {}, .moved), (.go, .moved)] rfl (by simp [ReaderAction.reads])
  have hMem : closing ∈ [(ReaderAction.go, ReaderEvent.moved), (.reopen {}, .moved),
      (.go, .moved)] := by
    rw [hAfter]
    simp
  simp only [List.mem_cons, List.not_mem_nil, or_false] at hMem
  rcases hMem with rfl | rfl | rfl <;> cases hClosed

end RkFlashd
