import RkFlashd.Serial.Reader

/-! `AT+FORCERESET` on the serial line: one pass of the reader loop from the receipt of the
line to its answer, with the other threads in between. -/
namespace RkFlashd

open Text Transition

variable {cfg : Config} {build : Build} {line : Bytes} {s t u v : ReaderState}
  {trace : List ReaderLabel} {label : ReaderLabel}

/-- The loop has got a line at the beginning, and has an answer to write in the end. -/
structure Pass (cfg : Config) (build : Build) (line : Bytes) (s : ReaderState)
    (trace : List ReaderLabel) (t : ReaderState) : Prop where
  run : Runs (reader_machine cfg build).Step s trace t
  received : s.phase = .acquiring line
  unwritten : ∀ label ∈ trace, ∀ written, label.1 ≠ .write written
  answering : ∃ response, t.phase = .answering response

/-- The line has been executed, and that has left the lock to nobody. -/
def Forced (cfg : Config) (build : Build) (line : Bytes) (s : ReaderState)
    (trace : List ReaderLabel) : Prop :=
  ∃ past around rest u v, trace = past ++ (.handle around, .handled line (str "OK")) :: rest ∧
    Runs (reader_machine cfg build).Step s past u ∧
    (reader_machine cfg build).Step u (.handle around, .handled line (str "OK")) v ∧
    v.daemon.owner = .NONE

/-- Whenever `try_acquire` has failed and the loop looks at the owner, it is the reader itself. -/
def GateOpens (cfg : Config) (build : Build) (line : Bytes) (s : ReaderState)
    (trace : List ReaderLabel) : Prop :=
  Always (fun past label => ∀ u, Runs (reader_machine cfg build).Step s past u →
    u.phase = .comparing line → label.1 = .go → u.daemon.owner = .SERIAL) trace

theorem Forced.concat (h : Forced cfg build line s trace) (label : ReaderLabel) :
    Forced cfg build line s (trace ++ [label]) := by
  obtain ⟨past, around, rest, u, v, rfl, hRun, hStep, hOwner⟩ := h
  exact ⟨past, around, rest ++ [label], u, v, by simp, hRun, hStep, hOwner⟩

theorem GateOpens.concat (h : GateOpens cfg build line s trace)
    (run : Runs (reader_machine cfg build).Step s trace u)
    (hOpen : u.phase = .comparing line → label.1 = .go → u.daemon.owner = .SERIAL) :
    GateOpens cfg build line s (trace ++ [label]) := by
  refine always_concat.mpr ⟨h, fun w hRun => ?_⟩
  obtain rfl := Machine.runs_unique run hRun
  exact hOpen

theorem not_gate_opens_concat (h : ¬ GateOpens cfg build line s trace) :
    ¬ GateOpens cfg build line s (trace ++ [label]) :=
  fun hOpens => h (always_concat.mp hOpens).1

/-- Where a pass can be: before its answer, turned away, or through. -/
inductive PassState (cfg : Config) (build : Build) (line : Bytes) (s : ReaderState)
    (trace : List ReaderLabel) (u : ReaderState) : Prop where
  | inside
      (phase : u.phase = .acquiring line ∨ u.phase = .comparing line ∨ u.phase = .admitted line)
      (opens : GateOpens cfg build line s trace)
  | refused (phase : u.phase = .answering (str "BUSY"))
      (shut : ¬ GateOpens cfg build line s trace)
  | forced (phase : u.phase = .answering (str "OK")) (opens : GateOpens cfg build line s trace)
      (forced : Forced cfg build line s trace)

/-- A step of another thread leaves a pass where it is. -/
theorem PassState.other (h : PassState cfg build line s trace u)
    (run : Runs (reader_machine cfg build).Step s trace u) (hPhase : v.phase = u.phase)
    (hLabel : label.1 ≠ .go) : PassState cfg build line s (trace ++ [label]) v := by
  cases h with
  | inside phase opens =>
      rw [← hPhase] at phase
      exact PassState.inside phase (opens.concat run fun _ hGo => absurd hGo hLabel)
  | refused phase shut => exact PassState.refused (hPhase.trans phase) (not_gate_opens_concat shut)
  | forced phase opens forced =>
      exact PassState.forced (hPhase.trans phase) (opens.concat run fun _ hGo => absurd hGo hLabel)
        (forced.concat label)

theorem PassState.inside_inv (h : PassState cfg build line s trace u) {found : Bytes}
    (hPhase : u.phase = .acquiring found ∨ u.phase = .comparing found ∨ u.phase = .admitted found) :
    found = line ∧ GateOpens cfg build line s trace := by
  cases h with
  | inside phase opens =>
      refine ⟨?_, opens⟩
      rcases hPhase with hPhase | hPhase | hPhase <;> simpa [hPhase] using phase
  | refused phase shut => simp [phase] at hPhase
  | forced phase opens forced => simp [phase] at hPhase

/-- `AT+FORCERESET` frees the lock, whoever holds it. -/
theorem process_forcereset (h : dispatch line = .ok .FORCERESET) (d : Daemon)
    (around : Circumstances) :
    process cfg build d ⟨.SERIAL, line, around⟩ = some ({ d with owner := .NONE }, str "OK") := by
  have hExecute : process cfg build d ⟨.SERIAL, line, around⟩ =
      execute cfg build d ⟨.SERIAL, line, around⟩ .FORCERESET := process_ok h
  rw [hExecute]
  rfl

/-- One step of a pass. -/
theorem PassState.step (hLine : dispatch line = .ok .FORCERESET)
    (run : Runs (reader_machine cfg build).Step s trace u)
    (h : PassState cfg build line s trace u)
    (hStep : (reader_machine cfg build).Step u label v)
    (hUnwritten : ∀ written, label.1 ≠ .write written) :
    PassState cfg build line s (trace ++ [label]) v := by
  have hPlace : ¬ (u.phase = .loop ∨ u.phase = .reading ∨ u.phase = .failed ∨
      u.phase = .reconnect) := by
    cases h with
    | inside phase opens => rcases phase with hPhase | hPhase | hPhase <;> simp [hPhase]
    | refused phase shut => simp [phase]
    | forced phase opens forced => simp [phase]
  cases reader_step_cases hStep with
  | stopping running => exact h.other run rfl (by simp)
  | closed stopped present => exact h.other run rfl (by simp)
  | stopped stopped absent => exact h.other run rfl (by simp)
  | other => exact h.other run rfl (by simp)
  | wrote at_write result => exact absurd rfl (hUnwritten _)
  | next at_loop running => exact absurd (Or.inl at_loop) hPlace
  | exit at_check stopped =>
      rcases at_check with hLoop | hFailed
      · exact absurd (Or.inl hLoop) hPlace
      · exact absurd (Or.inr (Or.inr (Or.inl hFailed))) hPlace
  | got_line at_read result => exact absurd (Or.inr (Or.inl at_read)) hPlace
  | no_line at_read result => exact absurd (Or.inr (Or.inl at_read)) hPlace
  | retry at_check running => exact absurd (Or.inr (Or.inr (Or.inl at_check))) hPlace
  | still_open at_reconnect present =>
      exact absurd (Or.inr (Or.inr (Or.inr at_reconnect))) hPlace
  | opened at_reconnect absent result =>
      exact absurd (Or.inr (Or.inr (Or.inr at_reconnect))) hPlace
  | acquired at_acquire free =>
      obtain ⟨rfl, hOpens⟩ := h.inside_inv (Or.inl at_acquire)
      apply PassState.inside (Or.inr (Or.inr rfl))
      exact hOpens.concat run fun hCompare => by simp [at_acquire] at hCompare
  | contended at_acquire held =>
      obtain ⟨rfl, hOpens⟩ := h.inside_inv (Or.inl at_acquire)
      apply PassState.inside (Or.inr (Or.inl rfl))
      exact hOpens.concat run fun hCompare => by simp [at_acquire] at hCompare
  | refused at_compare foreign =>
      obtain ⟨rfl, -⟩ := h.inside_inv (Or.inr (Or.inl at_compare))
      apply PassState.refused rfl
      intro hOpens
      exact foreign ((always_concat.mp hOpens).2 u run at_compare rfl)
  | reused at_compare own =>
      obtain ⟨rfl, hOpens⟩ := h.inside_inv (Or.inr (Or.inl at_compare))
      apply PassState.inside (Or.inr (Or.inr rfl))
      exact hOpens.concat run fun _ _ => own
  | @handled found answer around daemon at_handler result =>
      obtain ⟨rfl, hOpens⟩ := h.inside_inv (Or.inr (Or.inr at_handler))
      rw [process_forcereset hLine] at result
      obtain ⟨rfl, rfl⟩ := Prod.mk.inj (Option.some.inj result)
      have hNe : str "OK" ≠ [] := by decide
      apply PassState.forced
      · simp [hNe]
      · exact hOpens.concat run fun _ hGo => by cases hGo
      · exact ⟨trace, around, [], u, _, rfl, run, hStep, rfl⟩

/-- From the acquisition on, the pass is where its history puts it. -/
theorem PassState.of_run (hLine : dispatch line = .ok .FORCERESET)
    (hStart : s.phase = .acquiring line)
    (run : Runs (reader_machine cfg build).Step s trace t)
    (hUnwritten : ∀ label ∈ trace, ∀ written, label.1 ≠ .write written) :
    PassState cfg build line s trace t := by
  induction run with
  | zero => exact PassState.inside (Or.inl hStart) always_nil
  | succ prior last ih =>
      apply PassState.step hLine prior (ih fun label hMem => hUnwritten label (by simp [hMem])) last
      exact hUnwritten _ (by simp)

/-- **`AT+FORCERESET` from the serial side.** A pass executes the line, frees the lock and
answers `OK` exactly when the gate of the loop finds the lock free or its own. -/
theorem forcereset_executed_iff (hLine : dispatch line = .ok .FORCERESET)
    (h : Pass cfg build line s trace t) :
    t.phase = .answering (str "OK") ∧ Forced cfg build line s trace ↔
      GateOpens cfg build line s trace := by
  cases PassState.of_run hLine h.received h.run h.unwritten with
  | inside phase opens =>
      obtain ⟨response, hAnswer⟩ := h.answering
      rw [hAnswer] at phase
      rcases phase with hPhase | hPhase | hPhase <;> cases hPhase
  | refused phase shut =>
      have hNe : str "BUSY" ≠ str "OK" := by decide
      simp [phase, hNe, shut]
  | forced phase opens forced => exact iff_of_true ⟨phase, forced⟩ opens

/-- A line has been received while somebody holds the lock. -/
def received_while (owner : Owner) (line : Bytes) : ReaderState where
  reader_running_ := true
  serial_ := {}
  daemon := { owner := owner, host := ⟨{}, Storage.FileSystem.empty⟩ }
  phase := .acquiring line

/-- The reader holds the lock itself, and the line in small letters gets past the gate. -/
theorem forcereset_executed_lower : ∃ trace t,
    Pass {} { date := [], time := [] } (str "AT+forcereset ")
      (received_while .SERIAL (str "AT+forcereset ")) trace t ∧
    GateOpens {} { date := [], time := [] } (str "AT+forcereset ")
      (received_while .SERIAL (str "AT+forcereset ")) trace ∧
    t.phase = .answering (str "OK") ∧ Forced {} { date := [], time := [] } (str "AT+forcereset ")
      (received_while .SERIAL (str "AT+forcereset ")) trace := by
  have hLine : dispatch (str "AT+forcereset ") = .ok .FORCERESET := by decide
  have hNe : str "OK" ≠ [] := by decide
  have hAcquire : (reader_machine {} { date := [], time := [] }).Step
      (received_while .SERIAL (str "AT+forcereset ")) (.go, .moved)
      { received_while .SERIAL (str "AT+forcereset ") with
        phase := .comparing (str "AT+forcereset ") } := rfl
  have hOwn : (reader_machine {} { date := [], time := [] }).Step
      { received_while .SERIAL (str "AT+forcereset ") with
        phase := .comparing (str "AT+forcereset ") } (.go, .moved)
      { received_while .SERIAL (str "AT+forcereset ") with
        phase := .admitted (str "AT+forcereset ") } := rfl
  have hHandler : (reader_machine {} { date := [], time := [] }).Step
      { received_while .SERIAL (str "AT+forcereset ") with
        phase := .admitted (str "AT+forcereset ") }
      (.handle {}, .handled (str "AT+forcereset ") (str "OK"))
      { received_while .NONE (str "AT+forcereset ") with phase := .answering (str "OK") } := by
    simp [Machine.Step, reader_machine, received_while, process_forcereset hLine, hNe]
  have run := (Runs.single hAcquire).trans (Runs.single hOwn)
  have hPass : Pass {} { date := [], time := [] } (str "AT+forcereset ")
      (received_while .SERIAL (str "AT+forcereset ")) _
      { received_while .NONE (str "AT+forcereset ") with phase := .answering (str "OK") } :=
    ⟨run.trans (Runs.single hHandler), rfl, by simp, _, rfl⟩
  let Opens := GateOpens {} { date := [], time := [] } (str "AT+forcereset ")
    (received_while .SERIAL (str "AT+forcereset "))
  have hStart : Opens [] := always_nil
  have hFirst : Opens ([] ++ [(.go, .moved)]) :=
    hStart.concat (Runs.zero _) (fun hCompare => by cases hCompare)
  have hSecond : Opens ([(.go, .moved)] ++ [(.go, .moved)]) :=
    hFirst.concat (Runs.single hAcquire) (fun _ _ => rfl)
  have hOpens : Opens ([(.go, .moved)] ++ [(.go, .moved)] ++
      [(.handle {}, .handled (str "AT+forcereset ") (str "OK"))]) :=
    hSecond.concat run (fun hCompare => by cases hCompare)
  exact ⟨_, _, hPass, hOpens, (forcereset_executed_iff hLine hPass).mpr hOpens⟩

/-- HTTP holds the lock, and the override is turned away. -/
theorem forcereset_answered_busy : ∃ trace t,
    dispatch (str "AT+FORCERESET") = .ok .FORCERESET ∧
    Pass {} { date := [], time := [] } (str "AT+FORCERESET")
      (received_while .HTTP (str "AT+FORCERESET")) trace t ∧
    t.phase = .answering (str "BUSY") ∧ t.daemon.owner = .HTTP ∧
    ¬ (t.phase = .answering (str "OK") ∧ Forced {} { date := [], time := [] } (str "AT+FORCERESET")
      (received_while .HTTP (str "AT+FORCERESET")) trace) := by
  have hAcquire : (reader_machine {} { date := [], time := [] }).Step
      (received_while .HTTP (str "AT+FORCERESET")) (.go, .moved)
      { received_while .HTTP (str "AT+FORCERESET") with
        phase := .comparing (str "AT+FORCERESET") } := rfl
  have hRefuse : (reader_machine {} { date := [], time := [] }).Step
      { received_while .HTTP (str "AT+FORCERESET") with
        phase := .comparing (str "AT+FORCERESET") } (.go, .refused)
      { received_while .HTTP (str "AT+FORCERESET") with phase := .answering (str "BUSY") } := rfl
  refine ⟨_, _, by decide, ⟨(Runs.single hAcquire).trans (Runs.single hRefuse), rfl, by simp, _,
    rfl⟩, rfl, rfl, fun hAnswer => ?_⟩
  have hSame := ReaderPhase.answering.inj hAnswer.1
  exact absurd hSame (by decide)

end RkFlashd
