import RkFlashd.Daemon.Session

/-! What the session lock guarantees as long as nobody overrides it: who may execute,
who may give the lock back, and what a refused caller can conclude. -/
namespace RkFlashd

open Text Transition

variable {s t u : SessionState} {trace : List SessionLabel} {label : SessionLabel}
  {who : Caller}

/-- A reachable state keeps the callers apart. -/
theorem exclusive_of_run (run : Runs SessionStep .start trace s) : Exclusive s := by
  apply run.invariant _ exclusive_start
  intro s label t hExclusive hStep
  obtain ⟨who, hMove⟩ := hStep.move
  exact hMove.exclusive hExclusive

/-- Between the two accesses of a gate. -/
def InGate (who : Caller) : Phase → Prop
  | .comparing _ => True
  | .acquiring _ => who = .http
  | _ => False

/-- A gate that is half way has just looked at the lock for the first time. -/
theorem access_gate {owner owner' : Owner} {phase phase' : Phase} {event : SessionEvent}
    (h : access who owner phase = some (owner', phase', event)) (hGate : InGate who phase')
    (hSerial : who = .serial → ∀ cmd, phase ≠ .checking cmd) :
    ∃ cmd, phase = gate who cmd ∧ event = .passed ∧ owner' = owner ∧
      ((∃ cmd, phase' = .comparing cmd) ↔ owner ≠ .NONE) := by
  cases phase with
  | checking cmd =>
      cases who with
      | serial => exact absurd rfl (hSerial rfl cmd)
      | http =>
          refine ⟨cmd, rfl, ?_⟩
          by_cases hFree : owner = .NONE
          · simp only [access, is_busy, hFree, ne_eq, not_true, decide_false, Bool.false_eq_true,
              not_false_iff, if_true] at h
            cases h
            simp [hFree]
          · simp only [access, is_busy, ne_eq, hFree, not_false_iff, decide_true, not_true,
              if_false] at h
            cases h
            simp [hFree]
  | acquiring cmd =>
      by_cases hFree : owner = .NONE
      · simp only [access, try_acquire, hFree, if_true, Option.some.injEq, Prod.mk.injEq] at h
        obtain ⟨-, rfl, -⟩ := h
        cases hGate
      · cases who <;> simp only [access, try_acquire, hFree, if_false] at h <;> cases h
        · cases hGate
        · exact ⟨cmd, rfl, rfl, rfl, by simp [hFree]⟩
  | comparing cmd =>
      simp only [access] at h
      split at h <;> cases h <;> cases hGate
  | executing line =>
      unfold access at h
      split at h <;> simp only [Phase.executing.injEq, reduceCtorEq] at *
      · split at h <;> cases h <;> cases hGate
      · cases h
        cases hGate
  | releasing =>
      cases h
      cases hGate
  | idle => cases h
  | admitted cmd => cases h
  | answering => cases h

/-- Only the second access of a gate refuses, and only a lock that is held. -/
theorem access_refused {owner owner' : Owner} {phase phase' : Phase}
    (h : access who owner phase = some (owner', phase', .refused)) :
    InGate who phase ∧ ((∃ cmd, phase = .comparing cmd) ∧ owner ≠ who.owner ∨
      (∃ cmd, phase = .acquiring cmd) ∧ owner ≠ .NONE) := by
  cases phase with
  | checking cmd =>
      simp only [access] at h
      split at h <;> cases h
  | acquiring cmd =>
      by_cases hFree : owner = .NONE
      · simp [access, try_acquire, hFree] at h
      · cases who <;> simp only [access, try_acquire, hFree, if_false] at h <;> cases h
        exact ⟨rfl, Or.inr ⟨⟨cmd, rfl⟩, hFree⟩⟩
  | comparing cmd =>
      simp only [access] at h
      split at h <;> cases h
      exact ⟨trivial, Or.inl ⟨⟨cmd, rfl⟩, ‹_›⟩⟩
  | executing line =>
      unfold access at h
      split at h <;> simp only [Phase.executing.injEq, reduceCtorEq] at *
      · split at h <;> cases h
      · cases h
  | releasing => cases h
  | idle => cases h
  | admitted cmd => cases h
  | answering => cases h

/-- `u` is the state in which a gate, still under way in `s`, first accessed the lock. -/
def GateSince (who : Caller) (u : SessionState) (trace : List SessionLabel)
    (s : SessionState) : Prop :=
  ∃ cmd past between v,
    trace = past ++ (.access who, .passed) :: between ∧
      Runs SessionStep .start past u ∧ u.phase who = gate who cmd ∧
      SessionStep u (.access who, .passed) v ∧ Runs SessionStep v between s ∧
      ∀ label ∈ between, label.1.caller ≠ some who

/-- What the first access saw, and what the other side could not change since. -/
theorem gate_since_of_run (run : Runs SessionStep .start trace s)
    (hGate : InGate who (s.phase who)) :
    ∃ u, GateSince who u trace s ∧ ((∃ cmd, s.phase who = .comparing cmd) ↔ u.owner ≠ .NONE) ∧
      (s.owner = who.owner ↔ u.owner = who.owner) := by
  revert hGate
  apply run.history (I := fun trace s => InGate who (s.phase who) → ∃ u, GateSince who u trace s ∧
    ((∃ cmd, s.phase who = .comparing cmd) ↔ u.owner ≠ .NONE) ∧
    (s.owner = who.owner ↔ u.owner = who.owner))
  · intro hGate
    cases hGate
  · intro past s label t prior ih hStep hGate
    obtain ⟨c, hMove⟩ := hStep.move
    by_cases hc : who = c
    · subst hc
      cases hMove with
      | arrive =>
          rw [SessionState.goto_phase] at hGate
          cases who <;> simp only [receive, gate] at hGate <;> split at hGate <;> cases hGate
      | access hAccess =>
          rw [SessionState.goto_phase] at hGate
          obtain ⟨cmd, hPhase, rfl, rfl, hSaw⟩ := access_gate hAccess hGate (by
            rintro rfl
            exact (exclusive_of_run prior).unchecked)
          refine ⟨s, ⟨cmd, past, [], _, rfl, prior, hPhase, hStep, Runs.zero _, by simp⟩, ?_, ?_⟩
          · simpa using hSaw
          · rfl
      | start =>
          rw [SessionState.goto_phase] at hGate
          cases hGate
      | finish =>
          rw [SessionState.goto_phase] at hGate
          cases hGate
    · rw [hMove.phase_other hc] at hGate ⊢
      obtain ⟨u, ⟨cmd, before, between, v, rfl, hBefore, hPhase, hFirst, hBetween, hAway⟩,
        hSaw, hOwner⟩ := ih hGate
      refine ⟨u, ⟨cmd, before, between ++ [label], v, by simp, hBefore, hPhase, hFirst,
        Runs.succ hBetween hStep, ?_⟩, hSaw, ?_⟩
      · intro later hLater
        rcases List.mem_append.mp hLater with hLater | hLater
        · exact hAway later hLater
        · rw [List.mem_singleton.mp hLater, hMove.caller]
          exact fun hEq => hc (Option.some.inj hEq).symm
      · rw [hMove.owner_other (exclusive_of_run prior) hc]
        exact hOwner

/-- `who` gives the lock back in `later`, by the compare-exchange of its own `AT+RESET`. -/
def Resets (who : Caller) (s : SessionState) (later : List SessionLabel) : Prop :=
  ∃ before after u, later = before ++ (.access who, .released) :: after ∧
    Runs SessionStep s before u ∧ u.phase who = .releasing

/-- The lock stays where it is until its owner resets. -/
theorem owner_until_reset {later : List SessionLabel} (hExclusive : Exclusive s)
    (hOwner : s.owner = who.owner) (run : Runs SessionStep s later t) :
    t.owner = who.owner ∨ Resets who s later := by
  have hBoth : Exclusive t ∧ (t.owner = who.owner ∨ Resets who s later) := by
    apply run.history (I := fun later t => Exclusive t ∧ (t.owner = who.owner ∨ Resets who s later))
    · exact ⟨hExclusive, Or.inl hOwner⟩
    · rintro past u label v prior ⟨hU, ih⟩ hStep
      obtain ⟨c, hMove⟩ := hStep.move
      refine ⟨hMove.exclusive hU, ?_⟩
      rcases ih with hHeld | ⟨before, after, w, rfl, hBefore, hPhase⟩
      · by_cases hc : who = c
        · subst hc
          cases hMove with
          | arrive => exact Or.inl hHeld
          | access hAccess =>
              rcases access_cases hAccess (hU.unforced who) with
                hSame | ⟨-, -, hTaken⟩ | ⟨hPhase, rfl, -⟩
              · exact Or.inl (by rw [SessionState.goto_owner, hSame, hHeld])
              · exact Or.inl hTaken
              · exact Or.inr ⟨past, [], u, rfl, prior, hPhase⟩
          | start => exact Or.inl hHeld
          | finish => exact Or.inl hHeld
        · exact Or.inl ((hMove.owner_other hU hc).mpr hHeld)
      · exact Or.inr ⟨before, after ++ [label], w, by simp, hBefore, hPhase⟩
  exact hBoth.2

/-- Within an execution of `AT+RESET`. -/
def InReset : Phase → Prop
  | .executing line => line = .ok .RESET
  | .releasing => True
  | .answering => True
  | _ => False

/-- The steps of a `AT+RESET` that find another owner change nothing. -/
theorem Move.reset_ignored (h : Move s who label t) (hExclusive : Exclusive s)
    (hReset : InReset (s.phase who)) (hOwner : s.owner ≠ who.owner) : t.owner = s.owner := by
  cases h with
  | arrive => rfl
  | access hAccess =>
      rcases access_cases hAccess (hExclusive.unforced who) with
        hSame | ⟨⟨cmd, hPhase, -⟩, -, -⟩ | ⟨hPhase, -, -⟩
      · exact hSame
      · rw [hPhase] at hReset
        cases hReset
      · exact absurd (hExclusive.owned who (by rw [hPhase]; trivial)) hOwner
  | start => rfl
  | finish => rfl

/-- The lock of a caller that was refused was the other's at the first or at the last
access of the gate. -/
theorem refused_by_other (run : Runs SessionStep .start trace s)
    (hRefused : SessionStep s (.access who, .refused) t) :
    ∃ u, GateSince who u trace s ∧ (u.owner = who.other.owner ∨ s.owner = who.other.owner) := by
  obtain ⟨c, hMove⟩ := hRefused.move
  cases hMove with
  | access hAccess =>
      obtain ⟨hGate, hSeen⟩ := access_refused hAccess
      obtain ⟨u, hSince, hSaw, hFrame⟩ := gate_since_of_run run hGate
      refine ⟨u, hSince, ?_⟩
      rcases hSeen with ⟨hComparing, hNot⟩ | ⟨⟨cmd, hAcquiring⟩, hHeld⟩
      · left
        exact owner_other (hSaw.mp hComparing) fun hOwn => hNot (hFrame.mpr hOwn)
      · right
        have hFree : u.owner = .NONE := by
          by_contra hHeldThen
          obtain ⟨cmd', hComparing⟩ := hSaw.mpr hHeldThen
          rw [hAcquiring] at hComparing
          cases hComparing
        refine owner_other hHeld fun hOwn => ?_
        rw [hFrame, hFree] at hOwn
        exact owner_ne_none who hOwn.symm

/-- In every reachable state of a session without overrides: handlers run only for the
owner, and so never for both callers; the lock is given back by its owner's reset alone;
a reset by anyone else has no effect; and a refusal proves the other side's ownership. -/
theorem session_lock_safe (run : Runs SessionStep .start trace s) :
    (∀ who line, s.phase who = .executing line → line ≠ .ok .RESET → s.owner = who.owner) ∧
      (∀ who other line line', who ≠ other → s.phase who = .executing line →
        s.phase other = .executing line' → line = .ok .RESET ∨ line' = .ok .RESET) ∧
      (∀ who later t, s.owner = who.owner → Runs SessionStep s later t →
        t.owner = who.owner ∨ Resets who s later) ∧
      (∀ who label t, SessionStep s label t → label.1.caller = some who →
        InReset (s.phase who) → s.owner ≠ who.owner → t.owner = s.owner) ∧
      (∀ who t, SessionStep s (.access who, .refused) t →
        ∃ u, GateSince who u trace s ∧
          (u.owner = who.other.owner ∨ s.owner = who.other.owner)) := by
  have hExclusive := exclusive_of_run run
  have hOwned : ∀ who line, s.phase who = .executing line → line ≠ .ok .RESET →
      s.owner = who.owner := by
    intro who line hPhase hLine
    exact hExclusive.owned who (by rw [hPhase]; exact hLine)
  refine ⟨hOwned, ?_, ?_, ?_, ?_⟩
  · intro who other line line' hNe hPhase hPhase'
    by_contra hBoth
    obtain ⟨hLine, hLine'⟩ := not_or.mp hBoth
    have hSame := (hOwned who line hPhase hLine).symm.trans (hOwned other line' hPhase' hLine')
    revert hNe hSame
    cases who <;> cases other <;> decide
  · intro who later t hOwner later_run
    exact owner_until_reset hExclusive hOwner later_run
  · intro who label t hStep hCaller hReset hOwner
    obtain ⟨c, hMove⟩ := hStep.move
    rw [hMove.caller] at hCaller
    cases hCaller
    exact hMove.reset_ignored hExclusive hReset hOwner
  · intro who t hRefused
    exact refused_by_other run hRefused

/-- Both callers find the lock free; the reader takes it between the two accesses of the
HTTP gate. -/
theorem session_lock_safe_race :
    ∃ trace s t, Runs SessionStep .start trace s ∧
      SessionStep s (.access .http, .refused) t ∧
      s.phase .serial = .executing (.ok .VERSION) ∧ s.owner = .SERIAL ∧
      ∃ u, GateSince .http u trace s ∧ (u.owner = .SERIAL ∨ s.owner = .SERIAL) := by
  obtain ⟨⟨s, trace⟩, hExec, hResult⟩ := Option.map_eq_some_iff.mp
    (by decide +kernel : ((session_machine.guard fun _ label => Ordinary label).exec .start
      [.arrive .http (str "AT+STATUS"), .arrive .serial (str "AT+version"), .access .http,
        .access .serial, .start .serial]).map
      (fun result => (result.1.owner, result.1.phase .http, result.1.phase .serial)) =
      some (.SERIAL, .acquiring (str "AT+STATUS"), .executing (.ok .VERSION)))
  obtain ⟨hOwner, hHttp, hSerial⟩ : s.owner = .SERIAL ∧
      s.phase .http = .acquiring (str "AT+STATUS") ∧
      s.phase .serial = .executing (.ok .VERSION) := by
    simpa using hResult
  have hRun : Runs SessionStep .start trace s := Machine.runs_of_guard_exec hExec
  obtain ⟨hExecuting, -, -, -, hRefused⟩ := session_lock_safe hRun
  have hStep : SessionStep s (.access .http, .refused)
      ({ s with owner := .SERIAL }.goto .http .idle) := by
    constructor
    · simp [Machine.Step, session_machine, hOwner, hHttp, access, try_acquire]
    · exact ⟨by decide, by decide⟩
  exact ⟨trace, s, _, hRun, hStep, hSerial, hExecuting .serial _ hSerial (by decide),
    hRefused .http _ hStep⟩

end RkFlashd
