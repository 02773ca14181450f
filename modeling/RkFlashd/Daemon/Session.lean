import RkFlashd.AtCommand
import RkFlashd.Daemon.Lock
import RkFlashd.Machine.Execution

/-! The session lock at work: the HTTP polling thread and the serial reader as two
processes that interleave at every access to `owner_`. What a handler other than
the two resets does between its start and its end is not part of this machine. -/
namespace RkFlashd

open Text Transition

/-- The two threads that run AT commands. -/
inductive Caller where
  | http
  | serial
  deriving DecidableEq, Repr

def Caller.owner : Caller → Owner
  | .http => .HTTP
  | .serial => .SERIAL

def Caller.other : Caller → Caller
  | .http => .serial
  | .serial => .http

/-- What a thread does next, with the line it works on. -/
inductive Phase where
  | idle
  | checking (cmd : Bytes)
  | acquiring (cmd : Bytes)
  | comparing (cmd : Bytes)
  | admitted (cmd : Bytes)
  | executing (line : Except Bytes AtCommand)
  | releasing
  | answering
  deriving DecidableEq, Repr

/-- The other ways to change `owner_`: `/api/reset`, the debug endpoint and `stop()`. -/
inductive Override where
  | api_reset
  | debug_lock
  | stop
  deriving DecidableEq, Repr

inductive SessionAction where
  | arrive (who : Caller) (cmd : Bytes)
  | access (who : Caller)
  | start (who : Caller)
  | finish (who : Caller)
  | override (event : Override)
  deriving DecidableEq, Repr

/-- What a step shows: a refusal is the 503 of `handleCommand` and the `BUSY` of the
reader, `denied` the error of `handle_reset`. -/
inductive SessionEvent where
  | received
  | passed
  | refused
  | started (line : Except Bytes AtCommand)
  | denied
  | released
  | forced
  | returned
  deriving DecidableEq, Repr

structure SessionState where
  owner : Owner
  phase : Caller → Phase

namespace SessionState

def start : SessionState where
  owner := .NONE
  phase := fun _ => .idle

/-- One thread moves on. -/
def goto (s : SessionState) (who : Caller) (phase : Phase) : SessionState :=
  { s with phase := Function.update s.phase who phase }

@[simp] theorem goto_owner (s : SessionState) (who : Caller) (phase : Phase) :
    (s.goto who phase).owner = s.owner := rfl

@[simp] theorem goto_phase (s : SessionState) (who : Caller) (phase : Phase) :
    (s.goto who phase).phase who = phase := by
  simp [goto]

theorem goto_phase_of_ne {who other : Caller} (h : other ≠ who) (s : SessionState)
    (phase : Phase) : (s.goto who phase).phase other = s.phase other := by
  simp [goto, h]

end SessionState

/-- The first access of the gate. The reader has no gate to skip. -/
def gate (who : Caller) (cmd : Bytes) : Phase :=
  match who with
  | .http => .checking cmd
  | .serial => .acquiring cmd

def receive (who : Caller) (cmd : Bytes) : Phase :=
  if who = .http ∧ bypass_lock cmd then .admitted cmd else gate who cmd

/-- One atomic access to `owner_`, by `handleCommand`, by the reader loop, or by
`handle_reset` and `handle_forcereset`. -/
def access (who : Caller) (owner : Owner) : Phase → Option (Owner × Phase × SessionEvent)
  | .checking cmd =>
      if ¬ is_busy owner then some (owner, .acquiring cmd, .passed)
      else some (owner, .comparing cmd, .passed)
  | .acquiring cmd =>
      match try_acquire owner who.owner, who with
      | (true, owner), _ => some (owner, .admitted cmd, .passed)
      | (false, owner), .http => some (owner, .idle, .refused)
      | (false, owner), .serial => some (owner, .comparing cmd, .passed)
  | .comparing cmd =>
      if owner ≠ who.owner then some (owner, .idle, .refused)
      else some (owner, .admitted cmd, .passed)
  | .executing (.ok .RESET) =>
      if owner ≠ who.owner then some (owner, .answering, .denied)
      else some (owner, .releasing, .passed)
  | .executing (.ok .FORCERESET) => some (force_release owner, .answering, .forced)
  | .releasing => some (release owner who.owner, .answering, .released)
  | _ => none

/-- Whether `process` may return: the two resets access `owner_` first. -/
def may_return : Phase → Bool
  | .executing (.ok .RESET) => false
  | .executing (.ok .FORCERESET) => false
  | .executing _ => true
  | .answering => true
  | _ => false

def override (event : Override) (owner : Owner) : Owner :=
  match event with
  | .api_reset => force_release owner
  | .debug_lock => (try_acquire owner .SERIAL).2
  | .stop => force_release owner

def session_machine : Machine SessionState SessionAction SessionEvent := fun s action =>
  match action with
  | .arrive who cmd =>
      if s.phase who = .idle then some (s.goto who (receive who cmd), .received) else none
  | .access who =>
      match access who s.owner (s.phase who) with
      | none => none
      | some (owner, phase, event) => some ({ s with owner := owner }.goto who phase, event)
  | .start who =>
      match s.phase who with
      | .admitted cmd => some (s.goto who (.executing (dispatch cmd)), .started (dispatch cmd))
      | _ => none
  | .finish who => if may_return (s.phase who) then some (s.goto who .idle, .returned) else none
  | .override event => some ({ s with owner := override event s.owner }, .forced)

abbrev SessionLabel := SessionAction × SessionEvent

/-- The thread that took a step. -/
def SessionAction.caller : SessionAction → Option Caller
  | .arrive who _ | .access who | .start who | .finish who => some who
  | .override _ => none

/-- No override, and no execution of `AT+FORCERESET`. -/
def Ordinary (label : SessionLabel) : Prop :=
  label.1.caller ≠ none ∧ label.2 ≠ .started (.ok .FORCERESET)

instance : DecidablePred Ordinary := fun _ => instDecidableAnd

def SessionStep : SessionState → SessionLabel → SessionState → Prop :=
  Guarded session_machine.Step fun _ label => Ordinary label

@[simp] theorem owner_other_ne (who : Caller) : who.other.owner ≠ who.owner := by
  cases who <;> decide

theorem owner_ne_none (who : Caller) : who.owner ≠ .NONE := by
  cases who <;> decide

/-- A held lock that is not one thread's is the other's. -/
theorem owner_other {owner : Owner} {who : Caller} (hHeld : owner ≠ .NONE)
    (hNot : owner ≠ who.owner) : owner = who.other.owner := by
  cases who <;> cases owner <;> simp_all [Caller.owner, Caller.other]

/-- What one access can do to the lock: nothing, take it while free, or give back the
caller's own. -/
theorem access_cases {who : Caller} {owner owner' : Owner} {phase phase' : Phase}
    {event : SessionEvent} (h : access who owner phase = some (owner', phase', event))
    (hForce : phase ≠ .executing (.ok .FORCERESET)) :
    owner' = owner ∨
      ((∃ cmd, phase = .acquiring cmd ∧ phase' = .admitted cmd) ∧ owner = .NONE ∧
        owner' = who.owner) ∨
      (phase = .releasing ∧ event = .released ∧ owner' = release owner who.owner) := by
  cases phase with
  | checking cmd =>
      left
      simp only [access] at h
      split at h <;> cases h <;> rfl
  | acquiring cmd =>
      by_cases hFree : owner = .NONE
      · simp only [access, try_acquire, hFree, if_true, Option.some.injEq, Prod.mk.injEq] at h
        obtain ⟨rfl, rfl, rfl⟩ := h
        exact Or.inr (Or.inl ⟨⟨cmd, rfl, rfl⟩, hFree, rfl⟩)
      · left
        cases who <;> simp only [access, try_acquire, hFree, if_false] at h <;> cases h <;> rfl
  | comparing cmd =>
      left
      simp only [access] at h
      split at h <;> cases h <;> rfl
  | executing line =>
      left
      unfold access at h
      split at h <;> simp_all
      split at h <;> simp_all
  | releasing =>
      cases h
      exact Or.inr (Or.inr ⟨rfl, rfl, rfl⟩)
  | idle => cases h
  | admitted cmd => cases h
  | answering => cases h

/-- The phases in which a thread counts on owning the lock. -/
def Relies : Phase → Prop
  | .admitted cmd => dispatch cmd ≠ .ok .RESET ∧ dispatch cmd ≠ .ok .FORCERESET
  | .executing line => line ≠ .ok .RESET
  | .releasing => True
  | _ => False

/-- A thread that comes to count on the lock has just seen that it is its own. -/
theorem access_relies {who : Caller} {owner owner' : Owner} {phase phase' : Phase}
    {event : SessionEvent} (h : access who owner phase = some (owner', phase', event))
    (hRelies : Relies phase') : owner' = who.owner := by
  cases phase with
  | checking cmd =>
      simp only [access] at h
      split at h <;> cases h <;> cases hRelies
  | acquiring cmd =>
      by_cases hFree : owner = .NONE
      · simp only [access, try_acquire, hFree, if_true, Option.some.injEq, Prod.mk.injEq] at h
        exact h.1.symm
      · cases who <;> simp only [access, try_acquire, hFree, if_false] at h <;> cases h <;>
          cases hRelies
  | comparing cmd =>
      simp only [access] at h
      split at h
      · cases h
        cases hRelies
      · cases h
        exact Decidable.not_not.mp ‹_›
  | executing line =>
      unfold access at h
      split at h <;> simp only [Phase.executing.injEq, reduceCtorEq] at *
      · split at h <;> cases h
        · cases hRelies
        · exact Decidable.not_not.mp ‹_›
      · cases h
        cases hRelies
  | releasing =>
      cases h
      cases hRelies
  | idle => cases h
  | admitted cmd => cases h
  | answering => cases h

/-- Handlers are only entered by a start. -/
theorem access_not_executing {who : Caller} {owner owner' : Owner} {phase phase' : Phase}
    {event : SessionEvent} (h : access who owner phase = some (owner', phase', event))
    (line : Except Bytes AtCommand) : phase' ≠ .executing line := by
  unfold access at h
  split at h
  · split at h <;> cases h <;> simp
  · split at h <;> cases h <;> simp
  · split at h <;> cases h <;> simp
  · split at h <;> cases h <;> simp
  · cases h
    simp
  · cases h
    simp
  · cases h

theorem access_not_checking {who : Caller} {owner owner' : Owner} {phase phase' : Phase}
    {event : SessionEvent} (h : access who owner phase = some (owner', phase', event))
    (cmd : Bytes) : phase' ≠ .checking cmd := by
  unfold access at h
  split at h
  · split at h <;> cases h <;> simp
  · split at h <;> cases h <;> simp
  · split at h <;> cases h <;> simp
  · split at h <;> cases h <;> simp
  · cases h
    simp
  · cases h
    simp
  · cases h

theorem receive_not_executing (who : Caller) (cmd : Bytes) (line : Except Bytes AtCommand) :
    receive who cmd ≠ .executing line := by
  cases who <;> simp only [receive, gate] <;> split <;> simp

theorem receive_not_relies (who : Caller) (cmd : Bytes) : ¬ Relies (receive who cmd) := by
  unfold receive
  split
  · rename_i hBypass
    rintro ⟨hReset, hForce⟩
    rcases bypass_lock_dispatch hBypass.2 with h | h
    · exact hReset h
    · exact hForce h
  · cases who <;> exact id

/-- What keeps the callers apart in every reachable state. -/
structure Exclusive (s : SessionState) : Prop where
  unchecked : ∀ cmd, s.phase .serial ≠ .checking cmd
  unforced : ∀ who, s.phase who ≠ .executing (.ok .FORCERESET)
  owned : ∀ who, Relies (s.phase who) → s.owner = who.owner

theorem exclusive_start : Exclusive .start where
  unchecked := by
    intro cmd h
    cases h
  unforced := by
    intro who h
    cases h
  owned := by
    intro who h
    cases h

/-- The four kinds of step that are left when there is no override. -/
inductive Move (s : SessionState) (who : Caller) : SessionLabel → SessionState → Prop where
  | arrive {cmd : Bytes} (idle : s.phase who = .idle) :
      Move s who (.arrive who cmd, .received) (s.goto who (receive who cmd))
  | access {owner : Owner} {phase : Phase} {event : SessionEvent}
      (accessed : RkFlashd.access who s.owner (s.phase who) = some (owner, phase, event)) :
      Move s who (.access who, event) ({ s with owner := owner }.goto who phase)
  | start {cmd : Bytes} (admitted : s.phase who = .admitted cmd)
      (ordinary : dispatch cmd ≠ .ok .FORCERESET) :
      Move s who (.start who, .started (dispatch cmd)) (s.goto who (.executing (dispatch cmd)))
  | finish (returns : may_return (s.phase who) = true) :
      Move s who (.finish who, .returned) (s.goto who .idle)

variable {s t : SessionState} {label : SessionLabel} {who other : Caller}

theorem SessionStep.move (h : SessionStep s label t) : ∃ who, Move s who label t := by
  obtain ⟨action, event⟩ := label
  obtain ⟨hStep, hOrdinary⟩ := h
  cases action with
  | arrive who cmd =>
      simp only [Machine.Step, session_machine] at hStep
      split at hStep <;> cases hStep
      exact ⟨who, Move.arrive ‹_›⟩
  | access who =>
      simp only [Machine.Step, session_machine] at hStep
      split at hStep <;> cases hStep
      exact ⟨who, Move.access ‹_›⟩
  | start who =>
      simp only [Machine.Step, session_machine] at hStep
      split at hStep <;> cases hStep
      exact ⟨who, Move.start ‹_› fun hForce => hOrdinary.2 (by rw [hForce])⟩
  | finish who =>
      simp only [Machine.Step, session_machine] at hStep
      split at hStep <;> cases hStep
      exact ⟨who, Move.finish ‹_›⟩
  | override event => exact absurd rfl hOrdinary.1

theorem Move.caller (h : Move s who label t) : label.1.caller = some who := by
  cases h <;> rfl

/-- A step of one thread leaves the other where it is. -/
theorem Move.phase_other (h : Move s who label t) (hOther : other ≠ who) :
    t.phase other = s.phase other := by
  cases h with
  | arrive => exact SessionState.goto_phase_of_ne hOther _ _
  | access => exact SessionState.goto_phase_of_ne hOther _ _
  | start => exact SessionState.goto_phase_of_ne hOther _ _
  | finish => exact SessionState.goto_phase_of_ne hOther _ _

/-- It neither takes nor gives back the lock for the other. -/
theorem Move.owner_other (h : Move s who label t) (hExclusive : Exclusive s)
    (hOther : other ≠ who) : t.owner = other.owner ↔ s.owner = other.owner := by
  have hNe : who.owner ≠ other.owner := by
    revert hOther
    cases who <;> cases other <;> decide
  cases h with
  | arrive => rfl
  | access hAccess =>
      rw [SessionState.goto_owner]
      rcases access_cases hAccess (hExclusive.unforced who) with
        hSame | ⟨-, hFree, hTaken⟩ | ⟨hPhase, -, hReleased⟩
      · simp [hSame]
      · simp [hTaken, hFree, hNe, (owner_ne_none other).symm]
      · have hOwned : s.owner = who.owner := hExclusive.owned who (by rw [hPhase]; trivial)
        simp [hReleased, release, hOwned, hNe, (owner_ne_none other).symm]
  | start => rfl
  | finish => rfl

theorem Move.exclusive (h : Move s who label t) (hExclusive : Exclusive s) : Exclusive t where
  unchecked := by
    intro cmd
    by_cases hc : .serial = who
    · subst hc
      cases h with
      | arrive => simp [receive, gate]
      | access hAccess => simpa using access_not_checking hAccess cmd
      | start => simp
      | finish => simp
    · rw [h.phase_other hc]
      exact hExclusive.unchecked cmd
  unforced := by
    intro c
    by_cases hc : c = who
    · subst hc
      cases h with
      | arrive => simpa using receive_not_executing _ _ _
      | access hAccess => simpa using access_not_executing hAccess _
      | start hPhase hOrdinary => simpa using hOrdinary
      | finish => simp
    · rw [h.phase_other hc]
      exact hExclusive.unforced c
  owned := by
    intro c hRelies
    by_cases hc : c = who
    · subst hc
      cases h with
      | arrive => exact absurd (by simpa using hRelies) (receive_not_relies _ _)
      | access hAccess => exact access_relies hAccess (by simpa using hRelies)
      | start hPhase hOrdinary =>
          apply hExclusive.owned
          rw [hPhase]
          exact ⟨by simpa [Relies] using hRelies, hOrdinary⟩
      | finish =>
          rw [SessionState.goto_phase] at hRelies
          cases hRelies
    · rw [h.phase_other hc] at hRelies
      exact (h.owner_other hExclusive hc).mpr (hExclusive.owned c hRelies)

end RkFlashd
