import Mathlib

/-! Labelled transition systems and their finite runs. A run keeps its labels in
the order they happened, so that a property of the history of a run and a
property of the state it reached can be proved by one induction. -/
namespace Transition

variable {State Label Action Output : Type*}

/-- The labels of a finite run, oldest first, between two states. -/
inductive Runs (Next : State → Label → State → Prop) : State → List Label → State → Prop where
  | zero (s : State) : Runs Next s [] s
  | succ {s t u : State} {trace : List Label} {label : Label}
      (prior : Runs Next s trace t) (last : Next t label u) :
      Runs Next s (trace ++ [label]) u

/-- Only the steps that an admissibility condition allows. -/
def Guarded (Next : State → Label → State → Prop) (allowed : State → Label → Prop) :
    State → Label → State → Prop :=
  fun s label t => Next s label t ∧ allowed s label

variable {Next Next' : State → Label → State → Prop}

theorem Runs.single {s t : State} {label : Label} (h : Next s label t) :
    Runs Next s [label] t :=
  Runs.succ (Runs.zero s) h

/-- Concatenate two runs. Their traces are appended. -/
theorem Runs.trans {s t u : State} {first second : List Label}
    (left : Runs Next s first t) (right : Runs Next t second u) :
    Runs Next s (first ++ second) u := by
  induction right with
  | zero => simpa using left
  | succ prior last ih => simpa using Runs.succ ih last

/-- A run whose trace is cut in two passes through a state at the cut. -/
theorem Runs.split {s u : State} {first second : List Label}
    (run : Runs Next s (first ++ second) u) :
    ∃ t, Runs Next s first t ∧ Runs Next t second u := by
  generalize hTrace : first ++ second = trace at run
  induction run generalizing second with
  | zero =>
      obtain ⟨rfl, rfl⟩ := List.append_eq_nil_iff.mp hTrace
      exact ⟨_, Runs.zero _, Runs.zero _⟩
  | @succ t u trace label prior last ih =>
      rcases List.eq_nil_or_concat second with rfl | ⟨init, final, rfl⟩
      · rw [List.append_nil] at hTrace
        subst hTrace
        exact ⟨u, Runs.succ prior last, Runs.zero u⟩
      · rw [List.concat_eq_append, ← List.append_assoc] at hTrace
        obtain ⟨hInit, hFinal⟩ := List.append_inj' hTrace rfl
        obtain ⟨middle, hFirst, hSecond⟩ := ih hInit
        refine ⟨middle, hFirst, ?_⟩
        cases hFinal
        simpa using Runs.succ hSecond last

/-- The step that emitted a given label of a run. -/
theorem Runs.split_cons {s u : State} {first second : List Label} {label : Label}
    (run : Runs Next s (first ++ label :: second) u) :
    ∃ t t', Runs Next s first t ∧ Next t label t' ∧ Runs Next t' second u := by
  rw [List.append_cons] at run
  obtain ⟨t', hPrefix, hSecond⟩ := run.split
  generalize hTrace : first ++ [label] = trace at hPrefix
  cases hPrefix with
  | zero => simp at hTrace
  | succ prior last =>
      obtain ⟨rfl, hLabel⟩ := List.append_inj' hTrace rfl
      cases hLabel
      exact ⟨_, _, prior, last, hSecond⟩

/-- A run of a system is a run of any system with more steps. -/
theorem Runs.mono (hStep : ∀ s label t, Next s label t → Next' s label t)
    {s t : State} {trace : List Label} (run : Runs Next s trace t) : Runs Next' s trace t := by
  induction run with
  | zero => exact Runs.zero _
  | succ prior last ih => exact Runs.succ ih (hStep _ _ _ last)

/-- A guarded run is a run. -/
theorem Runs.unguard {allowed : State → Label → Prop} {s t : State} {trace : List Label}
    (run : Runs (Guarded Next allowed) s trace t) : Runs Next s trace t :=
  run.mono fun _ _ _ h => h.1

/-- What every step preserves holds after a run if it held before. -/
theorem Runs.invariant {I : State → Prop} (hStep : ∀ s label t, I s → Next s label t → I t)
    {s t : State} {trace : List Label} (run : Runs Next s trace t) (h : I s) : I t := by
  induction run with
  | zero => exact h
  | succ prior last ih => exact hStep _ _ _ ih last

/-- While an invariant holds every step lowers a rank, so that a run is no longer than the
rank it starts with. -/
theorem Runs.length_le_rank {I : State → Prop} {rank : State → Nat}
    (hStep : ∀ s label t, I s → Next s label t → I t ∧ rank t < rank s)
    {s t : State} {trace : List Label} (run : Runs Next s trace t) (h : I s) :
    I t ∧ trace.length + rank t ≤ rank s := by
  induction run with
  | zero => exact ⟨h, by simp⟩
  | succ prior last ih =>
      obtain ⟨hNow, hLength⟩ := ih
      obtain ⟨hNext, hRank⟩ := hStep _ _ _ hNow last
      refine ⟨hNext, ?_⟩
      rw [List.length_append, List.length_singleton]
      omega

/-- The same with a history: what holds of the empty trace and is preserved when
a step extends a run, holds of every run's trace and final state. -/
theorem Runs.history {I : List Label → State → Prop} {s t : State} {trace : List Label}
    (hStart : I [] s)
    (hStep : ∀ past u label v, Runs Next s past u → I past u → Next u label v →
      I (past ++ [label]) v)
    (run : Runs Next s trace t) : I trace t := by
  induction run with
  | zero => exact hStart
  | succ prior last ih => exact hStep _ _ _ _ prior ih last

/-- Every label of a trace is admissible after the labels that came before it. -/
def Always (admissible : List Label → Label → Prop) (trace : List Label) : Prop :=
  ∀ past label rest, trace = past ++ label :: rest → admissible past label

theorem always_nil {admissible : List Label → Label → Prop} : Always admissible [] := by
  intro past label rest h
  simp at h

theorem always_concat {admissible : List Label → Label → Prop} {trace : List Label}
    {label : Label} :
    Always admissible (trace ++ [label]) ↔ Always admissible trace ∧ admissible trace label := by
  constructor
  · intro h
    refine ⟨fun past found rest hEq => ?_, h trace label [] rfl⟩
    exact h past found (rest ++ [label]) (by simp [hEq])
  · rintro ⟨hTrace, hLast⟩ past found rest hEq
    rcases List.eq_nil_or_concat rest with rfl | ⟨init, final, rfl⟩
    · obtain ⟨rfl, hFound⟩ := List.append_inj' hEq rfl
      cases hFound
      exact hLast
    · rw [List.concat_eq_append, ← List.cons_append, ← List.append_assoc] at hEq
      obtain ⟨hTraceEq, -⟩ := List.append_inj' hEq rfl
      exact hTrace past found init hTraceEq

theorem always_single {admissible : List Label → Label → Prop} {label : Label} :
    Always admissible [label] ↔ admissible [] label := by
  have hConcat : Always admissible ([] ++ [label]) ↔ _ := always_concat
  rw [List.nil_append] at hConcat
  rw [hConcat]
  exact and_iff_right always_nil

/-- A property of all labels, label by label. -/
theorem always_iff_get {admissible : List Label → Label → Prop} {trace : List Label} :
    Always admissible trace ↔
      ∀ (i : Nat) (h : i < trace.length), admissible (trace.take i) (trace.get ⟨i, h⟩) := by
  constructor
  · intro h i hLt
    apply h _ _ (trace.drop (i + 1))
    rw [List.get_eq_getElem, List.cons_getElem_drop_succ, List.take_append_drop]
  · rintro h past label rest rfl
    simpa using h past.length (by simp)

/-- A condition on what came before can be tested label by label. -/
instance {admissible : List Label → Label → Prop} [∀ past label, Decidable (admissible past label)]
    (trace : List Label) : Decidable (Always admissible trace) :=
  decidable_of_iff _ always_iff_get.symm

/-- What every step of a reachable state satisfies holds all along a run. -/
theorem Runs.always {admissible : List Label → Label → Prop} {s t : State} {trace : List Label}
    (hStep : ∀ past u label v, Runs Next s past u → Next u label v → admissible past label)
    (run : Runs Next s trace t) : Always admissible trace := by
  intro past label rest hEq
  subst hEq
  obtain ⟨u, v, hPast, hLabel, -⟩ := run.split_cons
  exact hStep past u label v hPast hLabel

/-- Two conditions that agree on every step of a reachable state agree along a run. -/
theorem Runs.always_iff {left right : List Label → Label → Prop} {s t : State}
    {trace : List Label}
    (hStep : ∀ past u label v, Runs Next s past u → Next u label v →
      (left past label ↔ right past label))
    (run : Runs Next s trace t) : Always left trace ↔ Always right trace := by
  have hAgree : Always (fun past label => left past label ↔ right past label) trace :=
    run.always hStep
  constructor
  · intro h past label rest hEq
    exact (hAgree past label rest hEq).mp (h past label rest hEq)
  · intro h past label rest hEq
    exact (hAgree past label rest hEq).mpr (h past label rest hEq)

/-- A deterministic system: an action may be impossible in a state, and otherwise
it gives the next state and what it emits. -/
def Machine (State Action Output : Type*) := State → Action → Option (State × Output)

def Machine.Step (m : Machine State Action Output) :
    State → Action × Output → State → Prop :=
  fun s label t => m s label.1 = some (t, label.2)

/-- Perform a list of actions and collect what they emit. -/
def Machine.exec (m : Machine State Action Output) :
    State → List Action → Option (State × List (Action × Output))
  | s, [] => some (s, [])
  | s, action :: rest =>
      match m s action with
      | none => none
      | some (t, output) =>
          (Machine.exec m t rest).map fun result => (result.1, (action, output) :: result.2)

theorem Machine.exec_cons {m : Machine State Action Output} {s t u : State} {action : Action}
    {output : Output} {rest : List Action} {trace : List (Action × Output)}
    (hStep : m s action = some (t, output)) (hRest : m.exec t rest = some (u, trace)) :
    m.exec s (action :: rest) = some (u, (action, output) :: trace) := by
  simp [Machine.exec, hStep, hRest]

/-- Executing two lists of actions one after the other. -/
theorem Machine.exec_append {m : Machine State Action Output} {s t u : State}
    {first second : List Action} {traceFirst traceSecond : List (Action × Output)}
    (hFirst : m.exec s first = some (t, traceFirst))
    (hSecond : m.exec t second = some (u, traceSecond)) :
    m.exec s (first ++ second) = some (u, traceFirst ++ traceSecond) := by
  induction first generalizing s traceFirst with
  | nil =>
      cases hFirst
      simpa using hSecond
  | cons action rest ih =>
      cases hStep : m s action with
      | none => simp [Machine.exec, hStep] at hFirst
      | some result =>
          obtain ⟨next, output⟩ := result
          simp only [Machine.exec, hStep, Option.map_eq_some_iff] at hFirst
          obtain ⟨⟨final, trace⟩, hExec, hEq⟩ := hFirst
          cases hEq
          exact Machine.exec_cons hStep (ih hExec)

/-- An execution stops where an action has no step. -/
theorem Machine.exec_stops {m : Machine State Action Output} {s t : State} {past : List Action}
    {trace : List (Action × Output)} {action : Action}
    (hExec : m.exec s past = some (t, trace)) (hStop : m t action = none) :
    m.exec s (past ++ [action]) = none := by
  induction past generalizing s trace with
  | nil =>
      cases hExec
      simp [Machine.exec, hStop]
  | cons first rest ih =>
      cases hStep : m s first with
      | none => simp [Machine.exec, hStep] at hExec
      | some result =>
          obtain ⟨next, output⟩ := result
          simp only [Machine.exec, hStep, Option.map_eq_some_iff] at hExec
          obtain ⟨⟨final, tail⟩, hRest, hEq⟩ := hExec
          cases hEq
          simp [Machine.exec, hStep, ih hRest]

/-- An execution is a run of the system's steps with the same trace. -/
theorem Machine.runs_of_exec {m : Machine State Action Output} {s t : State}
    {actions : List Action} {trace : List (Action × Output)}
    (h : m.exec s actions = some (t, trace)) : Runs m.Step s trace t := by
  induction actions generalizing s trace with
  | nil =>
      cases h
      exact Runs.zero _
  | cons action rest ih =>
      cases hStep : m s action with
      | none => simp [Machine.exec, hStep] at h
      | some result =>
          obtain ⟨next, output⟩ := result
          simp only [Machine.exec, hStep, Option.map_eq_some_iff] at h
          obtain ⟨⟨final, tail⟩, hExec, hEq⟩ := h
          cases hEq
          have hFirst : m.Step s (action, output) next := hStep
          simpa using (Runs.single hFirst).trans (ih hExec)

/-- The machine that refuses the steps an admissibility condition rules out. -/
def Machine.guard (m : Machine State Action Output)
    (allowed : State → Action × Output → Prop) [∀ s label, Decidable (allowed s label)] :
    Machine State Action Output :=
  fun s action => (m s action).filter fun result => allowed s (action, result.2)

theorem Machine.guard_step {m : Machine State Action Output}
    {allowed : State → Action × Output → Prop} [∀ s label, Decidable (allowed s label)]
    {s t : State} {label : Action × Output} :
    (m.guard allowed).Step s label t ↔ Guarded m.Step allowed s label t := by
  simp [Machine.Step, Machine.guard, Guarded]

/-- An execution all of whose steps are admissible is a guarded run. -/
theorem Machine.runs_of_guard_exec {m : Machine State Action Output}
    {allowed : State → Action × Output → Prop} [∀ s label, Decidable (allowed s label)]
    {s t : State} {actions : List Action} {trace : List (Action × Output)}
    (h : (m.guard allowed).exec s actions = some (t, trace)) :
    Runs (Guarded m.Step allowed) s trace t :=
  (Machine.runs_of_exec h).mono fun _ _ _ hStep => Machine.guard_step.mp hStep

end Transition
