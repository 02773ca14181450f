import RkFlashd.Machine.Execution

/-! Two runs of a machine side by side, one action of each at a time, and the rule by which
a relation between their states is carried along them. -/
namespace Transition

variable {State Label Action Output : Type*}

/-- The labels of an execution name the actions performed. -/
theorem Machine.exec_actions {m : Machine State Action Output} {s t : State}
    {actions : List Action} {trace : List (Action × Output)}
    (h : m.exec s actions = some (t, trace)) : trace.map Prod.fst = actions := by
  induction actions generalizing s trace with
  | nil =>
      cases h
      rfl
  | cons action rest ih =>
      cases hStep : m s action with
      | none => simp [Machine.exec, hStep] at h
      | some result =>
          simp only [Machine.exec, hStep, Option.map_eq_some_iff] at h
          obtain ⟨⟨final, tail⟩, hExec, hEq⟩ := h
          cases hEq
          rw [List.map_cons, ih hExec]

/-- An execution is known by what it emits. -/
theorem Machine.exec_of_outputs {m : Machine State Action Output} {s : State}
    {actions : List Action} {outputs : List Output}
    (h : (m.exec s actions).map (fun result => result.2.map Prod.snd) = some outputs) :
    ∃ t, m.exec s actions = some (t, actions.zip outputs) := by
  obtain ⟨⟨t, trace⟩, hExec, hOutputs⟩ := Option.map_eq_some_iff.mp h
  have hActions : trace.map Prod.fst = actions := Machine.exec_actions hExec
  refine ⟨t, ?_⟩
  rw [hExec, List.zip_of_prod hActions hOutputs]

/-- Two copies of a machine that move together. -/
def Machine.twin (m : Machine State Action Output) :
    Machine (State × State) (Action × Action) (Output × Output) :=
  fun s action =>
    match m s.1 action.1, m s.2 action.2 with
    | some (left, output), some (right, output') => some ((left, right), (output, output'))
    | _, _ => none

/-- The labels of either run. -/
def first_label (label : (Action × Action) × (Output × Output)) : Action × Output :=
  (label.1.1, label.2.1)

def second_label (label : (Action × Action) × (Output × Output)) : Action × Output :=
  (label.1.2, label.2.2)

/-- A step of the twin is a step of each machine. -/
theorem Machine.twin_step {m : Machine State Action Output} {s t : State × State}
    {label : (Action × Action) × (Output × Output)} :
    m.twin.Step s label t ↔
      m.Step s.1 (first_label label) t.1 ∧ m.Step s.2 (second_label label) t.2 := by
  obtain ⟨⟨action, action'⟩, output, output'⟩ := label
  simp only [Machine.Step, Machine.twin, first_label, second_label]
  cases hLeft : m s.1 action with
  | none => simp
  | some result =>
      cases hRight : m s.2 action' with
      | none => simp
      | some result' => simp [Prod.ext_iff]; tauto

theorem Runs.eq_of_nil {Next : State → Label → State → Prop} {s t : State}
    (run : Runs Next s [] t) : s = t := by
  generalize hTrace : ([] : List Label) = trace at run
  cases run with
  | zero => rfl
  | succ prior last => simp at hTrace

/-- The last label of a run is a step into its last state. -/
theorem Runs.split_last {Next : State → Label → State → Prop} {s u : State} {trace : List Label}
    {label : Label} (run : Runs Next s (trace ++ [label]) u) :
    ∃ t, Runs Next s trace t ∧ Next t label u := by
  obtain ⟨t, t', hPrior, hLast, hNil⟩ := run.split_cons
  obtain rfl := hNil.eq_of_nil
  exact ⟨t, hPrior, hLast⟩

/-- A twin run is a pair of runs with as many actions. -/
theorem Machine.runs_twin_iff {m : Machine State Action Output} {s t : State × State}
    {trace : List ((Action × Action) × (Output × Output))} :
    Runs m.twin.Step s trace t ↔
      Runs m.Step s.1 (trace.map first_label) t.1 ∧
        Runs m.Step s.2 (trace.map second_label) t.2 := by
  constructor
  · intro run
    induction run with
    | zero => exact ⟨Runs.zero _, Runs.zero _⟩
    | succ prior last ih =>
        obtain ⟨hFirst, hSecond⟩ := Machine.twin_step.mp last
        rw [List.map_append, List.map_append]
        exact ⟨Runs.succ ih.1 hFirst, Runs.succ ih.2 hSecond⟩
  · rintro ⟨run, run'⟩
    induction trace using List.reverseRecOn generalizing t with
    | nil =>
        obtain rfl : s = t := Prod.ext run.eq_of_nil run'.eq_of_nil
        exact Runs.zero s
    | append_singleton past label ih =>
        rw [List.map_append] at run run'
        obtain ⟨u, hPrior, hLast⟩ := run.split_last
        obtain ⟨u', hPrior', hLast'⟩ := run'.split_last
        exact Runs.succ (@ih (u, u') hPrior hPrior') (Machine.twin_step.mpr ⟨hLast, hLast'⟩)

/-- What holds of every label of a run is a guard of it. -/
theorem Runs.guard_labels {Next : State → Label → State → Prop} {P : Label → Prop} {s t : State}
    {trace : List Label} (run : Runs Next s trace t) (h : ∀ label ∈ trace, P label) :
    Runs (Guarded Next fun _ => P) s trace t := by
  induction run with
  | zero => exact Runs.zero _
  | succ prior last ih =>
      exact Runs.succ (ih fun label hMem => h label (by simp [hMem])) ⟨last, h _ (by simp)⟩

/-- A relation that admissible steps keep holds all along a run of them, and whatever it
makes of a step holds of every step. -/
theorem Runs.guard_of_invariant {Next : State → Label → State → Prop}
    {allowed allowed' : State → Label → Prop} {I : State → Prop} {s t : State}
    {trace : List Label}
    (hStep : ∀ u label v, I u → Next u label v → allowed u label → I v ∧ allowed' u label)
    (run : Runs (Guarded Next allowed) s trace t) (h : I s) :
    Runs (Guarded Next allowed') s trace t ∧ I t := by
  induction run with
  | zero => exact ⟨Runs.zero _, h⟩
  | succ prior last ih =>
      obtain ⟨hPrior, hI⟩ := ih
      obtain ⟨hNext, hAllowed'⟩ := hStep _ _ _ hI last.1 last.2
      exact ⟨Runs.succ hPrior ⟨last.1, hAllowed'⟩, hNext⟩

/-- A condition on the state before a step and on the label of the step, all along a run. -/
def Machine.Along (m : Machine State Action Output) (P : State → Action × Output → Prop) (s : State)
    (trace : List (Action × Output)) : Prop :=
  ∀ past label rest u, trace = past ++ label :: rest → Runs m.Step s past u → P u label

/-- The labels of a run determine where it leads. -/
theorem Machine.runs_unique {m : Machine State Action Output} {s t t' : State}
    {trace : List (Action × Output)} (run : Runs m.Step s trace t) (run' : Runs m.Step s trace t') :
    t = t' := by
  induction run generalizing t' with
  | zero => exact run'.eq_of_nil
  | succ prior last ih =>
      obtain ⟨u, hPrior, hLast⟩ := run'.split_last
      obtain rfl := ih hPrior
      have hSame := Eq.trans (Eq.symm last) hLast
      simp only [Option.some.injEq, Prod.mk.injEq] at hSame
      exact hSame.1

/-- A run performs its actions. -/
theorem Machine.exec_of_runs {m : Machine State Action Output} {s t : State}
    {trace : List (Action × Output)} (run : Runs m.Step s trace t) :
    m.exec s (trace.map Prod.fst) = some (t, trace) := by
  induction run with
  | zero => rfl
  | succ prior last ih =>
      rw [List.map_append]
      exact Machine.exec_append ih (Machine.exec_cons last rfl)

/-- The condition holds all along a run if and only if it guards each of its steps. -/
theorem Machine.along_iff {m : Machine State Action Output} {P : State → Action × Output → Prop}
    {s t : State} {trace : List (Action × Output)} (run : Runs m.Step s trace t) :
    m.Along P s trace ↔ Runs (Guarded m.Step P) s trace t := by
  constructor
  · intro h
    induction run with
    | zero => exact Runs.zero _
    | @succ t u trace label prior last ih =>
        refine Runs.succ (ih ?_) ⟨last, h trace label [] t rfl prior⟩
        intro past found rest v hTrace hPast
        exact h past found (rest ++ [label]) v (by simp [hTrace]) hPast
  · rintro hGuarded past label rest u rfl hPast
    obtain ⟨v, w, hPrior, hStep, -⟩ := hGuarded.split_cons
    obtain rfl := Machine.runs_unique hPast hPrior.unguard
    exact hStep.2

end Transition
