import RkFlashd.Machine.Execution

/-! A part of a system seen from outside: every step of the whole is no step, one step or a
run of the part, and so is every run. -/
namespace Transition

variable {State State' Label Label' : Type*}
  {Next : State → Label → State → Prop} {Next' : State' → Label' → State' → Prop}

/-- When every step is a run of the part, a run of the whole is one, made of them. -/
theorem Runs.project (part : State → State') (Seen : Label → List Label' → Prop)
    (hStep : ∀ s label t, Next s label t →
      ∃ view, Seen label view ∧ Runs Next' (part s) view (part t))
    {s t : State} {trace : List Label} (run : Runs Next s trace t) :
    ∃ views, List.Forall₂ Seen trace views ∧ Runs Next' (part s) views.flatten (part t) := by
  induction run with
  | zero => exact ⟨[], List.Forall₂.nil, Runs.zero _⟩
  | succ prior last ih =>
      obtain ⟨views, hSeen, hViews⟩ := ih
      obtain ⟨view, hLast, hView⟩ := hStep _ _ _ last
      refine ⟨views ++ [view], ?_, ?_⟩
      · exact List.rel_append hSeen (List.Forall₂.cons hLast List.Forall₂.nil)
      · rw [List.flatten_append, List.flatten_singleton]
        exact hViews.trans hView

/-- When every step is at most one step of the part, the part's trace is a selection of the
whole's. -/
theorem Runs.project_filterMap (part : State → State') (view : Label → Option Label')
    (hSeen : ∀ s label t seen, Next s label t → view label = some seen →
      Next' (part s) seen (part t))
    (hHidden : ∀ s label t, Next s label t → view label = none → part t = part s)
    {s t : State} {trace : List Label} (run : Runs Next s trace t) :
    Runs Next' (part s) (trace.filterMap view) (part t) := by
  induction run with
  | zero => exact Runs.zero _
  | @succ t u trace label prior last ih =>
      rw [List.filterMap_append, List.filterMap_cons, List.filterMap_nil]
      cases hView : view label with
      | none =>
          rw [List.append_nil, hHidden _ _ _ last hView]
          exact ih
      | some seen => exact Runs.succ ih (hSeen _ _ _ _ last hView)

end Transition
