import RkFlashd.Machine.Execution

/-! Clients that take turns on a shared state, each with a state of its own. When a client
touches the shared state in at most one of its turns, what the clients do together is what they
do one after the other, in the order of these turns. -/
namespace Transition

variable {Client Shared Local : Type*}

/-- What one client does in a turn. It has none when it is finished. -/
abbrev Turn (Client Shared Local : Type*) := Client → Shared × Local → Option (Shared × Local)

/-- The clients together: each turn is one client's. -/
def turn_machine [DecidableEq Client] (turn : Turn Client Shared Local) :
    Machine (Shared × (Client → Local)) Client Unit :=
  fun s i => (turn i (s.1, s.2 i)).map fun next => ((next.1, Function.update s.2 i next.2), ())

/-- One client alone. -/
def Alone (turn : Turn Client Shared Local) (i : Client) : Shared × Local → Shared × Local → Prop :=
  Relation.ReflTransGen fun s t => turn i s = some t

/-- A turn that neither looks at the shared state nor changes it. -/
def Unseen (turn : Turn Client Shared Local) (i : Client) (l l' : Local) : Prop :=
  ∀ shared, turn i (shared, l) = some (shared, l')

/-- The clients of a list one after the other, each from its own first state to its last. -/
inductive OneByOne (turn : Turn Client Shared Local) (first last : Client → Local) :
    Shared → List Client → Shared → Prop where
  | nil (s : Shared) : OneByOne turn first last s [] s
  | concat {s t u : Shared} {order : List Client} {i : Client}
      (prior : OneByOne turn first last s order t)
      (alone : Alone turn i (t, first i) (u, last i)) :
      OneByOne turn first last s (order ++ [i]) u

/-- Until it is settled a client waits, unseen, and one turn settles it. After that its turns
are unseen again. -/
structure SettlesOnce (turn : Turn Client Shared Local) (waiting settled : Client → Local → Prop) :
    Prop where
  waits : ∀ i l shared next, waiting i l → turn i (shared, l) = some next →
    Unseen turn i l next.2 ∧ waiting i next.2 ∨ settled i next.2
  stays : ∀ i l shared next, settled i l → turn i (shared, l) = some next →
    Unseen turn i l next.2 ∧ settled i next.2

variable {turn : Turn Client Shared Local} {first last last' : Client → Local} {s t : Shared}
  {order : List Client} {i : Client}

/-- Unseen turns can be taken on any shared state. -/
theorem Alone.of_unseen {l l' : Local} (h : Relation.ReflTransGen (Unseen turn i) l l')
    (shared : Shared) : Alone turn i (shared, l) (shared, l') := by
  induction h with
  | refl => exact Relation.ReflTransGen.refl
  | tail prior step ih => exact Relation.ReflTransGen.tail ih (step shared)

theorem OneByOne.congr (h : OneByOne turn first last s order t)
    (hSame : ∀ j ∈ order, last' j = last j) : OneByOne turn first last' s order t := by
  induction h with
  | nil => exact OneByOne.nil _
  | @concat t u order j prior alone ih =>
      refine OneByOne.concat (ih fun k hk => hSame k (List.mem_append_left _ hk)) ?_
      rw [hSame j (List.mem_append_right _ List.mem_cons_self)]
      exact alone

variable [DecidableEq Client]

/-- An unseen turn of a client joins its others. -/
theorem OneByOne.update (h : OneByOne turn first last s order t) {l : Local}
    (hUnseen : Unseen turn i (last i) l) :
    OneByOne turn first (Function.update last i l) s order t := by
  induction h with
  | nil => exact OneByOne.nil _
  | @concat t u order j prior alone ih =>
      refine OneByOne.concat ih ?_
      by_cases hj : j = i
      · subst hj
        rw [Function.update_self]
        exact Relation.ReflTransGen.tail alone (hUnseen u)
      · rwa [Function.update_of_ne hj]

/-- Some clients have settled in this order, each in a turn of its own, and have done what they
do one by one. The others have not been seen yet. -/
structure Settled (turn : Turn Client Shared Local) (waiting settled : Client → Local → Prop)
    (start : Shared × (Client → Local)) (past : List Client) (now : Shared × (Client → Local))
    (order : List Client) : Prop where
  turns : order.Sublist past
  once : order.Nodup
  one_by_one : OneByOne turn start.2 now.2 start.1 order now.1
  done : ∀ i ∈ order, settled i (now.2 i)
  others : ∀ i ∉ order, waiting i (now.2 i) ∧
    Relation.ReflTransGen (Unseen turn i) (start.2 i) (now.2 i)

section Settling

variable {waiting settled : Client → Local → Prop} {start now : Shared × (Client → Local)}
  {past : List Client} {l : Local} {shared : Shared}

/-- An unseen turn leaves the order and the shared state as they are. -/
theorem Settled.unseen (h : Settled turn waiting settled start past now order)
    (hTurn : turn i (now.1, now.2 i) = some (shared, l)) (hUnseen : Unseen turn i (now.2 i) l)
    (hDone : i ∈ order → settled i l) (hWaits : i ∉ order → waiting i l) :
    Settled turn waiting settled start (past ++ [i]) (shared, Function.update now.2 i l) order := by
  obtain rfl : now.1 = shared :=
    congrArg Prod.fst (Option.some.inj ((hUnseen now.1).symm.trans hTurn))
  refine ⟨h.turns.trans (List.sublist_append_left _ _), h.once, h.one_by_one.update hUnseen,
    fun j hj => ?_, fun j hj => ?_⟩
  · by_cases hji : j = i
    · subst hji
      simpa using hDone hj
    · simpa [Function.update_of_ne hji] using h.done j hj
  · by_cases hji : j = i
    · subst hji
      simpa using ⟨hWaits hj, (h.others j hj).2.tail hUnseen⟩
    · simpa [Function.update_of_ne hji] using h.others j hj

/-- The turn in which a client is settled puts it at the end of the order. -/
theorem Settled.decides (h : Settled turn waiting settled start past now order)
    (hTurn : turn i (now.1, now.2 i) = some (shared, l)) (hNew : i ∉ order)
    (hDone : settled i l) :
    Settled turn waiting settled start (past ++ [i]) (shared, Function.update now.2 i l)
      (order ++ [i]) := by
  have hElse : ∀ j ∈ order, j ≠ i := fun j hj hEq => hNew (hEq ▸ hj)
  have hAlone : Alone turn i (now.1, start.2 i) (shared, l) :=
    Relation.ReflTransGen.tail (Alone.of_unseen (h.others i hNew).2 now.1) hTurn
  refine ⟨h.turns.append (List.Sublist.refl _), ?_, ?_, fun j hj => ?_, fun j hj => ?_⟩
  · rw [List.nodup_append]
    refine ⟨h.once, List.nodup_singleton i, fun j hj k hk => ?_⟩
    rw [List.mem_singleton.mp hk]
    exact hElse j hj
  · refine OneByOne.concat
      (h.one_by_one.congr fun j hj => Function.update_of_ne (hElse j hj) l now.2) ?_
    simpa using hAlone
  · rcases List.mem_append.mp hj with hEarlier | hLast
    · simpa [Function.update_of_ne (hElse j hEarlier)] using h.done j hEarlier
    · obtain rfl := List.mem_singleton.mp hLast
      simpa using hDone
  · rw [List.mem_append, List.mem_singleton, not_or] at hj
    simpa [Function.update_of_ne hj.2] using h.others j hj.1

/-- The clients together do what those that are settled do one by one. -/
theorem SettlesOnce.one_by_one (h : SettlesOnce turn waiting settled)
    {trace : List (Client × Unit)} (run : Runs (turn_machine turn).Step start trace now)
    (hWaiting : ∀ i, waiting i (start.2 i)) :
    ∃ order, Settled turn waiting settled start (trace.map Prod.fst) now order := by
  induction run with
  | zero =>
      exact ⟨[], List.nil_sublist _, List.nodup_nil, OneByOne.nil _, by simp,
        fun i _ => ⟨hWaiting i, Relation.ReflTransGen.refl⟩⟩
  | @succ now next trace label prior step ih =>
      obtain ⟨order, hSettled⟩ := ih
      obtain ⟨⟨shared, l⟩, hTurn, hEq⟩ := Option.map_eq_some_iff.mp step
      obtain rfl : (shared, Function.update now.2 label.1 l) = next := congrArg Prod.fst hEq
      rw [List.map_append, List.map_singleton]
      by_cases hMem : label.1 ∈ order
      · obtain ⟨hUnseen, hStays⟩ := h.stays _ _ _ _ (hSettled.done _ hMem) hTurn
        exact ⟨order, hSettled.unseen hTurn hUnseen (fun _ => hStays) (absurd hMem)⟩
      · obtain ⟨hUnseen, hStill⟩ | hDecides :=
          h.waits _ _ _ _ (hSettled.others _ hMem).1 hTurn
        · exact ⟨order, hSettled.unseen hTurn hUnseen (fun hIn => absurd hIn hMem) fun _ => hStill⟩
        · exact ⟨order ++ [label.1], hSettled.decides hTurn hMem hDecides⟩

end Settling

end Transition
