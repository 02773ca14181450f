import RkFlashd.Text.Bytes

/-! Pathnames, resolved by their text alone: component by component, with `.` and `..` and
without symbolic links. A place is the list of the directories that lead to it. -/
namespace Storage

open Text

def components (path : Bytes) : List Bytes := path.splitOn 47

/-- Go on from a place by one component. Nothing lies above the root. -/
def enter (place : List Bytes) (component : Bytes) : List Bytes :=
  if component = [] ∨ component = str "." then place
  else if component = str ".." then place.dropLast
  else place ++ [component]

/-- Where a path leads to from the working directory. -/
def resolve (cwd : List Bytes) (path : Bytes) : List Bytes :=
  (components path).foldl enter (if path.head? = some 47 then [] else cwd)

variable {cwd place : List Bytes} {path name : Bytes}

theorem components_slash (path name : Bytes) :
    components (path ++ 47 :: name) = components path ++ components name :=
  List.splitOn_append_cons_self path name

theorem components_single (h : (47 : UInt8) ∉ name) : components name = [name] :=
  List.splitOn_eq_singleton h

/-- A component stands somewhere in the path. -/
theorem components_infix (path : Bytes) : ∀ component ∈ components path, component <:+: path := by
  induction hLength : path.length using Nat.strongRecOn generalizing path with
  | ind n ih =>
      intro component hMem
      by_cases hSlash : (47 : UInt8) ∈ path
      · obtain ⟨first, rest, rfl, hFirst⟩ := List.eq_append_cons_of_mem hSlash
        rw [components_slash, components_single hFirst] at hMem
        rcases List.mem_append.mp hMem with hHere | hLater
        · obtain rfl := List.mem_singleton.mp hHere
          exact (List.prefix_append component _).isInfix
        · rw [List.length_append, List.length_cons] at hLength
          have hRest := ih rest.length (by omega) rest rfl component hLater
          exact hRest.trans ((List.suffix_cons 47 rest).trans (List.suffix_append first _)).isInfix
      · rw [components_single hSlash] at hMem
        obtain rfl := List.mem_singleton.mp hMem
        exact List.infix_rfl

/-- The name goes on from where the directory, with its slash, leads to. -/
theorem resolve_slash (cwd : List Bytes) (path name : Bytes) :
    resolve cwd (path ++ 47 :: name) =
      (components name).foldl enter (resolve cwd (path ++ str "/")) := by
  have hSlash : str "/" = [47] := by decide
  have hHead : (path ++ 47 :: name).head? = (path ++ [47]).head? := by
    cases path <;> rfl
  have hEmpty : components [] = [[]] := rfl
  unfold resolve
  rw [hSlash, hHead, components_slash, components_slash, List.foldl_append, List.foldl_append,
    hEmpty]
  rfl

/-- Whoever never goes up stays below. -/
theorem prefix_foldl_enter {names : List Bytes} (h : str ".." ∉ names) :
    place <+: names.foldl enter place := by
  induction names generalizing place with
  | nil => exact List.prefix_rfl
  | cons name rest ih =>
      obtain ⟨hName, hRest⟩ := List.ne_and_not_mem_of_not_mem_cons h
      have hStep : place <+: enter place name := by
        unfold enter
        split
        · exact List.prefix_rfl
        · rw [if_neg hName.symm]
          exact List.prefix_append place [name]
      exact hStep.trans (ih hRest)

/-- One component leads to the place itself or to a child of it. -/
theorem enter_child (h : name ≠ str "..") :
    enter place name = place ∨ ∃ child, enter place name = place ++ [child] := by
  by_cases hHere : name = [] ∨ name = str "."
  · exact Or.inl (if_pos hHere)
  · refine Or.inr ⟨name, ?_⟩
    rw [enter, if_neg hHere, if_neg h]

end Storage
