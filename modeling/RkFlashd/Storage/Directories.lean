import RkFlashd.Storage.Path

/-! A tree of directories and regular files, without links, as `stat` and `mkdir` see it. -/
namespace Storage

open Text

inductive Kind where
  | dir
  | file
  deriving DecidableEq, Repr

/-- What there is at a place. Everything lies in a directory. -/
structure Tree where
  entry : List Bytes → Option Kind
  root : entry [] = some .dir
  parent : ∀ place name, entry (place ++ [name]) ≠ none → entry place = some .dir

/-- Where the walk along a path begins. -/
def origin (cwd : List Bytes) (path : Bytes) : List Bytes :=
  if path.head? = some 47 then [] else cwd

/-- A path without the slashes at its end. -/
def chop_slashes (path : Bytes) : Bytes := path.rdropWhile (· == 47)

/-- The components that name no entry of a directory. -/
def Fixed (name : Bytes) : Prop := name = [] ∨ name = str "." ∨ name = str ".."

instance : DecidablePred Fixed := fun _ => inferInstanceAs (Decidable (_ ∨ _))

/-- Of the errors of `mkdir`, only one is told apart. -/
inductive Errno where
  | EEXIST
  | other
  deriving DecidableEq, Repr

/-- Without `..` a walk only goes down, by the same names from anywhere. -/
theorem foldl_enter_down {names : List Bytes} (h : str ".." ∉ names) (place : List Bytes) :
    names.foldl enter place = place ++ names.foldl enter [] := by
  induction names using List.reverseRecOn with
  | nil => simp
  | append_singleton names name ih =>
      rw [List.mem_append, not_or, List.mem_singleton] at h
      simp only [List.foldl_append, List.foldl_cons, List.foldl_nil, ih h.1]
      unfold enter
      by_cases hHere : name = [] ∨ name = str "."
      · rw [if_pos hHere, if_pos hHere]
      · rw [if_neg hHere, if_neg hHere, if_neg (Ne.symm h.2), if_neg (Ne.symm h.2),
          List.append_assoc]

/-- Such a path leads to the same place from two directories only if they are one. -/
theorem resolve_relative_iff {cwd other : List Bytes} {path : Bytes}
    (hRelative : path.head? ≠ some 47) (hDown : str ".." ∉ components path) :
    resolve cwd path = resolve other path ↔ cwd = other := by
  unfold resolve
  rw [if_neg hRelative, if_neg hRelative, foldl_enter_down hDown cwd, foldl_enter_down hDown other]
  exact List.append_left_inj _

namespace Tree

/-- A root and nothing else. -/
def bare : Tree where
  entry := fun place => if place = [] then some .dir else none
  root := rfl
  parent := by
    intro place name hEntry
    simp at hEntry

/-- A component is looked up in a directory. -/
def advance (t : Tree) (place : List Bytes) (component : Bytes) : Option (List Bytes) :=
  if t.entry place = some .dir then some (enter place component) else none

def walk (t : Tree) (place : List Bytes) (names : List Bytes) : Option (List Bytes) :=
  names.foldlM t.advance place

def stat (t : Tree) (cwd : List Bytes) (path : Bytes) : Option Kind :=
  if path = [] then none else (t.walk (origin cwd path) (components path)).bind t.entry

/-- A new directory in a directory. -/
def create (t : Tree) (place : List Bytes) (name : Bytes) (h : t.entry place = some .dir) :
    Tree where
  entry := fun other => if other = place ++ [name] then some .dir else t.entry other
  root := by simp [t.root]
  parent := by
    intro other child hChild
    by_cases hNew : other = place ++ [name]
    · rw [if_pos hNew]
    · rw [if_neg hNew]
      by_cases hSame : other ++ [child] = place ++ [name]
      · obtain ⟨rfl, -⟩ := List.append_inj' hSame rfl
        exact h
      · rw [if_neg hSame] at hChild
        exact t.parent other child hChild

/-- `mkdir`, where `denied` are the places at which the system makes no directory. -/
def mkdir (t : Tree) (denied : List Bytes → Bool) (cwd : List Bytes) (path : Bytes) :
    Except Errno Tree :=
  let names := components (chop_slashes path)
  let name := names.getLastD []
  match t.walk (origin cwd path) names.dropLast with
  | none => .error .other
  | some place =>
      if path = [] then .error .other
      else if h : t.entry place = some .dir then
        if Fixed name then .error .EEXIST
        else if t.entry (place ++ [name]) ≠ none then .error .EEXIST
        else if denied (place ++ [name]) then .error .other
        else .ok (t.create place name h)
      else .error .other

/-- One tree after some directories have been made in another. -/
structure Grows (denied : List Bytes → Bool) (t t' : Tree) : Prop where
  kept : ∀ place kind, t.entry place = some kind → t'.entry place = some kind
  added : ∀ place kind, t.entry place = none → t'.entry place = some kind →
    kind = .dir ∧ denied place = false

variable {t t' t'' : Tree} {denied : List Bytes → Bool} {cwd place : List Bytes}
  {path name : Bytes} {names : List Bytes}

theorem Grows.refl (t : Tree) : Grows denied t t where
  kept := fun _ _ h => h
  added := fun _ _ hNone hSome => by
    rw [hNone] at hSome
    cases hSome

theorem Grows.trans (h : Grows denied t t') (h' : Grows denied t' t'') : Grows denied t t'' where
  kept := fun place kind hEntry => h'.kept place kind (h.kept place kind hEntry)
  added := by
    intro place kind hNone hSome
    cases hMiddle : t'.entry place with
    | none => exact h'.added place kind hMiddle hSome
    | some found =>
        have hSame := h'.kept place found hMiddle
        rw [hSome] at hSame
        cases hSame
        exact h.added place kind hNone hMiddle

/-- A new directory takes nothing away. -/
theorem create_grows (hDir : t.entry place = some .dir) (hNone : t.entry (place ++ [name]) = none)
    (hAllowed : denied (place ++ [name]) = false) : Grows denied t (t.create place name hDir) where
  kept := by
    intro other kind hEntry
    have hOther : other ≠ place ++ [name] := by
      rintro rfl
      rw [hNone] at hEntry
      cases hEntry
    simp only [create, if_neg hOther, hEntry]
  added := by
    intro other kind hMissing hSome
    by_cases hNew : other = place ++ [name]
    · simp only [create, if_pos hNew] at hSome
      cases hSome
      exact ⟨rfl, hNew ▸ hAllowed⟩
    · simp only [create, if_neg hNew, hMissing] at hSome
      cases hSome

/-- A walk does not notice what has been added. -/
theorem Grows.walk (h : Grows denied t t') {start : List Bytes}
    (hWalk : t.walk start names = some place) : t'.walk start names = some place := by
  induction names generalizing start with
  | nil => exact hWalk
  | cons name rest ih =>
      simp only [Tree.walk, List.foldlM_cons] at hWalk ⊢
      obtain ⟨next, hStep, hRest⟩ := Option.bind_eq_some_iff.mp hWalk
      have hDir : t.entry start = some .dir := by
        by_contra hNot
        simp [advance, hNot] at hStep
      have hNext : t'.advance start name = some next := by
        rw [← hStep, advance, advance, if_pos hDir, if_pos (h.kept start .dir hDir)]
      rw [hNext]
      exact ih hRest

/-- A walk goes on from where its first part ends. -/
theorem walk_append (start : List Bytes) (first second : List Bytes) :
    t.walk start (first ++ second) = (t.walk start first).bind fun place => t.walk place second :=
  List.foldlM_append

theorem walk_single (start : List Bytes) (name : Bytes) :
    t.walk start [name] = t.advance start name := by
  simp [walk]

/-- Above a directory there are directories only. -/
theorem entry_dropLast (h : t.entry place = some .dir) : t.entry place.dropLast = some .dir := by
  rcases List.eq_nil_or_concat place with rfl | ⟨above, name, rfl⟩
  · exact h
  · rw [List.concat_eq_append, List.dropLast_concat]
    rw [List.concat_eq_append] at h
    exact t.parent above name (by rw [h]; simp)

theorem entry_enter_fixed (hDir : t.entry place = some .dir) (hFixed : Fixed name) :
    t.entry (enter place name) = some .dir := by
  rcases hFixed with rfl | rfl | rfl
  · exact hDir
  · exact hDir
  · exact entry_dropLast hDir

theorem enter_of_not_fixed (h : ¬ Fixed name) : enter place name = place ++ [name] := by
  simp only [Fixed, not_or] at h
  rw [enter, if_neg (by simp [h.1, h.2.1]), if_neg h.2.2]

theorem enter_nil (place : List Bytes) : enter place [] = place := by simp [enter]

theorem walk_cons (start : List Bytes) (name : Bytes) (rest : List Bytes) :
    t.walk start (name :: rest) = (t.advance start name).bind fun place => t.walk place rest := by
  rw [← List.singleton_append, walk_append, walk_single]

/-- What stands on the way is looked through only if it is a directory. -/
theorem walk_blocked (h : t.entry place ≠ some .dir) (hNames : names ≠ []) :
    t.walk place names = none := by
  obtain ⟨name, rest, rfl⟩ := List.exists_cons_of_ne_nil hNames
  rw [walk_cons, advance, if_neg h, Option.bind_none]

end Tree

theorem components_ne_nil (path : Bytes) : components path ≠ [] := List.splitOn_ne_nil 47 path

theorem origin_append {path : Bytes} (h : path ≠ []) (cwd : List Bytes) (more : Bytes) :
    origin cwd (path ++ more) = origin cwd path := by
  obtain ⟨c, rest, rfl⟩ := List.exists_cons_of_ne_nil h
  rfl

theorem origin_of_no_slash {path : Bytes} (h : (47 : UInt8) ∉ path) (cwd : List Bytes) :
    origin cwd path = cwd := by
  refine if_neg fun hHead => h ?_
  exact List.mem_of_head? hHead

theorem chop_slashes_append (path : Bytes) {more : Bytes} (h : ∀ c ∈ more, c = 47) :
    chop_slashes (path ++ more) = chop_slashes path := by
  induction more using List.reverseRecOn with
  | nil => rw [List.append_nil]
  | append_singleton more c ih =>
      have hLast : c = 47 := h c (by simp)
      rw [← List.append_assoc, chop_slashes, List.rdropWhile_concat_pos _ _ _ (by simp [hLast])]
      exact ih fun d hd => h d (by simp [hd])

theorem chop_slashes_eq_self {path : Bytes} (h : path.getLast? ≠ some 47) :
    chop_slashes path = path := by
  rcases List.eq_nil_or_concat path with rfl | ⟨front, c, rfl⟩
  · rfl
  · rw [List.concat_eq_append] at h ⊢
    exact List.rdropWhile_concat_neg _ _ _ (by simpa using h)

/-- Only the slashes behind the last name are cut off. -/
theorem chop_slashes_name {path more : Bytes} (h : ∃ c ∈ more, c ≠ 47) :
    chop_slashes (path ++ more) = path ++ chop_slashes more := by
  induction more using List.reverseRecOn with
  | nil => simp at h
  | append_singleton more c ih =>
      by_cases hSlash : c = 47
      · have hFront : ∃ d ∈ more, d ≠ 47 := by
          obtain ⟨d, hd, hNe⟩ := h
          rcases List.mem_append.mp hd with hd | hd
          · exact ⟨d, hd, hNe⟩
          · exact absurd ((List.mem_singleton.mp hd).trans hSlash) hNe
        rw [← List.append_assoc, chop_slashes_append _ (by simpa using hSlash), ih hFront,
          chop_slashes_append more (by simpa using hSlash)]
      · rw [chop_slashes_eq_self (by simpa using hSlash),
          chop_slashes_eq_self (by simpa using hSlash)]

/-- A name that ends a path. -/
theorem getLast?_append_name {tmp name : Bytes} (hName : name ≠ []) (h : (47 : UInt8) ∉ name) :
    (tmp ++ name).getLast? ≠ some 47 := by
  rw [List.getLast?_append_of_ne_nil _ hName]
  exact fun hLast => h (List.mem_of_getLast? hLast)

namespace Tree

variable {t : Tree} {denied : List Bytes → Bool} {cwd place start : List Bytes}
  {tmp path name : Bytes}

/-- A directory is reached without the slashes behind it as well. -/
theorem walk_chop_slashes (h : t.walk start (components path) = some place) :
    t.walk start (components (chop_slashes path)) = some place := by
  induction path using List.reverseRecOn generalizing place with
  | nil => exact h
  | append_singleton path c ih =>
      by_cases hSlash : c = 47
      · subst hSlash
        rw [components_slash, walk_append] at h
        obtain ⟨middle, hMiddle, hLast⟩ := Option.bind_eq_some_iff.mp h
        have hEmpty : components [] = [[]] := rfl
        rw [hEmpty, walk_single, advance, enter_nil] at hLast
        have hSame : middle = place := by
          by_cases hDir : t.entry middle = some .dir
          · simpa [hDir] using hLast
          · simp [hDir] at hLast
        rw [chop_slashes_append path (by simp)]
        exact ih (hSame ▸ hMiddle)
      · rwa [chop_slashes_eq_self (by simpa using hSlash)]

/-- A path that leads into a directory: nothing yet, or up to a slash. -/
structure Stands (t : Tree) (cwd : List Bytes) (tmp : Bytes) (place : List Bytes) : Prop where
  dir : t.entry place = some .dir
  reached : tmp = [] ∧ place = cwd ∨
    ∃ path, tmp = path ++ [47] ∧ t.walk (origin cwd tmp) (components path) = some place

theorem Stands.root (t : Tree) (cwd : List Bytes) : Stands t cwd [47] [] where
  dir := t.root
  reached := by
    refine Or.inr ⟨[], rfl, ?_⟩
    have hEmpty : components [] = [[]] := rfl
    rw [hEmpty, walk_single, advance]
    exact if_pos t.root

theorem stat_root (t : Tree) (cwd : List Bytes) : t.stat cwd [47] = some .dir := by
  have hOrigin : origin cwd [47] = [] := rfl
  have hNames : components [47] = [[], []] := rfl
  have hStep : t.advance [] [] = some [] := if_pos t.root
  rw [Tree.stat, if_neg (by simp), hOrigin, hNames, walk_cons, hStep, Option.bind_some,
    walk_single, hStep, Option.bind_some, t.root]

/-- The path goes on by one name: the walk before it, and the walk with it. -/
theorem Stands.walk_name (h : Stands t cwd tmp place) (hSlash : (47 : UInt8) ∉ name) :
    ∃ names, components (tmp ++ name) = names ++ [name] ∧
      t.walk (origin cwd (tmp ++ name)) names = some place := by
  rcases h.reached with ⟨rfl, rfl⟩ | ⟨path, rfl, hWalk⟩
  · refine ⟨[], components_single hSlash, ?_⟩
    rw [List.nil_append, origin_of_no_slash hSlash]
    rfl
  · have hPath : path ++ [47] ++ name = path ++ 47 :: name := by simp
    refine ⟨components path, ?_, ?_⟩
    · rw [hPath, components_slash, components_single hSlash]
    · rw [origin_append (by simp)]
      exact hWalk

theorem Stands.walk (h : Stands t cwd tmp place) (hSlash : (47 : UInt8) ∉ name) :
    t.walk (origin cwd (tmp ++ name)) (components (tmp ++ name)) = some (enter place name) := by
  obtain ⟨names, hNames, hWalk⟩ := h.walk_name hSlash
  rw [hNames, walk_append, hWalk, Option.bind_some, walk_single, advance, if_pos h.dir]

theorem Stands.stat (h : Stands t cwd tmp place) (hSlash : (47 : UInt8) ∉ name)
    (hName : name ≠ []) : t.stat cwd (tmp ++ name) = t.entry (enter place name) := by
  rw [Tree.stat, if_neg (by simp [hName]), h.walk hSlash, Option.bind_some]

/-- A slash asks for a directory. -/
theorem Stands.stat_slash (h : Stands t cwd tmp place) (hSlash : (47 : UInt8) ∉ name)
    (hPath : tmp ++ name ≠ []) :
    t.stat cwd (tmp ++ name ++ [47]) =
      if t.entry (enter place name) = some .dir then some .dir else none := by
  have hEmpty : components [] = [[]] := rfl
  rw [Tree.stat, if_neg (by simp), origin_append hPath, components_slash, walk_append,
    h.walk hSlash, Option.bind_some, hEmpty, walk_single, advance, enter_nil]
  by_cases hDir : t.entry (enter place name) = some .dir
  · rw [if_pos hDir, if_pos hDir, Option.bind_some, hDir]
  · rw [if_neg hDir, if_neg hDir, Option.bind_none]

theorem Stands.next (h : Stands t cwd tmp place) (hSlash : (47 : UInt8) ∉ name)
    (hPath : tmp ++ name ≠ []) (hDir : t.entry (enter place name) = some .dir) :
    Stands t cwd (tmp ++ name ++ [47]) (enter place name) where
  dir := hDir
  reached := Or.inr ⟨tmp ++ name, rfl, by rw [origin_append hPath]; exact h.walk hSlash⟩

/-- What stands in a tree stands in one that has grown. -/
theorem Stands.grows {t' : Tree} (h : Stands t cwd tmp place) (hGrows : Grows denied t t') :
    Stands t' cwd tmp place where
  dir := hGrows.kept _ _ h.dir
  reached := h.reached.imp id fun ⟨path, hPath, hWalk⟩ => ⟨path, hPath, hGrows.walk hWalk⟩

section Mkdir

variable {tail : Bytes}

/-- `mkdir` at the next name, with a slash behind it or without. -/
theorem Stands.mkdir_eq (h : Stands t cwd tmp place) (hSlash : (47 : UInt8) ∉ name)
    (hName : name ≠ []) (hTail : ∀ c ∈ tail, c = 47) :
    t.mkdir denied cwd (tmp ++ name ++ tail) =
      if Fixed name then .error .EEXIST
      else if t.entry (place ++ [name]) ≠ none then .error .EEXIST
      else if denied (place ++ [name]) then .error .other
      else .ok (t.create place name h.dir) := by
  obtain ⟨names, hNames, hWalk⟩ := h.walk_name hSlash
  have hPath : tmp ++ name ≠ [] := by simp [hName]
  have hChop : chop_slashes (tmp ++ name ++ tail) = tmp ++ name := by
    rw [chop_slashes_append _ hTail]
    exact chop_slashes_eq_self (getLast?_append_name hName hSlash)
  have hLast : (names ++ [name]).getLastD [] = name := by simp
  simp only [Tree.mkdir, hChop, hNames, List.dropLast_concat, origin_append hPath, hWalk, hLast]
  rw [if_neg (by simp [hName]), dif_pos h.dir]

theorem Stands.mkdir_present (h : Stands t cwd tmp place) (hSlash : (47 : UInt8) ∉ name)
    (hName : name ≠ []) (hTail : ∀ c ∈ tail, c = 47) (hEntry : t.entry (enter place name) ≠ none) :
    t.mkdir denied cwd (tmp ++ name ++ tail) = .error .EEXIST := by
  rw [h.mkdir_eq hSlash hName hTail]
  by_cases hFixed : Fixed name
  · rw [if_pos hFixed]
  · rw [enter_of_not_fixed hFixed] at hEntry
    rw [if_neg hFixed, if_pos hEntry]

theorem Stands.not_fixed (h : Stands t cwd tmp place) (hNone : t.entry (enter place name) = none) :
    ¬ Fixed name := by
  intro hFixed
  rw [entry_enter_fixed h.dir hFixed] at hNone
  cases hNone

theorem Stands.mkdir_absent (h : Stands t cwd tmp place) (hSlash : (47 : UInt8) ∉ name)
    (hName : name ≠ []) (hTail : ∀ c ∈ tail, c = 47) (hNone : t.entry (enter place name) = none) :
    t.mkdir denied cwd (tmp ++ name ++ tail) =
      if denied (enter place name) then .error .other
      else .ok (t.create place name h.dir) := by
  have hFixed := h.not_fixed hNone
  rw [enter_of_not_fixed hFixed] at hNone ⊢
  rw [h.mkdir_eq hSlash hName hTail, if_neg hFixed, if_neg (by simp [hNone])]

end Mkdir

/-- A path that leads to a regular file. -/
structure Blocks (t : Tree) (cwd : List Bytes) (path : Bytes) : Prop where
  name : path.getLast? ≠ some 47
  file : t.stat cwd path = some .file

theorem Blocks.walk (h : Blocks t cwd path) :
    path ≠ [] ∧ ∃ place, t.walk (origin cwd path) (components path) = some place ∧
      t.entry place = some .file := by
  have hFile := h.file
  unfold Tree.stat at hFile
  by_cases hEmpty : path = []
  · rw [if_pos hEmpty] at hFile
    cases hFile
  · rw [if_neg hEmpty] at hFile
    exact ⟨hEmpty, Option.bind_eq_some_iff.mp hFile⟩

theorem Stands.blocks (h : Stands t cwd tmp place) (hSlash : (47 : UInt8) ∉ name)
    (hName : name ≠ []) (hFile : t.entry (enter place name) = some .file) :
    Blocks t cwd (tmp ++ name) where
  name := getLast?_append_name hName hSlash
  file := (h.stat hSlash hName).trans hFile

/-- A file in the way stays in the way. -/
theorem Blocks.grows {t' : Tree} (h : Blocks t cwd path) (hGrows : Grows denied t t') :
    Blocks t' cwd path where
  name := h.name
  file := by
    obtain ⟨hPath, place, hWalk, hFile⟩ := h.walk
    rw [Tree.stat, if_neg hPath, hGrows.walk hWalk, Option.bind_some]
    exact hGrows.kept place .file hFile

/-- Nothing is found behind a regular file. -/
theorem Blocks.stat (h : Blocks t cwd path) (more : Bytes) :
    t.stat cwd (path ++ 47 :: more) = none := by
  obtain ⟨hPath, place, hWalk, hFile⟩ := h.walk
  rw [Tree.stat, if_neg (by simp), origin_append hPath, components_slash, walk_append, hWalk,
    Option.bind_some, walk_blocked (by simp [hFile]) (components_ne_nil more), Option.bind_none]

/-- The file is there, with slashes behind it. -/
theorem Blocks.mkdir_slashes (h : Blocks t cwd path) {more : Bytes} (hMore : ∀ c ∈ more, c = 47) :
    t.mkdir denied cwd (path ++ 47 :: more) = .error .EEXIST := by
  obtain ⟨hPath, place, hWalk, hFile⟩ := h.walk
  have hChop : chop_slashes (path ++ 47 :: more) = path := by
    rw [chop_slashes_append path (by simpa using hMore)]
    exact chop_slashes_eq_self h.name
  have hSplit := List.dropLast_append_getLast (components_ne_nil path)
  rw [← hSplit, walk_append] at hWalk
  obtain ⟨above, hAbove, hLast⟩ := Option.bind_eq_some_iff.mp hWalk
  rw [walk_single, advance] at hLast
  have hDir : t.entry above = some .dir := by
    by_contra hNot
    simp [hNot] at hLast
  have hPlace : enter above ((components path).getLast (components_ne_nil path)) = place := by
    simpa [hDir] using hLast
  have hFixed : ¬ Fixed ((components path).getLast (components_ne_nil path)) := by
    intro hFixed
    rw [← hPlace, entry_enter_fixed hDir hFixed] at hFile
    cases hFile
  rw [enter_of_not_fixed hFixed] at hPlace
  simp only [Tree.mkdir, hChop, origin_append hPath, hAbove,
    List.getLastD_eq_getLast?, List.getLast?_eq_some_getLast (components_ne_nil path),
    Option.getD_some]
  rw [if_neg (by simp), dif_pos hDir, if_neg hFixed, hPlace, if_pos (by simp [hFile])]

/-- Nothing can be made behind it. -/
theorem Blocks.mkdir (h : Blocks t cwd path) {more : Bytes} (hMore : ∃ c ∈ more, c ≠ 47) :
    t.mkdir denied cwd (path ++ 47 :: more) = .error .other := by
  obtain ⟨hPath, place, hWalk, hFile⟩ := h.walk
  have hChop : chop_slashes (path ++ 47 :: more) = path ++ 47 :: chop_slashes more := by
    have hSplit : path ++ 47 :: more = path ++ [47] ++ more := by simp
    rw [hSplit, chop_slashes_name hMore, List.append_assoc, List.singleton_append]
  have hWay :
      t.walk (origin cwd path) (components path ++ (components (chop_slashes more)).dropLast) =
        t.walk place (components (chop_slashes more)).dropLast := by
    rw [walk_append, hWalk, Option.bind_some]
  simp only [Tree.mkdir, hChop, origin_append hPath, components_slash,
    List.dropLast_append_of_ne_nil (components_ne_nil (chop_slashes more)), hWay]
  by_cases hLast : (components (chop_slashes more)).dropLast = []
  · have hStay : t.walk place [] = some place := rfl
    simp only [hLast, hStay]
    rw [if_neg (by simp), dif_neg (by simp [hFile])]
  · simp only [walk_blocked (by simp [hFile] : t.entry place ≠ some .dir) hLast]

/-- The names a directory can have in a path. -/
def Proper (name : Bytes) : Prop := (47 : UInt8) ∉ name ∧ ¬ Fixed name

instance : DecidablePred Proper := fun _ => inferInstanceAs (Decidable (_ ∧ _))

/-- The text of a place, as `realpath` writes it. -/
def pwd (place : List Bytes) : Bytes :=
  if place = [] then [47] else place.flatMap fun name => 47 :: name

theorem walk_names (hDir : t.entry place = some .dir) (hProper : ∀ name ∈ place, Proper name) :
    t.walk [] (components (place.flatMap fun name => 47 :: name)) = some place := by
  induction place using List.reverseRecOn with
  | nil =>
      have hEmpty : components [] = [[]] := rfl
      rw [List.flatMap_nil, hEmpty, walk_single, advance, enter_nil]
      exact if_pos hDir
  | append_singleton above name ih =>
      obtain ⟨hSlash, hName⟩ := hProper name (by simp)
      have hAbove : t.entry above = some .dir := t.parent above name (by simp [hDir])
      rw [List.flatMap_append, List.flatMap_singleton, components_slash, walk_append,
        ih hAbove fun other hOther => hProper other (by simp [hOther]), Option.bind_some,
        components_single hSlash, walk_single, advance, if_pos hAbove, enter_of_not_fixed hName]

theorem walk_pwd (hDir : t.entry place = some .dir) (hProper : ∀ name ∈ place, Proper name) :
    t.walk [] (components (pwd place)) = some place := by
  unfold pwd
  by_cases hRoot : place = []
  · subst hRoot
    have hNames : components [47] = [[], []] := rfl
    have hStep : t.advance [] [] = some [] := if_pos hDir
    rw [if_pos rfl, hNames, walk_cons, hStep, Option.bind_some, walk_single, hStep]
  · rw [if_neg hRoot]
    exact walk_names hDir hProper

theorem pwd_head (place : List Bytes) : (pwd place).head? = some 47 := by
  cases place <;> rfl

/-- **A relative path, put behind the working directory.** It names the same from anywhere. -/
theorem stat_behind_pwd (hDir : t.entry place = some .dir) (hProper : ∀ name ∈ place, Proper name)
    (hPath : path ≠ []) (hRelative : path.head? ≠ some 47) (cwd : List Bytes) :
    t.stat cwd (pwd place ++ 47 :: path) = t.stat place path := by
  have hFull : pwd place ≠ [] := by
    intro hEmpty
    have hHead := pwd_head place
    rw [hEmpty] at hHead
    cases hHead
  have hAbsolute : origin cwd (pwd place) = [] := if_pos (pwd_head place)
  have hHere : origin place path = place := if_neg hRelative
  rw [Tree.stat, Tree.stat, if_neg (by simp), if_neg hPath, origin_append hFull, hAbsolute, hHere,
    components_slash, walk_append, walk_pwd hDir hProper, Option.bind_some]

end Tree

end Storage
