import RkFlashd.Storage.Directories
import RkFlashd.Daemon.Options

/-! `main` before the threads: the directories it makes, and the paths it hands on to a process
that will have another working directory. -/
namespace RkFlashd

open Text Storage

/-- The body of the `if` in the loop of `mkdir_p`. -/
def make_sure (denied : List Bytes → Bool) (cwd : List Bytes) (tmp : Bytes) (t : Tree) :
    Option Tree :=
  if t.stat cwd tmp = none then
    match t.mkdir denied cwd tmp with
    | .ok t => some t
    | .error .EEXIST => some t
    | .error .other => none
  else some t

/-- The loop of `mkdir_p` over the rest of the path. -/
def make_rest (denied : List Bytes → Bool) (cwd : List Bytes) :
    Bytes → Bytes → Tree → Bool × Tree
  | _, [], t => (true, t)
  | tmp, c :: rest, t =>
      let tmp := tmp ++ [c]
      if c = 47 ∨ rest = [] then
        match make_sure denied cwd tmp t with
        | some t => make_rest denied cwd tmp rest t
        | none => (false, t)
      else make_rest denied cwd tmp rest t

/-- `mkdir_p`, with the directories as they are after it. -/
def mkdir_p (denied : List Bytes → Bool) (cwd : List Bytes) (path : Bytes) (t : Tree) :
    Bool × Tree :=
  make_rest denied cwd [] path t

section MakeDirectories

variable {denied : List Bytes → Bool} {cwd place : List Bytes} {tmp path name rest : Bytes}
  {t t' : Tree}

/-- Up to the next slash. -/
theorem make_rest_slash (hSlash : (47 : UInt8) ∉ name) (tmp rest : Bytes) (t : Tree) :
    make_rest denied cwd tmp (name ++ 47 :: rest) t =
      match make_sure denied cwd (tmp ++ name ++ [47]) t with
      | some t => make_rest denied cwd (tmp ++ name ++ [47]) rest t
      | none => (false, t) := by
  induction name generalizing tmp with
  | nil =>
      rw [List.nil_append, List.append_nil, make_rest, if_pos (Or.inl rfl)]
  | cons c name ih =>
      obtain ⟨hFirst, hName⟩ := List.ne_and_not_mem_of_not_mem_cons hSlash
      rw [List.cons_append, make_rest, if_neg (by simp [hFirst.symm]), ih hName]
      simp

/-- Up to the end. -/
theorem make_rest_name (hSlash : (47 : UInt8) ∉ name) (hName : name ≠ []) (tmp : Bytes) (t : Tree) :
    make_rest denied cwd tmp name t =
      match make_sure denied cwd (tmp ++ name) t with
      | some t => (true, t)
      | none => (false, t) := by
  induction name generalizing tmp with
  | nil => exact absurd rfl hName
  | cons c name ih =>
      obtain ⟨hFirst, hRest⟩ := List.ne_and_not_mem_of_not_mem_cons hSlash
      by_cases hLast : name = []
      · subst hLast
        rw [make_rest, if_pos (Or.inr rfl)]
        rfl
      · rw [make_rest, if_neg (by simp [hFirst.symm, hLast]), ih hRest hLast]
        simp

/-- Behind a regular file the rest of the path may only be slashes. -/
theorem make_rest_blocked (denied : List Bytes → Bool) (h : t.Blocks cwd path) {more : Bytes}
    (hRest : rest ≠ [] ∨ ∀ c ∈ more, c = 47) :
    make_rest denied cwd (path ++ 47 :: more) rest t =
      ((more ++ rest).all (· == 47), t) := by
  induction rest generalizing more with
  | nil =>
      have hSlashes := hRest.resolve_left (by simp)
      simpa [make_rest] using hSlashes
  | cons c rest ih =>
      have hTmp : path ++ 47 :: more ++ [c] = path ++ 47 :: (more ++ [c]) := by simp
      have hAll : more ++ c :: rest = more ++ [c] ++ rest := by simp
      rw [make_rest, hTmp, hAll]
      by_cases hTry : c = 47 ∨ rest = []
      · simp only [if_pos hTry, make_sure, h.stat, if_true]
        by_cases hSlashes : ∀ d ∈ more ++ [c], d = 47
        · rw [h.mkdir_slashes hSlashes]
          exact ih (Or.inr hSlashes)
        · have hName : ∃ d ∈ more ++ [c], d ≠ 47 := by simpa using hSlashes
          rw [h.mkdir hName]
          obtain ⟨d, hd, hNe⟩ := hName
          refine Prod.ext ?_ rfl
          symm
          rw [List.all_eq_false]
          exact ⟨d, List.mem_append_left rest hd, by simpa using hNe⟩
      · rw [if_neg hTry]
        exact ih (Or.inl fun hEmpty => hTry (Or.inr hEmpty))

/-- One try at the next name: it is there, or it is made, or that is denied. -/
theorem make_sure_cases (denied : List Bytes → Bool) (h : t.Stands cwd tmp place)
    (hSlash : (47 : UInt8) ∉ name) (hName : name ≠ []) {tail : Bytes}
    (hTail : tail = [] ∨ tail = [47]) :
    (t.entry (enter place name) ≠ none ∧ make_sure denied cwd (tmp ++ name ++ tail) t = some t) ∨
    (t.entry (enter place name) = none ∧ denied (enter place name) = true ∧
      make_sure denied cwd (tmp ++ name ++ tail) t = none) ∨
    t.entry (enter place name) = none ∧
      ∃ u, make_sure denied cwd (tmp ++ name ++ tail) t = some u ∧ Tree.Grows denied t u ∧
        u.entry (enter place name) = some .dir := by
  have hSlashes : ∀ c ∈ tail, c = 47 := by
    rcases hTail with rfl | rfl <;> simp
  have hStat : t.stat cwd (tmp ++ name ++ tail) ≠ none → t.entry (enter place name) ≠ none := by
    rcases hTail with rfl | rfl
    · rw [List.append_nil, h.stat hSlash hName]
      exact id
    · rw [h.stat_slash hSlash (by simp [hName])]
      intro hFound hNone
      simp [hNone] at hFound
  unfold make_sure
  by_cases hEntry : t.entry (enter place name) = none
  · right
    rw [if_pos (by by_contra hFound; exact hStat hFound hEntry),
      h.mkdir_absent hSlash hName hSlashes hEntry]
    cases hDenied : denied (enter place name) with
    | true => exact Or.inl ⟨hEntry, rfl, by simp⟩
    | false =>
        have hNew : enter place name = place ++ [name] :=
          Tree.enter_of_not_fixed (h.not_fixed hEntry)
        rw [hNew] at hEntry hDenied ⊢
        refine Or.inr ⟨hEntry, t.create place name h.dir, by simp,
          Tree.create_grows h.dir hEntry hDenied, ?_⟩
        simp [Tree.create]
  · refine Or.inl ⟨hEntry, ?_⟩
    rw [h.mkdir_present hSlash hName hSlashes hEntry]
    split <;> rfl

/-- A slash behind a directory, or before everything. -/
theorem make_sure_slash (denied : List Bytes → Bool) (h : t.Stands cwd tmp place) :
    make_sure denied cwd (tmp ++ [47]) t = some t ∧ ∃ next, t.Stands cwd (tmp ++ [47]) next := by
  have hNil : (47 : UInt8) ∉ ([] : Bytes) := by simp
  by_cases hTmp : tmp = []
  · subst hTmp
    exact ⟨by simp [make_sure, t.stat_root cwd], _, Tree.Stands.root t cwd⟩
  · have hPath : tmp ++ [] ≠ [] := by simpa using hTmp
    have hDir : t.entry (enter place []) = some .dir := by rw [Tree.enter_nil, h.dir]
    have hStat := h.stat_slash hNil hPath
    have hNext := h.next hNil hPath hDir
    rw [List.append_nil] at hStat hNext
    rw [if_pos hDir] at hStat
    exact ⟨by simp [make_sure, hStat], _, hNext⟩

/-- What `mkdir_p` has done when it gets to the end of the path. -/
structure Made (denied : List Bytes → Bool) (cwd : List Bytes) (path : Bytes) (t : Tree)
    (ok : Bool) (t' : Tree) : Prop where
  grows : Tree.Grows denied t t'
  found : ok = true → path ≠ [] → ∃ place,
    t'.walk (origin cwd path) (components (chop_slashes path)) = some place ∧
      (t'.entry place = some .dir ∨ t.entry place = some .file)
  failed : ok = false → (∃ place, t.entry place = none ∧ denied place = true) ∨
    ∃ front more, path = front ++ 47 :: more ∧ (∃ c ∈ more, c ≠ 47) ∧ t'.Blocks cwd front

/-- The end of the path. -/
theorem Made.of_stands (h : t.Stands cwd tmp place) : Made denied cwd tmp t true t where
  grows := Tree.Grows.refl t
  found := by
    rintro - hTmp
    rcases h.reached with ⟨hEmpty, -⟩ | ⟨path, rfl, hWalk⟩
    · exact absurd hEmpty hTmp
    · refine ⟨place, ?_, Or.inl h.dir⟩
      rw [chop_slashes_append path (by simp)]
      exact Tree.walk_chop_slashes hWalk
  failed := fun h => by cases h

theorem Made.of_name (h : t.Stands cwd tmp place) (hSlash : (47 : UInt8) ∉ name)
    (hName : name ≠ []) (hGrows : Tree.Grows denied t t')
    (hEntry : t'.entry (enter place name) = some .dir ∨ t.entry (enter place name) = some .file) :
    Made denied cwd (tmp ++ name) t true t' where
  grows := hGrows
  found := by
    rintro - -
    refine ⟨enter place name, ?_, hEntry⟩
    rw [chop_slashes_eq_self (getLast?_append_name hName hSlash)]
    exact (h.grows hGrows).walk hSlash
  failed := fun h => by cases h

/-- A directory that may not be made is a reason to fail. -/
theorem Made.of_denied (hNone : t.entry place = none) (hDenied : denied place = true) :
    Made denied cwd path t false t where
  grows := Tree.Grows.refl t
  found := fun h => by cases h
  failed := fun _ => Or.inl ⟨place, hNone, hDenied⟩

/-- Nothing is made behind a file, which is taken for a directory if only slashes follow. -/
theorem Made.of_blocked (h : t.Blocks cwd path) (more : Bytes) :
    Made denied cwd (path ++ 47 :: more) t (more.all (· == 47)) t where
  grows := Tree.Grows.refl t
  found := by
    rintro hAll -
    obtain ⟨hPath, place, hWalk, hFile⟩ := h.walk
    refine ⟨place, ?_, Or.inr hFile⟩
    rw [chop_slashes_append path (by simpa using hAll), chop_slashes_eq_self h.name,
      origin_append hPath]
    exact hWalk
  failed := fun hAll => by
    refine Or.inr ⟨path, more, rfl, ?_, h⟩
    rw [List.all_eq_false] at hAll
    simpa using hAll

/-- The rest of the way after a directory has been made. -/
theorem Made.after {u : Tree} {ok : Bool} (h : Made denied cwd path u ok t')
    (hGrows : Tree.Grows denied t u) : Made denied cwd path t ok t' where
  grows := hGrows.trans h.grows
  found := by
    intro hOk hPath
    obtain ⟨place, hWalk, hEntry⟩ := h.found hOk hPath
    refine ⟨place, hWalk, hEntry.imp id fun hFile => ?_⟩
    cases hOld : t.entry place with
    | none => cases (hGrows.added place .file hOld hFile).1
    | some kind => rwa [hGrows.kept place kind hOld] at hFile
  failed := by
    intro hFailed
    refine (h.failed hFailed).imp ?_ id
    rintro ⟨place, hNone, hDenied⟩
    refine ⟨place, ?_, hDenied⟩
    cases hOld : t.entry place with
    | none => rfl
    | some kind =>
        rw [hGrows.kept place kind hOld] at hNone
        cases hNone

/-- The loop from any slash on, by the names that are left. -/
theorem make_rest_made (h : t.Stands cwd tmp place) (rest : Bytes) :
    Made denied cwd (tmp ++ rest) t (make_rest denied cwd tmp rest t).1
      (make_rest denied cwd tmp rest t).2 := by
  induction hLength : rest.length using Nat.strongRecOn generalizing tmp rest place t with
  | ind n ih =>
      by_cases hMore : (47 : UInt8) ∈ rest
      · obtain ⟨name, rest, rfl, hSlash⟩ := List.eq_append_cons_of_mem hMore
        rw [List.length_append, List.length_cons] at hLength
        have hShorter : rest.length < n := by omega
        have hPath : tmp ++ (name ++ 47 :: rest) = tmp ++ name ++ [47] ++ rest := by simp
        rw [make_rest_slash hSlash, hPath]
        by_cases hName : name = []
        · subst hName
          obtain ⟨hSure, next, hNext⟩ := make_sure_slash denied h
          rw [List.append_nil, hSure]
          exact ih rest.length hShorter hNext rest rfl
        · rcases make_sure_cases denied h hSlash hName (Or.inr rfl) with
            ⟨hEntry, hSure⟩ | ⟨hNone, hDenied, hSure⟩ | ⟨-, u, hSure, hGrows, hDir⟩
          · rw [hSure]
            cases hKind : t.entry (enter place name) with
            | none => exact absurd hKind hEntry
            | some kind =>
                cases kind with
                | dir =>
                    exact ih rest.length hShorter (h.next hSlash (by simp [hName]) hKind) rest rfl
                | file =>
                    have hBlocks := h.blocks hSlash hName hKind
                    have hResult : make_rest denied cwd (tmp ++ name ++ [47]) rest t =
                        (rest.all (· == 47), t) :=
                      make_rest_blocked denied hBlocks (Or.inr (List.forall_mem_nil _))
                    simp only [hResult]
                    rw [List.append_assoc, List.singleton_append]
                    exact Made.of_blocked hBlocks rest
          · rw [hSure]
            exact Made.of_denied hNone hDenied
          · rw [hSure]
            have hNext := (h.grows hGrows).next hSlash (by simp [hName]) hDir
            exact (ih rest.length hShorter hNext rest rfl).after hGrows
      · by_cases hName : rest = []
        · subst hName
          rw [List.append_nil]
          exact Made.of_stands h
        · rw [make_rest_name hMore hName]
          rcases make_sure_cases denied h hMore hName (Or.inl rfl) with
            ⟨hEntry, hSure⟩ | ⟨hNone, hDenied, hSure⟩ | ⟨-, u, hSure, hGrows, hDir⟩
          · rw [List.append_nil] at hSure
            rw [hSure]
            refine Made.of_name h hMore hName (Tree.Grows.refl t) ?_
            cases hKind : t.entry (enter place rest) with
            | none => exact absurd hKind hEntry
            | some kind => cases kind <;> simp
          · rw [List.append_nil] at hSure
            rw [hSure]
            exact Made.of_denied hNone hDenied
          · rw [List.append_nil] at hSure
            rw [hSure]
            exact Made.of_name h hMore hName hGrows (Or.inl hDir)

theorem make_sure_there (denied : List Bytes → Bool) (h : t.Stands cwd tmp place)
    (hSlash : (47 : UInt8) ∉ name) (hName : name ≠ []) {tail : Bytes}
    (hTail : tail = [] ∨ tail = [47]) (hEntry : t.entry (enter place name) ≠ none) :
    make_sure denied cwd (tmp ++ name ++ tail) t = some t := by
  rcases make_sure_cases denied h hSlash hName hTail with
    ⟨-, hSame⟩ | ⟨hNone, -⟩ | ⟨hNone, -⟩
  · exact hSame
  · exact absurd hNone hEntry
  · exact absurd hNone hEntry

/-- Of a path that leads somewhere, a name with a slash is a directory, or the last name. -/
theorem first_name_cases {found : List Bytes} (h : t.Stands cwd tmp place)
    (hSlash : (47 : UInt8) ∉ name) (hName : name ≠ [])
    (hWalk : t.walk (origin cwd (tmp ++ name ++ 47 :: rest))
      (components (chop_slashes (tmp ++ name ++ 47 :: rest))) = some found)
    (hFound : t.entry found ≠ none) :
    t.entry (enter place name) = some .dir ∨
      t.entry (enter place name) = some .file ∧ ∀ c ∈ rest, c = 47 := by
  have hFull : tmp ++ name ≠ [] := by simp [hName]
  rw [origin_append hFull] at hWalk
  by_cases hSlashes : ∀ c ∈ rest, c = 47
  · rw [chop_slashes_append _ (by simpa using hSlashes),
      chop_slashes_eq_self (getLast?_append_name hName hSlash), h.walk hSlash] at hWalk
    cases hWalk
    cases hKind : t.entry (enter place name) with
    | none => exact absurd hKind hFound
    | some kind =>
        cases kind with
        | dir => exact Or.inl rfl
        | file => exact Or.inr ⟨rfl, hSlashes⟩
  · left
    by_contra hNot
    have hMore : ∃ c ∈ (47 : UInt8) :: rest, c ≠ 47 := by simpa using hSlashes
    have hChop : chop_slashes ([47] ++ rest) = [47] ++ chop_slashes rest :=
      chop_slashes_name (by simpa using hSlashes)
    rw [List.singleton_append, List.singleton_append] at hChop
    rw [chop_slashes_name hMore, hChop, components_slash, Tree.walk_append, h.walk hSlash,
      Option.bind_some, Tree.walk_blocked hNot (components_ne_nil _)] at hWalk
    cases hWalk

/-- Where everything is there already, nothing is made. -/
theorem make_rest_there {found : List Bytes} (h : t.Stands cwd tmp place)
    (hWalk : t.walk (origin cwd (tmp ++ rest)) (components (chop_slashes (tmp ++ rest))) =
      some found) (hFound : t.entry found ≠ none) :
    make_rest denied cwd tmp rest t = (true, t) := by
  induction hLength : rest.length using Nat.strongRecOn generalizing tmp rest place with
  | ind n ih =>
      by_cases hMore : (47 : UInt8) ∈ rest
      · obtain ⟨name, rest, rfl, hSlash⟩ := List.eq_append_cons_of_mem hMore
        rw [List.length_append, List.length_cons] at hLength
        have hShorter : rest.length < n := by omega
        have hPath : tmp ++ (name ++ 47 :: rest) = tmp ++ name ++ [47] ++ rest := by simp
        rw [make_rest_slash hSlash]
        by_cases hName : name = []
        · subst hName
          obtain ⟨hSame, next, hNext⟩ := make_sure_slash denied h
          rw [hPath, List.append_nil] at hWalk
          rw [List.append_nil, hSame]
          exact ih rest.length hShorter hNext hWalk rfl
        · have hCases := first_name_cases h hSlash hName
            (by rw [List.append_assoc]; exact hWalk) hFound
          have hEntry : t.entry (enter place name) ≠ none := by
            rcases hCases with hDir | ⟨hFile, -⟩
            · simp [hDir]
            · simp [hFile]
          rw [make_sure_there denied h hSlash hName (Or.inr rfl) hEntry]
          rcases hCases with hDir | ⟨hFile, hSlashes⟩
          · rw [hPath] at hWalk
            exact ih rest.length hShorter (h.next hSlash (by simp [hName]) hDir) hWalk rfl
          · have hResult : make_rest denied cwd (tmp ++ name ++ [47]) rest t =
                (rest.all (· == 47), t) :=
              make_rest_blocked denied (h.blocks hSlash hName hFile)
                (Or.inr (List.forall_mem_nil _))
            simp only [hResult]
            simpa using hSlashes
      · by_cases hName : rest = []
        · subst hName
          rfl
        · rw [chop_slashes_eq_self (getLast?_append_name hName hMore), h.walk hMore] at hWalk
          cases hWalk
          have hSure := make_sure_there denied h hMore hName (Or.inl rfl) hFound
          rw [List.append_nil] at hSure
          rw [make_rest_name hMore hName, hSure]

/-- **`mkdir_p`.** It only adds directories where that is not denied. After success the path
leads to a directory, or to the regular file that was there before; after a failure a
directory was denied, or a regular file is in the way. Once it has succeeded, doing it again
changes nothing. -/
theorem mkdir_p_makes (hCwd : t.entry cwd = some .dir) (path : Bytes) :
    Made denied cwd path t (mkdir_p denied cwd path t).1 (mkdir_p denied cwd path t).2 ∧
    ((mkdir_p denied cwd path t).1 = true →
      mkdir_p denied cwd path (mkdir_p denied cwd path t).2 =
        (true, (mkdir_p denied cwd path t).2)) := by
  have hStands : t.Stands cwd [] cwd := ⟨hCwd, Or.inl ⟨rfl, rfl⟩⟩
  have hMade : Made denied cwd path t (mkdir_p denied cwd path t).1 (mkdir_p denied cwd path t).2 :=
    make_rest_made hStands path
  refine ⟨hMade, fun hOk => ?_⟩
  by_cases hPath : path = []
  · subst hPath
    rfl
  · obtain ⟨place, hWalk, hEntry⟩ := hMade.found hOk hPath
    refine make_rest_there (hStands.grows hMade.grows) hWalk ?_
    rcases hEntry with hDir | hFile
    · simp [hDir]
    · simp [hMade.grows.kept place .file hFile]

def nothing_denied (_place : List Bytes) : Bool := false

/-- Two directories at once, with slashes doubled and at the end. -/
theorem mkdir_p_makes_nested :
    (mkdir_p nothing_denied [] (str "/tmp//up/") Tree.bare).1 = true ∧
      mkdir_p nothing_denied [] (str "/tmp//up/")
          (mkdir_p nothing_denied [] (str "/tmp//up/") Tree.bare).2 =
        (true, (mkdir_p nothing_denied [] (str "/tmp//up/") Tree.bare).2) := by
  have hOk : (mkdir_p nothing_denied [] (str "/tmp//up/") Tree.bare).1 = true := by rfl
  exact ⟨hOk, (mkdir_p_makes Tree.bare.root (str "/tmp//up/")).2 hOk⟩

end MakeDirectories

def default_log_file : CString := ⟨str "/var/log/rk_firmware_flashd.log", by decide⟩

/-- A relative path is put behind the working directory, if `realpath(".")` gives that. -/
def absolute (realpath : Option CString) (path : CString) : CString :=
  if path.val ≠ [] ∧ path.val.head? ≠ some 47 then
    match realpath with
    | none => path
    | some resolved =>
        ⟨resolved.val ++ str "/" ++ path.val, by
          have hSlash : (0 : UInt8) ∉ str "/" := by decide
          simp [resolved.property, path.property, hSlash]⟩
  else path

/-- What `main` has got ready before `daemonize`. -/
structure Prepared where
  cfg : Config
  warned : Bool
  tree : Tree

def prepare (denied : List Bytes → Bool) (cwd : List Bytes) (realpath : Option CString)
    (cfg : Config) (t : Tree) : Prepared :=
  let cfg := { cfg with log_file := absolute realpath cfg.log_file }
  let cfg := { cfg with upload_dir := absolute realpath cfg.upload_dir }
  let (made, t) := mkdir_p denied cwd cfg.upload_dir.val t
  let cfg :=
    if cfg.foreground = false ∧ cfg.log_file.val = [] then { cfg with log_file := default_log_file }
    else cfg
  ⟨cfg, !made, t⟩

/-- Where the daemon runs: `daemonize` changes to the root. -/
def Config.working_directory (cfg : Config) (cwd : List Bytes) : List Bytes :=
  if cfg.foreground then cwd else []

section Paths

variable {denied : List Bytes → Bool} {cwd : List Bytes} {cfg : Config} {t : Tree}

/-- The daemon runs from `cwd`, and `realpath` says so unless the path of a daemon in the
foreground does not depend on it. -/
structure StartedFrom (t : Tree) (cwd : List Bytes) (cfg : Config) (realpath : Option CString) :
    Prop where
  dir : t.entry cwd = some .dir
  proper : ∀ name ∈ cwd, Tree.Proper name
  told : (∃ resolved : CString, realpath = some resolved ∧ resolved.val = Tree.pwd cwd) ∨
    realpath = none ∧ cfg.foreground = true

theorem absolute_of_not_relative {realpath : Option CString} {path : CString}
    (h : ¬ (path.val ≠ [] ∧ path.val.head? ≠ some 47)) : absolute realpath path = path :=
  if_neg h

/-- Where `realpath` fails, the path stays as it was given. -/
theorem absolute_none (path : CString) : absolute none path = path := by
  unfold absolute
  split <;> rfl

/-- An absolute path, from anywhere. -/
theorem stat_of_slash {path : Bytes} (h : path.head? = some 47) (t : Tree)
    (cwd other : List Bytes) : t.stat other path = t.stat cwd path := by
  have hOrigin : ∀ place, origin place path = [] := fun place => if_pos h
  rw [Tree.stat, Tree.stat, hOrigin, hOrigin]

/-- What a path names, with or without a name behind it, does not change. -/
theorem stat_absolute {realpath : Option CString} (h : StartedFrom t cwd cfg realpath)
    {path : CString} (hPath : path.val ≠ []) (more : Bytes) :
    t.stat (cfg.working_directory cwd) ((absolute realpath path).val ++ more) =
      t.stat cwd (path.val ++ more) := by
  have hHead : (path.val ++ more).head? = path.val.head? := by
    rw [List.head?_append_of_ne_nil _ hPath]
  by_cases hRelative : path.val.head? = some 47
  · rw [absolute_of_not_relative (by simp [hRelative])]
    exact stat_of_slash (hHead.trans hRelative) t _ _
  · rcases h.told with ⟨resolved, rfl, hText⟩ | ⟨rfl, hForeground⟩
    · have hSlash : str "/" = [47] := by decide
      have hFull : (absolute (some resolved) path).val ++ more =
          Tree.pwd cwd ++ 47 :: (path.val ++ more) := by
        simp [absolute, hPath, hRelative, hText, hSlash]
      rw [hFull]
      exact Tree.stat_behind_pwd h.dir h.proper (by simp [hPath]) (by rwa [hHead]) _
    · rw [absolute_none, Config.working_directory, hForeground, if_pos rfl]

/-- The daemon begins a walk where `main` began it. -/
theorem origin_absolute {realpath : Option CString} (h : StartedFrom t cwd cfg realpath)
    {path : CString} (hPath : path.val ≠ []) :
    origin (cfg.working_directory cwd) (absolute realpath path).val =
      origin cwd (absolute realpath path).val := by
  by_cases hRelative : path.val.head? = some 47
  · rw [absolute_of_not_relative (by simp [hRelative]), origin, origin, if_pos hRelative,
      if_pos hRelative]
  · rcases h.told with ⟨resolved, rfl, hText⟩ | ⟨rfl, hForeground⟩
    · have hHead : (absolute (some resolved) path).val.head? = some 47 := by
        have hResolved := Tree.pwd_head cwd
        rw [← hText] at hResolved
        simp [absolute, hPath, hRelative, hResolved]
      rw [origin, origin, if_pos hHead, if_pos hHead]
    · rw [Config.working_directory, hForeground, if_pos rfl]

/-- The result of `prepare`, by its parts. -/
theorem prepare_upload_dir (denied : List Bytes → Bool) (cwd : List Bytes)
    (realpath : Option CString) (cfg : Config) (t : Tree) :
    (prepare denied cwd realpath cfg t).cfg.upload_dir = absolute realpath cfg.upload_dir ∧
    (prepare denied cwd realpath cfg t).cfg.scripts_dir = cfg.scripts_dir := by
  unfold prepare
  constructor
  · simp only
    split <;> rfl
  · simp only
    split <;> rfl

theorem prepare_log_file (denied : List Bytes → Bool) (cwd : List Bytes)
    (realpath : Option CString) (t : Tree) (h : cfg.log_file.val ≠ []) :
    (prepare denied cwd realpath cfg t).cfg.log_file = absolute realpath cfg.log_file := by
  have hFull : (absolute realpath cfg.log_file).val ≠ [] := by
    unfold absolute
    split
    · split <;> simp [h]
    · exact h
  simp only [prepare, hFull, and_false, if_false]

theorem prepare_tree (denied : List Bytes → Bool) (cwd : List Bytes)
    (realpath : Option CString) (cfg : Config) (t : Tree) :
    (prepare denied cwd realpath cfg t).warned =
      !(mkdir_p denied cwd (absolute realpath cfg.upload_dir).val t).1 ∧
    (prepare denied cwd realpath cfg t).tree =
      (mkdir_p denied cwd (absolute realpath cfg.upload_dir).val t).2 :=
  ⟨rfl, rfl⟩

/-- **What the paths of the command line name.** In the daemon, which may have left the working
directory, the files below the upload directory and the log file are the ones that `main` was
given; the upload directory is there, unless there was a warning, or a regular file in its
place; but a relative `scripts_dir` that does not go up is looked up elsewhere, unless the
daemon stays in the working directory or was started in the root. -/
theorem prepared_paths (denied : List Bytes → Bool) {realpath : Option CString}
    (h : StartedFrom t cwd cfg realpath) :
    (∀ name, (prepare denied cwd realpath cfg t).tree.stat (cfg.working_directory cwd)
        ((prepare denied cwd realpath cfg t).cfg.in_upload_dir name) =
      (prepare denied cwd realpath cfg t).tree.stat cwd (cfg.in_upload_dir name)) ∧
    (cfg.log_file.val ≠ [] →
      (prepare denied cwd realpath cfg t).tree.stat (cfg.working_directory cwd)
          (prepare denied cwd realpath cfg t).cfg.log_file.val =
        (prepare denied cwd realpath cfg t).tree.stat cwd cfg.log_file.val) ∧
    (cfg.upload_dir.val ≠ [] → (prepare denied cwd realpath cfg t).warned = false → ∃ place,
      (prepare denied cwd realpath cfg t).tree.walk
          (origin (cfg.working_directory cwd)
            (prepare denied cwd realpath cfg t).cfg.upload_dir.val)
          (components (chop_slashes (prepare denied cwd realpath cfg t).cfg.upload_dir.val)) =
        some place ∧
      ((prepare denied cwd realpath cfg t).tree.entry place = some .dir ∨
        t.entry place = some .file)) ∧
    (cfg.scripts_dir.val.head? ≠ some 47 → str ".." ∉ components cfg.scripts_dir.val →
      (resolve (cfg.working_directory cwd)
          (prepare denied cwd realpath cfg t).cfg.scripts_dir.val =
        resolve cwd cfg.scripts_dir.val ↔ cfg.foreground = true ∨ cwd = [])) := by
  obtain ⟨hDir, hScripts⟩ := prepare_upload_dir denied cwd realpath cfg t
  obtain ⟨hWarned, hTree⟩ := prepare_tree denied cwd realpath cfg t
  have hMade : Made denied cwd (absolute realpath cfg.upload_dir).val t
      (mkdir_p denied cwd (absolute realpath cfg.upload_dir).val t).1
      (mkdir_p denied cwd (absolute realpath cfg.upload_dir).val t).2 :=
    make_rest_made ⟨h.dir, Or.inl ⟨rfl, rfl⟩⟩ _
  rw [← hTree] at hMade
  have hAfter : StartedFrom (prepare denied cwd realpath cfg t).tree cwd cfg realpath :=
    ⟨hMade.grows.kept cwd .dir h.dir, h.proper, h.told⟩
  refine ⟨fun name => ?_, fun hLog => ?_, fun hUpload hQuiet => ?_, fun hRelative hDown => ?_⟩
  · rw [Config.in_upload_dir, Config.in_upload_dir, hDir, List.append_assoc, List.append_assoc]
    by_cases hUpload : cfg.upload_dir.val = []
    · rw [absolute_of_not_relative (by simp [hUpload])]
      have hSlash : str "/" = [47] := by decide
      exact stat_of_slash (by simp [hUpload, hSlash]) _ _ _
    · exact stat_absolute hAfter hUpload _
  · have hSame := stat_absolute hAfter hLog []
    rw [List.append_nil, List.append_nil] at hSame
    rw [prepare_log_file denied cwd realpath t hLog]
    exact hSame
  · have hFull : (absolute realpath cfg.upload_dir).val ≠ [] := by
      unfold absolute
      split
      · split <;> simp [hUpload]
      · exact hUpload
    obtain ⟨place, hWalk, hEntry⟩ := hMade.found (by simpa [hWarned] using hQuiet) hFull
    refine ⟨place, ?_, hEntry⟩
    rw [hDir, origin_absolute hAfter hUpload]
    exact hWalk
  · rw [hScripts, resolve_relative_iff hRelative hDown, Config.working_directory]
    cases cfg.foreground with
    | true => simp
    | false => simp [eq_comm]

/-- A directory to be started in, and a command line with relative paths. -/
def srv : Tree := Tree.bare.create [] (str "srv") Tree.bare.root

def relative_config : Config :=
  { upload_dir := ⟨str "up", by decide⟩, scripts_dir := ⟨str "scripts", by decide⟩ }

/-- Uploads are found where they were meant to be, and scripts are not. -/
theorem prepared_paths_relative :
    (prepare nothing_denied [str "srv"] (some ⟨str "/srv", by decide⟩) relative_config srv).warned =
      false ∧
    resolve [] (str "scripts") ≠ resolve [str "srv"] (str "scripts") := by
  have hStart : StartedFrom srv [str "srv"] relative_config (some ⟨str "/srv", by decide⟩) :=
    ⟨by rfl, by decide, Or.inl ⟨_, rfl, by rfl⟩⟩
  obtain ⟨-, -, -, hScripts⟩ := prepared_paths nothing_denied hStart
  refine ⟨by rfl, fun hSame => ?_⟩
  rcases (hScripts (by decide) (by decide)).mp hSame with hForeground | hRoot
  · cases hForeground
  · cases hRoot

end Paths

end RkFlashd
