import RkFlashd.Storage.FileSystem

/-! The calls on the files as data: what each is given, how the outside world makes it fare, and
what a list of them does one after the other. -/
namespace Storage

/-- A call of a program on its files. -/
inductive FileCall (Path : Type) where
  -- for writing from the beginning, and for reading
  | fopen (path : Path) (succeeds : Bool)
  | fopen_read (path : Path)
  | access (path : Path)
  | fwrite (handle : Nat) (data : Content) (fault : Option Nat)
  | fclose (handle lost : Nat)
  | rename (path target : Path) (succeeds : Bool)
  | unlink (path : Path) (succeeds : Bool)
  deriving DecidableEq, Repr

/-- The pathnames that a call is given. -/
def FileCall.paths {Path : Type} : FileCall Path → List Path
  | .fopen path _ | .fopen_read path | .access path | .unlink path _ => [path]
  | .rename path target _ => [path, target]
  | .fwrite _ _ _ | .fclose _ _ => []

/-- Every pathname that is given to one of the calls is one of these. -/
def Within {Path : Type} (allowed : Path → Prop) (calls : List (FileCall Path)) : Prop :=
  ∀ made ∈ calls, ∀ path ∈ made.paths, allowed path

section Within

variable {Path : Type} {allowed : Path → Prop} {made : FileCall Path}
  {first rest : List (FileCall Path)}

@[simp] theorem within_nil : Within allowed ([] : List (FileCall Path)) := by
  simp [Within]

@[simp] theorem within_cons :
    Within allowed (made :: rest) ↔ (∀ path ∈ made.paths, allowed path) ∧ Within allowed rest := by
  simp [Within]

/-- Calls one after the other. -/
@[simp] theorem within_append :
    Within allowed (first ++ rest) ↔ Within allowed first ∧ Within allowed rest := by
  simp [Within, or_imp, forall_and]

theorem Within.mono {wider : Path → Prop} (h : Within allowed rest)
    (hWider : ∀ path, allowed path → wider path) : Within wider rest :=
  fun made hMade path hPath => hWider path (h made hMade path hPath)

end Within

namespace FileSystem

variable {Path : Type} [DecidableEq Path]

/-- What a call leaves. -/
def call (fs : FileSystem Path) : FileCall Path → FileSystem Path
  | .fopen path succeeds => (fs.fopen path succeeds).2
  | .fopen_read _ | .access _ => fs
  | .fwrite handle data fault => (fs.fwrite handle data fault).2
  | .fclose handle lost => (fs.fclose handle lost).2
  | .rename path target succeeds => (fs.rename path target succeeds).2
  | .unlink path succeeds => (fs.unlink path succeeds).2

/-- What the calls leave that were made one after the other. -/
def replay (fs : FileSystem Path) (calls : List (FileCall Path)) : FileSystem Path :=
  calls.foldl call fs

variable {fs : FileSystem Path}

@[simp] theorem replay_nil : fs.replay [] = fs := rfl

@[simp] theorem replay_cons (made : FileCall Path) (rest : List (FileCall Path)) :
    fs.replay (made :: rest) = (fs.call made).replay rest := rfl

/-- Calls one after the other, and what they do. -/
@[simp] theorem replay_append (first rest : List (FileCall Path)) :
    fs.replay (first ++ rest) = (fs.replay first).replay rest :=
  List.foldl_append

end FileSystem
end Storage
