import Mathlib

/-! The descriptors of a process: a table with finitely many open entries, in which a file that
is opened takes the lowest number that is free. -/
namespace Storage

structure Descriptors (File : Type*) where
  file : Nat → Option File
  bound : Nat
  none_above : ∀ n, bound ≤ n → file n = none

namespace Descriptors

variable {File : Type*}

/-- There is a number above all those in use. -/
theorem exists_free (t : Descriptors File) : ∃ n, (t.file n).isNone = true :=
  ⟨t.bound, by rw [t.none_above t.bound (Nat.le_refl _)]; rfl⟩

/-- The number that the next file gets. -/
def lowest (t : Descriptors File) : Nat := Nat.find t.exists_free

def put (t : Descriptors File) (n : Nat) (opened : File) : Descriptors File where
  file := Function.update t.file n (some opened)
  bound := max t.bound (n + 1)
  none_above := by
    intro k hk
    have hNe : k ≠ n := by omega
    rw [Function.update_of_ne hNe]
    exact t.none_above k (by omega)

def close (t : Descriptors File) (n : Nat) : Descriptors File where
  file := Function.update t.file n none
  bound := t.bound
  none_above := by
    intro k hk
    by_cases hEq : k = n
    · rw [hEq, Function.update_self]
    · rw [Function.update_of_ne hEq]
      exact t.none_above k hk

def open_file (t : Descriptors File) (opened : File) : Nat × Descriptors File :=
  (t.lowest, t.put t.lowest opened)

/-- A second number for a file. It fails for a number that is not open. -/
def dup2 (t : Descriptors File) (old new : Nat) : Descriptors File :=
  match t.file old with
  | none => t
  | some opened => t.put new opened

/-- Close a number and all below it, from above. -/
def close_down (t : Descriptors File) : Nat → Descriptors File
  | 0 => t.close 0
  | n + 1 => (t.close (n + 1)).close_down n

variable (t : Descriptors File)

@[simp] theorem file_put (n k : Nat) (opened : File) :
    (t.put n opened).file k = if k = n then some opened else t.file k := by
  simp [put, Function.update_apply]

@[simp] theorem file_close (n k : Nat) :
    (t.close n).file k = if k = n then none else t.file k := by
  simp [close, Function.update_apply]

theorem file_lowest : t.file t.lowest = none :=
  Option.isNone_iff_eq_none.mp (Nat.find_spec t.exists_free)

@[simp] theorem file_close_down (n k : Nat) :
    (t.close_down n).file k = if k ≤ n then none else t.file k := by
  induction n generalizing t with
  | zero => simp [close_down]
  | succ n ih =>
      rw [close_down, ih, file_close]
      split_ifs <;> first | rfl | omega

theorem file_dup2 {old : Nat} {opened : File} (h : t.file old = some opened) (new k : Nat) :
    (t.dup2 old new).file k = if k = new then some opened else t.file k := by
  rw [dup2, h]
  exact t.file_put new k opened

/-- A file that is opened and closed again leaves the table as it was. -/
theorem file_close_open (opened : File) (k : Nat) :
    ((t.open_file opened).2.close (t.open_file opened).1).file k = t.file k := by
  simp only [open_file, file_close, file_put]
  split
  · rename_i hEq
    rw [hEq, t.file_lowest]
  · rfl

end Descriptors

end Storage
