import Mathlib.Data.List.Basic

/-! What is acquired and released in the course of a run, and what is still held. -/
namespace Transition

/-- A resource comes in or goes out. -/
inductive Deal (Resource : Type*) where
  | acquire (r : Resource)
  | release (r : Resource)
  deriving DecidableEq

variable {Resource : Type*} [DecidableEq Resource] {held : List Resource}

/-- What is held after some deals. There is no result when something is released that is
not held. -/
def settle (held : List Resource) : List (Deal Resource) → Option (List Resource)
  | [] => some held
  | .acquire r :: rest => settle (r :: held) rest
  | .release r :: rest => if r ∈ held then settle (held.erase r) rest else none

@[simp] theorem settle_nil (held : List Resource) : settle held [] = some held := rfl

@[simp] theorem settle_acquire (r : Resource) (rest : List (Deal Resource)) :
    settle held (.acquire r :: rest) = settle (r :: held) rest := rfl

/-- What was acquired last may be released. -/
@[simp] theorem settle_release (r : Resource) (rest : List (Deal Resource)) :
    settle (r :: held) (.release r :: rest) = settle held rest := by
  rw [settle, if_pos List.mem_cons_self, List.erase_cons_head]

/-- Deals are settled one part after the other. -/
theorem settle_append (first second : List (Deal Resource)) :
    settle held (first ++ second) = (settle held first).bind fun held => settle held second := by
  induction first generalizing held with
  | nil => rfl
  | cons deal rest ih =>
      cases deal with
      | acquire r => exact ih
      | release r =>
          rw [List.cons_append, settle, settle]
          split
          · exact ih
          · rfl

end Transition
