import Mathlib

/-! Division by a monic polynomial, one coefficient of the dividend after the other.
A register holds the remainder so far and each coefficient is fed in at the top. -/
namespace LongDivision

open Polynomial

variable {R : Type*} [CommRing R]

/-- The polynomial with these coefficients, the leading one first. -/
noncomputable def reading (input : List R) : R[X] := input.foldl (fun p c => X * p + C c) 0

@[simp] theorem reading_nil : reading ([] : List R) = 0 := rfl

theorem reading_append_singleton (input : List R) (c : R) :
    reading (input ++ [c]) = X * reading input + C c := by
  simp [reading]

/-- A dividend may be reduced before the next coefficient joins it. -/
theorem shift_modByMonic {g : R[X]} (hMonic : g.Monic) (p q : R[X]) :
    (X * (p %ₘ g) + q) %ₘ g = (X * p + q) %ₘ g := by
  apply modByMonic_eq_of_dvd_sub hMonic
  have hDiff : X * (p %ₘ g) + q - (X * p + q) = X * (p %ₘ g - p) := by ring
  rw [hDiff]
  exact Dvd.dvd.mul_left (dvd_modByMonic_sub p g) X

section Register
variable {σ β : Type*} {g : R[X]} {n : Nat} {poly : σ → R[X]} {push : σ → β → σ} {coeff : β → R}
  (hMonic : g.Monic)
  (hPush : ∀ s b, poly (push s b) = (X * poly s + C (coeff b) * X ^ n) %ₘ g)
include hMonic hPush

/-- Pushing coefficients leaves the remainder of what was in the register, moved up
by their number, and of what they spell in front of `n` zeros. -/
theorem fold_push {s : σ} (hReduced : poly s %ₘ g = poly s) (input : List β) :
    poly (input.foldl push s) =
      (poly s * X ^ input.length + reading (input.map coeff) * X ^ n) %ₘ g := by
  induction input using List.reverseRecOn with
  | nil => simp [hReduced]
  | append_singleton init b ih =>
      rw [List.foldl_append, List.foldl_cons, List.foldl_nil, hPush, ih, shift_modByMonic hMonic,
        List.map_append, List.map_singleton, reading_append_singleton, List.length_append,
        List.length_singleton, pow_succ]
      congr 1
      ring

end Register

end LongDivision
