import RkFlashd.Checksum.CRCDetection
import RkFlashd.Checksum.LongDivision

/-! The CRC as a remainder. The register is read as a polynomial over the field of two
elements, and a shift of it as one step of the division by `x^16 + x^12 + x^5 + 1`. -/
namespace Checksum

open Text Polynomial

/-- A bit as an element of the field. -/
def coefficient (b : Bool) : ZMod 2 := if b then 1 else 0

/-- `M(x)`: the bits of a message, most significant first. -/
noncomputable def message_poly (data : Bytes) : (ZMod 2)[X] :=
  LongDivision.reading ((bits data).map coefficient)

/-- `x^16 + x^12 + x^5 + 1`. -/
noncomputable def generator : (ZMod 2)[X] := X ^ 16 + X ^ 12 + X ^ 5 + 1

namespace CRC16

/-- The register, bit `i` being the coefficient of `x^i`. -/
noncomputable def poly (crc : UInt16) : (ZMod 2)[X] :=
  ∑ i ∈ Finset.range 16, C (coefficient (bit crc i)) * X ^ i

theorem coefficient_xor (a b : Bool) : coefficient (a ^^ b) = coefficient a + coefficient b := by
  cases a <;> cases b <;> decide

theorem bit_of_le {i : Nat} (crc : UInt16) (h : 16 ≤ i) : bit crc i = false :=
  BitVec.getLsbD_of_ge _ _ h

@[simp] theorem coeff_poly (crc : UInt16) (i : Nat) :
    (poly crc).coeff i = coefficient (bit crc i) := by
  simp only [poly, finsetSum_coeff, coeff_C_mul_X_pow, Finset.sum_ite_eq, Finset.mem_range]
  split
  · rfl
  · rename_i h
    rw [bit_of_le crc (by omega)]
    rfl

theorem poly_xor (x y : UInt16) : poly (x ^^^ y) = poly x + poly y := by
  ext i
  rw [coeff_add, coeff_poly, coeff_poly, coeff_poly, bit_xor, coefficient_xor]

theorem poly_top (b : Bool) : poly (top b) = C (coefficient b) * X ^ 15 := by
  ext i
  rw [coeff_poly, bit_top, coeff_C_mul_X_pow]
  by_cases h : i = 15
  · simp [h]
  · simp [h, coefficient]

theorem poly_degree_lt (crc : UInt16) : (poly crc).degree < 16 := by
  refine (degree_lt_iff_coeff_zero _ 16).mpr ?_
  intro i hi
  rw [coeff_poly, bit_of_le crc hi]
  rfl

/-- The taps `0x1021` are the generator without its leading term. -/
theorem generator_eq : generator = X ^ 16 + poly 0x1021 := by
  have hTaps : ∀ i < 16, bit 0x1021 i = decide (i = 12 ∨ i = 5 ∨ i = 0) := by decide +kernel
  ext i
  simp only [generator, coeff_add, coeff_X_pow, coeff_one, coeff_poly]
  by_cases h : i < 16
  · rw [hTaps i h]
    interval_cases i <;> decide
  · have hHigh : i ≠ 12 ∧ i ≠ 5 ∧ i ≠ 0 := by omega
    rw [bit_of_le _ (by omega)]
    simp [hHigh, coefficient]

theorem generator_monic : generator.Monic := by
  rw [generator_eq]
  exact monic_X_pow_add (poly_degree_lt _)

theorem generator_degree : generator.degree = 16 := by
  have hLow : (poly 0x1021).degree < (X ^ 16 : (ZMod 2)[X]).degree := by
    rw [degree_X_pow]
    exact poly_degree_lt _
  rw [generator_eq, degree_add_eq_left_of_degree_lt hLow, degree_X_pow]
  rfl

/-- A shift multiplies by `x` and takes the generator off when a one leaves. -/
theorem poly_shift (crc : UInt16) : poly (shift crc) = (X * poly crc) %ₘ generator := by
  have hStep : poly (shift crc) + generator * C (coefficient (bit crc 15)) = X * poly crc := by
    ext i
    rw [generator_eq, coeff_add, coeff_mul_C, coeff_add, coeff_X_pow, coeff_poly, coeff_poly]
    cases i with
    | zero =>
        rw [bit_shift_low, coeff_X_mul_zero]
        cases bit crc 15 <;> decide
    | succ i =>
        rw [bit_shift, bit_double, coeff_X_mul, coeff_poly, Nat.add_sub_cancel]
        by_cases hTop : i = 15
        · subst hTop
          cases bit crc 15 <;> decide
        · have hNext : ¬ i + 1 = 16 := by omega
          have hKept : (decide (0 < i + 1 ∧ i + 1 < 16) && bit crc i) = bit crc i := by
            by_cases hInside : i + 1 < 16
            · simp [hInside]
            · simp [bit_of_le crc (show 16 ≤ i by omega)]
          rw [hKept, if_neg hNext]
          cases bit crc i <;> cases bit crc 15 <;> cases bit 0x1021 (i + 1) <;> decide
  have hDegree : (poly (shift crc)).degree < generator.degree := by
    rw [generator_degree]
    exact poly_degree_lt _
  exact (div_modByMonic_unique _ _ generator_monic ⟨hStep, hDegree⟩).2.symm

theorem poly_reduced (crc : UInt16) : poly crc %ₘ generator = poly crc := by
  rw [modByMonic_eq_self_iff generator_monic, generator_degree]
  exact poly_degree_lt crc

/-- Feeding bits to the register divides. -/
theorem poly_feed (crc : UInt16) (input : List Bool) :
    poly (feed crc input) =
      (poly crc * X ^ input.length + LongDivision.reading (input.map coefficient) * X ^ 16)
        %ₘ generator := by
  have hPush : ∀ crc b, poly (shift (crc ^^^ top b)) =
      (X * poly crc + C (coefficient b) * X ^ 16) %ₘ generator := by
    intro crc b
    rw [poly_shift, poly_xor, poly_top]
    congr 1
    ring
  exact LongDivision.fold_push generator_monic hPush (poly_reduced crc) input

/-- A message in chunks is taken in like the whole. -/
theorem foldl_update (c : CRC16) (chunks : List Bytes) :
    chunks.foldl update c = c.update chunks.flatten := by
  induction chunks generalizing c with
  | nil => rfl
  | cons chunk rest ih =>
      rw [List.foldl_cons, ih, List.flatten_cons]
      simp [update]

theorem poly_reset : poly reset.crc_ = ∑ i ∈ Finset.range 16, X ^ i := by
  have hOnes : ∀ i < 16, coefficient (bit reset.crc_ i) = 1 := by decide +kernel
  apply Finset.sum_congr rfl
  intro i hi
  rw [hOnes i (Finset.mem_range.mp hi), C_1, one_mul]

end CRC16

/-- Whatever way a message is cut into chunks, the digest is the remainder of
`M(x) x^16 + (x^15 + … + 1) x^(8|m|)` by the generator. -/
theorem digest_is_remainder (chunks : List Bytes) :
    CRC16.poly (chunks.foldl CRC16.update CRC16.reset).digest =
      (message_poly chunks.flatten * X ^ 16 +
        (∑ i ∈ Finset.range 16, X ^ i) * X ^ (8 * chunks.flatten.length)) %ₘ generator := by
  have hFeed := CRC16.poly_feed CRC16.reset.crc_ (bits chunks.flatten)
  rw [CRC16.foldl_update]
  change CRC16.poly (crc16_compute chunks.flatten) = _
  rw [CRC16.crc16_eq]
  rw [CRC16.length_bits, CRC16.poly_reset, add_comm] at hFeed
  exact hFeed

end Checksum
