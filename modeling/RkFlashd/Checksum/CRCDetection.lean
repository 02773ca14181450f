import RkFlashd.Checksum.CRC16

/-! The errors that the CRC register is certain to notice. One shift is linear over
exclusive or, so what counts is the difference of two messages alone. -/
namespace Checksum

open Text

/-- The bits of a byte, most significant first. -/
def byte_bits (byte : UInt8) : List Bool :=
  (List.range 8).map fun i => byte.toBitVec.getLsbD (7 - i)

def bits (data : Bytes) : List Bool := data.flatMap byte_bits

/-- The bits in which two byte strings of one length differ. -/
def difference (a b : Bytes) : List Bool := bits (List.zipWith (· ^^^ ·) a b)

/-- All the set bits lie within `n` consecutive places. -/
def Confined (n : Nat) (e : List Bool) : Prop :=
  ∃ start, ∀ i, e[i]? = some true → start ≤ i ∧ i < start + n

namespace CRC16

/-- A bit at the top of the register. -/
def top (bit : Bool) : UInt16 := if bit then 0x8000 else 0

/-- The register after single bits, fed in at the top. -/
def feed (crc : UInt16) (input : List Bool) : UInt16 :=
  input.foldl (fun crc bit => shift (crc ^^^ top bit)) crc

/-- Bit `i` of the register. -/
def bit (x : UInt16) (i : Nat) : Bool := x.toBitVec.getLsbD i

theorem ext_bit {x y : UInt16} (h : ∀ i < 16, bit x i = bit y i) : x = y :=
  UInt16.toBitVec_inj.mp (BitVec.eq_of_getLsbD_eq h)

@[simp] theorem bit_xor (x y : UInt16) (i : Nat) : bit (x ^^^ y) i = (bit x i ^^ bit y i) := by
  simp [bit]

@[simp] theorem bit_zero (i : Nat) : bit 0 i = false := by simp [bit]

theorem bit_top (b : Bool) (i : Nat) : bit (top b) i = (b && decide (i = 15)) := by
  cases b with
  | false => simp [top]
  | true =>
      have h : bit (top true) i = (BitVec.twoPow 16 15).getLsbD i := rfl
      simp [h, eq_comm]

theorem bit_double (x : UInt16) (i : Nat) :
    bit (x <<< 1) i = (decide (0 < i ∧ i < 16) && bit x (i - 1)) := by
  have h : (x <<< 1).toBitVec = x.toBitVec <<< 1 := by simp [UInt16.toBitVec_shiftLeft]
  rw [bit, h, BitVec.getLsbD_shiftLeft]
  by_cases hLow : i < 1 <;> by_cases hHigh : i < 16 <;> simp [bit, hLow, hHigh] <;> omega

theorem and_top (x : UInt16) : x &&& 0x8000 = top (bit x 15) := by
  apply ext_bit
  intro i hi
  have h : (0x8000 : UInt16) = top true := rfl
  have hAnd : bit (x &&& top true) i = (bit x i && bit (top true) i) := by simp [bit]
  rw [h, hAnd, bit_top, bit_top]
  by_cases hTop : i = 15 <;> simp [hTop]

/-- The polynomial comes in when a one leaves the register. -/
theorem shift_eq (x : UInt16) : shift x = x <<< 1 ^^^ if bit x 15 then 0x1021 else 0 := by
  unfold shift
  rw [and_top]
  cases bit x 15 <;> simp [top]

theorem bit_shift (x : UInt16) (i : Nat) :
    bit (shift x) i = (bit (x <<< 1) i ^^ (bit x 15 && bit 0x1021 i)) := by
  rw [shift_eq]
  cases bit x 15 <;> simp

theorem shift_xor (x y : UInt16) : shift (x ^^^ y) = shift x ^^^ shift y := by
  apply ext_bit
  intro i hi
  simp only [bit_shift, bit_double, bit_xor]
  cases bit x 15 <;> cases bit y 15 <;> cases bit x (i - 1) <;> cases bit y (i - 1) <;>
    cases bit 0x1021 i <;> cases decide (0 < i ∧ i < 16) <;> rfl

theorem top_xor (a b : Bool) : top (a ^^ b) = top a ^^^ top b := by
  cases a <;> cases b <;> rfl

theorem iterate_shift_xor (n : Nat) (x y : UInt16) :
    shift^[n] (x ^^^ y) = shift^[n] x ^^^ shift^[n] y := by
  induction n generalizing x y with
  | zero => rfl
  | succ n ih => simp only [Function.iterate_succ_apply, shift_xor, ih]

@[simp] theorem feed_nil (crc : UInt16) : feed crc [] = crc := rfl

@[simp] theorem feed_cons (crc : UInt16) (b : Bool) (input : List Bool) :
    feed crc (b :: input) = feed (shift (crc ^^^ top b)) input := rfl

/-- Bits that are fed one part after the other. -/
theorem feed_append (crc : UInt16) (first second : List Bool) :
    feed crc (first ++ second) = feed (feed crc first) second := List.foldl_append

/-- Two messages of one length leave registers whose difference is that of their difference. -/
theorem feed_xor (x y : UInt16) {a b : List Bool} (hLength : a.length = b.length) :
    feed x a ^^^ feed y b = feed (x ^^^ y) (List.zipWith xor a b) := by
  induction a generalizing x y b with
  | nil =>
      obtain rfl := List.eq_nil_of_length_eq_zero hLength.symm
      rfl
  | cons p rest ih =>
      cases b with
      | nil => cases hLength
      | cons q others =>
          have hInput : x ^^^ top p ^^^ (y ^^^ top q) = x ^^^ y ^^^ top (p ^^ q) := by
            rw [top_xor]
            ac_rfl
          rw [feed_cons, feed_cons, ih _ _ (Nat.succ.inj hLength), List.zipWith_cons_cons,
            feed_cons, ← shift_xor, hInput]

/-- The register forgets nothing of what was in it: it only moves on. -/
theorem feed_eq (crc : UInt16) (input : List Bool) :
    feed crc input = shift^[input.length] crc ^^^ feed 0 input := by
  induction input generalizing crc with
  | nil => simp
  | cons b rest ih =>
      rw [feed_cons, ih, feed_cons, ih (shift (0 ^^^ top b)), shift_xor, iterate_shift_xor,
        List.length_cons, Function.iterate_succ_apply, UInt16.zero_xor, UInt16.xor_assoc]

/-- The register takes in a byte as it takes in its bits. -/
theorem update_byte_zero (byte : UInt8) : update_byte 0 byte = feed 0 (byte_bits byte) := by
  have hAll : ∀ n < 256, update_byte 0 (UInt8.ofNat n) = feed 0 (byte_bits (UInt8.ofNat n)) := by
    decide +kernel
  simpa using hAll byte.toNat byte.toNat_lt

/-- A byte goes in one bit after the other. -/
theorem update_byte_eq (crc : UInt16) (byte : UInt8) :
    update_byte crc byte = feed crc (byte_bits byte) := by
  have hZero : shift^[8] (byte.toUInt16 <<< 8) = feed 0 (byte_bits byte) := by
    rw [← update_byte_zero, update_byte, UInt16.zero_xor]
  rw [feed_eq, update_byte, iterate_shift_xor, hZero]
  rfl

theorem crc16_eq (data : Bytes) : crc16_compute data = feed 0xFFFF (bits data) := by
  have h : ∀ crc, data.foldl update_byte crc = feed crc (bits data) := by
    induction data with
    | nil => exact fun _ => rfl
    | cons byte rest ih =>
        intro crc
        rw [List.foldl_cons, ih, update_byte_eq, ← feed_append]
        rfl
  exact h 0xFFFF

/-- Whether an odd number of bits is set. -/
def odd (input : List Bool) : Bool := input.foldr xor false

theorem odd_map_xor (indices : List Nat) (f g : Nat → Bool) :
    odd (indices.map fun i => f i ^^ g i) = (odd (indices.map f) ^^ odd (indices.map g)) := by
  induction indices with
  | nil => rfl
  | cons i rest ih =>
      simp only [odd, List.map_cons, List.foldr_cons] at ih ⊢
      rw [ih]
      cases f i <;> cases g i <;> simp

/-- The parity of the ones. -/
theorem odd_iff (input : List Bool) : odd input = true ↔ input.count true % 2 = 1 := by
  induction input with
  | nil => simp [odd]
  | cons b rest ih =>
      have hCons : odd (b :: rest) = (b ^^ odd rest) := rfl
      rw [hCons, List.count_cons]
      cases b with
      | false => simpa using ih
      | true =>
          cases hRest : odd rest with
          | true =>
              have h := ih.mp hRest
              simp
              omega
          | false =>
              have h : ¬ rest.count true % 2 = 1 := fun hOne => by simp [ih.mpr hOne] at hRest
              simp
              omega

def parity (x : UInt16) : Bool := odd ((List.range 16).map (bit x))

theorem parity_xor (x y : UInt16) : parity (x ^^^ y) = (parity x ^^ parity y) := by
  rw [parity, parity, parity, ← odd_map_xor]
  exact congrArg odd (List.map_congr_left fun i _ => bit_xor x y i)

theorem parity_top (b : Bool) : parity (top b) = b := by
  cases b <;> decide

/-- The polynomial has the factor `x + 1`: the taps make up for the bit that leaves. -/
theorem parity_shift (x : UInt16) : parity (shift x) = parity x := by
  have hTaps : (List.range 16).map (bit 0x1021) =
      [true, false, false, false, false, true, false, false, false, false, false, false, true,
        false, false, false] := by decide
  simp only [parity, odd, List.range, List.range.loop, List.map_cons, List.map_nil,
    List.foldr_cons, List.foldr_nil, List.cons.injEq, bit_shift, bit_double] at hTaps ⊢
  simp only [hTaps]
  cases bit x 15 <;> simp

theorem parity_feed (crc : UInt16) (input : List Bool) :
    parity (feed crc input) = (parity crc ^^ odd input) := by
  induction input generalizing crc with
  | nil => simp [odd]
  | cons b rest ih =>
      have hCons : odd (b :: rest) = (b ^^ odd rest) := rfl
      rw [feed_cons, ih, parity_shift, parity_xor, parity_top, hCons, Bool.xor_assoc]

/-- The polynomial has a constant term: the low bit of a shifted register tells what left. -/
theorem bit_shift_low (x : UInt16) : bit (shift x) 0 = bit x 15 := by
  have hTap : bit 0x1021 0 = true := rfl
  simp [bit_shift, bit_double, hTap]

/-- What is left of a register that a short input empties lies in its upper bits. -/
theorem bit_of_feed_zero {input : List Bool} {crc : UInt16} (hLength : input.length ≤ 16)
    (h : feed crc input = 0) : ∀ i < 16 - input.length, bit crc i = false := by
  induction input generalizing crc with
  | nil =>
      obtain rfl : crc = 0 := h
      simp
  | cons b rest ih =>
      rw [List.length_cons] at hLength ⊢
      have hShifted := ih (by omega) h
      have hOut : bit (crc ^^^ top b) 15 = false := by
        rw [← bit_shift_low]
        exact hShifted 0 (by omega)
      intro i hi
      have hNext := hShifted (i + 1) (by omega)
      have hInner : i + 1 < 16 := by omega
      rw [bit_shift, bit_double, hOut] at hNext
      simp [bit_top, hInner] at hNext
      have hTop : i ≠ 15 := by omega
      simpa [hTop] using hNext

/-- Sixteen bits fit into the register, so none of them can go unnoticed. -/
theorem feed_zero_short {input : List Bool} (hLength : input.length ≤ 16)
    (h : feed 0 input = 0) : ∀ b ∈ input, b = false := by
  induction input with
  | nil => simp
  | cons b rest ih =>
      rw [List.length_cons] at hLength
      have hLow := bit_of_feed_zero (Nat.le_of_succ_le hLength) h 0 (by omega)
      obtain rfl : b = false := by
        rw [bit_shift_low] at hLow
        simpa [bit_top] using hLow
      have hRest := ih (by omega) h
      simpa using hRest

theorem feed_zero_zeros (n : Nat) : feed 0 (List.replicate n false) = 0 := by
  induction n with
  | zero => rfl
  | succ n ih => exact ih

/-- A shift loses nothing, so zeros do not empty the register. -/
theorem feed_zeros {crc : UInt16} {n : Nat} (h : feed crc (List.replicate n false) = 0) :
    crc = 0 := by
  induction n generalizing crc with
  | zero => exact h
  | succ n ih =>
      have hShift : feed crc [false] = 0 := ih h
      apply ext_bit
      intro i hi
      rw [bit_zero]
      by_cases hTop : i = 15
      · have hLow : bit (shift (crc ^^^ top false)) 0 = false := by
          rw [show shift (crc ^^^ top false) = 0 from hShift, bit_zero]
        rw [bit_shift_low] at hLow
        simpa [hTop, bit_top] using hLow
      · exact bit_of_feed_zero (by simp) hShift i (by rw [List.length_singleton]; omega)

theorem eq_zeros {part : List Bool} (h : ∀ i : Nat, part[i]? ≠ some true) :
    part = List.replicate part.length false := by
  apply List.eq_replicate_of_mem
  intro b hb
  obtain ⟨i, hi⟩ := List.mem_iff_getElem?.mp hb
  cases b with
  | false => rfl
  | true => exact absurd hi (h i)

/-- The register notices any change within sixteen consecutive bits. -/
theorem feed_confined {e : List Bool} (hConfined : Confined 16 e) (h : feed 0 e = 0) :
    true ∉ e := by
  obtain ⟨start, hWithin⟩ := hConfined
  have hBefore : e.take start = List.replicate (e.take start).length false := by
    apply eq_zeros
    intro i hi
    rw [List.getElem?_take] at hi
    split at hi
    · have hFrom := (hWithin i hi).1
      omega
    · cases hi
  have hAfter : (e.drop start).drop 16 =
      List.replicate ((e.drop start).drop 16).length false := by
    apply eq_zeros
    intro i hi
    rw [List.getElem?_drop, List.getElem?_drop] at hi
    have hTo := (hWithin _ hi).2
    omega
  have hSplit : e = e.take start ++ ((e.drop start).take 16 ++ (e.drop start).drop 16) := by
    rw [List.take_append_drop, List.take_append_drop]
  rw [hSplit, feed_append, feed_append, hBefore, hAfter, feed_zero_zeros] at h
  have hWindow := feed_zero_short (List.length_take_le _ _) (feed_zeros h)
  rw [hSplit, hBefore, hAfter]
  intro hMem
  simp only [List.mem_append, List.mem_replicate] at hMem
  rcases hMem with ⟨-, hFalse⟩ | hInside | ⟨-, hFalse⟩
  · cases hFalse
  · cases hWindow true hInside
  · cases hFalse

theorem length_bits (data : Bytes) : (bits data).length = 8 * data.length := by
  induction data with
  | nil => rfl
  | cons byte rest ih =>
      simp only [bits, List.flatMap_cons, List.length_append, byte_bits, List.length_map,
        List.length_range] at ih ⊢
      rw [ih, List.length_cons]
      omega

theorem byte_bits_xor (p q : UInt8) :
    byte_bits (p ^^^ q) = List.zipWith xor (byte_bits p) (byte_bits q) := by
  simp [byte_bits, List.zipWith_map]

theorem difference_eq {a b : Bytes} (hLength : a.length = b.length) :
    difference a b = List.zipWith xor (bits a) (bits b) := by
  induction a generalizing b with
  | nil => rfl
  | cons p rest ih =>
      cases b with
      | nil => cases hLength
      | cons q others =>
          have hSame : (byte_bits p).length = (byte_bits q).length := by simp [byte_bits]
          have hCons : ∀ byte data, bits (byte :: data) = byte_bits byte ++ bits data :=
            fun _ _ => rfl
          rw [hCons, hCons, List.zipWith_append hSame, ← ih (Nat.succ.inj hLength),
            ← byte_bits_xor]
          rfl

theorem crc16_xor {a b : Bytes} (hLength : a.length = b.length) :
    crc16_compute a ^^^ crc16_compute b = feed 0 (difference a b) := by
  have hBits : (bits a).length = (bits b).length := by rw [length_bits, length_bits, hLength]
  rw [crc16_eq, crc16_eq, feed_xor _ _ hBits, UInt16.xor_self, difference_eq hLength]

end CRC16

/-- Two byte strings of one length that differ in an odd number of bits, or within sixteen
consecutive bits, have different checksums. -/
theorem crc16_detects {a b : Bytes} (hLength : a.length = b.length)
    (hDiffer : true ∈ difference a b)
    (hKind : (difference a b).count true % 2 = 1 ∨ Confined 16 (difference a b)) :
    crc16_compute a ≠ crc16_compute b := by
  intro hEq
  have hZero : CRC16.feed 0 (difference a b) = 0 := by
    rw [← CRC16.crc16_xor hLength, hEq, UInt16.xor_self]
  rcases hKind with hOdd | hConfined
  · have hParity := CRC16.parity_feed 0 (difference a b)
    rw [hZero, (CRC16.odd_iff _).mpr hOdd] at hParity
    cases hParity
  · exact CRC16.feed_confined hConfined hZero hDiffer

end Checksum
