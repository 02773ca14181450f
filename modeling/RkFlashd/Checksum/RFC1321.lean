import RkFlashd.Checksum.MD5

/-! MD5 as RFC 1321 describes it: pad the message, then fold one loop of 64 steps over
its blocks. The unrolled transform and the padding rule of the code agree with it. -/
namespace Checksum
namespace RFC1321

open Text MD5

/-- The function of the four rounds. -/
def round_function (i : Nat) (x y z : UInt32) : UInt32 :=
  if i < 16 then (x &&& y) ||| (~~~x &&& z)
  else if i < 32 then (x &&& z) ||| (y &&& ~~~z)
  else if i < 48 then x ^^^ y ^^^ z
  else y ^^^ (x ||| ~~~z)

def message_index (i : Nat) : Nat :=
  if i < 16 then i
  else if i < 32 then (5 * i + 1) % 16
  else if i < 48 then (3 * i + 5) % 16
  else (7 * i) % 16

def rotations : List UInt32 := [7, 12, 17, 22, 5, 9, 14, 20, 4, 11, 16, 23, 6, 10, 15, 21]

/-- Each round repeats its own four amounts. -/
def rotation (i : Nat) : UInt32 := rotations.getD (i / 16 * 4 + i % 4) 0

/-- The integer part of `2^32 * |sin(i + 1)|`. -/
def sines : List UInt32 :=
  [0xD76AA478, 0xE8C7B756, 0x242070DB, 0xC1BDCEEE, 0xF57C0FAF, 0x4787C62A, 0xA8304613, 0xFD469501,
   0x698098D8, 0x8B44F7AF, 0xFFFF5BB1, 0x895CD7BE, 0x6B901122, 0xFD987193, 0xA679438E, 0x49B40821,
   0xF61E2562, 0xC040B340, 0x265E5A51, 0xE9B6C7AA, 0xD62F105D, 0x02441453, 0xD8A1E681, 0xE7D3FBC8,
   0x21E1CDE6, 0xC33707D6, 0xF4D50D87, 0x455A14ED, 0xA9E3E905, 0xFCEFA3F8, 0x676F02D9, 0x8D2A4C8A,
   0xFFFA3942, 0x8771F681, 0x6D9D6122, 0xFDE5380C, 0xA4BEEA44, 0x4BDECFA9, 0xF6BB4B60, 0xBEBFBC70,
   0x289B7EC6, 0xEAA127FA, 0xD4EF3085, 0x04881D05, 0xD9D4D039, 0xE6DB99E5, 0x1FA27CF8, 0xC4AC5665,
   0xF4292244, 0x432AFF97, 0xAB9423A7, 0xFC93A039, 0x655B59C3, 0x8F0CCC92, 0xFFEFF47D, 0x85845DD1,
   0x6FA87E4F, 0xFE2CE6E0, 0xA3014314, 0x4E0811A1, 0xF7537E82, 0xBD3AF235, 0x2AD7D2BB, 0xEB86D391]

def constant (i : Nat) : UInt32 := sines.getD i 0

def rotate_left (x n : UInt32) : UInt32 := (x <<< n) ||| (x >>> (32 - n))

/-- Step `i`: one register is replaced and the four change places. -/
def step (X : Nat → UInt32) (r : Registers) (i : Nat) : Registers where
  a := r.d
  b := r.b + rotate_left (r.a + round_function i r.b r.c r.d + X (message_index i) + constant i)
    (rotation i)
  c := r.b
  d := r.c

/-- The number a byte string denotes, least significant byte first. -/
def little_endian (bytes : Bytes) : Nat :=
  bytes.foldr (fun byte value => byte.toNat + 256 * value) 0

/-- The `width` low bytes of a number, least significant first. -/
def to_bytes (width n : Nat) : Bytes := (List.range width).map fun i => UInt8.ofNat (n / 256 ^ i)

def message_word (block : Bytes) (i : Nat) : UInt32 :=
  UInt32.ofNat (little_endian ((block.drop (4 * i)).take 4))

def compress (r : Registers) (block : Bytes) : Registers :=
  let final := (List.range 64).foldl (step (message_word block)) r
  ⟨r.a + final.a, r.b + final.b, r.c + final.c, r.d + final.d⟩

/-- How many zeros bring the message, its `0x80` and its length to a multiple of 64. -/
def zeros (length : Nat) : Nat := (119 - length % 64) % 64

def pad (message : Bytes) : Bytes :=
  message ++ (0x80 :: List.replicate (zeros message.length) 0) ++ to_bytes 8 (8 * message.length)

def digest (message : Bytes) : Bytes :=
  let r := BlockStream.fold compress 64 initial (pad message)
  to_bytes 4 r.a.toNat ++ to_bytes 4 r.b.toNat ++ to_bytes 4 r.c.toNat ++ to_bytes 4 r.d.toNat

/-! One step of the loop is one macro of the transform. -/

section Steps

variable (M : Nat → UInt32) (a b c d : UInt32) {i : Nat}

theorem mix_eq (f x ac s : UInt32) :
    b + rotate_left (a + f + x + ac) s = rotl (a + (f + x + ac)) s + b := by
  rw [UInt32.add_comm b, UInt32.add_assoc, UInt32.add_assoc, UInt32.add_assoc]
  rfl

theorem step_FF (h : i < 16) : step M ⟨a, b, c, d⟩ i =
    ⟨d, FF a b c d (M (message_index i)) (rotation i) (constant i), b, c⟩ := by
  simp [step, FF, F, round_function, h, mix_eq]

theorem step_GG (hLow : ¬ i < 16) (h : i < 32) : step M ⟨a, b, c, d⟩ i =
    ⟨d, GG a b c d (M (message_index i)) (rotation i) (constant i), b, c⟩ := by
  simp [step, GG, G, round_function, hLow, h, mix_eq]

theorem step_HH (hLow : ¬ i < 16) (hMid : ¬ i < 32) (h : i < 48) : step M ⟨a, b, c, d⟩ i =
    ⟨d, HH a b c d (M (message_index i)) (rotation i) (constant i), b, c⟩ := by
  simp [step, HH, H, round_function, hLow, hMid, h, mix_eq]

theorem step_II (hLow : ¬ i < 16) (hMid : ¬ i < 32) (h : ¬ i < 48) : step M ⟨a, b, c, d⟩ i =
    ⟨d, II a b c d (M (message_index i)) (rotation i) (constant i), b, c⟩ := by
  simp [step, II, I, round_function, hLow, hMid, h, mix_eq]

end Steps

/-- The operations of a round as the steps of the RFC; so are those of the other three. -/
theorem round1_eq (M : Nat → UInt32) (r : Registers) :
    round1 M r = (List.range' 0 16).foldl (step M) r := by
  obtain ⟨a, b, c, d⟩ := r
  simp only [round1, List.range', List.foldl, Nat.reduceAdd, Nat.reduceLT, step_FF,
    message_index, RFC1321.rotation, rotations, constant, sines, List.getD_cons_zero,
    List.getD_cons_succ, Nat.reduceMul, Nat.reduceDiv, Nat.reduceMod, if_true]

theorem round2_eq (M : Nat → UInt32) (r : Registers) :
    round2 M r = (List.range' 16 16).foldl (step M) r := by
  obtain ⟨a, b, c, d⟩ := r
  simp only [round2, List.range', List.foldl, Nat.reduceAdd, Nat.reduceLT, not_false_eq_true,
    step_GG, message_index, RFC1321.rotation, rotations, constant, sines, List.getD_cons_zero,
    List.getD_cons_succ, Nat.reduceMul, Nat.reduceDiv, Nat.reduceMod, if_true, if_false]

theorem round3_eq (M : Nat → UInt32) (r : Registers) :
    round3 M r = (List.range' 32 16).foldl (step M) r := by
  obtain ⟨a, b, c, d⟩ := r
  simp only [round3, List.range', List.foldl, Nat.reduceAdd, Nat.reduceLT, not_false_eq_true,
    step_HH, message_index, RFC1321.rotation, rotations, constant, sines, List.getD_cons_zero,
    List.getD_cons_succ, Nat.reduceMul, Nat.reduceDiv, Nat.reduceMod, if_true, if_false]

theorem round4_eq (M : Nat → UInt32) (r : Registers) :
    round4 M r = (List.range' 48 16).foldl (step M) r := by
  obtain ⟨a, b, c, d⟩ := r
  simp only [round4, List.range', List.foldl, Nat.reduceAdd, Nat.reduceLT, not_false_eq_true,
    step_II, message_index, RFC1321.rotation, rotations, constant, sines, List.getD_cons_zero,
    List.getD_cons_succ, Nat.reduceMul, Nat.reduceDiv, Nat.reduceMod, if_false]

/-- Bits below a shifted number are added to it. -/
theorem or_shiftLeft {low shift : Nat} (high : Nat) (h : low < 2 ^ shift) :
    low ||| high <<< shift = low + 2 ^ shift * high := by
  rw [Nat.or_comm, ← Nat.shiftLeft_add_eq_or_of_lt h, Nat.shiftLeft_eq]
  ring

/-- Four bytes in disjoint places of a word are the sum of their places. -/
theorem word_of_bytes (w x y z : UInt8) :
    (w.toUInt32 ||| x.toUInt32 <<< 8 ||| y.toUInt32 <<< 16 ||| z.toUInt32 <<< 24).toNat =
      w.toNat + 256 * (x.toNat + 256 * (y.toNat + 256 * z.toNat)) := by
  have hw := w.toNat_lt
  have hx := x.toNat_lt
  have hy := y.toNat_lt
  have hz := z.toNat_lt
  have hShift : ∀ (byte : UInt8) (shift : Nat), shift ≤ 24 →
      byte.toNat <<< shift % 2 ^ 32 = byte.toNat <<< shift := by
    intro byte shift hLe
    apply Nat.mod_eq_of_lt
    rw [Nat.shiftLeft_eq]
    calc byte.toNat * 2 ^ shift ≤ 255 * 2 ^ 24 :=
          Nat.mul_le_mul (Nat.le_of_lt_succ byte.toNat_lt) (Nat.pow_le_pow_right (by omega) hLe)
      _ < 2 ^ 32 := by norm_num
  simp only [UInt32.toNat_or, UInt32.toNat_shiftLeft, UInt8.toNat_toUInt32, UInt32.reduceToNat,
    Nat.reduceMod, hShift _ 8 (by omega), hShift _ 16 (by omega), hShift _ 24 (by omega)]
  rw [or_shiftLeft x.toNat hw, or_shiftLeft y.toNat (by omega), or_shiftLeft z.toNat (by omega)]
  ring

theorem little_endian_drop (block : Bytes) (k : Nat) :
    little_endian ((block.drop k).take 4) =
      (block.getD k 0).toNat + 256 * ((block.getD (k + 1) 0).toNat +
        256 * ((block.getD (k + 2) 0).toNat + 256 * (block.getD (k + 3) 0).toNat)) := by
  have hGet : ∀ j, block.getD (k + j) 0 = (block.drop k).getD j 0 := by
    intro j
    simp [List.getD_eq_getElem?_getD]
  rw [hGet 1, hGet 2, hGet 3, show block.getD k 0 = (block.drop k).getD 0 0 from hGet 0]
  rcases block.drop k with _ | ⟨w, _ | ⟨x, _ | ⟨y, _ | ⟨z, rest⟩⟩⟩⟩ <;> simp [little_endian]

theorem word_eq (block : Bytes) (i : Nat) : word block i = message_word block i := by
  apply UInt32.toNat_inj.mp
  rw [word, word_of_bytes, message_word, Nat.mul_comm 4 i, little_endian_drop, UInt32.toNat_ofNat',
    Nat.mod_eq_of_lt]
  have h0 := (block.getD (i * 4) 0).toNat_lt
  have h1 := (block.getD (i * 4 + 1) 0).toNat_lt
  have h2 := (block.getD (i * 4 + 2) 0).toNat_lt
  have h3 := (block.getD (i * 4 + 3) 0).toNat_lt
  omega

/-- The code compresses a block as the RFC does. -/
theorem transform_eq (r : Registers) (block : Bytes) : transform r block = compress r block := by
  have hWords : word block = message_word block := funext (word_eq block)
  have hLoop : List.range 64 =
      List.range' 0 16 ++ List.range' 16 16 ++ List.range' 32 16 ++ List.range' 48 16 := rfl
  simp only [transform, compress, hWords, hLoop, List.foldl_append, round1_eq, round2_eq,
    round3_eq, round4_eq]

theorem to_bytes_le_bytes (n : UInt64) : le_bytes n = to_bytes 8 n.toNat := by
  rw [le_bytes, to_bytes]
  apply List.map_congr_left
  intro i hi
  have hLt : i < 8 := List.mem_range.mp hi
  apply UInt8.toNat_inj.mp
  have hShift : (UInt64.ofNat (8 * i)).toNat % 64 = 8 * i := by
    rw [UInt64.toNat_ofNat']
    omega
  rw [UInt64.toNat_toUInt8, UInt64.toNat_shiftRight, hShift, UInt8.toNat_ofNat',
    Nat.shiftRight_eq_div_pow, pow_mul]
  rfl

theorem to_bytes_word_bytes (w : UInt32) : word_bytes w = to_bytes 4 w.toNat := by
  have hShift : ∀ k : UInt32, (w >>> k).toUInt8.toNat = w.toNat / 2 ^ (k.toNat % 32) % 256 := by
    intro k
    rw [UInt32.toNat_toUInt8, UInt32.toNat_shiftRight, Nat.shiftRight_eq_div_pow]
  have hByte : ∀ (byte : UInt8) (n : Nat), byte.toNat = n % 256 → byte = UInt8.ofNat n := by
    intro byte n h
    apply UInt8.toNat_inj.mp
    rw [h, UInt8.toNat_ofNat']
  have hFirst : w.toUInt8 = UInt8.ofNat (w.toNat / 256 ^ 0) :=
    hByte _ _ (by rw [UInt32.toNat_toUInt8]; simp)
  have hSecond : (w >>> 8).toUInt8 = UInt8.ofNat (w.toNat / 256 ^ 1) := hByte _ _ (hShift 8)
  have hThird : (w >>> 16).toUInt8 = UInt8.ofNat (w.toNat / 256 ^ 2) := hByte _ _ (hShift 16)
  have hFourth : (w >>> 24).toUInt8 = UInt8.ofNat (w.toNat / 256 ^ 3) := hByte _ _ (hShift 24)
  rw [word_bytes, hFirst, hSecond, hThird, hFourth]
  rfl

theorem digest_eq (message : Bytes) :
    MD5.digest (BlockStream.fold compress 64 initial (pad message)) = digest message := by
  simp only [MD5.digest, digest, to_bytes_word_bytes]

/-- The padding array is long enough for every message, and what is taken of it leaves
room for the length. -/
theorem trailer_eq {message : Bytes} (h : message.length < 2 ^ 61) :
    pad_len (UInt64.ofNat message.length) ≤ padding.length ∧
      message ++ trailer message = pad message := by
  have hIndex : (UInt64.ofNat message.length &&& 0x3F).toNat = message.length % 64 := by
    rw [index_eq, UInt64.toNat_ofNat']
    omega
  have hLen : pad_len (UInt64.ofNat message.length) = zeros message.length + 1 := by
    simp only [pad_len, hIndex, zeros]
    split <;> omega
  have hZeros : zeros message.length ≤ 63 := by
    unfold zeros
    omega
  have hBits : (UInt64.ofNat message.length * 8).toNat = 8 * message.length := by
    rw [UInt64.toNat_mul, UInt64.toNat_ofNat']
    have h8 : (8 : UInt64).toNat = 8 := rfl
    rw [h8]
    omega
  constructor
  · rw [hLen]
    exact Nat.succ_le_succ hZeros
  · rw [trailer, hLen, to_bytes_le_bytes, hBits, padding, List.take_succ_cons, List.take_replicate,
      Nat.min_eq_left hZeros, pad, List.append_assoc]

/-- **Conformance.** The printed digest of the code is the reference digest. -/
theorem md5_conforms {message : Bytes} (h : message.length < 2 ^ 61) :
    md5_compute message =
      (digest message).flatMap fun byte => print_hex false 2 byte.toNat := by
  have hAbsorbed : Absorbed (MD5.reset.update message) message := by
    simpa using Absorbed.reset.update message
  have hTransform : transform = compress := funext fun r => funext fun block => transform_eq r block
  rw [md5_compute, MD5.hex]
  simp only [hAbsorbed.finalize, (trailer_eq h).2, hTransform, digest_eq]

/-- The digest of `abc` in the test suite of the RFC. -/
theorem md5_conforms_abc :
    (digest (str "abc")).flatMap (fun byte => print_hex false 2 byte.toNat) =
      str "900150983cd24fb0d6963f7d28e17f72" := by
  rw [← md5_conforms (by decide)]
  decide +kernel

end RFC1321
end Checksum
