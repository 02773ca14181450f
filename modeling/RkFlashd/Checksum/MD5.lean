import RkFlashd.Checksum.BlockStream
import RkFlashd.Text.Numeral

/-! The MD5 object of `checksum.h`: chaining words, a 64-bit byte count, and a
64-byte buffer that may hold stale bytes behind the current index. -/
namespace Checksum

open Text

/-- The four chaining words `state_[0..3]`. -/
structure Registers where
  a : UInt32
  b : UInt32
  c : UInt32
  d : UInt32
  deriving DecidableEq, Repr

structure MD5 where
  state_ : Registers
  count_ : UInt64
  buffer_ : Bytes
  deriving DecidableEq, Repr

namespace MD5

def initial : Registers := ⟨0x67452301, 0xEFCDAB89, 0x98BADCFE, 0x10325476⟩

/-- `reset()`, which is also what the constructor does. -/
def reset : MD5 := ⟨initial, 0, List.replicate 64 0⟩

/-- `memcpy(buffer + index, data, data.size())`. A copy that runs over the end
makes the buffer longer than it is. -/
def memcpy (buffer : Bytes) (index : Nat) (data : Bytes) : Bytes :=
  buffer.take index ++ data ++ buffer.drop (index + data.length)

def F (x y z : UInt32) : UInt32 := (x &&& y) ||| (~~~x &&& z)
def G (x y z : UInt32) : UInt32 := (x &&& z) ||| (y &&& ~~~z)
def H (x y z : UInt32) : UInt32 := x ^^^ y ^^^ z
def I (x y z : UInt32) : UInt32 := y ^^^ (x ||| ~~~z)
def rotl (x n : UInt32) : UInt32 := (x <<< n) ||| (x >>> (32 - n))

def FF (a b c d x s ac : UInt32) : UInt32 := rotl (a + (F b c d + x + ac)) s + b
def GG (a b c d x s ac : UInt32) : UInt32 := rotl (a + (G b c d + x + ac)) s + b
def HH (a b c d x s ac : UInt32) : UInt32 := rotl (a + (H b c d + x + ac)) s + b
def II (a b c d x s ac : UInt32) : UInt32 := rotl (a + (I b c d + x + ac)) s + b

/-- The message word `M[i]`, least significant byte first. -/
def word (block : Bytes) (i : Nat) : UInt32 :=
  (block.getD (i * 4) 0).toUInt32 ||| ((block.getD (i * 4 + 1) 0).toUInt32 <<< 8) |||
    ((block.getD (i * 4 + 2) 0).toUInt32 <<< 16) ||| ((block.getD (i * 4 + 3) 0).toUInt32 <<< 24)

def round1 (M : Nat → UInt32) (r : Registers) : Registers :=
  let ⟨a, b, c, d⟩ := r
  let a := FF a b c d (M 0) 7 0xD76AA478; let d := FF d a b c (M 1) 12 0xE8C7B756
  let c := FF c d a b (M 2) 17 0x242070DB; let b := FF b c d a (M 3) 22 0xC1BDCEEE
  let a := FF a b c d (M 4) 7 0xF57C0FAF; let d := FF d a b c (M 5) 12 0x4787C62A
  let c := FF c d a b (M 6) 17 0xA8304613; let b := FF b c d a (M 7) 22 0xFD469501
  let a := FF a b c d (M 8) 7 0x698098D8; let d := FF d a b c (M 9) 12 0x8B44F7AF
  let c := FF c d a b (M 10) 17 0xFFFF5BB1; let b := FF b c d a (M 11) 22 0x895CD7BE
  let a := FF a b c d (M 12) 7 0x6B901122; let d := FF d a b c (M 13) 12 0xFD987193
  let c := FF c d a b (M 14) 17 0xA679438E; let b := FF b c d a (M 15) 22 0x49B40821
  ⟨a, b, c, d⟩

def round2 (M : Nat → UInt32) (r : Registers) : Registers :=
  let ⟨a, b, c, d⟩ := r
  let a := GG a b c d (M 1) 5 0xF61E2562; let d := GG d a b c (M 6) 9 0xC040B340
  let c := GG c d a b (M 11) 14 0x265E5A51; let b := GG b c d a (M 0) 20 0xE9B6C7AA
  let a := GG a b c d (M 5) 5 0xD62F105D; let d := GG d a b c (M 10) 9 0x02441453
  let c := GG c d a b (M 15) 14 0xD8A1E681; let b := GG b c d a (M 4) 20 0xE7D3FBC8
  let a := GG a b c d (M 9) 5 0x21E1CDE6; let d := GG d a b c (M 14) 9 0xC33707D6
  let c := GG c d a b (M 3) 14 0xF4D50D87; let b := GG b c d a (M 8) 20 0x455A14ED
  let a := GG a b c d (M 13) 5 0xA9E3E905; let d := GG d a b c (M 2) 9 0xFCEFA3F8
  let c := GG c d a b (M 7) 14 0x676F02D9; let b := GG b c d a (M 12) 20 0x8D2A4C8A
  ⟨a, b, c, d⟩

def round3 (M : Nat → UInt32) (r : Registers) : Registers :=
  let ⟨a, b, c, d⟩ := r
  let a := HH a b c d (M 5) 4 0xFFFA3942; let d := HH d a b c (M 8) 11 0x8771F681
  let c := HH c d a b (M 11) 16 0x6D9D6122; let b := HH b c d a (M 14) 23 0xFDE5380C
  let a := HH a b c d (M 1) 4 0xA4BEEA44; let d := HH d a b c (M 4) 11 0x4BDECFA9
  let c := HH c d a b (M 7) 16 0xF6BB4B60; let b := HH b c d a (M 10) 23 0xBEBFBC70
  let a := HH a b c d (M 13) 4 0x289B7EC6; let d := HH d a b c (M 0) 11 0xEAA127FA
  let c := HH c d a b (M 3) 16 0xD4EF3085; let b := HH b c d a (M 6) 23 0x04881D05
  let a := HH a b c d (M 9) 4 0xD9D4D039; let d := HH d a b c (M 12) 11 0xE6DB99E5
  let c := HH c d a b (M 15) 16 0x1FA27CF8; let b := HH b c d a (M 2) 23 0xC4AC5665
  ⟨a, b, c, d⟩

def round4 (M : Nat → UInt32) (r : Registers) : Registers :=
  let ⟨a, b, c, d⟩ := r
  let a := II a b c d (M 0) 6 0xF4292244; let d := II d a b c (M 7) 10 0x432AFF97
  let c := II c d a b (M 14) 15 0xAB9423A7; let b := II b c d a (M 5) 21 0xFC93A039
  let a := II a b c d (M 12) 6 0x655B59C3; let d := II d a b c (M 3) 10 0x8F0CCC92
  let c := II c d a b (M 10) 15 0xFFEFF47D; let b := II b c d a (M 1) 21 0x85845DD1
  let a := II a b c d (M 8) 6 0x6FA87E4F; let d := II d a b c (M 15) 10 0xFE2CE6E0
  let c := II c d a b (M 6) 15 0xA3014314; let b := II b c d a (M 13) 21 0x4E0811A1
  let a := II a b c d (M 4) 6 0xF7537E82; let d := II d a b c (M 11) 10 0xBD3AF235
  let c := II c d a b (M 2) 15 0x2AD7D2BB; let b := II b c d a (M 9) 21 0xEB86D391
  ⟨a, b, c, d⟩

/-- The new chaining words for one block of 64 bytes. -/
def transform (r : Registers) (block : Bytes) : Registers :=
  let final :=
    round4 (word block) (round3 (word block) (round2 (word block) (round1 (word block) r)))
  ⟨r.a + final.a, r.b + final.b, r.c + final.c, r.d + final.d⟩

/-- `while (len >= 64)`: the chaining words and what is left of the input. The
input length bounds the number of turns. -/
def transform_blocks : Nat → Registers → Bytes → Registers × Bytes
  | 0, r, data => (r, data)
  | turns + 1, r, data =>
      if 64 ≤ data.length then transform_blocks turns (transform r (data.take 64)) (data.drop 64)
      else (r, data)

/-- The part of `update` that starts at a block boundary. -/
def update_aligned (m : MD5) (data : Bytes) : MD5 :=
  let (r, rest) := transform_blocks data.length m.state_ data
  if 0 < rest.length then { m with state_ := r, buffer_ := memcpy m.buffer_ 0 rest }
  else { m with state_ := r }

def update (m : MD5) (data : Bytes) : MD5 :=
  let index := (m.count_ &&& 0x3F).toNat
  let m := { m with count_ := m.count_ + UInt64.ofNat data.length }
  if index ≠ 0 then
    let part_len := 64 - index
    if part_len ≤ data.length then
      let buffer := memcpy m.buffer_ index (data.take part_len)
      update_aligned { m with state_ := transform m.state_ buffer, buffer_ := buffer }
        (data.drop part_len)
    else { m with buffer_ := memcpy m.buffer_ index data }
  else update_aligned m data

/-- The bytes of a little-endian 64-bit integer in memory. -/
def le_bytes (n : UInt64) : Bytes :=
  (List.range 8).map fun i => (n >>> UInt64.ofNat (8 * i)).toUInt8

def word_bytes (w : UInt32) : Bytes :=
  [w.toUInt8, (w >>> 8).toUInt8, (w >>> 16).toUInt8, (w >>> 24).toUInt8]

def digest (r : Registers) : Bytes :=
  word_bytes r.a ++ word_bytes r.b ++ word_bytes r.c ++ word_bytes r.d

def padding : Bytes := 0x80 :: List.replicate 63 0

def pad_len (count : UInt64) : Nat :=
  let index := (count &&& 0x3F).toNat
  if index < 56 then 56 - index else 120 - index

/-- `finalize` feeds the padding and the bit count through `update` itself, so the
object it leaves behind is no longer usable for the same message. -/
def finalize (m : MD5) : MD5 × Bytes :=
  let bits := m.count_ * 8
  let m := (m.update (padding.take (pad_len m.count_))).update (le_bytes bits)
  (m, digest m.state_)

def hex (m : MD5) : MD5 × Bytes :=
  let (m, digest) := m.finalize
  (m, digest.flatMap fun byte => print_hex false 2 byte.toNat)

/-! The buffer and the chaining words always describe the message fed so far. -/

theorem index_eq (count : UInt64) : (count &&& 0x3F).toNat = count.toNat % 64 := by
  simpa using Nat.and_two_pow_sub_one_eq_mod count.toNat 6

@[simp] theorem memcpy_length {buffer data : Bytes} {index : Nat} (h : buffer.length = 64)
    (hFits : index + data.length ≤ 64) : (memcpy buffer index data).length = 64 := by
  simp only [memcpy, List.length_append, List.length_take, List.length_drop]
  omega

/-- The bytes in front of the copy, then the copy itself. -/
theorem memcpy_take (buffer data : Bytes) {index : Nat} (h : index ≤ buffer.length) :
    (memcpy buffer index data).take (index + data.length) = buffer.take index ++ data := by
  rw [memcpy]
  exact List.take_left' (by simp [h])

/-- The loop over whole blocks, and what it leaves. -/
theorem transform_blocks_eq (turns : Nat) (r : Registers) (data : Bytes)
    (h : data.length ≤ turns) :
    transform_blocks turns r data =
      (BlockStream.fold transform 64 r data, BlockStream.tail 64 data) := by
  induction turns generalizing r data with
  | zero =>
      have hNil : data = [] := List.length_eq_zero_iff.mp (by omega)
      simp [hNil, transform_blocks]
  | succ turns ih =>
      rw [transform_blocks]
      split
      · rename_i hBlock
        have hLength : (data.take 64).length = 64 := List.length_take_of_le hBlock
        rw [ih _ _ (by rw [List.length_drop]; omega)]
        conv_rhs => rw [← List.take_append_drop 64 data]
        rw [BlockStream.fold_block (by omega) hLength, BlockStream.tail_block (by omega) hLength]
      · rename_i hBlock
        rw [BlockStream.fold_of_length_lt (by omega), BlockStream.tail_of_length_lt (by omega)]

/-- The object has absorbed `message` since the last reset: the words are the fold
over its complete blocks and the buffer starts with the incomplete one. -/
structure Absorbed (m : MD5) (message : Bytes) : Prop where
  state : m.state_ = BlockStream.fold transform 64 initial message
  count : m.count_ = UInt64.ofNat message.length
  buffer_length : m.buffer_.length = 64
  buffer : m.buffer_.take (message.length % 64) = BlockStream.tail 64 message

theorem Absorbed.reset : Absorbed MD5.reset [] :=
  ⟨by simp [MD5.reset], by simp [MD5.reset], by simp [MD5.reset], by simp⟩

theorem Absorbed.index {m : MD5} {message : Bytes} (h : Absorbed m message) :
    (m.count_ &&& 0x3F).toNat = message.length % 64 := by
  rw [index_eq, h.count, UInt64.toNat_ofNat', Nat.mod_mod_of_dvd _ (by decide)]

theorem Absorbed.count_append {m : MD5} {message : Bytes} (h : Absorbed m message) (data : Bytes) :
    m.count_ + UInt64.ofNat data.length = UInt64.ofNat (message ++ data).length := by
  rw [h.count, List.length_append, UInt64.ofNat_add]

/-- From a block boundary, `update_aligned` compresses the complete blocks of its
input and keeps the rest at the start of the buffer. -/
theorem absorbed_update_aligned {m : MD5} {message data : Bytes}
    (hState : BlockStream.fold transform 64 initial message =
      BlockStream.fold transform 64 m.state_ data)
    (hTail : BlockStream.tail 64 message = BlockStream.tail 64 data)
    (hCount : m.count_ = UInt64.ofNat message.length) (hBuffer : m.buffer_.length = 64) :
    Absorbed (m.update_aligned data) message := by
  have hLength : (BlockStream.tail 64 data).length = message.length % 64 := by
    rw [← hTail, BlockStream.tail_length]
  have hLt : message.length % 64 < 64 := Nat.mod_lt _ (by omega)
  simp only [update_aligned, transform_blocks_eq _ _ _ (Nat.le_refl _)]
  split
  · refine ⟨hState.symm, hCount, ?_, ?_⟩
    · exact memcpy_length hBuffer (by omega)
    · have hTake := memcpy_take m.buffer_ (BlockStream.tail 64 data) (Nat.zero_le _)
      rw [hTail, ← hLength]
      simpa using hTake
  · refine ⟨hState.symm, hCount, hBuffer, ?_⟩
    have hZero : message.length % 64 = 0 := by omega
    rw [hZero, List.take_zero, hTail, eq_comm]
    exact List.length_eq_zero_iff.mp (by omega)

/-- One more chunk, of any length, at any index. -/
theorem Absorbed.update {m : MD5} {message : Bytes} (h : Absorbed m message) (data : Bytes) :
    Absorbed (m.update data) (message ++ data) := by
  have hIndex := h.index
  have hLt : message.length % 64 < 64 := Nat.mod_lt _ (by omega)
  have hTailLength := BlockStream.tail_length 64 message
  have hFold : BlockStream.fold transform 64 initial (message ++ data) = _ :=
    BlockStream.fold_append (by omega) initial message data
  have hTail : BlockStream.tail 64 (message ++ data) = _ :=
    BlockStream.tail_append (by omega) message data
  rw [← h.state] at hFold
  simp only [MD5.update, hIndex]
  split
  · split
    · -- The chunk fills the buffer: the old tail and its first part are one block.
      rename_i hIndexPos hFill
      have hPart : (data.take (64 - message.length % 64)).length = 64 - message.length % 64 :=
        List.length_take_of_le hFill
      have hBlock : memcpy m.buffer_ (message.length % 64) (data.take (64 - message.length % 64)) =
          BlockStream.tail 64 message ++ data.take (64 - message.length % 64) := by
        have hWhole := memcpy_take m.buffer_ (data.take (64 - message.length % 64))
          (show message.length % 64 ≤ m.buffer_.length by rw [h.buffer_length]; omega)
        rw [List.take_of_length_le, h.buffer] at hWhole
        · exact hWhole
        · rw [memcpy_length h.buffer_length (by omega), hPart]
          omega
      have hBlockLength : (BlockStream.tail 64 message ++
          data.take (64 - message.length % 64)).length = 64 := by
        rw [List.length_append, hTailLength, hPart]
        omega
      have hData : BlockStream.tail 64 message ++ data =
          (BlockStream.tail 64 message ++ data.take (64 - message.length % 64)) ++
            data.drop (64 - message.length % 64) := by simp
      apply absorbed_update_aligned
      · rw [hFold, hData, BlockStream.fold_block (by omega) hBlockLength, hBlock]
      · rw [hTail, hData, BlockStream.tail_block (by omega) hBlockLength]
      · exact h.count_append data
      · rw [hBlock, hBlockLength]
    · -- The chunk only extends the tail, so no block is complete.
      rename_i hIndexPos hShort
      have hShortLength : (BlockStream.tail 64 message ++ data).length < 64 := by
        rw [List.length_append, hTailLength]
        omega
      rw [BlockStream.fold_of_length_lt hShortLength] at hFold
      rw [BlockStream.tail_of_length_lt hShortLength] at hTail
      refine ⟨hFold.symm, h.count_append data, memcpy_length h.buffer_length (by omega), ?_⟩
      have hMod : (message ++ data).length % 64 = message.length % 64 + data.length := by
        rw [List.length_append, Nat.add_mod, Nat.mod_eq_of_lt (a := data.length) (by omega)]
        exact Nat.mod_eq_of_lt (by omega)
      rw [hMod, memcpy_take _ _ (by rw [h.buffer_length]; omega), h.buffer, hTail]
  · rename_i hIndexZero
    have hNil : BlockStream.tail 64 message = [] := List.length_eq_zero_iff.mp (by omega)
    rw [hNil, List.nil_append] at hFold hTail
    exact absorbed_update_aligned hFold hTail (h.count_append data) h.buffer_length

/-- The bytes that `finalize` appends to a message. -/
def trailer (message : Bytes) : Bytes :=
  padding.take (pad_len (UInt64.ofNat message.length)) ++
    le_bytes (UInt64.ofNat message.length * 8)

/-- Feeding pieces one after the other absorbs them in that order. -/
theorem Absorbed.foldl {m : MD5} {message : Bytes} (h : Absorbed m message)
    (pieces : List Bytes) : Absorbed (pieces.foldl MD5.update m) (message ++ pieces.flatten) := by
  induction pieces generalizing m message with
  | nil => simpa using h
  | cons piece rest ih =>
      simpa [List.append_assoc] using ih (h.update piece)

/-- The digest of what has been taken in. -/
theorem Absorbed.finalize {m : MD5} {message : Bytes} (h : Absorbed m message) :
    m.finalize.2 = digest (BlockStream.fold transform 64 initial (message ++ trailer message)) := by
  have hFinal := (h.update (padding.take (pad_len m.count_))).update (le_bytes (m.count_ * 8))
  simp only [MD5.finalize, hFinal.state]
  rw [h.count, trailer, List.append_assoc]

/-- The printed digest depends on the message alone, not on how it was chunked or
on what stale bytes the buffer holds. -/
theorem Absorbed.hex_eq {m other : MD5} {message : Bytes} (h : Absorbed m message)
    (hOther : Absorbed other message) : m.hex.2 = other.hex.2 := by
  simp only [MD5.hex, h.finalize, hOther.finalize]

theorem digest_length (r : Registers) : (digest r).length = 16 := rfl

@[simp] theorem hex_length (m : MD5) : m.hex.2.length = 32 := by
  simp [MD5.hex, MD5.finalize, digest_length, List.length_flatMap]

theorem hex_isxdigit (m : MD5) : ∀ c ∈ m.hex.2, isxdigit c = true := by
  intro c hc
  obtain ⟨byte, -, hc⟩ := List.mem_flatMap.mp hc
  exact print_hex_isxdigit false 2 byte.toNat c hc

end MD5

/-- The digest of a whole buffer, in lowercase hex. -/
def md5_compute (data : Bytes) : Bytes := (MD5.reset.update data).hex.2

theorem MD5.Absorbed.hex {m : MD5} {message : Bytes} (h : Absorbed m message) :
    m.hex.2 = md5_compute message :=
  h.hex_eq (by simpa using Absorbed.reset.update message)

@[simp] theorem md5_compute_length (data : Bytes) : (md5_compute data).length = 32 :=
  MD5.hex_length _

theorem md5_compute_isxdigit (data : Bytes) : ∀ c ∈ md5_compute data, isxdigit c = true :=
  MD5.hex_isxdigit _

example : md5_compute (str "abc") = str "900150983cd24fb0d6963f7d28e17f72" := by decide +kernel

end Checksum
