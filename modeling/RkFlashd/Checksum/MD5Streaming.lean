import RkFlashd.Checksum.MD5

/-! An MD5 object over its whole life: which copies `update` makes into the buffer, and
what the object holds after any calls, a reset, and any chunks fed since. -/
namespace Checksum

open Text

/-- The calls on an object. `hex` is `finalize` and the printing of its result. -/
inductive MD5Call where
  | reset
  | update (data : Bytes)
  | finalize

namespace MD5

def call (m : MD5) : MD5Call → MD5
  | .reset => reset
  | .update data => m.update data
  | .finalize => m.finalize.1

/-- The `memcpy` at the end of `update`. -/
def copy_rest (data : Bytes) : List (Nat × Bytes) :=
  let rest := (transform_blocks data.length initial data).2
  if 0 < rest.length then [(0, rest)] else []

/-- The copies that `update` makes, each with its place in the buffer. -/
def copies (m : MD5) (data : Bytes) : List (Nat × Bytes) :=
  let index := (m.count_ &&& 0x3F).toNat
  if index ≠ 0 then
    let part_len := 64 - index
    if part_len ≤ data.length then (index, data.take part_len) :: copy_rest (data.drop part_len)
    else [(index, data)]
  else copy_rest data

theorem copy_rest_eq (data : Bytes) :
    copy_rest data =
      if 0 < (BlockStream.tail 64 data).length then [(0, BlockStream.tail 64 data)] else [] := by
  simp only [copy_rest, transform_blocks_eq _ _ _ (Nat.le_refl _)]

theorem update_aligned_buffer (m : MD5) (data : Bytes) :
    (m.update_aligned data).buffer_ =
      (copy_rest data).foldl (fun buffer copy => memcpy buffer copy.1 copy.2) m.buffer_ := by
  rw [copy_rest_eq]
  simp only [update_aligned, transform_blocks_eq _ _ _ (Nat.le_refl _)]
  split <;> rfl

/-- These copies, one after the other, are all that happens to the buffer. -/
theorem update_buffer (m : MD5) (data : Bytes) :
    (m.update data).buffer_ =
      (m.copies data).foldl (fun buffer copy => memcpy buffer copy.1 copy.2) m.buffer_ := by
  simp only [update, copies]
  split
  · split
    · rw [update_aligned_buffer]
      rfl
    · rfl
  · rw [update_aligned_buffer]

/-- No copy leaves the 64 bytes of the buffer, whatever state the object is in. -/
theorem copies_fit (m : MD5) (data : Bytes) :
    ∀ copy ∈ m.copies data, copy.1 + copy.2.length ≤ 64 := by
  have hRest : ∀ rest : Bytes, ∀ copy ∈ copy_rest rest, copy.1 + copy.2.length ≤ 64 := by
    intro rest copy hCopy
    have hTail := BlockStream.tail_length_lt (by omega : 0 < 64) rest
    rw [copy_rest_eq] at hCopy
    split at hCopy
    · rw [List.mem_singleton.mp hCopy]
      dsimp only
      omega
    · cases hCopy
  have hIndex : (m.count_ &&& 0x3F).toNat < 64 := by
    rw [index_eq]
    omega
  intro copy hCopy
  simp only [copies] at hCopy
  split at hCopy
  · split at hCopy
    · rcases List.mem_cons.mp hCopy with rfl | hCopy
      · simp only [List.length_take]
        omega
      · exact hRest _ copy hCopy
    · rw [List.mem_singleton.mp hCopy]
      dsimp only
      omega
  · exact hRest _ copy hCopy

/-- The copies of every call of a history. `finalize` makes those of its two updates. -/
def call_copies (m : MD5) : MD5Call → List (Nat × Bytes)
  | .reset => []
  | .update data => m.copies data
  | .finalize =>
      m.copies (padding.take (pad_len m.count_)) ++
        (m.update (padding.take (pad_len m.count_))).copies (le_bytes (m.count_ * 8))

theorem call_copies_fit (m : MD5) (c : MD5Call) :
    ∀ copy ∈ m.call_copies c, copy.1 + copy.2.length ≤ 64 := by
  intro copy hCopy
  cases c with
  | reset => cases hCopy
  | update data => exact copies_fit m data copy hCopy
  | finalize =>
      rcases List.mem_append.mp hCopy with hCopy | hCopy
      · exact copies_fit _ _ copy hCopy
      · exact copies_fit _ _ copy hCopy

end MD5

/-- **Streaming.** Whatever happened to an object before, after a reset and any chunks it
holds the fold over the complete blocks of their concatenation, its length and its tail,
and prints the digest of the whole. No copy on the way leaves the buffer. -/
theorem md5_streaming {history : List MD5Call} {chunks : List Bytes}
    (hTotal : chunks.flatten.length < 2 ^ 64) :
    let m := chunks.foldl MD5.update ((history.foldl MD5.call MD5.reset).call .reset)
    (∀ past c rest, history ++ .reset :: chunks.map .update = past ++ c :: rest →
      ∀ copy ∈ (past.foldl MD5.call MD5.reset).call_copies c, copy.1 + copy.2.length ≤ 64) ∧
    m.count_.toNat = chunks.flatten.length ∧
    m.state_ = BlockStream.fold MD5.transform 64 MD5.initial chunks.flatten ∧
    m.buffer_.take (m.count_.toNat % 64) = BlockStream.tail 64 chunks.flatten ∧
    m.hex.2 = (MD5.reset.update chunks.flatten).hex.2 := by
  intro m
  have hAbsorbed : MD5.Absorbed m chunks.flatten := by
    have h := MD5.Absorbed.reset.foldl chunks
    rwa [List.nil_append] at h
  have hCount : m.count_.toNat = chunks.flatten.length := by
    rw [hAbsorbed.count, UInt64.toNat_ofNat', Nat.mod_eq_of_lt hTotal]
  refine ⟨fun past c rest _ => MD5.call_copies_fit _ c, hCount, hAbsorbed.state, ?_,
    hAbsorbed.hex⟩
  rw [hCount]
  exact hAbsorbed.buffer

/-- A message in pieces, one of them empty, after another message and a reset. -/
theorem md5_streaming_abc :
    ([str "a", [], str "bc"].foldl MD5.update
      (([.update (str "xyz"), .finalize].foldl MD5.call MD5.reset).call .reset)).hex.2 =
        (MD5.reset.update (str "abc")).hex.2 := by
  have hTotal : [str "a", [], str "bc"].flatten.length < 2 ^ 64 := by decide
  obtain ⟨-, -, -, -, hHex⟩ := @md5_streaming [.update (str "xyz"), .finalize] _ hTotal
  exact hHex

end Checksum
