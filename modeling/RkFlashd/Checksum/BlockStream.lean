import Mathlib

/-! Hashing a message block by block, for any compression function and block
size. What matters about a streaming hash is that feeding more input continues
from the folded blocks and the incomplete tail; the chunking is then irrelevant. -/
namespace BlockStream

variable {State Symbol : Type*} (compress : State → List Symbol → State) (size : Nat)

/-- Compress the first `count` blocks. -/
def blocks : Nat → State → List Symbol → State
  | 0, s, _ => s
  | count + 1, s, message => blocks count (compress s (message.take size)) (message.drop size)

/-- Compress every complete block of a message. -/
def fold (s : State) (message : List Symbol) : State :=
  blocks compress size (message.length / size) s message

/-- The incomplete block at the end of a message. -/
def tail (message : List Symbol) : List Symbol := message.drop (message.length / size * size)

variable {compress size}

/-- Whole blocks first, the others after them. -/
theorem blocks_append {first : List Symbol} (rest : List Symbol) {count : Nat} (more : Nat)
    (s : State) (h : first.length = count * size) :
    blocks compress size (count + more) s (first ++ rest) =
      blocks compress size more (blocks compress size count s first) rest := by
  induction count generalizing first s with
  | zero =>
      have hNil : first = [] := List.length_eq_zero_iff.mp (by simpa using h)
      simp [hNil, blocks]
  | succ count ih =>
      have hSize : size ≤ first.length := by
        rw [h, Nat.succ_mul]
        exact Nat.le_add_left _ _
      have hDrop : (first.drop size).length = count * size := by
        rw [List.length_drop, h, Nat.succ_mul, Nat.add_sub_cancel]
      rw [Nat.succ_add, blocks, blocks, List.take_append_of_le_length hSize,
        List.drop_append_of_le_length hSize, ih _ hDrop]

theorem tail_length (size : Nat) (message : List Symbol) :
    (tail size message).length = message.length % size := by
  rw [tail, List.length_drop, Nat.mod_eq_sub_div_mul]

theorem tail_length_lt (hSize : 0 < size) (message : List Symbol) :
    (tail size message).length < size := by
  rw [tail_length]
  exact Nat.mod_lt _ hSize

@[simp] theorem fold_nil (s : State) : fold compress size s [] = s := by
  simp [fold, blocks]

@[simp] theorem tail_nil : tail size ([] : List Symbol) = [] := by
  simp [tail]

theorem fold_of_length_lt {message : List Symbol} (h : message.length < size) (s : State) :
    fold compress size s message = s := by
  simp [fold, Nat.div_eq_of_lt h, blocks]

theorem tail_of_length_lt {message : List Symbol} (h : message.length < size) :
    tail size message = message := by
  simp [tail, Nat.div_eq_of_lt h]

/-- Blocks cut off the front of a message can be compressed first. -/
theorem fold_append_of_dvd (hSize : 0 < size) {first : List Symbol} {count : Nat}
    (h : first.length = count * size) (s : State) (rest : List Symbol) :
    fold compress size s (first ++ rest) =
      fold compress size (blocks compress size count s first) rest := by
  have hCount : (first ++ rest).length / size = count + rest.length / size := by
    rw [List.length_append, h, Nat.add_comm, Nat.add_mul_div_right _ _ hSize, Nat.add_comm]
  rw [fold, hCount, blocks_append _ _ _ h, fold]

theorem tail_append_of_dvd (hSize : 0 < size) {first : List Symbol} {count : Nat}
    (h : first.length = count * size) (rest : List Symbol) :
    tail size (first ++ rest) = tail size rest := by
  have hCount :
      (first ++ rest).length / size * size = first.length + rest.length / size * size := by
    rw [List.length_append, h, Nat.add_comm, Nat.add_mul_div_right _ _ hSize, Nat.add_mul,
      Nat.add_comm]
  rw [tail, hCount, List.drop_append, List.drop_eq_nil_of_le (by omega), tail]
  simp

private theorem exists_split (size : Nat) (message : List Symbol) :
    ∃ first, message = first ++ tail size message ∧
      first.length = message.length / size * size := by
  refine ⟨message.take (message.length / size * size), ?_, ?_⟩
  · exact (List.take_append_drop _ _).symm
  · exact List.length_take_of_le (Nat.div_mul_le_self _ _)

/-- The streaming law: more input continues from the compressed blocks, with the
old tail put in front of it. -/
theorem fold_append (hSize : 0 < size) (s : State) (message more : List Symbol) :
    fold compress size s (message ++ more) =
      fold compress size (fold compress size s message) (tail size message ++ more) := by
  obtain ⟨first, hSplit, hLength⟩ := exists_split size message
  have hFold : fold compress size s message =
      blocks compress size (message.length / size) s first := by
    conv_lhs => rw [hSplit, fold_append_of_dvd hSize hLength]
    exact fold_of_length_lt (tail_length_lt hSize message) _
  conv_lhs => rw [hSplit, List.append_assoc, fold_append_of_dvd hSize hLength]
  rw [hFold]

/-- What is left of a stream depends on what was left of its first part. -/
theorem tail_append (hSize : 0 < size) (message more : List Symbol) :
    tail size (message ++ more) = tail size (tail size message ++ more) := by
  obtain ⟨first, hSplit, hLength⟩ := exists_split size message
  conv_lhs => rw [hSplit, List.append_assoc, tail_append_of_dvd hSize hLength]

/-- One block at the front. -/
theorem fold_block (hSize : 0 < size) {block : List Symbol} (h : block.length = size) (s : State)
    (rest : List Symbol) :
    fold compress size s (block ++ rest) = fold compress size (compress s block) rest := by
  rw [fold_append_of_dvd hSize (show block.length = 1 * size by simpa using h)]
  simp [blocks, ← h]

theorem tail_block (hSize : 0 < size) {block : List Symbol} (h : block.length = size)
    (rest : List Symbol) : tail size (block ++ rest) = tail size rest :=
  tail_append_of_dvd hSize (show block.length = 1 * size by simpa using h) rest

end BlockStream
