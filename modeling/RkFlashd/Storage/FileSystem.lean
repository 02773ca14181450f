import Mathlib

/-! Files as the stdio calls see them: a directory of names, file contents that
outlive their names, and open streams with an offset of their own. Renaming over
a name or unlinking it leaves a stream that is open on the old file where it is.
Streams have no buffer: what one accepts is in its file at once. -/
namespace Storage

abbrev Content := List UInt8

/-- The length of a file is a 64-bit number. -/
def maxFileSize : Nat := 2 ^ 64 - 1

/-- A stream opened for writing. -/
structure Stream where
  inode : Nat
  offset : Nat
  deriving DecidableEq, Repr

/-- Names are unique handles on files: there are no hard links, and every name
and every stream refers to a file that has been created. -/
structure FileSystem (Path : Type) where
  dir : Path → Option Nat
  content : Nat → Content
  stream : Nat → Option Stream
  nextInode : Nat
  nextStream : Nat
  dir_lt : ∀ {path inode}, dir path = some inode → inode < nextInode
  dir_inj : ∀ {path other inode}, dir path = some inode → dir other = some inode → path = other
  stream_lt : ∀ {handle opened}, stream handle = some opened →
    handle < nextStream ∧ opened.inode < nextInode
  size_le : ∀ inode, (content inode).length ≤ maxFileSize

/-- Write `data` over a file from `offset` on. A gap before the offset, which is
there when another stream has truncated the file, reads as zero. -/
def overlay (file : Content) (offset : Nat) (data : Content) : Content :=
  if data = [] then file
  else file.take offset ++ List.replicate (offset - file.length) 0 ++ data ++
    file.drop (offset + data.length)

theorem overlay_length_le {file data : Content} {offset bound : Nat} (hFile : file.length ≤ bound)
    (hData : offset + data.length ≤ bound) : (overlay file offset data).length ≤ bound := by
  unfold overlay
  split
  · exact hFile
  · simp only [List.length_append, List.length_take, List.length_replicate, List.length_drop]
    omega

@[simp] theorem overlay_nil (file : Content) (offset : Nat) : overlay file offset [] = file := by
  simp [overlay]

/-- Writing at the end of a file appends. -/
theorem overlay_end (file data : Content) : overlay file file.length data = file ++ data := by
  unfold overlay
  split
  · rename_i h
    simp [h]
  · simp

namespace FileSystem
variable {Path : Type} [DecidableEq Path]

/-- No files and no streams. -/
def empty : FileSystem Path where
  dir _ := none
  content _ := []
  stream _ := none
  nextInode := 0
  nextStream := 0
  dir_lt := by simp
  dir_inj := by simp
  stream_lt := by simp
  size_le _ := Nat.zero_le _

/-! The primitive updates. Each keeps the invariants of the structure under a
condition that the calls below establish. -/

/-- Replace the content of a file. -/
def set_content (fs : FileSystem Path) (inode : Nat) (file : Content)
    (h : file.length ≤ maxFileSize) : FileSystem Path :=
  { fs with
    content := Function.update fs.content inode file
    size_le := by
      intro other
      by_cases hEq : other = inode
      · simpa [hEq] using h
      · simpa [hEq] using fs.size_le other }

/-- Create an empty file that has no name yet. Its number is the old `nextInode`. -/
def create (fs : FileSystem Path) : FileSystem Path :=
  { fs.set_content fs.nextInode [] (Nat.zero_le _) with
    nextInode := fs.nextInode + 1
    dir_lt := fun h => Nat.lt_succ_of_lt (fs.dir_lt h)
    stream_lt := fun h => ⟨(fs.stream_lt h).1, Nat.lt_succ_of_lt (fs.stream_lt h).2⟩ }

/-- Remove a name. -/
def drop_name (fs : FileSystem Path) (path : Path) : FileSystem Path :=
  { fs with
    dir := Function.update fs.dir path none
    dir_lt := by
      intro other inode h
      by_cases hEq : other = path
      · simp [hEq] at h
      · exact fs.dir_lt (by simpa [hEq] using h)
    dir_inj := by
      intro first second inode hFirst hSecond
      by_cases hA : first = path
      · simp [hA] at hFirst
      · by_cases hB : second = path
        · simp [hB] at hSecond
        · exact fs.dir_inj (by simpa [hA] using hFirst) (by simpa [hB] using hSecond) }

/-- Give a file that has no other name a name, in place of what it named before. -/
def set_name (fs : FileSystem Path) (path : Path) (inode : Nat) (hLt : inode < fs.nextInode)
    (hFree : ∀ other, fs.dir other = some inode → other = path) : FileSystem Path :=
  { fs with
    dir := Function.update fs.dir path (some inode)
    dir_lt := by
      intro other found h
      by_cases hEq : other = path
      · have hFound : inode = found := by simpa [hEq] using h
        exact hFound ▸ hLt
      · exact fs.dir_lt (by simpa [hEq] using h)
    dir_inj := by
      intro first second found hFirst hSecond
      by_cases hA : first = path <;> by_cases hB : second = path
      · rw [hA, hB]
      · have hFound : inode = found := by simpa [hA] using hFirst
        subst hFound
        exact hA.trans (hFree second (by simpa [hB] using hSecond)).symm
      · have hFound : inode = found := by simpa [hB] using hSecond
        subst hFound
        exact (hFree first (by simpa [hA] using hFirst)).trans hB.symm
      · exact fs.dir_inj (by simpa [hA] using hFirst) (by simpa [hB] using hSecond) }

/-- Open, move or close a stream. -/
def set_stream (fs : FileSystem Path) (handle : Nat) (opened : Option Stream)
    (h : ∀ found, opened = some found → handle < fs.nextStream ∧ found.inode < fs.nextInode) :
    FileSystem Path :=
  { fs with
    stream := Function.update fs.stream handle opened
    stream_lt := by
      intro other found hFound
      by_cases hEq : other = handle
      · subst hEq
        exact h found (by simpa using hFound)
      · exact fs.stream_lt (by simpa [hEq] using hFound) }

/-- Open a new stream at the start of a file. Its handle is the old `nextStream`. -/
def open_stream (fs : FileSystem Path) (inode : Nat) (hLt : inode < fs.nextInode) :
    FileSystem Path :=
  set_stream
    { fs with
      nextStream := fs.nextStream + 1
      stream_lt := fun h => ⟨Nat.lt_succ_of_lt (fs.stream_lt h).1, (fs.stream_lt h).2⟩ }
    fs.nextStream (some ⟨inode, 0⟩) (by rintro found ⟨⟩; exact ⟨Nat.lt_succ_self _, hLt⟩)

/-! The calls. A flag or a number says how the outside world makes them fail. -/

/-- The content of a named file. -/
def read (fs : FileSystem Path) (path : Path) : Option Content :=
  (fs.dir path).map fs.content

/-- `access(path, F_OK) == 0`. -/
def exists_path (fs : FileSystem Path) (path : Path) : Bool := (fs.dir path).isSome

def is_open (fs : FileSystem Path) (handle : Nat) : Prop := (fs.stream handle).isSome

/-- `fopen(path, "wb")`: an existing file is truncated and keeps its identity,
otherwise a new one is created. A failed call changes nothing. -/
def fopen (fs : FileSystem Path) (path : Path) (succeeds : Bool) :
    Option Nat × FileSystem Path :=
  if succeeds then
    match hDir : fs.dir path with
    | some inode =>
        (some fs.nextStream,
          (fs.set_content inode [] (Nat.zero_le _)).open_stream inode (fs.dir_lt hDir))
    | none =>
        (some fs.nextStream,
          (fs.create.set_name path fs.nextInode (Nat.lt_succ_self _)
            (fun _ h => absurd (fs.dir_lt h) (Nat.lt_irrefl _))).open_stream fs.nextInode
              (Nat.lt_succ_self _))
  else (none, fs)

/-- How many bytes a write of `data` at an offset stores: all of them, unless the
device fails after `fault` bytes or the file would outgrow its size. -/
def stored (offset : Nat) (data : Content) (fault : Option Nat) : Nat :=
  min data.length (min (fault.getD data.length) (maxFileSize - offset))

theorem stored_le (offset : Nat) (data : Content) (fault : Option Nat) :
    stored offset data fault ≤ data.length := Nat.min_le_left _ _

omit [DecidableEq Path] in
theorem overlay_stored_le (fs : FileSystem Path) (opened : Stream) (data : Content)
    (fault : Option Nat) :
    (overlay (fs.content opened.inode) opened.offset
      (data.take (stored opened.offset data fault))).length ≤ maxFileSize := by
  by_cases hNil : data.take (stored opened.offset data fault) = []
  · rw [hNil, overlay_nil]
    exact fs.size_le _
  · apply overlay_length_le (fs.size_le _)
    have hLength : (data.take (stored opened.offset data fault)).length ≠ 0 := by simpa using hNil
    rw [List.length_take, stored] at *
    omega

/-- `fwrite(data, 1, n, handle)`: what is stored goes to the stream's own offset,
and its length is returned. A stream would keep less than its buffer back until `fclose`, which
nobody can tell who has the file to himself and reads it when it is closed; two streams on one
file can, unless they are written whole buffers. -/
def fwrite (fs : FileSystem Path) (handle : Nat) (data : Content) (fault : Option Nat) :
    Nat × FileSystem Path :=
  match hStream : fs.stream handle with
  | none => (0, fs)
  | some opened =>
      let count := stored opened.offset data fault
      (count,
        (fs.set_content opened.inode
          (overlay (fs.content opened.inode) opened.offset (data.take count))
          (overlay_stored_le fs opened data fault)).set_stream handle
            (some ⟨opened.inode, opened.offset + count⟩)
            (by rintro found ⟨⟩; have hLt := fs.stream_lt hStream; exact hLt))

/-- `fclose(handle)`: the stream is gone in any case. When the flush fails, the
last `lost` bytes written through the stream never reach the file, and the call
returns an error. -/
def fclose (fs : FileSystem Path) (handle : Nat) (lost : Nat) : Bool × FileSystem Path :=
  match fs.stream handle with
  | none => (false, fs)
  | some opened =>
      let file := fs.content opened.inode
      (lost == 0,
        (fs.set_content opened.inode
          (if lost = 0 then file else file.take (opened.offset - lost))
          (by
            have hOld := fs.size_le opened.inode
            split
            · exact hOld
            · exact (List.length_take_le' _ _).trans hOld)).set_stream handle none (by simp))

/-- `unlink(path)`. The file itself stays for the streams open on it. -/
def unlink (fs : FileSystem Path) (path : Path) (succeeds : Bool) : Bool × FileSystem Path :=
  if succeeds then (fs.exists_path path, fs.drop_name path) else (false, fs)

/-- `rename(path, target)`: the name `target` now refers to the file, whatever it
referred to before. Renaming a name to itself does nothing. -/
def rename (fs : FileSystem Path) (path target : Path) (succeeds : Bool) :
    Bool × FileSystem Path :=
  if succeeds then
    match hDir : fs.dir path with
    | none => (false, fs)
    | some inode =>
        if hSame : path = target then (true, fs)
        else
          (true, (fs.drop_name path).set_name target inode (fs.dir_lt hDir) (by
            intro other h
            by_cases hEq : other = path
            · simp [drop_name, hEq] at h
            · have hOld : fs.dir other = some inode := by simpa [drop_name, hEq] using h
              exact absurd (fs.dir_inj hOld hDir) hEq))
  else (false, fs)

/-! What each call does to the directory, the contents and the streams. -/

variable {fs fs' : FileSystem Path} {handle other : Nat} {path target : Path}
  {data written : Content} {opened : Stream}

/-- An opened file is empty, whether or not it was there. -/
theorem fopen_inv {succeeds : Bool} (h : fs.fopen path succeeds = (some handle, fs')) :
    succeeds = true ∧ handle = fs.nextStream ∧ ∃ inode,
      (fs.dir path = some inode ∨ fs.dir path = none ∧ inode = fs.nextInode) ∧
      fs'.dir = Function.update fs.dir path (some inode) ∧
      fs'.content = Function.update fs.content inode [] ∧
      fs'.stream = Function.update fs.stream handle (some ⟨inode, 0⟩) := by
  unfold fopen at h
  split at h
  · rename_i hSucceeds
    split at h
    · rename_i inode hDir
      obtain ⟨rfl, rfl⟩ : fs.nextStream = handle ∧ _ = fs' := by simpa using h
      refine ⟨hSucceeds, rfl, inode, Or.inl hDir, ?_, rfl, rfl⟩
      exact (Function.update_eq_self_iff.mpr hDir.symm).symm
    · rename_i hDir
      obtain ⟨rfl, rfl⟩ : fs.nextStream = handle ∧ _ = fs' := by simpa using h
      exact ⟨hSucceeds, rfl, fs.nextInode, Or.inr ⟨hDir, rfl⟩, rfl, rfl, rfl⟩
  · simp at h

theorem fopen_none {succeeds : Bool} (h : fs.fopen path succeeds = (none, fs')) :
    succeeds = false ∧ fs' = fs := by
  unfold fopen at h
  split at h
  · split at h <;> simp at h
  · rename_i hFails
    exact ⟨by simpa using hFails, by simpa using h.symm⟩

theorem fopen_fails (fs : FileSystem Path) (path : Path) : fs.fopen path false = (none, fs) := rfl

theorem fopen_succeeds (fs : FileSystem Path) (path : Path) :
    ∃ handle fs', fs.fopen path true = (some handle, fs') := by
  cases h : fs.fopen path true with
  | mk result next =>
      cases result with
      | none => exact absurd (fopen_none h).1 (by simp)
      | some handle => exact ⟨handle, next, rfl⟩

omit [DecidableEq Path] in
/-- A write changes one file, and moves the stream behind what it has stored. -/
theorem fwrite_eq (hStream : fs.stream handle = some opened) (data : Content)
    (fault : Option Nat) :
    ∃ next, fs.fwrite handle data fault = (stored opened.offset data fault, next) ∧
      next.dir = fs.dir ∧
      next.content = Function.update fs.content opened.inode
        (overlay (fs.content opened.inode) opened.offset
          (data.take (stored opened.offset data fault))) ∧
      next.stream = Function.update fs.stream handle
        (some ⟨opened.inode, opened.offset + stored opened.offset data fault⟩) := by
  unfold fwrite
  split
  · rename_i hNone
    simp [hStream] at hNone
  · rename_i found hFound
    obtain rfl : opened = found := by simpa [hStream] using hFound
    exact ⟨_, rfl, rfl, rfl, rfl⟩

omit [DecidableEq Path] in
/-- A close ends the stream, and the file may lose its end. -/
theorem fclose_eq (hStream : fs.stream handle = some opened) (lost : Nat) :
    ∃ next, fs.fclose handle lost = (lost == 0, next) ∧
      next.dir = fs.dir ∧
      next.content = Function.update fs.content opened.inode
        (if lost = 0 then fs.content opened.inode
          else (fs.content opened.inode).take (opened.offset - lost)) ∧
      next.stream = Function.update fs.stream handle none := by
  unfold fclose
  simp only [hStream]
  exact ⟨_, rfl, rfl, rfl, rfl⟩

/-- An unlink takes away the name only. -/
theorem unlink_eq (fs : FileSystem Path) (path : Path) :
    ∃ next, fs.unlink path true = (fs.exists_path path, next) ∧
      next.dir = Function.update fs.dir path none ∧
      next.content = fs.content ∧ next.stream = fs.stream :=
  ⟨_, rfl, rfl, rfl, rfl⟩

/-- A rename moves the name only. -/
theorem rename_eq {inode : Nat} (hDir : fs.dir path = some inode) (hNe : path ≠ target) :
    ∃ next, fs.rename path target true = (true, next) ∧
      next.dir = Function.update (Function.update fs.dir path none) target (some inode) ∧
      next.content = fs.content ∧ next.stream = fs.stream := by
  unfold rename
  split
  · split
    · rename_i hNone
      simp [hDir] at hNone
    · rename_i found hFound
      obtain rfl : inode = found := by simpa [hDir] using hFound
      exact ⟨_, rfl, rfl, rfl, rfl⟩
  · contradiction

omit [DecidableEq Path] in
theorem fwrite_closed (h : fs.stream handle = none) (data : Content) (fault : Option Nat) :
    fs.fwrite handle data fault = (0, fs) := by
  unfold fwrite
  split
  · rfl
  · rename_i found hFound
    simp [h] at hFound

omit [DecidableEq Path] in
theorem fclose_closed (h : fs.stream handle = none) (lost : Nat) :
    fs.fclose handle lost = (false, fs) := by
  simp [fclose, h]

theorem rename_missing (h : fs.dir path = none) (target : Path) (succeeds : Bool) :
    fs.rename path target succeeds = (false, fs) := by
  unfold rename
  split
  · split
    · rfl
    · rename_i found hFound
      simp [h] at hFound
  · rfl

theorem rename_self (fs : FileSystem Path) (path : Path) (succeeds : Bool) :
    (fs.rename path path succeeds).2 = fs := by
  unfold rename
  split
  · split <;> simp
  · rfl

theorem rename_fails (fs : FileSystem Path) (path target : Path) :
    fs.rename path target false = (false, fs) := rfl

@[simp] theorem unlink_stream (fs : FileSystem Path) (path : Path) (succeeds : Bool) :
    ((fs.unlink path succeeds).2).stream = fs.stream := by
  cases succeeds <;> rfl

@[simp] theorem rename_stream (fs : FileSystem Path) (path target : Path) (succeeds : Bool) :
    ((fs.rename path target succeeds).2).stream = fs.stream := by
  unfold rename
  split
  · split
    · rfl
    · split <;> rfl
  · rfl

theorem fopen_nextStream {succeeds : Bool} (h : fs.fopen path succeeds = (some handle, fs')) :
    handle = fs.nextStream ∧ fs'.nextStream = fs.nextStream + 1 := by
  unfold fopen at h
  split at h
  · split at h
    · obtain ⟨rfl, rfl⟩ : fs.nextStream = handle ∧ _ = fs' := by simpa using h
      exact ⟨rfl, rfl⟩
    · obtain ⟨rfl, rfl⟩ : fs.nextStream = handle ∧ _ = fs' := by simpa using h
      exact ⟨rfl, rfl⟩
  · simp at h

omit [DecidableEq Path] in
@[simp] theorem fwrite_nextStream (fs : FileSystem Path) (handle : Nat) (data : Content)
    (fault : Option Nat) : ((fs.fwrite handle data fault).2).nextStream = fs.nextStream := by
  unfold fwrite
  split <;> rfl

omit [DecidableEq Path] in
@[simp] theorem fclose_nextStream (fs : FileSystem Path) (handle lost : Nat) :
    ((fs.fclose handle lost).2).nextStream = fs.nextStream := by
  unfold fclose
  split <;> rfl

@[simp] theorem unlink_nextStream (fs : FileSystem Path) (path : Path) (succeeds : Bool) :
    ((fs.unlink path succeeds).2).nextStream = fs.nextStream := by
  cases succeeds <;> rfl

@[simp] theorem rename_nextStream (fs : FileSystem Path) (path target : Path) (succeeds : Bool) :
    ((fs.rename path target succeeds).2).nextStream = fs.nextStream := by
  unfold rename
  split
  · split
    · rfl
    · split <;> rfl
  · rfl

/-! The rules for a file that a stream is writing from its beginning. -/

/-- The stream `handle` is at the end of the file called `path`, and `written` is all
that the file holds. -/
def Writing (fs : FileSystem Path) (handle : Nat) (path : Path) (written : Content) : Prop :=
  ∃ inode, fs.stream handle = some ⟨inode, written.length⟩ ∧ fs.dir path = some inode ∧
    fs.content inode = written

omit [DecidableEq Path] in
theorem Writing.read (h : fs.Writing handle path written) : fs.read path = some written := by
  obtain ⟨inode, -, hDir, hContent⟩ := h
  simp [FileSystem.read, hDir, hContent]

omit [DecidableEq Path] in
theorem Writing.is_open (h : fs.Writing handle path written) : fs.is_open handle := by
  obtain ⟨inode, hStream, -⟩ := h
  simp [FileSystem.is_open, hStream]

omit [DecidableEq Path] in
theorem Writing.length_le (h : fs.Writing handle path written) :
    written.length ≤ maxFileSize := by
  obtain ⟨inode, -, -, rfl⟩ := h
  exact fs.size_le inode

/-- Opening a name starts its file from nothing. -/
theorem Writing.of_fopen {succeeds : Bool} (h : fs.fopen path succeeds = (some handle, fs')) :
    fs'.Writing handle path [] := by
  obtain ⟨-, -, inode, -, hDir, hContent, hStream⟩ := fopen_inv h
  exact ⟨inode, by simp [hStream], by simp [hDir], by simp [hContent]⟩

omit [DecidableEq Path] in
/-- A write appends what it stores, and says how much that is. -/
theorem Writing.fwrite (h : fs.Writing handle path written) (data : Content)
    (fault : Option Nat) :
    ∃ next, fs.fwrite handle data fault = (stored written.length data fault, next) ∧
      next.Writing handle path (written ++ data.take (stored written.length data fault)) := by
  obtain ⟨inode, hStream, hDir, rfl⟩ := h
  obtain ⟨next, hEq, hNextDir, hNextContent, hNextStream⟩ := fwrite_eq hStream data fault
  refine ⟨next, hEq, inode, ?_, by rw [hNextDir, hDir], ?_⟩
  · rw [hNextStream, Function.update_self, List.length_append,
      List.length_take_of_le (stored_le _ _ _)]
  · simp only [hNextContent, Function.update_self, overlay_end]

omit [DecidableEq Path] in
/-- Closing leaves the file with all but the bytes the flush lost. -/
theorem Writing.fclose (h : fs.Writing handle path written) (lost : Nat) :
    ∃ next, fs.fclose handle lost = (lost == 0, next) ∧ ¬ next.is_open handle ∧
      next.read path = some (written.take (written.length - lost)) := by
  obtain ⟨inode, hStream, hDir, rfl⟩ := h
  obtain ⟨next, hEq, hNextDir, hNextContent, hNextStream⟩ := fclose_eq hStream lost
  refine ⟨next, hEq, by simp [FileSystem.is_open, hNextStream], ?_⟩
  by_cases hLost : lost = 0
  · simp [FileSystem.read, hNextDir, hDir, hNextContent, hLost]
  · simp [FileSystem.read, hNextDir, hDir, hNextContent, hLost]

theorem unlink_read (fs : FileSystem Path) (path : Path) :
    ((fs.unlink path true).2).read path = none := by
  obtain ⟨next, hEq, hDir, -⟩ := unlink_eq fs path
  simp [hEq, read, hDir]

/-- After a rename the file is found under its new name only. -/
theorem rename_read {file : Content} (h : fs.read path = some file) (hNe : path ≠ target) :
    ∃ next, fs.rename path target true = (true, next) ∧ next.read target = some file ∧
      next.read path = none ∧ next.stream = fs.stream ∧ next.content = fs.content := by
  obtain ⟨inode, hDir, rfl⟩ := Option.map_eq_some_iff.mp h
  obtain ⟨next, hEq, hNextDir, hContent, hStream⟩ := rename_eq hDir hNe
  refine ⟨next, hEq, ?_, ?_, hStream, hContent⟩
  · simp [FileSystem.read, hNextDir, hContent]
  · simp [FileSystem.read, hNextDir, Function.update_of_ne hNe]

/-! What a call on one file leaves alone. -/

/-- The file called `path` is under its name as before, with what it held. -/
def Untouched (fs fs' : FileSystem Path) (path : Path) : Prop :=
  fs'.dir path = fs.dir path ∧
    ∀ inode, fs.dir path = some inode → fs'.content inode = fs.content inode

omit [DecidableEq Path] in
theorem Untouched.refl (fs : FileSystem Path) (path : Path) : Untouched fs fs path :=
  ⟨rfl, fun _ _ => rfl⟩

omit [DecidableEq Path] in
theorem Untouched.trans {later : FileSystem Path} (h : Untouched fs fs' path)
    (hLater : Untouched fs' later path) : Untouched fs later path :=
  ⟨hLater.1.trans h.1, fun inode hInode =>
    (hLater.2 inode (h.1.trans hInode)).trans (h.2 inode hInode)⟩

omit [DecidableEq Path] in
theorem Untouched.read (h : Untouched fs fs' path) : fs'.read path = fs.read path := by
  cases hDir : fs.dir path with
  | none => simp [FileSystem.read, h.1, hDir]
  | some inode => simp [FileSystem.read, h.1, hDir, h.2 inode hDir]

omit [DecidableEq Path] in
theorem Untouched.writing (h : Untouched fs fs' path)
    (hStream : fs'.stream handle = fs.stream handle) (hWriting : fs.Writing handle path written) :
    fs'.Writing handle path written := by
  obtain ⟨inode, hOpened, hDir, hContent⟩ := hWriting
  exact ⟨inode, hStream.trans hOpened, h.1.trans hDir, (h.2 inode hDir).trans hContent⟩

theorem fopen_untouched {succeeds : Bool} (h : fs.fopen target succeeds = (some handle, fs'))
    (hNe : path ≠ target) : Untouched fs fs' path := by
  obtain ⟨-, -, inode, hInode, hDir, hContent, -⟩ := fopen_inv h
  refine ⟨by rw [hDir, Function.update_of_ne hNe], fun found hFound => ?_⟩
  have hOther : found ≠ inode := by
    rintro rfl
    rcases hInode with hTarget | ⟨-, hNew⟩
    · exact hNe (fs.dir_inj hFound hTarget)
    · exact absurd (fs.dir_lt hFound) (by omega)
  rw [hContent, Function.update_of_ne hOther]

theorem fopen_stream {succeeds : Bool} (h : fs.fopen target succeeds = (some handle, fs'))
    (hOther : (fs.stream other).isSome) : fs'.stream other = fs.stream other := by
  obtain ⟨-, hHandle, inode, -, -, -, hStream⟩ := fopen_inv h
  obtain ⟨opened, hOpened⟩ := Option.isSome_iff_exists.mp hOther
  have hLt := (fs.stream_lt hOpened).1
  rw [hStream, Function.update_of_ne (by omega)]

omit [DecidableEq Path] in
/-- A write goes to the file its stream is open on. -/
theorem fwrite_untouched (data : Content) (fault : Option Nat)
    (h : ∀ opened, fs.stream other = some opened → fs.dir path ≠ some opened.inode) :
    Untouched fs (fs.fwrite other data fault).2 path := by
  cases hStream : fs.stream other with
  | none => rw [fwrite_closed hStream]; exact Untouched.refl fs path
  | some opened =>
      obtain ⟨next, hEq, hDir, hContent, -⟩ := fwrite_eq hStream data fault
      rw [hEq]
      refine ⟨congrFun hDir path, fun inode hInode => ?_⟩
      have hNe : inode ≠ opened.inode := by
        rintro rfl
        exact h opened hStream hInode
      rw [hContent, Function.update_of_ne hNe]

omit [DecidableEq Path] in
theorem fwrite_stream (data : Content) (fault : Option Nat) (hNe : handle ≠ other) :
    (fs.fwrite other data fault).2.stream handle = fs.stream handle := by
  cases hStream : fs.stream other with
  | none => rw [fwrite_closed hStream]
  | some opened =>
      obtain ⟨next, hEq, -, -, hNext⟩ := fwrite_eq hStream data fault
      rw [hEq, hNext, Function.update_of_ne hNe]

omit [DecidableEq Path] in
/-- Closing a stream whose data are all flushed changes no file. -/
theorem fclose_untouched (fs : FileSystem Path) (other : Nat) (path : Path) :
    Untouched fs (fs.fclose other 0).2 path := by
  cases hStream : fs.stream other with
  | none => rw [fclose_closed hStream]; exact Untouched.refl fs path
  | some opened =>
      obtain ⟨next, hEq, hDir, hContent, -⟩ := fclose_eq hStream 0
      rw [hEq]
      refine ⟨congrFun hDir path, fun inode _ => ?_⟩
      rw [hContent, if_pos rfl, Function.update_eq_self]

omit [DecidableEq Path] in
theorem fclose_stream (lost : Nat) (hNe : handle ≠ other) :
    (fs.fclose other lost).2.stream handle = fs.stream handle := by
  cases hStream : fs.stream other with
  | none => rw [fclose_closed hStream]
  | some opened =>
      obtain ⟨next, hEq, -, -, hNext⟩ := fclose_eq hStream lost
      rw [hEq, hNext, Function.update_of_ne hNe]

theorem rename_untouched {source : Path} (succeeds : Bool) (hSource : path ≠ source)
    (hTarget : path ≠ target) : Untouched fs (fs.rename source target succeeds).2 path := by
  cases hDir : fs.dir source with
  | none => rw [rename_missing hDir]; exact Untouched.refl fs path
  | some inode =>
      cases succeeds with
      | false => rw [rename_fails]; exact Untouched.refl fs path
      | true =>
          by_cases hSame : source = target
          · rw [hSame, rename_self]
            exact Untouched.refl fs path
          · obtain ⟨next, hEq, hNextDir, hContent, -⟩ := rename_eq hDir hSame
            rw [hEq]
            refine ⟨?_, fun found _ => congrFun hContent found⟩
            rw [hNextDir, Function.update_of_ne hTarget, Function.update_of_ne hSource]

theorem unlink_untouched {source : Path} (succeeds : Bool) (hSource : path ≠ source) :
    Untouched fs (fs.unlink source succeeds).2 path := by
  cases succeeds with
  | false => exact Untouched.refl fs path
  | true =>
      obtain ⟨next, hEq, hDir, hContent, -⟩ := unlink_eq fs source
      rw [hEq]
      exact ⟨by rw [hDir, Function.update_of_ne hSource], fun inode _ => congrFun hContent inode⟩

end FileSystem
end Storage
