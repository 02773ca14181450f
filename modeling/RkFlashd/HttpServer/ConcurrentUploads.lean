import RkFlashd.Machine.Execution
import RkFlashd.HttpServer.Multipart

/-! Many uploads at a time on the one server thread: their calls interleave, and the
directory of the files is all they share. -/
namespace RkFlashd

open Text Transition

/-- The files and the requests seen so far. A request that has had its last call is gone. -/
structure UploadServer where
  fs : FileSystem
  requests : List (Option ConnectionState)

inductive UploadAction where
  | request
  | post (id : Nat) (p : Post)
  | finish (id : Nat) (io : Io)
  deriving DecidableEq, Repr

namespace UploadServer

def find (s : UploadServer) (id : Nat) : Option ConnectionState := (s.requests[id]?).join

def put (s : UploadServer) (id : Nat) (fs : FileSystem) (state : Option ConnectionState) :
    UploadServer :=
  ⟨fs, s.requests.set id state⟩

end UploadServer

/-- The calls of `accessHandler` for `POST /api/upload`, the first of a request and those
for the pieces of its body, and the last. -/
def upload_server (cfg : Config) : Machine UploadServer UploadAction (Option Response) :=
  fun s action =>
    match action with
    | .request =>
        some ({ s with requests := s.requests ++ [some (upload_request s.fs).state] }, none)
    | .post id p =>
        (s.find id).map fun state =>
          let (c, response) := handleUpload cfg {} (some [p]) ⟨state, s.fs⟩
          (s.put id c.fs (some c.state), response)
    | .finish id io =>
        (s.find id).map fun state =>
          let (c, response) := handleUpload cfg io none ⟨state, s.fs⟩
          (s.put id c.fs none, response)

abbrev UploadLabel := UploadAction × Option Response

/-- What a request has been sent. -/
def sent (id : Nat) (trace : List UploadLabel) : Bytes :=
  trace.flatMap fun label =>
    match label.1 with
    | .post other p => if other = id then p.part.data else []
    | _ => []

/-- The name under which a request is receiving a file. -/
def receiving (s : UploadServer) (id : Nat) : Option Bytes :=
  (s.find id).bind fun state =>
    if state.upload_file.isSome then some (c_str state.upload_tmp_path) else none

/-- The name that a step puts a file under, for its request. -/
def takes_name (cfg : Config) (s : UploadServer) : UploadAction → Option (Nat × Bytes)
  | .request => none
  | .post id p =>
      match s.find id, p.part.filename with
      | some state, some filename =>
          if state.upload_tmp_path = [] then
            some (id, cfg.in_upload_dir (upload_tmp_name p.now filename))
          else none
      | _, _ => none
  | .finish id _ => (s.find id).map fun state => (id, cfg.in_upload_dir state.upload_filename)

/-- A step does not put a file under the name that another request is receiving under. -/
def Apart (cfg : Config) (s : UploadServer) (label : UploadLabel) : Prop :=
  ∀ taken ∈ takes_name cfg s label.1, ∀ other < s.requests.length,
    other ≠ taken.1 → receiving s other ≠ some taken.2

/-- The request `id` is one `firmware` part with an acceptable filename. -/
def SinglePart (names : Nat → Bytes) (label : UploadLabel) : Prop :=
  match label.1 with
  | .post id p =>
      p.part.key = some (str "firmware") ∧ p.part.filename = some (names id) ∧
        validate_filename (names id) = true
  | _ => True

/-- No file call fails, and no file outgrows its size. -/
def CallsSucceed (s : UploadServer) (label : UploadLabel) : Prop :=
  match label.1 with
  | .request => True
  | .post id p =>
      p.io = {} ∧ ∀ state ∈ s.find id,
        state.upload_size.toNat + p.part.data.length ≤ Storage.maxFileSize
  | .finish _ io => io = {}

instance (cfg : Config) (s : UploadServer) (label : UploadLabel) : Decidable (Apart cfg s label) :=
  inferInstanceAs (Decidable (∀ taken ∈ takes_name cfg s label.1, _))

instance (names : Nat → Bytes) : (label : UploadLabel) → Decidable (SinglePart names label)
  | (.request, _) => isTrue trivial
  | (.post _ _, _) => inferInstanceAs (Decidable (_ ∧ _))
  | (.finish _ _, _) => isTrue trivial

instance (s : UploadServer) : (label : UploadLabel) → Decidable (CallsSucceed s label)
  | (.request, _) => isTrue trivial
  | (.post id p, _) => inferInstanceAs (Decidable (p.io = {} ∧ ∀ state ∈ s.find id, _))
  | (.finish _ io, _) => inferInstanceAs (Decidable (io = {}))

/-- Steps of single-part requests that meet no failure and keep apart. -/
def UploadStep (cfg : Config) (names : Nat → Bytes) :
    UploadServer → UploadLabel → UploadServer → Prop :=
  Guarded (upload_server cfg).Step fun s label =>
    SinglePart names label ∧ CallsSucceed s label ∧ Apart cfg s label

/-- A call leaves the file called `path` and the stream `handle` as they are. -/
structure Spares (path : Bytes) (handle : Option Nat) (fs fs' : FileSystem) : Prop where
  file : Storage.FileSystem.Untouched fs fs' path
  stream : ∀ own, handle = some own → (fs.stream own).isSome = true →
    fs'.stream own = fs.stream own

section Frames

variable {cfg : Config} {p : Post} {c : Connection} {f bytes other_bytes : Bytes} {path : Bytes}
  {file : Nat} {handle : Option Nat} {fs fs' next : FileSystem}

theorem Spares.refl (path : Bytes) (handle : Option Nat) (fs : FileSystem) :
    Spares path handle fs fs := ⟨.refl fs path, fun _ _ _ => rfl⟩

theorem Spares.trans (h : Spares path handle fs fs') (hLater : Spares path handle fs' next) :
    Spares path handle fs next where
  file := h.file.trans hLater.file
  stream := by
    intro own hOwn hOpen
    have hFirst := h.stream own hOwn hOpen
    exact (hLater.stream own hOwn (hFirst ▸ hOpen)).trans hFirst

theorem Spares.writing (h : Spares path (some file) fs fs')
    (hWriting : fs.Writing file path bytes) : fs'.Writing file path bytes :=
  h.file.writing (h.stream file rfl hWriting.is_open) hWriting

theorem fopen_spares {name : Bytes} {file : Nat} (hOpen : fs.fopen name true = (some file, fs'))
    (hName : path ≠ name) : Spares path handle fs fs' where
  file := Storage.FileSystem.fopen_untouched hOpen hName
  stream _ _ hOwn := Storage.FileSystem.fopen_stream hOpen hOwn

theorem write_part_spares (hHandle : ∀ file, c.state.upload_file = some file → handle ≠ some file)
    (hWrites : p.part.data ≠ [] → ∀ opened, c.state.upload_file.bind c.fs.stream = some opened →
      c.fs.dir path ≠ some opened.inode) :
    Spares path handle c.fs (write_part p c).fs := by
  unfold write_part
  split
  · exact .refl path handle c.fs
  · rename_i file hFile
    split
    · exact .refl path handle c.fs
    · rename_i hData
      refine ⟨Storage.FileSystem.fwrite_untouched _ _ fun opened hOpened => ?_,
        fun own hOwn _ => Storage.FileSystem.fwrite_stream _ _ ?_⟩
      · exact hWrites hData opened (by rw [hFile]; exact hOpened)
      · rintro rfl
        exact hHandle own hFile hOwn

/-- The end of a request touches nothing but its own file, its old name and its new one. -/
theorem save_upload_spares (hHandle : handle ≠ some file)
    (hTmp : path ≠ c_str c.state.upload_tmp_path)
    (hFinal : path ≠ c_str (cfg.in_upload_dir c.state.upload_filename)) :
    Spares path handle c.fs (save_upload cfg {} file c).1.fs := by
  have hClosed : Spares path handle c.fs (c.fs.fclose file 0).2 := by
    refine ⟨Storage.FileSystem.fclose_untouched c.fs file _, fun own hOwn _ => ?_⟩
    apply Storage.FileSystem.fclose_stream
    rintro rfl
    exact hHandle hOwn
  unfold save_upload
  dsimp only
  split
  · refine hClosed.trans ⟨Storage.FileSystem.unlink_untouched true hTmp, fun own _ _ => ?_⟩
    rw [Storage.FileSystem.unlink_stream]
  · split
    · have hMoved : Spares path handle (c.fs.fclose file 0).2
          ((c.fs.fclose file 0).2.rename (c_str c.state.upload_tmp_path)
            (c_str (cfg.in_upload_dir c.state.upload_filename)) true).2 := by
        refine ⟨Storage.FileSystem.rename_untouched true hTmp hFinal, fun own _ _ => ?_⟩
        rw [Storage.FileSystem.rename_stream]
      split
      · rename_i fs hRename
        rw [hRename] at hMoved
        exact hClosed.trans hMoved
      · rename_i fs hRename
        rw [hRename] at hMoved
        exact hClosed.trans hMoved
    · exact hClosed

/-- Two files that are being written are different ones. -/
theorem writing_inj {fs : FileSystem} {handle : Nat} {other : Bytes}
    (h : fs.Writing handle path bytes) (hOther : fs.Writing handle other other_bytes) :
    path = other := by
  obtain ⟨inode, hStream, hDir, -⟩ := h
  obtain ⟨found, hFound, hOtherDir, -⟩ := hOther
  have hInode : inode = found := by
    rw [hStream] at hFound
    exact congrArg Storage.Stream.inode (Option.some.inj hFound)
  subst hInode
  exact fs.dir_inj hDir hOtherDir

/-- A request writes to its own file. -/
theorem write_part_frame (h : Opened cfg f bytes c) (hPath : path ≠ c_str c.state.upload_tmp_path)
    (hOther : c.fs.Writing file path other_bytes) :
    (write_part p c).fs.Writing file path other_bytes := by
  obtain ⟨own, hOwn, hWriting⟩ := h.file
  have hSpares : Spares path (some file) c.fs (write_part p c).fs := by
    apply write_part_spares
    · rintro found hFound ⟨⟩
      rw [hOwn] at hFound
      cases hFound
      exact hPath (writing_inj hOther hWriting)
    · intro _ opened hOpened hSame
      obtain ⟨inode, hStream, hTmp, -⟩ := hWriting
      rw [hOwn, Option.bind_some, hStream] at hOpened
      cases hOpened
      exact hPath (c.fs.dir_inj hSame hTmp)
  exact hSpares.writing hOther

theorem post_data_frame (h : Opened cfg f bytes c)
    (hPath : path ≠ c_str c.state.upload_tmp_path)
    (hOther : c.fs.Writing file path other_bytes) :
    (post_data cfg p c).1.fs.Writing file path other_bytes := by
  cases hWritten : written p.part.key p.part.filename with
  | true =>
      rw [post_data_written hWritten (Or.inr h.tmp_path_ne_nil)]
      exact write_part_frame h hPath hOther
  | false =>
      obtain ⟨error, hResult⟩ := post_data_ignored cfg c hWritten
      rw [hResult]
      exact hOther

theorem accepted_path (cfg : Config) (c : Connection) (hNil : c.state.upload_tmp_path = [])
    (hAccepted : accepted p.part.key p.part.filename = some f) (hOpen : p.io.fopen = true) :
    (post_data cfg p c).1.state.upload_tmp_path =
      cfg.in_upload_dir (upload_tmp_name p.now f) := by
  obtain ⟨own, fs, hFile⟩ :=
    c.fs.fopen_succeeds (c_str (cfg.in_upload_dir (upload_tmp_name p.now f)))
  rw [← hOpen] at hFile
  rw [post_data_opens hAccepted hNil hFile, write_part_tmp_path]

theorem opened_path (h : Opened cfg f bytes c) (p : Post) :
    (post_data cfg p c).1.state.upload_tmp_path = c.state.upload_tmp_path := by
  cases hWritten : written p.part.key p.part.filename with
  | true => rw [post_data_written hWritten (Or.inr h.tmp_path_ne_nil), write_part_tmp_path]
  | false =>
      obtain ⟨error, hResult⟩ := post_data_ignored cfg c hWritten
      rw [hResult]

/-- Opening a file leaves the files under other names alone. -/
theorem accepted_opens_frame (hPp : c.state.pp = true) (hNil : c.state.upload_tmp_path = [])
    (hAccepted : accepted p.part.key p.part.filename = some f) (hOpen : p.io.fopen = true)
    (hPath : path ≠ cfg.in_upload_dir (upload_tmp_name p.now f))
    (hOther : c.fs.Writing file path other_bytes) :
    (post_data cfg p c).1.fs.Writing file path other_bytes := by
  obtain ⟨-, -, hValid, -⟩ := written_of_accepted hAccepted
  have hTmp : c_str (cfg.in_upload_dir (upload_tmp_name p.now f)) =
      cfg.in_upload_dir (upload_tmp_name p.now f) :=
    c_str_in_upload_dir_eq (upload_tmp_name_no_nul p.now hValid)
  obtain ⟨own, fs, hFile⟩ :=
    c.fs.fopen_succeeds (c_str (cfg.in_upload_dir (upload_tmp_name p.now f)))
  rw [← hOpen] at hFile
  rw [post_data_opens hAccepted hNil hFile]
  have hStart : Opened cfg f [] ⟨{ c.state with
      upload_filename := f, upload_tmp_path := cfg.in_upload_dir (upload_tmp_name p.now f),
      upload_file := some own }, fs⟩ :=
    ⟨hPp, rfl, hValid, ⟨p.now, rfl⟩, own, rfl, Storage.FileSystem.Writing.of_fopen hFile⟩
  rw [hOpen, hTmp] at hFile
  apply write_part_frame hStart (by rw [hTmp]; exact hPath)
  exact (fopen_spares hFile hPath).writing hOther

/-- The end of an upload leaves the files under other names alone. -/
theorem save_upload_frame (h : Opened cfg f bytes c) {own : Nat}
    (hOwn : c.state.upload_file = some own) (hPath : path ≠ c_str c.state.upload_tmp_path)
    (hFinal : path ≠ cfg.in_upload_dir f) (hOther : c.fs.Writing file path other_bytes) :
    (save_upload cfg {} own c).1.fs.Writing file path other_bytes := by
  obtain ⟨opened, hOpened, hWriting⟩ := h.file
  obtain rfl : opened = own := by simpa [hOpened] using hOwn
  have hName : c_str (cfg.in_upload_dir f) = cfg.in_upload_dir f :=
    c_str_in_upload_dir_eq (valid_no_nul h.valid)
  have hSpares : Spares path (some file) c.fs (save_upload cfg {} opened c).1.fs := by
    apply save_upload_spares _ hPath
    · rw [h.filename, hName]
      exact hFinal
    · rintro ⟨⟩
      exact hPath (writing_inj hOther hWriting)
  exact hSpares.writing hOther

end Frames

namespace UploadServer

variable {s : UploadServer} {id other : Nat} {fs : FileSystem} {state : Option ConnectionState}

theorem lt_of_find {found : ConnectionState} (h : s.find id = some found) :
    id < s.requests.length := by
  unfold find at h
  by_contra hLe
  rw [List.getElem?_eq_none (by omega)] at h
  cases h

/-- A new request stands behind those that were there. -/
theorem find_arrived {found state : ConnectionState}
    (h : (UploadServer.mk s.fs (s.requests ++ [some state])).find other = some found) :
    s.find other = some found ∨ other = s.requests.length ∧ found = state := by
  rcases Nat.lt_trichotomy other s.requests.length with hLt | hEq | hGt
  · left
    simpa [UploadServer.find, List.getElem?_append_left hLt] using h
  · right
    exact ⟨hEq, by simpa [UploadServer.find, hEq, eq_comm] using h⟩
  · rw [UploadServer.find, List.getElem?_eq_none (by simpa using hGt)] at h
    cases h

theorem find_put (h : id < s.requests.length) : (s.put id fs state).find id = state := by
  simp [find, put, h]

theorem find_put_of_ne (h : other ≠ id) : (s.put id fs state).find other = s.find other := by
  simp [find, put, List.getElem?_set_ne (Ne.symm h)]

end UploadServer

theorem receiving_some {s : UploadServer} {id : Nat} {path : Bytes} :
    receiving s id = some path ↔ ∃ state, s.find id = some state ∧
      state.upload_file.isSome = true ∧ c_str state.upload_tmp_path = path := by
  simp [receiving, Option.bind_eq_some_iff]

theorem receiving_put_of_ne {s : UploadServer} {id other : Nat} (h : other ≠ id) (fs : FileSystem)
    (state : Option ConnectionState) : receiving (s.put id fs state) other = receiving s other := by
  simp [receiving, UploadServer.find_put_of_ne h]

@[simp] theorem sent_append (id : Nat) (trace : List UploadLabel) (label : UploadLabel) :
    sent id (trace ++ [label]) = sent id trace ++ sent id [label] := by
  simp [sent]

/-- How far a request has come: nothing has been received, or all that it was sent is in a
file of its own. -/
def Progress (cfg : Config) (f bytes : Bytes) (c : Connection) : Prop :=
  Waiting c ∧ bytes = [] ∨ Storing cfg f bytes c

/-- Every request has made the progress that the history says, each under another name. -/
structure Served (cfg : Config) (names : Nat → Bytes) (trace : List UploadLabel)
    (s : UploadServer) : Prop where
  progress : ∀ id state, s.find id = some state →
    Progress cfg (names id) (sent id trace) ⟨state, s.fs⟩
  apart : ∀ id other path, receiving s id = some path → receiving s other = some path → id = other
  unsent : ∀ id, s.requests.length ≤ id → sent id trace = []

section Steps

variable {cfg : Config} {names : Nat → Bytes} {trace : List UploadLabel} {s t : UploadServer}
  {id : Nat} {label : UploadLabel}

/-- A step of one request, as the others see it: their files are left alone. -/
theorem Served.update (h : Served cfg names trace s) (hId : id < s.requests.length)
    {fs : FileSystem} {state : Option ConnectionState}
    (hSent : ∀ other, other ≠ id → sent other [label] = [])
    (hFiles : ∀ other path file bytes, other ≠ id → receiving s other = some path →
      s.fs.Writing file path bytes → fs.Writing file path bytes)
    (hSelf : ∀ found, state = some found →
      Progress cfg (names id) (sent id (trace ++ [label])) ⟨found, fs⟩ ∧
        (found.upload_file.isSome = true → ∀ other, other ≠ id →
          receiving s other ≠ some (c_str found.upload_tmp_path))) :
    Served cfg names (trace ++ [label]) (s.put id fs state) where
  progress := by
    intro other found hFound
    by_cases hOther : other = id
    · subst hOther
      rw [UploadServer.find_put hId] at hFound
      exact (hSelf found hFound).1
    · rw [UploadServer.find_put_of_ne hOther] at hFound
      rw [sent_append, hSent other hOther, List.append_nil]
      rcases h.progress other found hFound with ⟨hWaiting, hNone⟩ | hStoring
      · exact Or.inl ⟨⟨hWaiting.pp, hWaiting.path, hWaiting.file, hWaiting.size⟩, hNone⟩
      · obtain ⟨file, hFile, hWriting⟩ := hStoring.file
        have hReceiving : receiving s other = some (c_str found.upload_tmp_path) :=
          receiving_some.mpr ⟨found, hFound, by rw [hFile]; rfl, rfl⟩
        refine Or.inr ⟨⟨hStoring.pp, hStoring.filename, hStoring.valid, hStoring.path, file, hFile,
          ?_⟩, hStoring.size⟩
        exact hFiles other _ file _ hOther hReceiving hWriting
  apart := by
    have hNew : ∀ other path, other ≠ id → receiving (s.put id fs state) id = some path →
        receiving s other ≠ some path := by
      intro other path hOther hPath
      obtain ⟨found, hFound, hFile, rfl⟩ := receiving_some.mp hPath
      rw [UploadServer.find_put hId] at hFound
      exact (hSelf found hFound).2 hFile other hOther
    intro first second path hFirst hSecond
    by_cases hA : first = id <;> by_cases hB : second = id
    · rw [hA, hB]
    · subst hA
      rw [receiving_put_of_ne hB] at hSecond
      exact absurd hSecond (hNew second path hB hFirst)
    · subst hB
      rw [receiving_put_of_ne hA] at hFirst
      exact absurd hFirst (hNew first path hA hSecond)
    · rw [receiving_put_of_ne hA] at hFirst
      rw [receiving_put_of_ne hB] at hSecond
      exact h.apart first second path hFirst hSecond
  unsent := by
    intro other hOther
    rw [UploadServer.put, List.length_set] at hOther
    rw [sent_append, hSent other (by omega), h.unsent other hOther]
    rfl

theorem Served.request (h : Served cfg names trace s) (response : Option Response) :
    Served cfg names (trace ++ [(.request, response)])
      { s with requests := s.requests ++ [some (upload_request s.fs).state] } := by
  have hSent : ∀ other, sent other (trace ++ [(.request, response)]) = sent other trace := by
    intro other
    rw [sent_append]
    exact List.append_nil _
  have hFind := fun other found => @UploadServer.find_arrived s other found
    (upload_request s.fs).state
  have hReceiving : ∀ other path, receiving (UploadServer.mk s.fs
      (s.requests ++ [some (upload_request s.fs).state])) other = some path →
      receiving s other = some path := by
    intro other path hPath
    obtain ⟨found, hFound, hFile, hName⟩ := receiving_some.mp hPath
    rcases hFind other found hFound with hOld | ⟨-, rfl⟩
    · exact receiving_some.mpr ⟨found, hOld, hFile, hName⟩
    · cases hFile
  constructor
  · intro other found hFound
    rw [hSent]
    rcases hFind other found hFound with hOld | ⟨rfl, rfl⟩
    · exact h.progress other found hOld
    · exact Or.inl ⟨⟨rfl, rfl, rfl, rfl⟩, h.unsent _ (Nat.le_refl _)⟩
  · intro first second path hFirst hSecond
    exact h.apart first second path (hReceiving _ _ hFirst) (hReceiving _ _ hSecond)
  · intro other hOther
    rw [List.length_append, List.length_singleton] at hOther
    rw [hSent]
    exact h.unsent other (by omega)

theorem handleUpload_post (cfg : Config) (p : Post) {c : Connection} (hPp : c.state.pp = true) :
    handleUpload cfg {} (some [p]) c = ((post_data cfg p (received c)).1, none) := by
  have hOne : post_process cfg [p] (received c) = (post_data cfg p (received c)).1 := by
    unfold post_process
    split
    · rename_i next hNext
      rw [hNext]
      rfl
    · rename_i next hNext
      rw [hNext]
  rw [← hOne]
  simp [handleUpload, hPp, received]

theorem Waiting.received {c : Connection} (h : Waiting c) : Waiting (received c) :=
  ⟨h.pp, h.path, h.file, h.size⟩

theorem Storing.received {c : Connection} {f bytes : Bytes} (h : Storing cfg f bytes c) :
    Storing cfg f bytes (received c) :=
  ⟨⟨h.pp, h.filename, h.valid, h.path, h.file⟩, h.size⟩

/-- The size a request has counted is that of its file. -/
theorem Storing.size_toNat {c : Connection} {f bytes : Bytes} (h : Storing cfg f bytes c) :
    c.state.upload_size.toNat = bytes.length := by
  obtain ⟨file, -, hWriting⟩ := h.file
  have hLength := hWriting.length_le
  rw [h.size, UInt64.toNat_ofNat']
  exact Nat.mod_eq_of_lt (by unfold Storage.maxFileSize at hLength; omega)

/-- One callback of a single-part request. -/
theorem Progress.post {c : Connection} {f bytes : Bytes} {p : Post} (h : Progress cfg f bytes c)
    (hAccepted : accepted p.part.key p.part.filename = some f) (hIo : p.io = {})
    (hRoom : c.state.upload_size.toNat + p.part.data.length ≤ Storage.maxFileSize) :
    Storing cfg f (bytes ++ p.part.data) (post_data cfg p c).1 := by
  obtain ⟨-, -, -, hWritten⟩ := written_of_accepted hAccepted
  have hAdded : p.added = p.part.data := by simp [Post.added, hWritten]
  have hWrite : p.io.fwrite = none := by rw [hIo]
  rcases h with ⟨hWaiting, rfl⟩ | hStoring
  · obtain ⟨next, hResult, hOpened, hSize⟩ :=
      accepted_opens cfg hWaiting.pp hWaiting.path hAccepted (by rw [hIo])
    rw [hWaiting.size] at hRoom hSize
    rw [Post.kept_all hWrite (by rw [hAdded]; exact hRoom), hAdded] at hOpened
    rw [hResult]
    exact ⟨hOpened, by simpa [hAdded] using hSize⟩
  · obtain ⟨next, hResult, hOpened, hSize⟩ := hStoring.toOpened.post_data p
    rw [hStoring.size_toNat] at hRoom
    rw [Post.kept_all hWrite (by rw [hAdded]; exact hRoom), hAdded] at hOpened
    rw [hResult]
    exact ⟨hOpened, by simp [hSize, hStoring.size, hAdded]⟩

/-- A callback of one request, and the files of the others: they have other names, and are
left alone. -/
theorem Served.post_frame (h : Served cfg names trace s) {p : Post} {state : ConnectionState}
    {response : Option Response} (hFind : s.find id = some state)
    (hSingle : SinglePart names (.post id p, response)) (hIo : p.io = {})
    (hApart : Apart cfg s (.post id p, response)) {other : Nat} {path : Bytes}
    (hOther : other ≠ id) (hPath : receiving s other = some path) :
    path ≠ c_str (post_data cfg p (received ⟨state, s.fs⟩)).1.state.upload_tmp_path ∧
      ∀ file bytes, s.fs.Writing file path bytes →
        (post_data cfg p (received ⟨state, s.fs⟩)).1.fs.Writing file path bytes := by
  obtain ⟨hKey, hName, hValid⟩ := hSingle
  have hAccepted : accepted p.part.key p.part.filename = some (names id) := by
    simp [accepted, hKey, hName, hValid]
  rcases h.progress id state hFind with ⟨hWaiting, -⟩ | hStoring
  · have hNil : state.upload_tmp_path = [] := hWaiting.path
    have hOpen : p.io.fopen = true := by rw [hIo]
    have hTaken : takes_name cfg s (.post id p) =
        some (id, cfg.in_upload_dir (upload_tmp_name p.now (names id))) := by
      simp [takes_name, hFind, hName, hNil]
    have hFree : path ≠ cfg.in_upload_dir (upload_tmp_name p.now (names id)) := by
      rintro rfl
      obtain ⟨found, hFound, -⟩ := receiving_some.mp hPath
      exact hApart _ hTaken other (UploadServer.lt_of_find hFound) hOther hPath
    constructor
    · rw [accepted_path cfg _ hWaiting.received.path hAccepted hOpen,
        c_str_in_upload_dir_eq (upload_tmp_name_no_nul p.now hValid)]
      exact hFree
    · intro file bytes hWriting
      exact accepted_opens_frame hWaiting.received.pp hWaiting.received.path hAccepted hOpen
        hFree hWriting
  · have hOwn : receiving s id = some (c_str state.upload_tmp_path) := by
      obtain ⟨file, hFile, -⟩ := hStoring.file
      exact receiving_some.mpr ⟨state, hFind, by rw [hFile]; rfl, rfl⟩
    have hFree : path ≠ c_str state.upload_tmp_path := by
      rintro rfl
      exact hOther (h.apart other id _ hPath hOwn)
    constructor
    · rw [opened_path hStoring.received.toOpened]
      exact hFree
    · intro file bytes hWriting
      exact post_data_frame hStoring.received.toOpened hFree hWriting

theorem Served.post (h : Served cfg names trace s) {p : Post} {state : ConnectionState}
    {response : Option Response} (hFind : s.find id = some state)
    (hSingle : SinglePart names (.post id p, response))
    (hSucceeds : CallsSucceed s (.post id p, response))
    (hApart : Apart cfg s (.post id p, response)) :
    Served cfg names (trace ++ [(.post id p, response)])
      (s.put id (post_data cfg p (received ⟨state, s.fs⟩)).1.fs
        (some (post_data cfg p (received ⟨state, s.fs⟩)).1.state)) := by
  obtain ⟨hIo, hRoom⟩ := hSucceeds
  have hAccepted : accepted p.part.key p.part.filename = some (names id) := by
    obtain ⟨hKey, hName, hValid⟩ := hSingle
    simp [accepted, hKey, hName, hValid]
  have hSent : sent id (trace ++ [(.post id p, response)]) = sent id trace ++ p.part.data := by
    simp [sent]
  have hStored : Storing cfg (names id) (sent id (trace ++ [(.post id p, response)]))
      (post_data cfg p (received ⟨state, s.fs⟩)).1 := by
    rw [hSent]
    apply Progress.post _ hAccepted hIo (hRoom state hFind)
    exact (h.progress id state hFind).imp (And.imp_left Waiting.received) Storing.received
  apply h.update (UploadServer.lt_of_find hFind)
  · intro other hOther
    simp [sent, Ne.symm hOther]
  · intro other path file bytes hOther hPath hWriting
    exact (h.post_frame hFind hSingle hIo hApart hOther hPath).2 file bytes hWriting
  · rintro found ⟨⟩
    refine ⟨Or.inr hStored, fun _ other hOther hPath => ?_⟩
    exact (h.post_frame hFind hSingle hIo hApart hOther hPath).1 rfl

theorem Served.finish (h : Served cfg names trace s) {state : ConnectionState}
    {response : Option Response} (hFind : s.find id = some state)
    (hApart : Apart cfg s (.finish id {}, response)) :
    Served cfg names (trace ++ [(.finish id {}, response)])
      (s.put id (handleUpload cfg {} none ⟨state, s.fs⟩).1.fs none) := by
  have hId := UploadServer.lt_of_find hFind
  apply h.update hId
  · intro other hOther
    rfl
  · intro other path file bytes hOther hPath hWriting
    rcases h.progress id state hFind with ⟨hWaiting, -⟩ | hStoring
    · rw [(hWaiting.finish {}).1]
      exact hWriting
    · obtain ⟨own, hOwn, -⟩ := hStoring.file
      have hName : state.upload_filename = names id := hStoring.filename
      have hReceiving : receiving s id = some (c_str state.upload_tmp_path) :=
        receiving_some.mpr ⟨state, hFind, by rw [hOwn]; rfl, rfl⟩
      have hTaken : takes_name cfg s (.finish id {}) =
          some (id, cfg.in_upload_dir (names id)) := by
        simp [takes_name, hFind, hName]
      rw [handleUpload_some {} hStoring.pp hOwn]
      apply save_upload_frame hStoring.toOpened hOwn _ _ hWriting
      · rintro rfl
        exact hOther (h.apart other id _ hPath hReceiving)
      · rintro rfl
        obtain ⟨found, hFound, -⟩ := receiving_some.mp hPath
        exact hApart _ hTaken other (UploadServer.lt_of_find hFound) hOther hPath
  · rintro found ⟨⟩

/-- After a step of one request, every file is still what was sent for it. -/
theorem Served.step (h : Served cfg names trace s) (hStep : UploadStep cfg names s label t) :
    Served cfg names (trace ++ [label]) t := by
  obtain ⟨action, response⟩ := label
  obtain ⟨hStep, hSingle, hSucceeds, hApart⟩ := hStep
  cases action with
  | request =>
      cases hStep
      exact h.request none
  | post id p =>
      obtain ⟨state, hFind, hEq⟩ := Option.map_eq_some_iff.mp hStep
      have hPp : state.pp = true := by
        rcases h.progress id state hFind with ⟨hWaiting, -⟩ | hStoring
        · exact hWaiting.pp
        · exact hStoring.pp
      rw [handleUpload_post cfg p hPp] at hEq
      cases hEq
      exact h.post hFind hSingle hSucceeds hApart
  | finish id io =>
      obtain ⟨state, hFind, hEq⟩ := Option.map_eq_some_iff.mp hStep
      obtain rfl : io = {} := hSucceeds
      cases hEq
      exact h.finish hFind hApart

/-- In every run without a collision each file is what was sent for it. -/
theorem served_of_run {fs : FileSystem}
    (run : Runs (UploadStep cfg names) ⟨fs, []⟩ trace s) : Served cfg names trace s := by
  refine run.history (I := Served cfg names) ?_ fun past u label v _ h hStep => h.step hStep
  refine ⟨fun id state hFind => ?_, fun id other path hPath => ?_, fun _ _ => rfl⟩
  · simp [UploadServer.find] at hFind
  · simp [receiving, UploadServer.find] at hPath

/-- **Concurrent uploads.** As long as no request puts a file under the name that another
is receiving under, every success is true when it is sent. -/
theorem concurrent_uploads_intact {fs : FileSystem} {io : Io} {f : Bytes} {n : UInt64}
    (run : Runs (UploadStep cfg names) ⟨fs, []⟩ trace s)
    (hStep : UploadStep cfg names s (.finish id io, some (upload_ok cfg f n)) t) :
    t.fs.read (c_str (cfg.in_upload_dir f)) = some (sent id trace) := by
  have hServed := served_of_run run
  obtain ⟨hStep, -, hSucceeds, -⟩ := hStep
  obtain rfl : io = {} := hSucceeds
  obtain ⟨state, hFind, hEq⟩ := Option.map_eq_some_iff.mp hStep
  have hResponse : (handleUpload cfg {} none ⟨state, s.fs⟩).2 = some (upload_ok cfg f n) :=
    congrArg Prod.snd hEq
  have hFiles : t.fs = (handleUpload cfg {} none ⟨state, s.fs⟩).1.fs :=
    (congrArg (fun result => result.1.fs) hEq).symm
  rcases hServed.progress id state hFind with ⟨hWaiting, -⟩ | hStoring
  · exact absurd hResponse ((hWaiting.finish {}).2 f n)
  · obtain ⟨own, hOwn, -⟩ := hStoring.file
    rw [handleUpload_some {} hStoring.pp hOwn] at hResponse hFiles
    rcases hStoring.save {} hOwn with ⟨-, next, hSave, hRead⟩ | ⟨hFails, -⟩
    · rw [hSave] at hResponse hFiles
      obtain ⟨rfl, -⟩ := upload_ok_inj (Option.some.inj hResponse)
      rw [hFiles, c_str_in_upload_dir_eq (valid_no_nul hStoring.valid)]
      exact hRead.trans (congrArg some (List.take_of_length_le (Nat.le_refl _)))
    · cases hFails

end Steps

/-- One callback for a part named `a.bin`, in the first second of the clock. -/
def piece (id : Nat) (data : Bytes) : UploadAction :=
  .post id ⟨⟨some (str "firmware"), some (str "a.bin"), data⟩, 1, {}⟩

instance (cfg : Config) (names : Nat → Bytes) (s : UploadServer) (label : UploadLabel) :
    Decidable (SinglePart names label ∧ CallsSucceed s label ∧ Apart cfg s label) :=
  inferInstanceAs (Decidable (_ ∧ _))

/-- Two requests are open, but only one of them has sent a piece. -/
theorem concurrent_uploads_intact_two : ∃ s t trace response,
    Runs (UploadStep {} fun _ => str "a.bin") ⟨.empty, []⟩ trace s ∧
    UploadStep {} (fun _ => str "a.bin") s (.finish 0 {}, response) t ∧
    response = some (upload_ok {} (str "a.bin") 1) ∧
    t.fs.read (c_str (Config.in_upload_dir {} (str "a.bin"))) = some (sent 0 trace) := by
  obtain ⟨⟨s, trace⟩, hExec, hLast⟩ := Option.map_eq_some_iff.mp
    (by rfl : (((upload_server {}).guard fun s label =>
        SinglePart (fun _ => str "a.bin") label ∧ CallsSucceed s label ∧ Apart {} s label).exec
      ⟨.empty, []⟩ [.request, .request, piece 0 (str "x")]).map
        (fun result => (((upload_server {}).guard fun s label =>
          SinglePart (fun _ => str "a.bin") label ∧ CallsSucceed s label ∧ Apart {} s label)
            result.1 (.finish 0 {})).map Prod.snd) =
      some (some (some (upload_ok {} (str "a.bin") 1))))
  obtain ⟨⟨t, response⟩, hFinish, rfl⟩ := Option.map_eq_some_iff.mp hLast
  have run : Runs (UploadStep {} fun _ => str "a.bin") ⟨.empty, []⟩ trace s :=
    Machine.runs_of_guard_exec hExec
  have hStep : UploadStep {} (fun _ => str "a.bin") s
      (.finish 0 {}, some (upload_ok {} (str "a.bin") 1)) t := Machine.guard_step.mp hFinish
  exact ⟨s, t, trace, _, run, hStep, rfl, concurrent_uploads_intact run hStep⟩

section Collision

variable {cfg : Config} {f bytes found : Bytes} {state : ConnectionState} {fs later : FileSystem}

/-- The end of an upload saves what is found under the temporary name, whoever wrote it. -/
theorem Opened.saves_found (h : Opened cfg f bytes ⟨state, fs⟩)
    (hRead : later.read (c_str state.upload_tmp_path) = some found) :
    ∃ next, handleUpload cfg {} none ⟨state, later⟩ =
        (next, some (upload_ok cfg f state.upload_size)) ∧
      next.fs.read (c_str (cfg.in_upload_dir f)) = some found := by
  obtain ⟨file, hFile, -⟩ := h.file
  have hFile : state.upload_file = some file := hFile
  have hName : state.upload_filename = f := h.filename
  have hTmp : c_str state.upload_tmp_path ≠ cfg.in_upload_dir f := h.tmp_path_ne
  have hFinal : c_str (cfg.in_upload_dir f) = cfg.in_upload_dir f :=
    c_str_in_upload_dir_eq (valid_no_nul h.valid)
  have hClosed : (later.fclose file 0).2.read (c_str state.upload_tmp_path) = some found :=
    (Storage.FileSystem.fclose_untouched later file _).read.trans hRead
  have hExists : (later.fclose file 0).2.exists_path (c_str state.upload_tmp_path) = true := by
    obtain ⟨inode, hDir, -⟩ := Option.map_eq_some_iff.mp hClosed
    simp [Storage.FileSystem.exists_path, hDir]
  obtain ⟨next, hRename, hSaved, -⟩ := Storage.FileSystem.rename_read hClosed hTmp
  rw [handleUpload_some (c := ⟨state, later⟩) {} h.pp hFile, hFinal]
  refine ⟨⟨{ state with upload_file := none }, next⟩, ?_, hSaved⟩
  simp only [save_upload, hName, h.valid, hExists, hFinal, hRename, not_true_eq_false, if_false,
    if_true]

theorem upload_server_post {p : Post} {s : UploadServer} {id : Nat}
    (hFind : s.find id = some state) (hPp : state.pp = true) :
    (upload_server cfg).Step s (.post id p, none)
      (s.put id (post_data cfg p (received ⟨state, s.fs⟩)).1.fs
        (some (post_data cfg p (received ⟨state, s.fs⟩)).1.state)) := by
  simp [Machine.Step, upload_server, hFind, handleUpload_post, hPp]

/-- The one callback of a request that has just come in. -/
theorem first_post_stores (cfg : Config) {p : Post} (h : Waiting ⟨state, fs⟩)
    (hAccepted : accepted p.part.key p.part.filename = some f) (hIo : p.io = {})
    (hRoom : p.part.data.length ≤ Storage.maxFileSize) :
    ∃ next, (post_data cfg p (received ⟨state, fs⟩)).1 = next ∧
      Storing cfg f p.part.data next ∧
      next.state.upload_tmp_path = cfg.in_upload_dir (upload_tmp_name p.now f) := by
  have hSize : state.upload_size = 0 := h.size
  refine ⟨_, rfl, Progress.post (Or.inl ⟨h.received, rfl⟩) hAccepted hIo ?_,
    accepted_path cfg _ h.path hAccepted (by rw [hIo])⟩
  simpa [received, hSize] using hRoom

/-- Two uploads of one name that open their files in the same second and send a block each, as
large as what a stream hands on at once: the first is told that its block is stored, and it is
the other that is. -/
theorem second_block_is_saved (cfg : Config) (fs : FileSystem) (xs ys : Bytes) (now : Int) {n : Nat}
    (hValid : validate_filename f = true) (hXs : xs.length = n) (hYs : ys.length = n)
    (hRoom : n ≤ Storage.maxFileSize) : ∃ s t trace,
    Runs (Guarded (upload_server cfg).Step fun s label =>
      SinglePart (fun _ => f) label ∧ CallsSucceed s label) ⟨fs, []⟩ trace s ∧
    (upload_server cfg).Step s (.finish 0 {}, some (upload_ok cfg f (UInt64.ofNat n))) t ∧
    sent 0 trace = xs ∧ t.fs.read (c_str (cfg.in_upload_dir f)) = some ys := by
  let p (data : Bytes) : Post := ⟨⟨some (str "firmware"), some f, data⟩, now, {}⟩
  have hAccepted (data : Bytes) : accepted (p data).part.key (p data).part.filename = some f := by
    simp [p, accepted, hValid]
  obtain ⟨state, hState⟩ : ∃ state, (upload_request fs).state = state := ⟨_, rfl⟩
  have hWaiting (fs : FileSystem) : Waiting ⟨state, fs⟩ := hState ▸ ⟨rfl, rfl, rfl, rfl⟩
  have hPp : state.pp = true := (hWaiting fs).pp
  obtain ⟨one, hOne, hFirst, hFirstPath⟩ :=
    first_post_stores cfg (hWaiting fs) (hAccepted xs) rfl (hXs.trans_le hRoom)
  obtain ⟨two, hTwo, hSecond, hSecondPath⟩ :=
    first_post_stores cfg (hWaiting one.fs) (hAccepted ys) rfl (hYs.trans_le hRoom)
  have hFound : two.fs.read (c_str one.state.upload_tmp_path) = some ys := by
    obtain ⟨file, -, hWriting⟩ := hSecond.file
    rw [hFirstPath, ← hSecondPath]
    exact hWriting.read
  obtain ⟨last, hLast, hSaved⟩ := hFirst.toOpened.saves_found hFound
  let Allowed (s : UploadServer) (label : UploadLabel) : Prop :=
    SinglePart (fun _ => f) label ∧ CallsSucceed s label
  have hArrived (s : UploadServer) : Guarded (upload_server cfg).Step Allowed s (.request, none)
      ⟨s.fs, s.requests ++ [some state]⟩ := by
    subst hState
    exact ⟨rfl, trivial, trivial⟩
  have hPosted (id : Nat) (data : Bytes) (s : UploadServer) (hFind : s.find id = some state)
      (hData : data.length ≤ Storage.maxFileSize) :
      Guarded (upload_server cfg).Step Allowed s (.post id (p data), none)
        (s.put id (post_data cfg (p data) (received ⟨state, s.fs⟩)).1.fs
          (some (post_data cfg (p data) (received ⟨state, s.fs⟩)).1.state)) := by
    refine ⟨upload_server_post hFind hPp, ⟨rfl, rfl, hValid⟩, rfl, ?_⟩
    rintro found hFound
    obtain rfl : state = found := Option.some.inj (hFind.symm.trans hFound)
    have hSize : state.upload_size = 0 := (hWaiting fs).size
    simpa [hSize, p] using hData
  -- the two requests come in, and then a block for each
  have hFirstPosted := hPosted 0 xs ⟨fs, [some state, some state]⟩ rfl (hXs.trans_le hRoom)
  rw [hOne] at hFirstPosted
  have hSecondPosted := hPosted 1 ys ⟨one.fs, [some one.state, some state]⟩ rfl (hYs.trans_le hRoom)
  rw [hTwo] at hSecondPosted
  have run := Runs.succ (.succ (.succ (.single (hArrived ⟨fs, []⟩)) (hArrived _)) hFirstPosted)
    hSecondPosted
  refine ⟨_, ⟨last.fs, [none, some two.state]⟩, _, run, ?_, by simp [sent, p], hSaved⟩
  have hSize : one.state.upload_size = UInt64.ofNat n := hXs ▸ hFirst.size
  rw [hSize] at hLast
  simp [Machine.Step, upload_server, UploadServer.find, UploadServer.put, hLast]

end Collision

/-- So it is with two blocks of 4096 bytes, where that is the buffer of a stream. -/
theorem same_second_uploads_collide : ∃ s t trace,
    Runs (Guarded (upload_server {}).Step fun s label =>
      SinglePart (fun _ => str "a.bin") label ∧ CallsSucceed s label) ⟨.empty, []⟩ trace s ∧
    (upload_server {}).Step s (.finish 0 {}, some (upload_ok {} (str "a.bin") 4096)) t ∧
    sent 0 trace = List.replicate 4096 120 ∧
    t.fs.read (c_str (Config.in_upload_dir {} (str "a.bin"))) = some (List.replicate 4096 121) ∧
    t.fs.read (c_str (Config.in_upload_dir {} (str "a.bin"))) ≠ some (sent 0 trace) := by
  obtain ⟨s, t, trace, run, hStep, hSent, hRead⟩ :=
    second_block_is_saved {} .empty (List.replicate 4096 120) (List.replicate 4096 121) 1
      (by rfl : validate_filename (str "a.bin") = true) List.length_replicate
      List.length_replicate (by decide)
  refine ⟨s, t, trace, run, hStep, hSent, hRead, ?_⟩
  rw [hRead, hSent]
  intro hSame
  have hByte := congrArg (List.head? ·) (Option.some.inj hSame)
  simp at hByte

end RkFlashd
