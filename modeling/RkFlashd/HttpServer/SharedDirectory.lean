import RkFlashd.AtHandler.UploadIntegrity
import RkFlashd.HttpServer.ConcurrentUploads

/-! The upload of the AT commands beside the uploads of the server. The serial thread and
the server thread take turns, and the files of both are in one directory. -/
namespace RkFlashd

open Text Transition

structure UploadDirectory where
  upload : UploadState
  server : UploadServer

namespace UploadDirectory

def host (s : UploadDirectory) : Host := ⟨s.upload, s.server.fs⟩

def update (s : UploadDirectory) (w : Host) : UploadDirectory :=
  ⟨w.upload, { s.server with fs := w.fs }⟩

/-- `AT+UPLOADDONE` has closed its file and has not given its verdict. -/
def closing (s : UploadDirectory) : Bool := s.upload.active && s.upload.file.isNone

end UploadDirectory

/-- A command, the second half of an `AT+UPLOADDONE`, or a call of the server. -/
inductive DirectoryAction where
  | command (r : Request)
  | verdict (io : Io)
  | http (action : UploadAction)
  deriving DecidableEq, Repr

inductive DirectoryOutput where
  | pending
  | answer (text : Bytes)
  | response (response : Option Response)
  deriving DecidableEq, Repr

/-- The requests of the server come in before, after and between the AT commands, and in
the middle of an `AT+UPLOADDONE`: after its `fclose`, before its `rename`. -/
def upload_directory (cfg : Config) :
    Machine UploadDirectory DirectoryAction DirectoryOutput :=
  fun s action =>
    match action with
    | .command r =>
        if s.closing then none
        else if r.command = .UPLOADDONE ∧ s.upload.active then
          some (s.update (close_file r.io s.host), .pending)
        else
          let (w, answer) := perform cfg s.host r
          some (s.update w, .answer answer)
    | .verdict io =>
        if s.closing then
          let (w, answer) := finish_upload cfg io s.host
          some (s.update w, .answer answer)
        else none
    | .http action =>
        (upload_server cfg s.server action).map fun (server, response) =>
          (⟨s.upload, server⟩, .response response)

abbrev DirectoryLabel := DirectoryAction × DirectoryOutput

/-- No call on a file fails. -/
def NoFailure (s : UploadDirectory) (label : DirectoryLabel) : Prop :=
  match label.1 with
  | .command r => WritesSucceed s.host (r, [])
  | .verdict _ => True
  | .http (.post _ p) => p.io = {}
  | .http (.finish _ io) => io = {}
  | .http .request => True

instance (s : UploadDirectory) : (label : DirectoryLabel) → Decidable (NoFailure s label)
  | (.command r, _) => inferInstanceAs (Decidable (WritesSucceed s.host (r, [])))
  | (.verdict _, _) => isTrue trivial
  | (.http (.post _ p), _) => inferInstanceAs (Decidable (p.io = {}))
  | (.http (.finish _ io), _) => inferInstanceAs (Decidable (io = {}))
  | (.http .request, _) => isTrue trivial

/-- The name that a request puts its file under in the end. -/
def renames_to (cfg : Config) (s : UploadServer) : UploadAction → Option Bytes
  | .finish id _ =>
      (s.find id).bind fun state =>
        if state.upload_file.isSome then some (c_str (cfg.in_upload_dir state.upload_filename))
        else none
  | _ => none

/-- The file that a callback adds something to. -/
def writes_to (s : UploadServer) : UploadAction → Option Nat
  | .post id p =>
      (s.find id).bind fun state =>
        if p.added = [] then none
        else (state.upload_file.bind s.fs.stream).map Storage.Stream.inode
  | _ => none

/-- While an upload is active, the server neither puts a file under its temp name nor
writes to the file that is there. -/
def KeepsClear (cfg : Config) (s : UploadDirectory) (label : DirectoryLabel) : Prop :=
  match label.1 with
  | .http action => s.upload.active = true →
      renames_to cfg s.server action ≠ some (c_str s.upload.tmp_path) ∧
      ∀ inode ∈ writes_to s.server action,
        s.server.fs.dir (c_str s.upload.tmp_path) ≠ some inode
  | _ => True

instance (cfg : Config) (s : UploadDirectory) :
    (label : DirectoryLabel) → Decidable (KeepsClear cfg s label)
  | (.command _, _) => isTrue trivial
  | (.verdict _, _) => isTrue trivial
  | (.http action, _) =>
      inferInstanceAs (Decidable (s.upload.active = true →
        renames_to cfg s.server action ≠ some (c_str s.upload.tmp_path) ∧
        ∀ inode ∈ writes_to s.server action,
          s.server.fs.dir (c_str s.upload.tmp_path) ≠ some inode))

def DirectoryStep (cfg : Config) : UploadDirectory → DirectoryLabel → UploadDirectory → Prop :=
  Guarded (upload_directory cfg).Step fun s label => NoFailure s label ∧ KeepsClear cfg s label

/-- Idle or receiving, or closed and waiting for the verdict. -/
def Stage (cfg : Config) (w : Host) : Prop :=
  (∃ t, Tracks cfg t w) ∨ ∃ t, Closed cfg w t

/-- What a request has open is no stream of the AT upload, under a temp name of the server. -/
structure Foreign (cfg : Config) (handle : Option Nat) (c : Connection) : Prop where
  pp : c.state.pp = true
  file : ∀ file, c.state.upload_file = some file →
    file < c.fs.nextStream ∧ handle ≠ some file ∧
      ∃ now f, c.state.upload_tmp_path = cfg.in_upload_dir (upload_tmp_name now f)

structure Shared (cfg : Config) (s : UploadDirectory) : Prop where
  stage : Stage cfg s.host
  foreign : ∀ id state, s.server.find id = some state →
    Foreign cfg s.upload.file ⟨state, s.server.fs⟩

section Frames

variable {cfg : Config} {path : Bytes} {handle : Option Nat} {fs fs' next : FileSystem}
  {c : Connection} {p : Post}

/-- The two ways of making up temp names never meet. -/
theorem upload_tmp_name_ne (cfg : Config) (now : Int) (f g : Bytes) :
    c_str (cfg.in_upload_dir (tmp_name g)) ≠
      c_str (cfg.in_upload_dir (upload_tmp_name now f)) := by
  intro hEq
  rw [cfg.c_str_in_upload_dir, cfg.c_str_in_upload_dir] at hEq
  have hName := cfg.in_upload_dir_inj hEq
  have hDigits : (0 : UInt8) ∉ int_to_string now ++ str "_" := by
    intro hMem
    rcases List.mem_append.mp hMem with hTime | hBar
    · rcases int_to_string_chars now 0 hTime with hDigit | hMinus
      · cases hDigit
      · cases hMinus
    · exact absurd hBar (by decide)
  rw [upload_tmp_name, c_str_append hDigits, tmp_name, List.append_assoc,
    c_str_append (by decide : (0 : UInt8) ∉ str "upload_")] at hName
  -- one begins with a letter, the other with a digit, a minus sign or a bar
  cases hTime : int_to_string now with
  | nil =>
      rw [hTime] at hName
      exact absurd (List.cons.inj hName).1 (by decide)
  | cons first rest =>
      rw [hTime] at hName
      have hFirst : (117 : UInt8) = first := (List.cons.inj hName).1
      rcases int_to_string_chars now first (by rw [hTime]; simp) with hDigit | hMinus
      · rw [← hFirst] at hDigit
        cases hDigit
      · rw [← hFirst] at hMinus
        cases hMinus

theorem write_part_nextStream (p : Post) (c : Connection) :
    (write_part p c).fs.nextStream = c.fs.nextStream := by
  unfold write_part
  split
  · rfl
  · split
    · rfl
    · simp

theorem Foreign.write_part (h : Foreign cfg handle c) (p : Post) :
    Foreign cfg handle (write_part p c) := by
  refine ⟨(write_part_pp p c).trans h.pp, fun file hSome => ?_⟩
  rw [write_part_file] at hSome
  rw [write_part_nextStream, write_part_tmp_path]
  exact h.file file hSome

/-- A request keeps to a stream and a name of its own. -/
theorem Foreign.post_data (h : Foreign cfg handle c)
    (hHandle : ∀ own, handle = some own → own < c.fs.nextStream) (hIo : p.io.fopen = true) :
    Foreign cfg handle (post_data cfg p c).1 ∧
      c.fs.nextStream ≤ (post_data cfg p c).1.fs.nextStream := by
  rcases post_data_cases cfg c hIo with
    ⟨error, hResult⟩ | ⟨-, hResult⟩ | ⟨f, file, fs, -, -, hOpen, hResult⟩
  · rw [hResult]
    exact ⟨⟨h.pp, h.file⟩, Nat.le_refl _⟩
  · rw [hResult]
    exact ⟨h.write_part p, (write_part_nextStream p c).ge⟩
  · obtain ⟨hFile, hNext⟩ := Storage.FileSystem.fopen_nextStream hOpen
    have hOpened : Foreign cfg handle ⟨{ c.state with
        upload_filename := f, upload_tmp_path := cfg.in_upload_dir (upload_tmp_name p.now f),
        upload_file := some file }, fs⟩ := by
      refine ⟨h.pp, ?_⟩
      rintro _ ⟨⟩
      refine ⟨by simp [hNext, hFile], ?_, p.now, f, rfl⟩
      intro hOwn
      exact absurd (hHandle file hOwn) (by omega)
    rw [hResult]
    refine ⟨hOpened.write_part p, ?_⟩
    rw [write_part_nextStream]
    simp [hNext]

/-- A callback leaves the AT upload alone unless it writes to its file. -/
theorem Foreign.post_spares {g : Bytes} (h : Foreign cfg handle c)
    (hHandle : ∀ own, handle = some own → own < c.fs.nextStream) (hIo : p.io.fopen = true)
    (hWrites : p.added ≠ [] → ∀ opened, c.state.upload_file.bind c.fs.stream = some opened →
      c.fs.dir (c_str (cfg.in_upload_dir (tmp_name g))) ≠ some opened.inode) :
    Spares (c_str (cfg.in_upload_dir (tmp_name g))) handle c.fs
      (RkFlashd.post_data cfg p c).1.fs := by
  rcases post_data_cases cfg c hIo with
    ⟨error, hResult⟩ | ⟨hWritten, hResult⟩ | ⟨f, file, fs, -, -, hOpen, hResult⟩
  · rw [hResult]
    exact .refl _ _ _
  · have hAdded : p.added = p.part.data := by simp [Post.added, hWritten]
    rw [hResult]
    exact write_part_spares (fun file hFile => (h.file file hFile).2.1) (hAdded ▸ hWrites)
  · have hName := upload_tmp_name_ne cfg p.now f g
    obtain ⟨hFile, -⟩ := Storage.FileSystem.fopen_nextStream hOpen
    obtain ⟨-, -, inode, -, hDir, -, hStream⟩ := Storage.FileSystem.fopen_inv hOpen
    have hWritten : ∀ state : ConnectionState, state.upload_file = some file →
        Spares (c_str (cfg.in_upload_dir (tmp_name g))) handle fs
          (RkFlashd.write_part p ⟨state, fs⟩).fs := by
      intro state hState
      refine write_part_spares (c := Connection.mk state fs) ?_ ?_
      · intro own hOwn hSame
        obtain rfl : file = own := by simpa [hState] using hOwn
        exact absurd (hHandle file hSame) (by omega)
      · rintro - opened hOpened hSame
        obtain rfl : ⟨inode, 0⟩ = opened := by simpa [hState, hStream] using hOpened
        exact hName (fs.dir_inj hSame (by simp [hDir]))
    rw [hResult]
    exact (fopen_spares hOpen hName).trans (hWritten _ rfl)

/-- So does the end of a request unless it takes the name of its file. -/
theorem Foreign.save_spares {g : Bytes} {file : Nat} (h : Foreign cfg handle c)
    (hFile : c.state.upload_file = some file)
    (hName : c_str (cfg.in_upload_dir c.state.upload_filename) ≠
      c_str (cfg.in_upload_dir (tmp_name g))) :
    Spares (c_str (cfg.in_upload_dir (tmp_name g))) handle c.fs
      (save_upload cfg {} file c).1.fs := by
  obtain ⟨-, hHandle, now, f, hPath⟩ := h.file file hFile
  apply save_upload_spares hHandle _ hName.symm
  rw [hPath]
  exact upload_tmp_name_ne cfg now f g

theorem save_upload_nextStream (cfg : Config) (io : Io) (file : Nat) (c : Connection) :
    (save_upload cfg io file c).1.fs.nextStream = c.fs.nextStream := by
  have hMoved := Storage.FileSystem.rename_nextStream (c.fs.fclose file io.fclose).2
    (c_str c.state.upload_tmp_path) (c_str (cfg.in_upload_dir c.state.upload_filename)) io.rename
  unfold save_upload
  dsimp only
  split
  · simp
  · split
    · split
      · rename_i fs hRename
        rw [hRename] at hMoved
        simpa using hMoved
      · rename_i fs hRename
        rw [hRename] at hMoved
        simpa using hMoved
    · simp

theorem Foreign.later (h : Foreign cfg handle ⟨c.state, fs⟩)
    (hNext : fs.nextStream ≤ fs'.nextStream) : Foreign cfg handle ⟨c.state, fs'⟩ :=
  ⟨h.pp, fun file hFile =>
    have hOld := h.file file hFile
    ⟨Nat.lt_of_lt_of_le hOld.1 hNext, hOld.2⟩⟩

end Frames

section Commands

variable {cfg : Config} {w w' : Host}

/-- The AT commands open new streams only. -/
def OwnStreams (w w' : Host) : Prop :=
  w.fs.nextStream ≤ w'.fs.nextStream ∧
    ∀ file < w.fs.nextStream, w.upload.file ≠ some file → w'.upload.file ≠ some file

theorem OwnStreams.keep (hFile : w'.upload.file = w.upload.file)
    (hNext : w'.fs.nextStream = w.fs.nextStream) : OwnStreams w w' :=
  ⟨hNext.ge, fun _ _ h => hFile ▸ h⟩

theorem OwnStreams.closed (hFile : w'.upload.file = none)
    (hNext : w'.fs.nextStream = w.fs.nextStream) : OwnStreams w w' :=
  ⟨hNext.ge, fun _ _ _ => by simp [hFile]⟩

theorem close_file_nextStream (io : Io) (w : Host) :
    (close_file io w).fs.nextStream = w.fs.nextStream := by
  unfold close_file
  split
  · rfl
  · simp

theorem finish_upload_streams (cfg : Config) (io : Io) (w : Host) :
    (finish_upload cfg io w).1.upload.file = w.upload.file ∧
      (finish_upload cfg io w).1.fs.nextStream = w.fs.nextStream := by
  have hMoved := Storage.FileSystem.rename_nextStream w.fs (c_str w.upload.tmp_path)
    (c_str (cfg.in_upload_dir w.upload.filename)) io.rename
  unfold finish_upload
  dsimp only
  split
  · exact ⟨rfl, Storage.FileSystem.unlink_nextStream _ _ _⟩
  · split
    · exact ⟨rfl, Storage.FileSystem.unlink_nextStream _ _ _⟩
    · split
      · rename_i fs hRename
        rw [hRename] at hMoved
        exact ⟨rfl, (Storage.FileSystem.unlink_nextStream _ _ _).trans hMoved⟩
      · rename_i fs hRename
        rw [hRename] at hMoved
        exact ⟨rfl, hMoved⟩

theorem handle_preupload_streams (cfg : Config) (io : Io) (arg : Bytes) (w : Host) :
    OwnStreams w (handle_preupload cfg io arg w).1 := by
  rcases handle_preupload_cases cfg io arg w with
    ⟨answer, hResult, -⟩ | ⟨args, file, fs, -, -, hOpen, hResult⟩
  · rw [hResult]
    exact .keep rfl rfl
  · obtain ⟨hFile, hNext⟩ := Storage.FileSystem.fopen_nextStream hOpen
    rw [hResult]
    refine ⟨by simp [hNext], fun old hOld _ => ?_⟩
    simp only [ne_eq, Option.some.injEq]
    omega

theorem handle_upload_frame_streams (io : Io) (arg : Bytes) (w : Host) :
    OwnStreams w (handle_upload_frame io arg w).1 := by
  rcases handle_upload_frame_cases io arg w with
    ⟨count, answer, hResult, -⟩ | ⟨file, data, written, fs, -, hWrite, -, hResult⟩ |
    ⟨file, data, fs, -, hWrite, hResult⟩
  · rw [hResult]
    exact .keep rfl rfl
  · have hNext := Storage.FileSystem.fwrite_nextStream w.fs file data io.fwrite
    rw [hWrite] at hNext
    rw [hResult]
    exact .keep rfl hNext
  · have hNext := Storage.FileSystem.fwrite_nextStream w.fs file data io.fwrite
    rw [hWrite] at hNext
    rw [hResult]
    exact .keep rfl hNext

theorem perform_streams (cfg : Config) (w : Host) (r : Request) :
    OwnStreams w (perform cfg w r).1 := by
  obtain ⟨caller, command, io⟩ := r
  cases command with
  | PREUPLOAD arg => exact handle_preupload_streams cfg io arg w
  | UPLOAD arg => exact handle_upload_frame_streams io arg w
  | UPLOADDONE =>
      simp only [perform, handle_uploaddone]
      split
      · obtain ⟨hFile, hNext⟩ := finish_upload_streams cfg io (close_file io w)
        exact .closed (hFile.trans (close_file_file io w))
          (hNext.trans (close_file_nextStream io w))
      · exact .keep rfl rfl
  | UPLOADCANCEL =>
      simp only [perform, handle_uploadcancel]
      split
      · exact .keep rfl rfl
      · exact .closed (close_file_file io w)
          ((Storage.FileSystem.unlink_nextStream _ _ _).trans (close_file_nextStream io w))

end Commands

section Steps

variable {cfg : Config} {s t : UploadDirectory} {label : DirectoryLabel}

/-- An active upload, whatever its stage, is known by its temp name, and its stream is one
that has been opened. -/
theorem Stage.active (h : Stage cfg s.host) (hActive : s.upload.active = true) :
    (∃ g, s.upload.tmp_path = cfg.in_upload_dir (tmp_name g)) ∧
      ∀ own, s.upload.file = some own → (s.server.fs.stream own).isSome = true := by
  rcases h with ⟨transfer, hTracks⟩ | ⟨transfer, hClosed⟩
  · obtain ⟨transfer, -, hReceiving⟩ := hTracks.receiving hActive
    refine ⟨⟨_, hReceiving.tmp_path⟩, fun own hOwn => ?_⟩
    obtain ⟨file, hFile, hWriting⟩ := hReceiving.writing
    obtain rfl : file = own := Option.some.inj (hFile.symm.trans hOwn)
    exact hWriting.is_open
  · refine ⟨⟨_, hClosed.tmp_path⟩, fun own hOwn => ?_⟩
    have hNone : s.upload.file = none := hClosed.file
    rw [hNone] at hOwn
    cases hOwn

theorem Stage.idle (h : Stage cfg s.host) (hInactive : s.upload.active = false) :
    s.upload = {} := by
  rcases h with ⟨transfer, hTracks⟩ | ⟨transfer, hClosed⟩
  · exact (hTracks.idle hInactive).2
  · exact absurd hClosed.active (by simp [UploadDirectory.host, hInactive])

/-- The stage outlives every call that spares the file and the stream. -/
theorem Stage.spared (h : Stage cfg s.host) {fs : FileSystem}
    (hSpares : s.upload.active = true →
      Spares (c_str s.upload.tmp_path) s.upload.file s.server.fs fs) :
    Stage cfg ⟨s.upload, fs⟩ := by
  by_cases hActive : s.upload.active = true
  · have hSpares := hSpares hActive
    rcases h with ⟨transfer, hTracks⟩ | ⟨transfer, hClosed⟩
    · obtain ⟨transfer, -, hReceiving⟩ := hTracks.receiving hActive
      obtain ⟨file, hFile, hWriting⟩ := hReceiving.writing
      have hPath : c_str s.upload.tmp_path = transfer.tmp_path cfg := hReceiving.tmp_path_eq
      rw [hPath] at hSpares
      exact Or.inl ⟨some transfer, hReceiving.toDescribes, file, hFile,
        hSpares.file.writing (hSpares.stream file hFile hWriting.is_open) hWriting⟩
    · have hPath : c_str s.upload.tmp_path = transfer.tmp_path cfg := by
        rw [show s.upload.tmp_path = _ from hClosed.tmp_path, Transfer.tmp_path]
      rw [hPath] at hSpares
      exact Or.inr ⟨transfer, hClosed.toDescribes, hClosed.file,
        hSpares.file.read.trans hClosed.stored⟩
  · exact Or.inl ⟨none, h.idle (by simpa using hActive)⟩

/-- The requests do not notice an AT command. -/
theorem Shared.foreign_update (h : Shared cfg s) {w : Host} (hStreams : OwnStreams s.host w) :
    ∀ id state, (s.update w).server.find id = some state →
      Foreign cfg w.upload.file ⟨state, w.fs⟩ := by
  intro id state hFind
  have hOld := h.foreign id state hFind
  refine ⟨hOld.pp, fun file hFile => ?_⟩
  obtain ⟨hLt, hNe, hPath⟩ := hOld.file file hFile
  exact ⟨Nat.lt_of_lt_of_le hLt hStreams.1, hStreams.2 file hLt hNe, hPath⟩

theorem Shared.command (h : Shared cfg s) {r : Request} {output : DirectoryOutput}
    (hStep : upload_directory cfg s (.command r) = some (t, output))
    (hWrites : WritesSucceed s.host (r, [])) : Shared cfg t := by
  unfold upload_directory at hStep
  dsimp only at hStep
  split at hStep
  · cases hStep
  rename_i hOpen
  have hTracks : ∃ transfer, Tracks cfg transfer s.host := by
    refine h.stage.resolve_right fun ⟨transfer, hClosed⟩ => hOpen ?_
    have hActive : s.upload.active = true := hClosed.active
    have hFile : s.upload.file = none := hClosed.file
    simp [UploadDirectory.closing, hActive, hFile]
  obtain ⟨transfer, hTracks⟩ := hTracks
  split at hStep
  · rename_i hDone
    obtain ⟨rfl, -⟩ := Prod.mk.inj (Option.some.inj hStep)
    obtain ⟨transfer, -, hReceiving⟩ := hTracks.receiving hDone.2
    obtain ⟨hClosed, -⟩ := hReceiving.closed hWrites.2.1
    exact ⟨Or.inr ⟨transfer, hClosed⟩, h.foreign_update
      (.closed (close_file_file r.io s.host) (close_file_nextStream r.io s.host))⟩
  · obtain ⟨rfl, -⟩ := Prod.mk.inj (Option.some.inj hStep)
    have hTorn : NoTornWrite s.host (r, (perform cfg s.host r).2) := hWrites.no_torn_write
    exact ⟨Or.inl ⟨_, hTracks.step hTorn⟩, h.foreign_update (perform_streams cfg s.host r)⟩

theorem Shared.closed (h : Shared cfg s) (hClosing : s.closing = true) :
    ∃ transfer, Closed cfg s.host transfer := by
  obtain ⟨hActive, hNone⟩ : s.upload.active = true ∧ s.upload.file = none := by
    simpa [UploadDirectory.closing] using hClosing
  rcases h.stage with ⟨transfer, hTracks⟩ | hClosed
  · obtain ⟨transfer, -, hReceiving⟩ := hTracks.receiving hActive
    obtain ⟨file, hFile, -⟩ := hReceiving.writing
    exact absurd (hFile.symm.trans hNone) (by simp)
  · exact hClosed

theorem Shared.verdict (h : Shared cfg s) {io : Io} {output : DirectoryOutput}
    (hStep : upload_directory cfg s (.verdict io) = some (t, output)) : Shared cfg t := by
  unfold upload_directory at hStep
  dsimp only at hStep
  split at hStep
  · rename_i hClosing
    obtain ⟨rfl, -⟩ := Prod.mk.inj (Option.some.inj hStep)
    obtain ⟨hFile, hNext⟩ := finish_upload_streams cfg io s.host
    obtain ⟨transfer, hClosed⟩ := h.closed hClosing
    have hIdle : (finish_upload cfg io s.host).1.upload = {} := by
      rcases hClosed.verdict io with ⟨-, -, fs, hResult, -⟩ | ⟨-, answer, hResult, -⟩
      · rw [hResult]
      · rw [hResult]
    exact ⟨Or.inl ⟨none, hIdle⟩, h.foreign_update (.keep hFile hNext)⟩
  · cases hStep

/-- A call for one request that spares the AT upload. -/
theorem Shared.serve (h : Shared cfg s) {id : Nat} {fs : FileSystem}
    {state : Option ConnectionState} (hId : id < s.server.requests.length)
    (hSpares : s.upload.active = true →
      Spares (c_str s.upload.tmp_path) s.upload.file s.server.fs fs)
    (hNext : s.server.fs.nextStream ≤ fs.nextStream)
    (hSelf : ∀ found, state = some found → Foreign cfg s.upload.file ⟨found, fs⟩) :
    Shared cfg ⟨s.upload, s.server.put id fs state⟩ where
  stage := h.stage.spared hSpares
  foreign := by
    intro other found hFound
    by_cases hOther : other = id
    · subst hOther
      rw [UploadServer.find_put hId] at hFound
      exact hSelf found hFound
    · rw [UploadServer.find_put_of_ne hOther] at hFound
      exact (h.foreign other found hFound).later (c := ⟨found, fs⟩) hNext

/-- The stream of the AT upload is an old one. -/
theorem Shared.handle_lt (h : Shared cfg s) :
    ∀ own, s.upload.file = some own → own < s.server.fs.nextStream := by
  intro own hOwn
  by_cases hActive : s.upload.active = true
  · obtain ⟨opened, hOpened⟩ :=
      Option.isSome_iff_exists.mp ((h.stage.active hActive).2 own hOwn)
    exact (s.server.fs.stream_lt hOpened).1
  · have hIdle : s.upload = {} := h.stage.idle (by simpa using hActive)
    rw [hIdle] at hOwn
    cases hOwn

theorem Shared.post (h : Shared cfg s) {id : Nat} {p : Post} {state : ConnectionState}
    (hFind : s.server.find id = some state) (hIo : p.io = {})
    (hClear : KeepsClear cfg s (.http (.post id p), .pending)) :
    Shared cfg ⟨s.upload, s.server.put id
      (post_data cfg p (received ⟨state, s.server.fs⟩)).1.fs
      (some (post_data cfg p (received ⟨state, s.server.fs⟩)).1.state)⟩ := by
  have hOpen : p.io.fopen = true := by rw [hIo]
  have hForeign : Foreign cfg s.upload.file (received ⟨state, s.server.fs⟩) :=
    ⟨(h.foreign id state hFind).pp, (h.foreign id state hFind).file⟩
  obtain ⟨hNew, hNext⟩ := hForeign.post_data (p := p) h.handle_lt hOpen
  refine h.serve (UploadServer.lt_of_find hFind) (fun hActive => ?_) hNext ?_
  · obtain ⟨⟨g, hPath⟩, -⟩ := h.stage.active hActive
    obtain ⟨-, hWrites⟩ := hClear hActive
    rw [hPath] at hWrites ⊢
    apply hForeign.post_spares h.handle_lt hOpen
    intro hAdded opened hOpened
    have hStream : state.upload_file.bind s.server.fs.stream = some opened := hOpened
    apply hWrites
    simp only [writes_to, hFind, Option.bind_some, hAdded, if_false, hStream, Option.map_some,
      Option.mem_def]
  · rintro found ⟨⟩
    exact hNew

theorem Shared.finish (h : Shared cfg s) {id : Nat} {state : ConnectionState}
    (hFind : s.server.find id = some state)
    (hClear : KeepsClear cfg s (.http (.finish id {}), .pending)) :
    Shared cfg ⟨s.upload, s.server.put id
      (handleUpload cfg {} none ⟨state, s.server.fs⟩).1.fs none⟩ := by
  have hForeign := h.foreign id state hFind
  have hPp : state.pp = true := hForeign.pp
  cases hFile : state.upload_file with
  | none =>
      have hSame : (handleUpload cfg {} none ⟨state, s.server.fs⟩).1.fs = s.server.fs := by
        unfold handleUpload
        simp only [hPp, hFile]
        split_ifs <;> rfl
      rw [hSame]
      exact h.serve (UploadServer.lt_of_find hFind) (fun _ => .refl _ _ _) (Nat.le_refl _)
        (by rintro found ⟨⟩)
  | some file =>
      rw [handleUpload_some {} hPp hFile]
      refine h.serve (UploadServer.lt_of_find hFind) (fun hActive => ?_)
        (save_upload_nextStream cfg {} file ⟨state, s.server.fs⟩).ge (by rintro found ⟨⟩)
      obtain ⟨⟨g, hPath⟩, -⟩ := h.stage.active hActive
      obtain ⟨hName, -⟩ := hClear hActive
      rw [hPath] at hName ⊢
      apply hForeign.save_spares hFile
      intro hSame
      apply hName
      simp [renames_to, hFind, hFile, hSame]

theorem Shared.http (h : Shared cfg s) {action : UploadAction} {output : DirectoryOutput}
    (hStep : upload_directory cfg s (.http action) = some (t, output))
    (hIo : NoFailure s (.http action, output)) (hClear : KeepsClear cfg s (.http action, output)) :
    Shared cfg t := by
  obtain ⟨⟨server, response⟩, hServer, hEq⟩ := Option.map_eq_some_iff.mp hStep
  obtain ⟨rfl, -⟩ := Prod.mk.inj hEq
  cases action with
  | request =>
      obtain ⟨rfl, -⟩ := Prod.mk.inj (Option.some.inj hServer)
      refine ⟨h.stage, fun id found hFound => ?_⟩
      by_cases hNew : id < s.server.requests.length
      · apply h.foreign id found
        simpa [UploadServer.find, List.getElem?_append_left hNew] using hFound
      · have hLast : found = (upload_request s.server.fs).state := by
          rcases Nat.eq_or_lt_of_not_lt hNew with hEq | hGt
          · simpa [UploadServer.find, ← hEq, eq_comm] using hFound
          · rw [UploadServer.find, List.getElem?_eq_none (by simpa using hGt)] at hFound
            cases hFound
        subst hLast
        exact ⟨rfl, by rintro file ⟨⟩⟩
  | post id p =>
      obtain ⟨state, hFind, hResult⟩ := Option.map_eq_some_iff.mp hServer
      rw [handleUpload_post cfg p (h.foreign id state hFind).pp] at hResult
      obtain ⟨rfl, -⟩ := Prod.mk.inj hResult
      exact h.post hFind hIo hClear
  | finish id io =>
      obtain ⟨state, hFind, hResult⟩ := Option.map_eq_some_iff.mp hServer
      obtain rfl : io = {} := hIo
      have hPut : server = s.server.put id
          (handleUpload cfg {} none ⟨state, s.server.fs⟩).1.fs none :=
        (congrArg Prod.fst hResult).symm
      rw [hPut]
      exact h.finish hFind hClear

/-- No step of either side brings their streams together. -/
theorem Shared.step (h : Shared cfg s) (hStep : DirectoryStep cfg s label t) : Shared cfg t := by
  obtain ⟨action, output⟩ := label
  obtain ⟨hStep, hIo, hClear⟩ := hStep
  cases action with
  | command r => exact h.command hStep hIo
  | verdict io => exact h.verdict hStep
  | http action => exact h.http hStep hIo hClear

end Steps

end RkFlashd
