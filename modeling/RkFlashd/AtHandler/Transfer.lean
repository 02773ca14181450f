import RkFlashd.AtHandler.Upload

/-! An upload as its client knows it, and how the upload state and the file
system stand to it while it is being received, closed and moved into place. -/
namespace RkFlashd

open Text Checksum

/-- What was announced for an upload, and the frames accepted since. -/
structure Transfer where
  filename : Bytes
  expected_size : UInt64
  expected_md5 : Bytes
  frames : List Bytes := []

namespace Transfer

def bytes (t : Transfer) : Bytes := t.frames.flatten

def push (t : Transfer) (frame : Bytes) : Transfer := { t with frames := t.frames ++ [frame] }

@[simp] theorem bytes_push (t : Transfer) (frame : Bytes) :
    (t.push frame).bytes = t.bytes ++ frame := by
  simp [bytes, push]

def tmp_path (cfg : Config) (t : Transfer) : Bytes :=
  c_str (cfg.in_upload_dir (tmp_name t.filename))

def final_path (cfg : Config) (t : Transfer) : Bytes := c_str (cfg.in_upload_dir t.filename)

/-- The accepted bytes are as many as announced and have the announced digest. -/
def Complete (t : Transfer) : Prop :=
  t.bytes.length = t.expected_size.toNat ∧ md5_compute t.bytes = t.expected_md5

instance (t : Transfer) : Decidable t.Complete := inferInstanceAs (Decidable (_ ∧ _))

/-- `OK <file> <size> <md5>`. -/
def confirmation (t : Transfer) : Bytes :=
  str "OK " ++ t.filename ++ str " " ++ to_string t.bytes.length ++ str " " ++
    md5_compute t.bytes

/-- A file is never written under the name it is going to have. -/
theorem tmp_path_ne_final_path (cfg : Config) (t : Transfer) :
    t.tmp_path cfg ≠ t.final_path cfg := by
  intro h
  rw [tmp_path, final_path, cfg.c_str_in_upload_dir, cfg.c_str_in_upload_dir] at h
  have hName := congrArg List.length (cfg.in_upload_dir_inj h)
  have hPrefix :
      c_str (tmp_name t.filename) = str "upload_" ++ c_str (t.filename ++ str ".tmp") := by
    rw [tmp_name, List.append_assoc]
    exact c_str_append (by decide)
  have hLonger := c_str_length_le_append t.filename (str ".tmp")
  rw [hPrefix, List.length_append] at hName
  have hSeven : (str "upload_").length = 7 := by decide
  omega

end Transfer

/-- The fields of the upload state describe the transfer. -/
structure Describes (cfg : Config) (u : UploadState) (t : Transfer) : Prop where
  active : u.active = true
  filename : u.filename = t.filename
  tmp_path : u.tmp_path = cfg.in_upload_dir (tmp_name t.filename)
  expected_size : u.expected_size = t.expected_size
  expected_md5 : u.expected_md5 = t.expected_md5
  received : u.received = UInt64.ofNat t.bytes.length
  md5_ctx : u.md5_ctx = t.frames.foldl MD5.update MD5.reset

/-- The transfer is open: its frames, and nothing else, are in its temporary file. -/
structure Receiving (cfg : Config) (w : Host) (t : Transfer) : Prop extends
    Describes cfg w.upload t where
  writing : ∃ file, w.upload.file = some file ∧ w.fs.Writing file (t.tmp_path cfg) t.bytes

/-- The transfer is over and waits for the verdict on its temporary file. -/
structure Closed (cfg : Config) (w : Host) (t : Transfer) : Prop extends
    Describes cfg w.upload t where
  file : w.upload.file = none
  stored : w.fs.read (t.tmp_path cfg) = some t.bytes

variable {cfg : Config} {io : Io} {w : Host} {t : Transfer} {arg : Bytes}

theorem Describes.count (count : UInt32) (h : Describes cfg w.upload t) :
    Describes cfg { w.upload with frame_count := count } t :=
  ⟨h.active, h.filename, h.tmp_path, h.expected_size, h.expected_md5, h.received, h.md5_ctx⟩

/-- The context has absorbed what the file holds. -/
theorem Describes.hex (h : Describes cfg w.upload t) :
    w.upload.md5_ctx.hex.2 = md5_compute t.bytes := by
  apply MD5.Absorbed.hex
  rw [h.md5_ctx]
  exact MD5.Absorbed.reset.foldl t.frames

theorem Describes.received_toNat (h : Describes cfg w.upload t)
    (hFile : w.fs.read (t.tmp_path cfg) = some t.bytes) :
    w.upload.received.toNat = t.bytes.length := by
  have hLength : t.bytes.length ≤ Storage.maxFileSize := by
    obtain ⟨inode, -, hContent⟩ := Option.map_eq_some_iff.mp hFile
    exact hContent ▸ w.fs.size_le inode
  rw [h.received, UInt64.toNat_ofNat']
  exact Nat.mod_eq_of_lt (by unfold Storage.maxFileSize at hLength; omega)

/-- The temporary file holds what has been received. -/
theorem Receiving.read (h : Receiving cfg w t) :
    w.fs.read (t.tmp_path cfg) = some t.bytes := by
  obtain ⟨file, -, hWriting⟩ := h.writing
  exact hWriting.read

/-- An accepted `AT+PREUPLOAD` opens a transfer with no frames. -/
theorem handle_preupload_receiving (args : PreuploadArgs) {file : Nat} {fs : FileSystem}
    {succeeds : Bool}
    (hOpen : w.fs.fopen (c_str (cfg.in_upload_dir (tmp_name args.filename))) succeeds =
      (some file, fs)) :
    Receiving cfg
      ⟨{ active := true, filename := args.filename,
         tmp_path := cfg.in_upload_dir (tmp_name args.filename),
         expected_size := args.total_size, received := 0, frame_count := 0,
         file := some file, expected_md5 := args.md5_hex, md5_ctx := MD5.reset }, fs⟩
      { filename := args.filename, expected_size := args.total_size,
        expected_md5 := args.md5_hex } where
  active := rfl
  filename := rfl
  tmp_path := rfl
  expected_size := rfl
  expected_md5 := rfl
  received := rfl
  md5_ctx := rfl
  writing := ⟨file, rfl, Storage.FileSystem.Writing.of_fopen hOpen⟩

/-- A frame whose write stores all of it or none of it is either accepted or
leaves the transfer as it was. -/
theorem Receiving.upload_frame (h : Receiving cfg w t)
    (hAtomic : ∀ file data, check_frame w.upload arg = .ok (file, data) →
      (w.fs.fwrite file data io.fwrite).1 = data.length ∨
      (w.fs.fwrite file data io.fwrite).1 = 0) :
    (∃ file data, check_frame w.upload arg = .ok (file, data) ∧
      Receiving cfg (handle_upload_frame io arg w).1 (t.push data) ∧
      (handle_upload_frame io arg w).2 = str "OK " ++ to_string (t.push data).bytes.length) ∨
    (Receiving cfg (handle_upload_frame io arg w).1 t ∧
      starts_with (handle_upload_frame io arg w).2 (str "ERROR") = true) := by
  obtain ⟨opened, hOpened, hWriting⟩ := h.writing
  rcases handle_upload_frame_cases io arg w with
    ⟨count, answer, hResult, hError⟩ |
    ⟨file, data, written, fs, hCheck, hWrite, hShort, hResult⟩ |
    ⟨file, data, fs, hCheck, hWrite, hResult⟩
  · rw [hResult]
    exact Or.inr ⟨⟨h.toDescribes.count count, opened, hOpened, hWriting⟩, hError⟩
  · -- nothing of the frame was stored, so the file is still what it was
    obtain ⟨-, hFile, -⟩ := check_frame_ok hCheck
    obtain rfl : opened = file := by simpa [hOpened] using hFile
    obtain ⟨next, hNext, hStill⟩ := hWriting.fwrite data io.fwrite
    have hNone : written = 0 := by
      have hEither := hAtomic opened data hCheck
      rw [hWrite] at hEither
      exact hEither.resolve_left hShort
    obtain ⟨hCount, rfl⟩ : _ = written ∧ next = fs := by simpa using hNext.symm.trans hWrite
    rw [hCount, hNone, List.take_zero, List.append_nil] at hStill
    rw [hResult]
    exact Or.inr ⟨⟨h.toDescribes, opened, hOpened, hStill⟩, by rfl⟩
  · obtain ⟨-, hFile, -⟩ := check_frame_ok hCheck
    obtain rfl : opened = file := by simpa [hOpened] using hFile
    obtain ⟨next, hNext, hMore⟩ := hWriting.fwrite data io.fwrite
    obtain ⟨hCount, rfl⟩ : _ = data.length ∧ next = fs := by simpa using hNext.symm.trans hWrite
    rw [hCount, List.take_length, ← Transfer.bytes_push] at hMore
    have hDescribes : Describes cfg
        { w.upload with
          md5_ctx := w.upload.md5_ctx.update data
          received := w.upload.received + UInt64.ofNat data.length
          frame_count := w.upload.frame_count + 1 } (t.push data) := by
      refine ⟨h.active, h.filename, h.tmp_path, h.expected_size, h.expected_md5, ?_, ?_⟩
      · simp [h.received]
      · simp [h.md5_ctx, Transfer.push]
    have hReceiving : Receiving cfg (handle_upload_frame io arg w).1 (t.push data) := by
      rw [hResult]
      exact ⟨hDescribes, opened, hOpened, hMore⟩
    refine Or.inl ⟨opened, data, hCheck, hReceiving, ?_⟩
    have hTotal := hReceiving.received_toNat hReceiving.read
    rw [hResult] at hTotal ⊢
    rw [← hTotal]

/-- A close that flushes everything leaves the frames in the temporary file. -/
theorem Receiving.closed (h : Receiving cfg w t) (hFlush : io.fclose = 0) :
    Closed cfg (close_file io w) t ∧
      ∀ file, w.upload.file = some file → ¬ (close_file io w).fs.is_open file := by
  obtain ⟨opened, hOpened, hWriting⟩ := h.writing
  obtain ⟨next, hNext, hClosed, hRead⟩ := hWriting.fclose io.fclose
  have hResult : close_file io w = ⟨{ w.upload with file := none }, next⟩ := by
    simp [close_file, hOpened, hNext]
  rw [hResult]
  constructor
  · refine ⟨⟨h.active, h.filename, h.tmp_path, h.expected_size, h.expected_md5, h.received,
      h.md5_ctx⟩, rfl, ?_⟩
    simpa [hFlush] using hRead
  · intro file hFile
    obtain rfl : opened = file := by simpa [hOpened] using hFile
    exact hClosed

/-- The verdict: a complete transfer whose rename succeeds is confirmed and found
under its final name, any other is discarded. The upload state is idle again. -/
theorem Closed.verdict (h : Closed cfg w t) (io : Io) :
    (t.Complete ∧ io.rename = true ∧ ∃ fs,
      finish_upload cfg io w = (⟨{}, fs⟩, t.confirmation) ∧
      w.fs.rename (t.tmp_path cfg) (t.final_path cfg) true = (true, fs) ∧
      fs.read (t.final_path cfg) = some t.bytes ∧ fs.read (t.tmp_path cfg) = none) ∨
    (¬ (t.Complete ∧ io.rename = true) ∧ ∃ answer,
      finish_upload cfg io w =
        (⟨{}, (w.fs.unlink (t.tmp_path cfg) io.unlink).2⟩, answer) ∧
      starts_with answer (str "ERROR") = true) := by
  have hReceived := h.received_toNat h.stored
  have hTmp : c_str w.upload.tmp_path = t.tmp_path cfg := by rw [h.tmp_path, Transfer.tmp_path]
  have hFinal : c_str (cfg.in_upload_dir w.upload.filename) = t.final_path cfg := by
    rw [h.filename, Transfer.final_path]
  by_cases hSize : w.upload.received = w.upload.expected_size
  · by_cases hDigest : w.upload.md5_ctx.hex.2 = w.upload.expected_md5
    · have hComplete : t.Complete := by
        refine ⟨?_, ?_⟩
        · rw [← hReceived, hSize, h.expected_size]
        · rw [← h.toDescribes.hex, hDigest, h.expected_md5]
      cases hRename : io.rename with
      | true =>
          obtain ⟨fs, hEq, hNew, hOld, -⟩ :=
            Storage.FileSystem.rename_read h.stored (t.tmp_path_ne_final_path cfg)
          refine Or.inl ⟨hComplete, rfl, fs, ?_, hEq, hNew, hOld⟩
          simp only [finish_upload, hSize, hDigest, hRename, hTmp, hFinal, hEq,
            UploadState.reset_eq, h.file, ne_eq, not_true_eq_false, if_false]
          rw [← hSize, hReceived, ← hDigest, h.toDescribes.hex, h.filename]
          rfl
      | false =>
          refine Or.inr ⟨by simp, str "ERROR: failed to save firmware file", ?_, by rfl⟩
          simp only [finish_upload, hSize, hDigest, hRename, hTmp, hFinal, discard,
            UploadState.reset_eq, h.file, Storage.FileSystem.rename_fails, ne_eq,
            not_true_eq_false, if_false]
    · refine Or.inr ⟨?_, str "ERROR MD5 mismatch expected=" ++ w.upload.expected_md5 ++
        str " got=" ++ w.upload.md5_ctx.hex.2, ?_, by rfl⟩
      · rintro ⟨⟨-, hEq⟩, -⟩
        rw [← h.toDescribes.hex, ← h.expected_md5] at hEq
        exact hDigest hEq
      · simp only [finish_upload, hSize, hDigest, hTmp, discard, UploadState.reset_eq,
          h.file, ne_eq, not_true_eq_false, if_false, not_false_eq_true, if_true]
  · refine Or.inr ⟨?_, str "ERROR size mismatch expected=" ++
      to_string w.upload.expected_size.toNat ++ str " got=" ++
      to_string w.upload.received.toNat, ?_, by rfl⟩
    · rintro ⟨⟨hEq, -⟩, -⟩
      apply hSize
      apply UInt64.toNat_inj.mp
      rw [hReceived, hEq, h.expected_size]
    · simp only [finish_upload, hSize, hTmp, discard, UploadState.reset_eq, h.file, ne_eq,
        not_false_eq_true, if_true]

end RkFlashd
