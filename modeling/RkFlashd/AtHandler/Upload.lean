import RkFlashd.Daemon.Config
import RkFlashd.Checksum.CRC16
import RkFlashd.Checksum.MD5

/-! `handler_upload.cpp`: `AT+PREUPLOAD`, `AT+UPLOAD`, `AT+UPLOADDONE` and
`AT+UPLOADCANCEL` on the static upload state and the files of the daemon. -/
namespace RkFlashd

open Text Checksum

/-- `UploadState`. The `FILE*` is the handle of a stream, `nullptr` is `none`. -/
structure UploadState where
  active : Bool := false
  filename : Bytes := []
  tmp_path : Bytes := []
  expected_size : UInt64 := 0
  received : UInt64 := 0
  frame_count : UInt32 := 0
  file : Option Nat := none
  expected_md5 : Bytes := []
  md5_ctx : MD5 := MD5.reset
  deriving DecidableEq

/-- `reset()` leaves the file pointer to its callers. -/
def UploadState.reset (u : UploadState) : UploadState :=
  { u with
    active := false, filename := [], tmp_path := [], expected_size := 0, received := 0,
    frame_count := 0, expected_md5 := [], md5_ctx := MD5.reset }

/-- Once the file pointer is cleared, a reset gives the initial state. -/
theorem UploadState.reset_eq {u : UploadState} (h : u.file = none) : u.reset = {} := by
  simp [UploadState.reset, h]

/-- What the upload commands act on: the static state and the files. -/
structure Host where
  upload : UploadState
  fs : FileSystem

structure PreuploadArgs where
  filename : Bytes
  total_size : UInt64
  md5_hex : Bytes
  deriving DecidableEq, Repr

/-- The checks of `handle_preupload` on its argument, in their order. -/
def parse_preupload (arg : Bytes) : Except Bytes PreuploadArgs :=
  match find arg 44 0 with
  | none => .error (str "ERROR: missing size and md5")
  | some comma1 =>
      match find arg 44 (comma1 + 1) with
      | none => .error (str "ERROR: missing md5")
      | some comma2 =>
          let filename := substr arg 0 comma1
          let size_str := substr arg (comma1 + 1) (comma2 - comma1 - 1)
          let md5_hex := substr_from arg (comma2 + 1)
          let total_size := strtoull 10 size_str
          if ¬ size_str.all isdigit then .error (str "ERROR: invalid size")
          else if total_size = 0 then .error (str "ERROR: size must be > 0")
          else if md5_hex.length ≠ 32 then .error (str "ERROR: md5 must be 32 hex chars")
          else if ¬ md5_hex.all isxdigit then .error (str "ERROR: invalid md5 hex")
          else if filename = [] ∨ 255 < filename.length then .error (str "ERROR: invalid filename")
          else if (find filename 47 0).isSome then .error (str "ERROR: filename contains /")
          else if (find_str filename (str "..")).isSome then .error (str "ERROR: invalid filename")
          else .ok ⟨filename, total_size, md5_hex⟩

/-- `"upload_" + filename + ".tmp"`. -/
def tmp_name (filename : Bytes) : Bytes := str "upload_" ++ filename ++ str ".tmp"

def handle_preupload (cfg : Config) (io : Io) (arg : Bytes) (w : Host) : Host × Bytes :=
  if arg = [] then (w, str "ERROR: AT+PREUPLOAD requires <file>,<size>,<md5>")
  else if w.upload.active then
    (w, str "ERROR: upload already in progress — send AT+UPLOADCANCEL first")
  else
    match parse_preupload arg with
    | .error message => (w, message)
    | .ok args =>
        let tmp_path := cfg.in_upload_dir (tmp_name args.filename)
        match w.fs.fopen (c_str tmp_path) io.fopen with
        | (none, fs) => (⟨w.upload, fs⟩, str "ERROR: cannot create temp file")
        | (some file, fs) =>
            (⟨{ active := true, filename := args.filename, tmp_path := tmp_path,
                expected_size := args.total_size, received := 0, frame_count := 0,
                file := some file, expected_md5 := args.md5_hex, md5_ctx := MD5.reset }, fs⟩,
              str "OK READY")

/-- A frame whose fields have passed the checks that precede the CRC. -/
structure Frame where
  crc16_hex : Bytes
  bin_data : Bytes
  deriving DecidableEq, Repr

/-- The byte `sscanf` makes of the pair at `2 * i`, zero when it converts nothing.
It reads the text from there on, which may go past the pair. -/
def decode_byte (hex_data : Bytes) (i : Nat) : UInt8 :=
  ((sscanf_2x (hex_data.drop (i * 2))).getD 0).toUInt8

def decode_hex (hex_data : Bytes) : Bytes :=
  (List.range (hex_data.length / 2)).map (decode_byte hex_data)

/-- The checks of `handle_upload_frame` on its argument, in their order. The second
search starts at `last_comma - 1`, which wraps when the only comma comes first. -/
def parse_frame (arg : Bytes) : Except Bytes Frame :=
  match rfind arg 44 npos with
  | none => .error (str "ERROR: missing crc16 and frame_len")
  | some last_comma =>
      match rfind arg 44 (size_sub last_comma 1) with
      | none => .error (str "ERROR: missing hex_data")
      | some prev_comma =>
          let hex_data := substr arg 0 prev_comma
          let crc16_hex := substr arg (prev_comma + 1) (size_sub (size_sub last_comma prev_comma) 1)
          let len_str := substr_from arg (last_comma + 1)
          let frame_len := (strtoull 10 len_str).toUInt32
          let bin_len := hex_data.length / 2
          if crc16_hex.length ≠ 4 then .error (str "ERROR: crc16 must be 4 hex chars")
          else if ¬ crc16_hex.all isxdigit then .error (str "ERROR: invalid crc16 hex")
          else if ¬ len_str.all isdigit then .error (str "ERROR: invalid frame length")
          else if hex_data.length % 2 ≠ 0 then
            .error (str "ERROR: hex data must have even length")
          else if bin_len ≠ frame_len.toNat then
            .error (str "ERROR: frame_len mismatch (declared=" ++ to_string frame_len.toNat ++
              str " actual=" ++ to_string bin_len ++ str ")")
          else .ok ⟨crc16_hex, decode_hex hex_data⟩

/-- The CRC a frame declares. -/
def Frame.expected_crc (frame : Frame) : UInt16 := (strtoull 16 frame.crc16_hex).toUInt16

/-- `handle_upload_frame` up to its `fwrite`: either the state and the answer it
returns early with, or the open file and the bytes it is about to write. -/
def check_frame (u : UploadState) (arg : Bytes) : Except (UploadState × Bytes) (Nat × Bytes) :=
  if arg = [] then .error (u, str "ERROR: AT+UPLOAD requires arguments")
  else
    match u.active, u.file with
    | true, some file =>
        match parse_frame arg with
        | .error message => .error (u, message)
        | .ok frame =>
            let computed_crc := crc16_compute frame.bin_data
            if computed_crc ≠ frame.expected_crc then
              let u := { u with frame_count := u.frame_count + 1 }
              .error (u,
                str "ERROR CRC mismatch frame " ++ to_string (u.frame_count - 1).toNat ++
                  str " expected=" ++ frame.crc16_hex ++
                  str " got=" ++ print_hex true 4 computed_crc.toNat)
            else .ok (file, frame.bin_data)
    | _, _ => .error (u, str "ERROR: no active upload — send AT+PREUPLOAD first")

def handle_upload_frame (io : Io) (arg : Bytes) (w : Host) : Host × Bytes :=
  match check_frame w.upload arg with
  | .error (u, answer) => (⟨u, w.fs⟩, answer)
  | .ok (file, bin_data) =>
      let (written, fs) := w.fs.fwrite file bin_data io.fwrite
      if written ≠ bin_data.length then (⟨w.upload, fs⟩, str "ERROR: write failed")
      else
        let u := { w.upload with
          md5_ctx := w.upload.md5_ctx.update bin_data
          received := w.upload.received + UInt64.ofNat bin_data.length
          frame_count := w.upload.frame_count + 1 }
        (⟨u, fs⟩, str "OK " ++ to_string u.received.toNat)

/-- `fclose(u.file); u.file = nullptr;`. The result of `fclose` is not looked at. -/
def close_file (io : Io) (w : Host) : Host :=
  match w.upload.file with
  | none => w
  | some file => ⟨{ w.upload with file := none }, (w.fs.fclose file io.fclose).2⟩

/-- `unlink(u.tmp_path.c_str()); u.reset();`. -/
def discard (io : Io) (w : Host) : Host :=
  ⟨w.upload.reset, (w.fs.unlink (c_str w.upload.tmp_path) io.unlink).2⟩

/-- What `handle_uploaddone` does once the file is closed. -/
def finish_upload (cfg : Config) (io : Io) (w : Host) : Host × Bytes :=
  let u := w.upload
  if u.received ≠ u.expected_size then
    (discard io w,
      str "ERROR size mismatch expected=" ++ to_string u.expected_size.toNat ++
        str " got=" ++ to_string u.received.toNat)
  else
    let (md5_ctx, actual_md5) := u.md5_ctx.hex
    let w := { w with upload := { u with md5_ctx := md5_ctx } }
    if actual_md5 ≠ u.expected_md5 then
      (discard io w,
        str "ERROR MD5 mismatch expected=" ++ u.expected_md5 ++ str " got=" ++ actual_md5)
    else
      let final_path := cfg.in_upload_dir u.filename
      match w.fs.rename (c_str u.tmp_path) (c_str final_path) io.rename with
      | (false, fs) =>
          (discard io { w with fs := fs }, str "ERROR: failed to save firmware file")
      | (true, fs) =>
          (⟨w.upload.reset, fs⟩,
            str "OK " ++ u.filename ++ str " " ++ to_string u.received.toNat ++ str " " ++
              actual_md5)

def handle_uploaddone (cfg : Config) (io : Io) (w : Host) : Host × Bytes :=
  match w.upload.active, w.upload.file with
  | true, some _ => finish_upload cfg io (close_file io w)
  | _, _ => (w, str "ERROR: no active upload")

/-- An upload that is open is closed first, then its verdict is given. -/
theorem uploaddone_halves (cfg : Config) (io : Io) {w : Host} (hActive : w.upload.active = true)
    (hFile : w.upload.file.isSome = true) :
    handle_uploaddone cfg io w = finish_upload cfg io (close_file io w) := by
  obtain ⟨file, hFile⟩ := Option.isSome_iff_exists.mp hFile
  simp [handle_uploaddone, hActive, hFile]

def handle_uploadcancel (io : Io) (w : Host) : Host × Bytes :=
  if ¬ w.upload.active then (w, str "OK no upload in progress")
  else (discard io (close_file io w), str "OK")

/-! What each handler can do, one lemma a handler. Every answer that is not a
success begins with `ERROR`. -/

theorem not_ok_of_error {answer : Bytes} (h : starts_with answer (str "ERROR") = true) :
    starts_with answer (str "OK") = false := by
  obtain ⟨rest, rfl⟩ := List.isPrefixOf_iff_prefix.mp h
  rfl

theorem parse_preupload_error {arg message : Bytes} (h : parse_preupload arg = .error message) :
    starts_with message (str "ERROR") = true := by
  unfold parse_preupload at h
  split at h
  · cases h; rfl
  · split at h
    · cases h; rfl
    · simp only at h
      split_ifs at h <;> cases h <;> rfl

theorem parse_frame_error {arg message : Bytes} (h : parse_frame arg = .error message) :
    starts_with message (str "ERROR") = true := by
  unfold parse_frame at h
  split at h
  · cases h; rfl
  · split at h
    · cases h; rfl
    · simp only at h
      split_ifs at h <;> cases h <;> rfl

/-- A rejected `AT+PREUPLOAD` changes nothing, an accepted one starts from scratch. -/
theorem handle_preupload_cases (cfg : Config) (io : Io) (arg : Bytes) (w : Host) :
    (∃ answer, handle_preupload cfg io arg w = (w, answer) ∧
      starts_with answer (str "ERROR") = true) ∨
    ∃ args file fs, w.upload.active = false ∧ parse_preupload arg = .ok args ∧
      w.fs.fopen (c_str (cfg.in_upload_dir (tmp_name args.filename))) io.fopen = (some file, fs) ∧
      handle_preupload cfg io arg w =
        (⟨{ active := true, filename := args.filename,
            tmp_path := cfg.in_upload_dir (tmp_name args.filename),
            expected_size := args.total_size, received := 0, frame_count := 0,
            file := some file, expected_md5 := args.md5_hex, md5_ctx := MD5.reset }, fs⟩,
          str "OK READY") := by
  unfold handle_preupload
  split
  · exact Or.inl ⟨_, rfl, rfl⟩
  · split
    · exact Or.inl ⟨_, rfl, rfl⟩
    · rename_i hInactive
      split
      · rename_i message hParse
        exact Or.inl ⟨_, rfl, parse_preupload_error hParse⟩
      · rename_i args hParse
        dsimp only
        split
        · rename_i fs hOpen
          obtain ⟨-, rfl⟩ := Storage.FileSystem.fopen_none hOpen
          exact Or.inl ⟨_, rfl, rfl⟩
        · rename_i file fs hOpen
          exact Or.inr ⟨args, file, fs, by simpa using hInactive, hParse, hOpen, rfl⟩

/-- Before the write, a frame can only advance the frame counter. -/
theorem check_frame_error {u next : UploadState} {arg answer : Bytes}
    (h : check_frame u arg = .error (next, answer)) :
    (∃ count, next = { u with frame_count := count }) ∧
      starts_with answer (str "ERROR") = true := by
  unfold check_frame at h
  split at h
  · cases h; exact ⟨⟨u.frame_count, rfl⟩, rfl⟩
  · split at h
    · split at h
      · rename_i message hParse
        cases h; exact ⟨⟨u.frame_count, rfl⟩, parse_frame_error hParse⟩
      · simp only at h
        split at h
        · cases h; exact ⟨⟨_, rfl⟩, rfl⟩
        · cases h
    · cases h; exact ⟨⟨u.frame_count, rfl⟩, rfl⟩

/-- A frame that reaches the write belongs to an active upload and its CRC matches. -/
theorem check_frame_ok {u : UploadState} {arg data : Bytes} {file : Nat}
    (h : check_frame u arg = .ok (file, data)) :
    u.active = true ∧ u.file = some file ∧ ∃ frame, parse_frame arg = .ok frame ∧
      frame.bin_data = data ∧ crc16_compute data = frame.expected_crc := by
  unfold check_frame at h
  split at h
  · cases h
  · split at h
    · rename_i found hActive hFile
      split at h
      · cases h
      · rename_i frame hParse
        simp only at h
        split at h
        · cases h
        · rename_i hCrc
          cases h
          exact ⟨hActive, hFile, frame, hParse, rfl, by simpa using hCrc⟩
    · cases h

/-- A frame is turned down, or its write falls short, or it is accepted. -/
theorem handle_upload_frame_cases (io : Io) (arg : Bytes) (w : Host) :
    (∃ count answer, handle_upload_frame io arg w =
        (⟨{ w.upload with frame_count := count }, w.fs⟩, answer) ∧
      starts_with answer (str "ERROR") = true) ∨
    (∃ file data written fs, check_frame w.upload arg = .ok (file, data) ∧
      w.fs.fwrite file data io.fwrite = (written, fs) ∧ written ≠ data.length ∧
      handle_upload_frame io arg w = (⟨w.upload, fs⟩, str "ERROR: write failed")) ∨
    (∃ file data fs, check_frame w.upload arg = .ok (file, data) ∧
      w.fs.fwrite file data io.fwrite = (data.length, fs) ∧
      handle_upload_frame io arg w =
        (⟨{ w.upload with
            md5_ctx := w.upload.md5_ctx.update data
            received := w.upload.received + UInt64.ofNat data.length
            frame_count := w.upload.frame_count + 1 }, fs⟩,
          str "OK " ++ to_string (w.upload.received + UInt64.ofNat data.length).toNat)) := by
  unfold handle_upload_frame
  cases hCheck : check_frame w.upload arg with
  | error result =>
      obtain ⟨next, answer⟩ := result
      obtain ⟨⟨count, rfl⟩, hError⟩ := check_frame_error hCheck
      exact Or.inl ⟨count, answer, rfl, hError⟩
  | ok result =>
      obtain ⟨file, data⟩ := result
      cases hWrite : w.fs.fwrite file data io.fwrite with
      | mk written fs =>
          by_cases hShort : written = data.length
          · subst hShort
            exact Or.inr (Or.inr ⟨file, data, fs, rfl, hWrite, by simp [hWrite]⟩)
          · exact Or.inr (Or.inl ⟨file, data, written, fs, rfl, hWrite, hShort,
              by simp [hWrite, hShort]⟩)

end RkFlashd
