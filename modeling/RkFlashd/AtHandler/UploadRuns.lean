import RkFlashd.Machine.Execution
import RkFlashd.Daemon.Lock
import RkFlashd.AtHandler.Transfer

/-! Runs of the upload commands. The history of a run, commands and answers only,
says which transfer a client has open; the upload state and the files follow it. -/
namespace RkFlashd

open Text Checksum Transition

inductive UploadCommand where
  | PREUPLOAD (arg : Bytes)
  | UPLOAD (arg : Bytes)
  | UPLOADDONE
  | UPLOADCANCEL
  deriving DecidableEq, Repr

/-- One command, who sends it, and how its file calls fare. -/
structure Request where
  caller : Owner
  command : UploadCommand
  io : Io := {}
  deriving DecidableEq, Repr

/-- The upload branches of `process`. The handlers do not look at the caller. -/
def perform (cfg : Config) (w : Host) (r : Request) : Host × Bytes :=
  match r.command with
  | .PREUPLOAD arg => handle_preupload cfg r.io arg w
  | .UPLOAD arg => handle_upload_frame r.io arg w
  | .UPLOADDONE => handle_uploaddone cfg r.io w
  | .UPLOADCANCEL => handle_uploadcancel r.io w

def upload_machine (cfg : Config) : Machine Host Request Bytes :=
  fun w r => some (perform cfg w r)

/-- What a client may conclude from one command and its answer. -/
def Transfer.next (t : Option Transfer) (label : Request × Bytes) : Option Transfer :=
  match label.1.command with
  | .PREUPLOAD arg =>
      match starts_with label.2 (str "OK"), parse_preupload arg with
      | true, .ok args =>
          some { filename := args.filename, expected_size := args.total_size,
                 expected_md5 := args.md5_hex }
      | _, _ => t
  | .UPLOAD arg =>
      match t, starts_with label.2 (str "OK"), parse_frame arg with
      | some t, true, .ok frame => some (t.push frame.bin_data)
      | t, _, _ => t
  | .UPLOADDONE => none
  | .UPLOADCANCEL => none

/-- The transfer a history leaves open. -/
def transfer_of (trace : List (Request × Bytes)) : Option Transfer :=
  trace.foldl Transfer.next none

@[simp] theorem transfer_of_append (trace : List (Request × Bytes)) (label : Request × Bytes) :
    transfer_of (trace ++ [label]) = Transfer.next (transfer_of trace) label := by
  simp [transfer_of]

/-- The host follows the history: idle when no transfer is open, receiving the open
one otherwise. -/
def Tracks (cfg : Config) (t : Option Transfer) (w : Host) : Prop :=
  match t with
  | none => w.upload = {}
  | some t => Receiving cfg w t

/-- How many bytes the `fwrite` of a frame stores, and how many it is given. -/
def frame_write (w : Host) (r : Request) : Option (Nat × Nat) :=
  match r.command with
  | .UPLOAD arg =>
      match check_frame w.upload arg with
      | .ok (file, bin_data) => some ((w.fs.fwrite file bin_data r.io.fwrite).1, bin_data.length)
      | .error _ => none
  | _ => none

/-- Every write of a frame stores all of it or nothing, and the close that precedes
a verdict loses nothing. -/
def NoTornWrite (w : Host) (label : Request × Bytes) : Prop :=
  (∀ counts ∈ frame_write w label.1, counts.1 = counts.2 ∨ counts.1 = 0) ∧
  (label.1.command = .UPLOADDONE → w.upload.active = true → label.1.io.fclose = 0)

instance (w : Host) (label : Request × Bytes) : Decidable (NoTornWrite w label) :=
  inferInstanceAs (Decidable (_ ∧ _))

/-- Every `fwrite`, `fclose` and `unlink` succeeds. -/
def WritesSucceed (w : Host) (label : Request × Bytes) : Prop :=
  (∀ counts ∈ frame_write w label.1, counts.1 = counts.2) ∧
  label.1.io.fclose = 0 ∧ label.1.io.unlink = true

instance (w : Host) (label : Request × Bytes) : Decidable (WritesSucceed w label) :=
  inferInstanceAs (Decidable (_ ∧ _))

theorem WritesSucceed.no_torn_write {w : Host} {label : Request × Bytes}
    (h : WritesSucceed w label) : NoTornWrite w label :=
  ⟨fun counts hCounts => Or.inl (h.1 counts hCounts), fun _ _ => h.2.1⟩

variable {cfg : Config} {w w' : Host} {t : Option Transfer} {r : Request} {answer : Bytes}

theorem Tracks.idle (h : Tracks cfg t w) (hInactive : w.upload.active = false) :
    t = none ∧ w.upload = {} := by
  cases t with
  | none => exact ⟨rfl, h⟩
  | some t => simp [show w.upload.active = true from h.active] at hInactive

theorem close_file_file (io : Io) (w : Host) : (close_file io w).upload.file = none := by
  unfold close_file
  split
  · assumption
  · rfl

theorem handle_uploadcancel_active {io : Io} (h : w.upload.active = true) :
    handle_uploadcancel io w =
      (⟨{}, ((close_file io w).fs.unlink (c_str w.upload.tmp_path) io.unlink).2⟩, str "OK") := by
  have hPath : (close_file io w).upload.tmp_path = w.upload.tmp_path := by
    unfold close_file
    split <;> rfl
  simp [handle_uploadcancel, h, discard, UploadState.reset_eq (close_file_file io w), hPath]

/-- After an announcement the state is that of the transfer on record. -/
theorem Tracks.preupload (h : Tracks cfg t w) (caller : Owner) (arg : Bytes) (io : Io) :
    Tracks cfg (Transfer.next t (⟨caller, .PREUPLOAD arg, io⟩, (handle_preupload cfg io arg w).2))
      (handle_preupload cfg io arg w).1 := by
  rcases handle_preupload_cases cfg io arg w with
    ⟨answer, hResult, hError⟩ | ⟨args, file, fs, hInactive, hParse, hOpen, hResult⟩
  · rw [hResult]
    simpa [Transfer.next, not_ok_of_error hError] using h
  · obtain ⟨rfl, -⟩ := h.idle hInactive
    have hOk : starts_with (str "OK READY") (str "OK") = true := rfl
    rw [hResult]
    simp only [Transfer.next, hOk, hParse]
    exact handle_preupload_receiving args hOpen

/-- After a frame that is stored in full or not at all, the state is that of the transfer on
record.
-/
theorem Tracks.upload (h : Tracks cfg t w) (caller : Owner) (arg : Bytes) (io : Io)
    (hWrite : ∀ counts ∈ frame_write w ⟨caller, .UPLOAD arg, io⟩,
      counts.1 = counts.2 ∨ counts.1 = 0) :
    Tracks cfg (Transfer.next t (⟨caller, .UPLOAD arg, io⟩, (handle_upload_frame io arg w).2))
      (handle_upload_frame io arg w).1 := by
  cases t with
  | none =>
      have hIdle : w.upload = {} := h
      have hNext : Transfer.next none (⟨caller, .UPLOAD arg, io⟩, (handle_upload_frame io arg w).2)
          = none := by
        simp [Transfer.next]
      rw [hNext]
      by_cases hArg : arg = []
      · simp [Tracks, handle_upload_frame, check_frame, hArg, hIdle]
      · simp [Tracks, handle_upload_frame, check_frame, hArg, hIdle]
  | some t =>
      have hAtomic : ∀ file data, check_frame w.upload arg = .ok (file, data) →
          (w.fs.fwrite file data io.fwrite).1 = data.length ∨
          (w.fs.fwrite file data io.fwrite).1 = 0 := by
        intro file data hCheck
        exact hWrite (_, _) (by simp [frame_write, hCheck])
      rcases Receiving.upload_frame h hAtomic with
        ⟨file, data, hCheck, hReceiving, hAnswer⟩ | ⟨hReceiving, hError⟩
      · obtain ⟨-, -, frame, hParse, rfl, -⟩ := check_frame_ok hCheck
        have hOk : starts_with (handle_upload_frame io arg w).2 (str "OK") = true := by
          rw [hAnswer]
          rfl
        simp only [Transfer.next, hOk, hParse]
        exact hReceiving
      · simp only [Transfer.next, not_ok_of_error hError]
        exact hReceiving

/-- After the end of an upload there is no transfer. -/
theorem Tracks.uploaddone (h : Tracks cfg t w) (io : Io)
    (hFlush : w.upload.active = true → io.fclose = 0) :
    Tracks cfg none (handle_uploaddone cfg io w).1 := by
  cases t with
  | none =>
      have hIdle : w.upload = {} := h
      have hSame : handle_uploaddone cfg io w = (w, str "ERROR: no active upload") := by
        simp [handle_uploaddone, hIdle]
      rw [hSame]
      exact h
  | some t =>
      have hReceiving : Receiving cfg w t := h
      obtain ⟨file, hFile, -⟩ := hReceiving.writing
      obtain ⟨hClosed, -⟩ := hReceiving.closed (hFlush hReceiving.active)
      rw [uploaddone_halves cfg io hReceiving.active (by simp [hFile])]
      rcases hClosed.verdict io with ⟨-, -, fs, hResult, -⟩ | ⟨-, answer, hResult, -⟩
      · rw [hResult]
        rfl
      · rw [hResult]
        rfl

/-- After a cancelled upload there is no transfer. -/
theorem Tracks.uploadcancel (h : Tracks cfg t w) (io : Io) :
    Tracks cfg none (handle_uploadcancel io w).1 := by
  cases t with
  | none =>
      have hIdle : w.upload = {} := h
      have hSame : handle_uploadcancel io w = (w, str "OK no upload in progress") := by
        simp [handle_uploadcancel, hIdle]
      rw [hSame]
      exact h
  | some t =>
      rw [handle_uploadcancel_active (Receiving.toDescribes h).active]
      rfl

/-- One command keeps the host in step with the history. -/
theorem Tracks.step (h : Tracks cfg t w)
    (hTorn : NoTornWrite w (r, (perform cfg w r).2)) :
    Tracks cfg (Transfer.next t (r, (perform cfg w r).2)) (perform cfg w r).1 := by
  obtain ⟨caller, command, io⟩ := r
  cases command with
  | PREUPLOAD arg => exact h.preupload caller arg io
  | UPLOAD arg => exact h.upload caller arg io hTorn.1
  | UPLOADDONE => exact h.uploaddone io (hTorn.2 rfl)
  | UPLOADCANCEL => exact h.uploadcancel io

/-- A run in which no write is torn keeps the host in step with its history. -/
theorem tracks_of_run {w₀ : Host} {trace : List (Request × Bytes)} (hIdle : w₀.upload = {})
    (run : Runs (Guarded (upload_machine cfg).Step NoTornWrite) w₀ trace w) :
    Tracks cfg (transfer_of trace) w := by
  refine Runs.history (I := fun trace w => Tracks cfg (transfer_of trace) w) ?_ ?_ run
  · exact hIdle
  · rintro trace s ⟨r, answer⟩ s' - hTracks ⟨hStep, hTorn⟩
    obtain ⟨rfl, rfl⟩ : (perform cfg s r).1 = s' ∧ (perform cfg s r).2 = answer := by
      simpa [Machine.Step, upload_machine, Prod.ext_iff] using hStep
    rw [transfer_of_append]
    exact hTracks.step hTorn

end RkFlashd
