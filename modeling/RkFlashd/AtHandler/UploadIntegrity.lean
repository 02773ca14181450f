import RkFlashd.AtHandler.UploadRuns

/-! What the upload commands promise over whole runs: the state, the temporary file
and the history stay in step, and a confirmed upload is stored as announced. -/
namespace RkFlashd

open Text Checksum Transition

/-- Whether the `rename` that ends `AT+UPLOADDONE` succeeds. -/
def save_succeeds (cfg : Config) (io : Io) (w : Host) : Bool :=
  ((close_file io w).fs.rename (c_str w.upload.tmp_path)
    (c_str (cfg.in_upload_dir w.upload.filename)) io.rename).1

variable {cfg : Config} {w : Host} {t : Option Transfer} {io : Io}

/-- An upload is active exactly as long as its stream is open. -/
theorem Tracks.active_iff_open (h : Tracks cfg t w) :
    w.upload.active = true ↔ ∃ file, w.upload.file = some file ∧ w.fs.is_open file := by
  cases t with
  | none => simp [show w.upload = {} from h]
  | some t =>
      obtain ⟨file, hFile, hWriting⟩ := Receiving.writing h
      exact ⟨fun _ => ⟨file, hFile, hWriting.is_open⟩, fun _ => h.active⟩

/-- An active upload is one transfer of the history. -/
theorem Tracks.receiving (h : Tracks cfg t w) (hActive : w.upload.active = true) :
    ∃ transfer, t = some transfer ∧ Receiving cfg w transfer := by
  cases t with
  | none => simp [show w.upload = {} from h] at hActive
  | some transfer => exact ⟨transfer, rfl, h⟩

theorem Receiving.tmp_path_eq {t : Transfer} (h : Receiving cfg w t) :
    c_str w.upload.tmp_path = t.tmp_path cfg := by
  rw [h.tmp_path, Transfer.tmp_path]

theorem Receiving.final_path_eq {t : Transfer} (h : Receiving cfg w t) :
    c_str (cfg.in_upload_dir w.upload.filename) = t.final_path cfg := by
  rw [h.filename, Transfer.final_path]

theorem Receiving.uploaddone_eq {t : Transfer} (h : Receiving cfg w t) :
    handle_uploaddone cfg io w = finish_upload cfg io (close_file io w) := by
  obtain ⟨file, hFile, -⟩ := h.writing
  exact uploaddone_halves cfg io h.active (by simp [hFile])

/-- After the verdict the stream is closed, the temporary name is gone and the
state is the initial one. -/
theorem Receiving.uploaddone_ends {t : Transfer} (h : Receiving cfg w t)
    (hFlush : io.fclose = 0) (hUnlink : io.unlink = true) :
    (∀ file, w.upload.file = some file → ¬ (handle_uploaddone cfg io w).1.fs.is_open file) ∧
      (handle_uploaddone cfg io w).1.fs.read (t.tmp_path cfg) = none ∧
      (handle_uploaddone cfg io w).1.upload = {} := by
  obtain ⟨hClosed, hShut⟩ := h.closed hFlush
  rw [h.uploaddone_eq]
  rcases hClosed.verdict io with
    ⟨-, -, fs, hResult, hRename, -, hGone⟩ | ⟨-, answer, hResult, -⟩
  · have hStream : fs.stream = (close_file io w).fs.stream := by
      simpa [hRename] using Storage.FileSystem.rename_stream (close_file io w).fs
        (t.tmp_path cfg) (t.final_path cfg) true
    rw [hResult]
    refine ⟨fun file hFile => ?_, hGone, rfl⟩
    simpa [Storage.FileSystem.is_open, hStream] using hShut file hFile
  · rw [hResult, hUnlink]
    refine ⟨fun file hFile => ?_, Storage.FileSystem.unlink_read _ _, rfl⟩
    simpa [Storage.FileSystem.is_open] using hShut file hFile

/-- A cancelled upload leaves neither a stream nor a file. -/
theorem Receiving.uploadcancel_ends {t : Transfer} (h : Receiving cfg w t)
    (hFlush : io.fclose = 0) (hUnlink : io.unlink = true) :
    (∀ file, w.upload.file = some file → ¬ (handle_uploadcancel io w).1.fs.is_open file) ∧
      (handle_uploadcancel io w).1.fs.read (t.tmp_path cfg) = none ∧
      (handle_uploadcancel io w).1.upload = {} := by
  obtain ⟨-, hShut⟩ := h.closed hFlush
  rw [handle_uploadcancel_active h.active, h.tmp_path_eq, hUnlink]
  refine ⟨fun file hFile => ?_, Storage.FileSystem.unlink_read _ _, rfl⟩
  simpa [Storage.FileSystem.is_open] using hShut file hFile

/-- Once everything is flushed, nothing but its own outcome stops the rename. -/
theorem Receiving.save_succeeds_eq {t : Transfer} (h : Receiving cfg w t)
    (hFlush : io.fclose = 0) : save_succeeds cfg io w = io.rename := by
  obtain ⟨hClosed, -⟩ := h.closed hFlush
  unfold save_succeeds
  rw [h.tmp_path_eq, h.final_path_eq]
  cases io.rename with
  | false => rfl
  | true =>
      obtain ⟨fs, hEq, -⟩ :=
        Storage.FileSystem.rename_read hClosed.stored (t.tmp_path_ne_final_path cfg)
      rw [hEq]

/-- The verdict confirms exactly the complete transfers that can be saved, and the
file it names then holds the bytes of the transfer. -/
theorem Receiving.uploaddone_verdict {t : Transfer} (h : Receiving cfg w t)
    (hFlush : io.fclose = 0) :
    (starts_with (handle_uploaddone cfg io w).2 (str "OK") = true ↔
      t.Complete ∧ io.rename = true) ∧
    (starts_with (handle_uploaddone cfg io w).2 (str "OK") = true →
      (handle_uploaddone cfg io w).2 = t.confirmation ∧
      (handle_uploaddone cfg io w).1.fs.read (t.final_path cfg) = some t.bytes) := by
  obtain ⟨hClosed, -⟩ := h.closed hFlush
  rw [h.uploaddone_eq]
  rcases hClosed.verdict io with
    ⟨hComplete, hRename, fs, hResult, -, hSaved, -⟩ | ⟨hNot, answer, hResult, hError⟩
  · have hOk : starts_with t.confirmation (str "OK") = true := rfl
    rw [hResult]
    exact ⟨⟨fun _ => ⟨hComplete, hRename⟩, fun _ => hOk⟩, fun _ => ⟨rfl, hSaved⟩⟩
  · rw [hResult]
    have hNotOk := not_ok_of_error hError
    exact ⟨⟨fun hOk => by simp [hNotOk] at hOk, fun hYes => absurd hYes hNot⟩,
      fun hOk => by simp [hNotOk] at hOk⟩

/-- A step of the machine is one command, performed and answered. -/
theorem upload_step {r : Request} {answer : Bytes} {w' : Host}
    (h : (upload_machine cfg).Step w (r, answer) w') :
    w' = (perform cfg w r).1 ∧ answer = (perform cfg w r).2 := by
  have hEq : perform cfg w r = (w', answer) := by simpa [Machine.Step, upload_machine] using h
  simp [hEq]

/-- **The life of an upload.** When only `fopen` and `rename` can fail, every
reachable state is in step with the commands and answers so far: an active upload
has an open file that holds the accepted frames and nothing else, an upload that
ends leaves the idle state and no temporary file, and it is confirmed exactly when
its size and digest are the announced ones and it could be saved. -/
theorem upload_lifecycle {w₀ : Host} {trace : List (Request × Bytes)}
    (hIdle : w₀.upload = {})
    (run : Runs (Guarded (upload_machine cfg).Step WritesSucceed) w₀ trace w) :
    (w.upload.active = true ↔ ∃ file, w.upload.file = some file ∧ w.fs.is_open file) ∧
    (w.upload.active = true → ∃ t, transfer_of trace = some t ∧
      w.fs.read (c_str w.upload.tmp_path) = some t.bytes ∧
      w.upload.received.toNat = t.bytes.length ∧
      w.upload.md5_ctx = t.frames.foldl MD5.update MD5.reset) ∧
    (∀ r answer w', Guarded (upload_machine cfg).Step WritesSucceed w (r, answer) w' →
      w.upload.active = true → r.command = .UPLOADDONE ∨ r.command = .UPLOADCANCEL →
      (∀ file, w.upload.file = some file → ¬ w'.fs.is_open file) ∧
      w'.fs.read (c_str w.upload.tmp_path) = none ∧ w'.upload = {}) ∧
    (∀ r answer w', Guarded (upload_machine cfg).Step WritesSucceed w (r, answer) w' →
      r.command = .UPLOADDONE →
      (starts_with answer (str "OK") = true ↔
        w.upload.active = true ∧ w.upload.received = w.upload.expected_size ∧
        (∃ t, transfer_of trace = some t ∧ md5_compute t.bytes = w.upload.expected_md5) ∧
        save_succeeds cfg r.io w = true) ∧
      (starts_with answer (str "OK") = true →
        ∃ t, transfer_of trace = some t ∧ answer = t.confirmation ∧
          w'.fs.read (c_str (cfg.in_upload_dir w.upload.filename)) = some t.bytes)) := by
  have hTracks : Tracks cfg (transfer_of trace) w :=
    tracks_of_run hIdle (run.mono fun _ _ _ hStep => ⟨hStep.1, hStep.2.no_torn_write⟩)
  refine ⟨hTracks.active_iff_open, ?_, ?_, ?_⟩
  · intro hActive
    obtain ⟨t, hTransfer, hReceiving⟩ := hTracks.receiving hActive
    refine ⟨t, hTransfer, ?_, hReceiving.received_toNat hReceiving.read, hReceiving.md5_ctx⟩
    rw [hReceiving.tmp_path_eq]
    exact hReceiving.read
  · rintro ⟨caller, command, io⟩ answer w' ⟨hStep, -, hFlush, hUnlink⟩ hActive hEnds
    obtain ⟨t, -, hReceiving⟩ := hTracks.receiving hActive
    obtain ⟨rfl, -⟩ := upload_step hStep
    rw [hReceiving.tmp_path_eq]
    rcases hEnds with hDone | hCancel
    · obtain rfl : command = .UPLOADDONE := hDone
      exact hReceiving.uploaddone_ends hFlush hUnlink
    · obtain rfl : command = .UPLOADCANCEL := hCancel
      exact hReceiving.uploadcancel_ends hFlush hUnlink
  · rintro ⟨caller, command, io⟩ answer w' ⟨hStep, -, hFlush, -⟩ hDone
    obtain ⟨rfl, rfl⟩ := upload_step hStep
    obtain rfl : command = .UPLOADDONE := hDone
    by_cases hActive : w.upload.active = true
    · obtain ⟨t, hTransfer, hReceiving⟩ := hTracks.receiving hActive
      obtain ⟨hIff, hSaved⟩ := hReceiving.uploaddone_verdict hFlush
      have hReceived := hReceiving.received_toNat hReceiving.read
      refine ⟨hIff.trans ?_, fun hOk => ?_⟩
      · rw [hTransfer, hReceiving.save_succeeds_eq hFlush, Transfer.Complete,
          ← UInt64.toNat_inj, hReceived, hReceiving.expected_size, hReceiving.expected_md5]
        simp [hActive, and_assoc]
      · obtain ⟨hAnswer, hRead⟩ := hSaved hOk
        rw [hReceiving.final_path_eq]
        exact ⟨t, hTransfer, hAnswer, hRead⟩
    · have hAnswer : (handle_uploaddone cfg io w).2 = str "ERROR: no active upload" := by
        simp [handle_uploaddone, hActive]
      have hNotOk : starts_with (str "ERROR: no active upload") (str "OK") = false := rfl
      simp only [perform, hAnswer, hNotOk]
      simp [hActive]

/-- The daemon before any upload, on an empty disk. -/
def fresh_host : Host := ⟨{}, Storage.FileSystem.empty⟩

/-- Announce the two bytes `ab` under the name `f`. -/
def announce_ab : Request :=
  ⟨.HTTP, .PREUPLOAD (str "f,2,187ef4436122d1cc2f40dc2b92f0eba0"), {}⟩

/-- Both bytes in one frame. -/
def send_ab (io : Io) : Request := ⟨.HTTP, .UPLOAD (str "6162,69F0,2"), io⟩

/-- Both bytes have come, and the upload is still open. -/
theorem upload_lifecycle_ab : ∃ w trace,
    ((upload_machine {}).guard WritesSucceed).exec fresh_host [announce_ab, send_ab {}] =
      some (w, trace) ∧
    ∃ t, transfer_of trace = some t ∧ w.upload.received.toNat = t.bytes.length ∧
      w.fs.read (c_str w.upload.tmp_path) = some t.bytes := by
  obtain ⟨⟨w, trace⟩, hExec, hActive⟩ := Option.map_eq_some_iff.mp
    (by decide +kernel : (((upload_machine {}).guard WritesSucceed).exec fresh_host
      [announce_ab, send_ab {}]).map (fun result => result.1.upload.active) = some true)
  obtain ⟨-, hFile, -⟩ := upload_lifecycle rfl (Machine.runs_of_guard_exec hExec)
  obtain ⟨t, hTransfer, hRead, hReceived, -⟩ := hFile hActive
  exact ⟨w, trace, hExec, t, hTransfer, hReceived, hRead⟩

/-- **Integrity without torn writes.** Whatever else fails, as long as every write
stores all of its frame or none of it and the last close flushes, the temporary
file, the counter and the digest describe the same bytes in every reachable state,
and a confirmed file has the confirmed size and digest. -/
theorem confirmed_file_is_intact {w₀ : Host} {trace : List (Request × Bytes)}
    (hIdle : w₀.upload = {})
    (run : Runs (Guarded (upload_machine cfg).Step NoTornWrite) w₀ trace w) :
    (w.upload.active = true → ∃ bytes, w.fs.read (c_str w.upload.tmp_path) = some bytes ∧
      w.upload.received.toNat = bytes.length ∧ MD5.Absorbed w.upload.md5_ctx bytes) ∧
    (∀ r answer w', Guarded (upload_machine cfg).Step NoTornWrite w (r, answer) w' →
      r.command = .UPLOADDONE → starts_with answer (str "OK") = true →
      ∃ n md5 stored,
        answer = str "OK " ++ w.upload.filename ++ str " " ++ to_string n ++ str " " ++ md5 ∧
        w'.fs.read (c_str (cfg.in_upload_dir w.upload.filename)) = some stored ∧
        stored.length = n ∧ md5_compute stored = md5) := by
  have hTracks : Tracks cfg (transfer_of trace) w := tracks_of_run hIdle run
  refine ⟨?_, ?_⟩
  · intro hActive
    obtain ⟨t, -, hReceiving⟩ := hTracks.receiving hActive
    refine ⟨t.bytes, ?_, hReceiving.received_toNat hReceiving.read, ?_⟩
    · rw [hReceiving.tmp_path_eq]
      exact hReceiving.read
    · rw [hReceiving.md5_ctx]
      exact MD5.Absorbed.reset.foldl t.frames
  · rintro ⟨caller, command, io⟩ answer w' ⟨hStep, -, hFlush⟩ hDone hOk
    obtain ⟨rfl, rfl⟩ := upload_step hStep
    obtain rfl : command = .UPLOADDONE := hDone
    by_cases hActive : w.upload.active = true
    · obtain ⟨t, -, hReceiving⟩ := hTracks.receiving hActive
      obtain ⟨-, hSaved⟩ := hReceiving.uploaddone_verdict (hFlush rfl hActive)
      obtain ⟨hAnswer, hRead⟩ := hSaved hOk
      refine ⟨t.bytes.length, md5_compute t.bytes, t.bytes, ?_, ?_, rfl, rfl⟩
      · rw [hReceiving.filename]
        exact hAnswer
      · rw [hReceiving.final_path_eq]
        exact hRead
    · have hNone : (perform cfg w ⟨caller, .UPLOADDONE, io⟩).2 =
          str "ERROR: no active upload" := by
        simp [perform, handle_uploaddone, hActive]
      rw [hNone] at hOk
      exact absurd hOk (by decide)

/-- A frame of which nothing is written, and the same frame again. -/
theorem confirmed_file_is_intact_ab : ∃ w trace,
    ((upload_machine {}).guard NoTornWrite).exec fresh_host
      [announce_ab, send_ab { fwrite := some 0 }, send_ab {}] = some (w, trace) ∧
    ∃ bytes, w.fs.read (c_str w.upload.tmp_path) = some bytes ∧
      w.upload.received.toNat = bytes.length := by
  obtain ⟨⟨w, trace⟩, hExec, hActive⟩ := Option.map_eq_some_iff.mp
    (by decide +kernel : (((upload_machine {}).guard NoTornWrite).exec fresh_host
      [announce_ab, send_ab { fwrite := some 0 }, send_ab {}]).map
        (fun result => result.1.upload.active) = some true)
  obtain ⟨hFile, -⟩ := confirmed_file_is_intact rfl (Machine.runs_of_guard_exec hExec)
  obtain ⟨bytes, hRead, hReceived, -⟩ := hFile hActive
  exact ⟨w, trace, hExec, bytes, hRead, hReceived⟩

/-- A frame of which one byte was stored before the write failed, sent again: the
upload is confirmed as the two bytes `ab` and the file holds the three bytes `aab`. -/
theorem torn_write_is_confirmed : ∃ w trace,
    Runs (upload_machine {}).Step fresh_host trace w ∧
    trace = [(announce_ab, str "OK READY"),
      (send_ab { fwrite := some 1 }, str "ERROR: write failed"),
      (send_ab {}, str "OK 2"),
      (⟨.HTTP, .UPLOADDONE, {}⟩, str "OK f 2 187ef4436122d1cc2f40dc2b92f0eba0")] ∧
    w.fs.read (c_str (Config.in_upload_dir {} (str "f"))) = some (str "aab") ∧
    (str "aab").length ≠ 2 ∧ md5_compute (str "aab") ≠ str "187ef4436122d1cc2f40dc2b92f0eba0" := by
  obtain ⟨⟨w, trace⟩, hExec, hResult⟩ := Option.map_eq_some_iff.mp
    (by decide +kernel : ((upload_machine {}).exec fresh_host
      [announce_ab, send_ab { fwrite := some 1 }, send_ab {}, ⟨.HTTP, .UPLOADDONE, {}⟩]).map
        (fun result => (result.2, result.1.fs.read (c_str (Config.in_upload_dir {} (str "f"))))) =
      some ([(announce_ab, str "OK READY"),
        (send_ab { fwrite := some 1 }, str "ERROR: write failed"),
        (send_ab {}, str "OK 2"),
        (⟨.HTTP, .UPLOADDONE, {}⟩, str "OK f 2 187ef4436122d1cc2f40dc2b92f0eba0")],
        some (str "aab")))
  rw [Prod.mk.injEq] at hResult
  exact ⟨w, trace, Machine.runs_of_exec hExec, hResult.1, hResult.2, by decide,
    by decide +kernel⟩

end RkFlashd
