import RkFlashd.Checksum.CRCDetection
import RkFlashd.AtHandler.UploadRoundTrip

/-! What becomes of a frame whose data were damaged on their way to the daemon. -/
namespace RkFlashd

open Text Checksum Transition

/-- An active upload has its file open. -/
def FileOpen (u : UploadState) : Prop := u.active = true → u.file.isSome = true

variable {cfg : Config} {build : Build}

theorem finish_upload_inactive (io : Io) (w : Host) :
    (finish_upload cfg io w).1.upload.active = false := by
  unfold finish_upload
  dsimp only
  split
  · rfl
  · split
    · rfl
    · split <;> rfl

theorem FileOpen.of_inactive {u : UploadState} (h : u.active = false) : FileOpen u :=
  fun hActive => absurd (hActive.symm.trans h) Bool.true_eq_false_eq_False

/-- No command leaves an active upload without its file. -/
theorem FileOpen.perform {w : Host} (h : FileOpen w.upload) (r : Request) :
    FileOpen (perform cfg w r).1.upload := by
  obtain ⟨caller, command, io⟩ := r
  cases command with
  | PREUPLOAD arg =>
      rcases handle_preupload_cases cfg io arg w with
        ⟨answer, hResult, -⟩ | ⟨args, file, fs, -, -, -, hResult⟩
      · simpa only [RkFlashd.perform, hResult] using h
      · simp only [RkFlashd.perform, hResult]
        exact fun _ => rfl
  | UPLOAD arg =>
      rcases handle_upload_frame_cases io arg w with
        ⟨count, answer, hResult, -⟩ | ⟨file, data, written, fs, -, -, -, hResult⟩ |
          ⟨file, data, fs, -, -, hResult⟩
      · simp only [RkFlashd.perform, hResult]
        exact h
      · simp only [RkFlashd.perform, hResult]
        exact h
      · simp only [RkFlashd.perform, hResult]
        exact h
  | UPLOADDONE =>
      simp only [RkFlashd.perform, handle_uploaddone]
      split
      · exact FileOpen.of_inactive (finish_upload_inactive io _)
      · exact h
  | UPLOADCANCEL =>
      simp only [RkFlashd.perform, handle_uploadcancel]
      split
      · exact h
      · exact FileOpen.of_inactive rfl

theorem FileOpen.process {d d' : Daemon} {call : Call} {answer : Bytes}
    (h : FileOpen d.host.upload) (hStep : process cfg build d call = some (d', answer)) :
    FileOpen d'.host.upload :=
  process_upload (fun _ r hOpen => FileOpen.perform hOpen r) h hStep

/-- An active upload has its file open, in every run of the daemon. -/
theorem file_open_of_run {d₀ d : Daemon} {trace : List (Call × Bytes)}
    (hIdle : d₀.host.upload.active = false)
    (run : Runs (process_machine cfg build).Step d₀ trace d) : FileOpen d.host.upload :=
  run.invariant (I := fun d => FileOpen d.host.upload)
    (fun _ _ _ h hStep => FileOpen.process h hStep) (FileOpen.of_inactive hIdle)

/-- **A damaged frame is noticed.** Whenever an upload is active, data that differ from
what the CRC of a frame was computed of in an odd number of bits, or within sixteen
consecutive bits, are rejected, and the transfer stands where it stood. -/
theorem damaged_frame_rejected {d₀ s : Daemon} {trace : List (Call × Bytes)} {call : Call}
    {d d' : Bytes} (upper : Bool) (hIdle : d₀.host.upload.active = false)
    (run : Runs (process_machine cfg build).Step d₀ trace s)
    (hActive : s.host.upload.active = true) (hLength : d'.length = d.length)
    (hShort : d.length < 2 ^ 32) (hDiffer : true ∈ difference d d')
    (hKind : (difference d d').count true % 2 = 1 ∨ Confined 16 (difference d d'))
    (hLine : call.line =
      str "AT+UPLOAD=" ++ frame_arg d' (print_hex upper 4 (crc16_compute d).toNat)) :
    ∃ s' answer, process cfg build s call = some (s', answer) ∧
      starts_with answer (str "ERROR CRC mismatch") = true ∧
      s'.host.fs = s.host.fs ∧ s'.host.upload.received = s.host.upload.received ∧
      s'.host.upload.md5_ctx = s.host.upload.md5_ctx := by
  obtain ⟨file, hFile⟩ := Option.isSome_iff_exists.mp (file_open_of_run hIdle run hActive)
  have hCrc : (print_hex upper 4 (crc16_compute d).toNat).length = 4 := print_hex_length ..
  have hHex := print_hex_isxdigit upper 4 (crc16_compute d).toNat
  have hOther : numeral 16 (print_hex upper 4 (crc16_compute d).toNat) ≠
      (crc16_compute d').toNat := by
    rw [numeral_print_hex upper (crc16_compute d).toNat_lt]
    exact fun hEq => crc16_detects hLength.symm hDiffer hKind (UInt16.toNat_inj.mp hEq)
  obtain ⟨count, answer, hCheck, hMismatch⟩ :=
    (check_frame_arg hActive hFile (hLength ▸ hShort) hCrc hHex).2 hOther
  have hResult : handle_upload_frame call.around.io
      (frame_arg d' (print_hex upper 4 (crc16_compute d).toNat)) s.host =
      (⟨{ s.host.upload with frame_count := count }, s.host.fs⟩, answer) := by
    simp [handle_upload_frame, hCheck]
  refine ⟨{ s with host := ⟨{ s.host.upload with frame_count := count }, s.host.fs⟩ }, answer,
    ?_, hMismatch, rfl, rfl, rfl⟩
  rw [process_frame_arg cfg build s hLine, hResult]

/-- The byte `b` arrives as a `c`. -/
def damaged_call : Call :=
  ⟨.SERIAL, str "AT+UPLOAD=" ++ frame_arg (str "c")
    (print_hex true 4 (crc16_compute (str "b")).toNat), {}⟩

/-- The frame is rejected, and the file does not change. -/
theorem damaged_frame_rejected_bc :
    ∃ s s' answer,
      process {} { date := [], time := [] } s damaged_call = some (s', answer) ∧
      starts_with answer (str "ERROR CRC mismatch") = true ∧ s'.host.fs = s.host.fs := by
  obtain ⟨⟨s, trace⟩, hExec, hActive⟩ := Option.map_eq_some_iff.mp
    (by decide +kernel : ((process_machine {} { date := [], time := [] }).exec
      { host := fresh_host } (calls_ab.take 1)).map
        (fun result => result.1.host.upload.active) = some true)
  obtain ⟨s', answer, hProcess, hAnswer, hFiles, -⟩ :=
    damaged_frame_rejected true rfl (Machine.runs_of_exec hExec) hActive
      (by decide : (str "c").length = (str "b").length) (by decide) (by decide) (Or.inl (by decide))
      (rfl : damaged_call.line = _)
  exact ⟨s, s', answer, hProcess, hAnswer, hFiles⟩

/-- Zeros and a last byte. -/
def padded (n : Nat) (last : UInt8) : Bytes := List.replicate n 0 ++ [last]

theorem count_difference_padded (n : Nat) :
    (difference (padded n 0) (padded n 1)).count true = 1 := by
  induction n with
  | zero => decide
  | succ n ih =>
      have hCons : difference (padded (n + 1) 0) (padded (n + 1) 1) =
          byte_bits 0 ++ difference (padded n 0) (padded n 1) := rfl
      have hZero : (byte_bits 0).count true = 0 := by decide
      rw [hCons, List.count_append, ih, hZero]

theorem handle_upload_frame_rejected {w : Host} {arg message : Bytes} (io : Io)
    (hArg : arg ≠ []) (hParse : parse_frame arg = .error message)
    (hActive : w.upload.active = true) (hFile : w.upload.file.isSome = true) :
    handle_upload_frame io arg w = (w, message) := by
  obtain ⟨file, hFile⟩ := Option.isSome_iff_exists.mp hFile
  simp [handle_upload_frame, check_frame, hArg, hParse, hActive, hFile]

/-- The length of a frame is read as a 32-bit number, and a frame beyond it is turned
down before its CRC is looked at. -/
theorem long_frame_not_compared :
    ∃ s trace, Runs (process_machine {} { date := [], time := [] }).Step
        { host := fresh_host } trace s ∧ s.host.upload.active = true ∧
      (padded (2 ^ 32) 1).length = (padded (2 ^ 32) 0).length ∧
      true ∈ difference (padded (2 ^ 32) 0) (padded (2 ^ 32) 1) ∧
      (difference (padded (2 ^ 32) 0) (padded (2 ^ 32) 1)).count true % 2 = 1 ∧
      ∃ s' answer, process {} { date := [], time := [] } s
          ⟨.SERIAL, str "AT+UPLOAD=" ++ frame_arg (padded (2 ^ 32) 1)
            (print_hex true 4 (crc16_compute (padded (2 ^ 32) 0)).toNat), {}⟩ =
          some (s', answer) ∧
        starts_with answer (str "ERROR CRC mismatch") = false := by
  obtain ⟨⟨s, trace⟩, hExec, hActive⟩ := Option.map_eq_some_iff.mp
    (by decide +kernel : ((process_machine {} { date := [], time := [] }).exec
      { host := fresh_host } (calls_ab.take 1)).map
        (fun result => result.1.host.upload.active) = some true)
  have run := Machine.runs_of_exec hExec
  have hFile := file_open_of_run rfl run hActive
  generalize hCrc : print_hex true 4 (crc16_compute (padded (2 ^ 32) 0)).toNat = crc16_hex
  have hWidth : crc16_hex.length = 4 := hCrc ▸ print_hex_length ..
  have hHex : ∀ c ∈ crc16_hex, isxdigit c = true := hCrc ▸ print_hex_isxdigit true 4 _
  have hLength : (padded (2 ^ 32) 1).length = 2 ^ 32 + 1 := by
    rw [padded, List.length_append, List.length_replicate, List.length_singleton]
  have hCount := count_difference_padded (2 ^ 32)
  have hParse := parse_frame_fields (by omega : (padded (2 ^ 32) 1).length < 2 ^ 62) hWidth hHex
  rw [if_neg (by omega)] at hParse
  have hArg : frame_arg (padded (2 ^ 32) 1) crc16_hex ≠ [] := by simp [frame_arg]
  have hProcess := process_frame_arg {} { date := [], time := [] } s
    (rfl : (⟨.SERIAL, str "AT+UPLOAD=" ++ frame_arg (padded (2 ^ 32) 1) crc16_hex, {}⟩ :
      Call).line = _)
  rw [handle_upload_frame_rejected _ hArg hParse hActive hFile] at hProcess
  refine ⟨s, trace, run, hActive, ?_, ?_, by rw [hCount], s, _, hProcess, rfl⟩
  · rw [hLength, padded, List.length_append, List.length_replicate, List.length_singleton]
  · exact List.count_pos_iff.mp (by omega)

end RkFlashd
