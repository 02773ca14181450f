import RkFlashd.Process
import RkFlashd.AtHandler.StoredFiles

/-! `AT+VERIFY`: what the loop of `handle_verify` makes of reads that end early, and whether
its answer agrees with that of the upload. -/
namespace RkFlashd

open Text Checksum Transition

/-- What the reads deliver up to the first that delivers nothing. -/
def delivered : Bytes → List Nat → Bytes
  | _, [] => []
  | rest, count :: counts =>
      let chunk := rest.take (min count 4096)
      if chunk = [] then [] else chunk ++ delivered (rest.drop chunk.length) counts

/-- `OK <md5> <size>`. -/
def verified (md5 : Bytes) (total : Nat) : Bytes := str "OK " ++ md5 ++ str " " ++ to_string total

section Loop

variable {md5 : MD5} {message rest : Bytes} {counts : List Nat}

/-- The loop takes in what the reads deliver, and counts it. -/
theorem verify_loop_absorbed (h : MD5.Absorbed md5 message) (total : UInt64) (rest : Bytes)
    (counts : List Nat) :
    MD5.Absorbed (verify_loop md5 total rest counts).1 (message ++ delivered rest counts) ∧
      (verify_loop md5 total rest counts).2 =
        total + UInt64.ofNat (delivered rest counts).length := by
  induction counts generalizing md5 message total rest with
  | nil => simpa [verify_loop, delivered] using h
  | cons count counts ih =>
      unfold verify_loop delivered
      by_cases hEnd : rest.take (min count 4096) = []
      · simpa [hEnd] using h
      · obtain ⟨hMd5, hTotal⟩ := ih (h.update (rest.take (min count 4096)))
          (total + UInt64.ofNat (rest.take (min count 4096)).length)
          (rest.drop (rest.take (min count 4096)).length)
        simp only [if_neg hEnd]
        refine ⟨by rwa [List.append_assoc] at hMd5, ?_⟩
        rw [hTotal, List.length_append, UInt64.ofNat_add, UInt64.add_assoc]

/-- What a read takes and what it leaves are the whole. -/
theorem chunk_append_rest (rest : Bytes) (n : Nat) :
    rest.take n ++ rest.drop (rest.take n).length = rest := by
  rcases Nat.le_total n rest.length with hLe | hLe
  · rw [List.length_take_of_le hLe, List.take_append_drop]
  · rw [List.take_of_length_le hLe, List.drop_length, List.append_nil]

/-- The reads deliver the bytes of the file in their order, and may end early. -/
theorem delivered_initial (rest : Bytes) (counts : List Nat) : delivered rest counts <+: rest := by
  induction counts generalizing rest with
  | nil => exact List.nil_prefix
  | cons count counts ih =>
      unfold delivered
      by_cases hEnd : rest.take (min count 4096) = []
      · simp [hEnd]
      · obtain ⟨left, hLeft⟩ := ih (rest.drop (rest.take (min count 4096)).length)
        simp only [if_neg hEnd]
        refine ⟨left, ?_⟩
        rw [List.append_assoc, hLeft, chunk_append_rest]

theorem delivered_replicate {file : Bytes} {turns : Nat} (h : file.length ≤ 4096 * turns) :
    delivered file (List.replicate turns 4096) = file := by
  induction turns generalizing file with
  | zero =>
      obtain rfl : file = [] := List.length_eq_zero_iff.mp (by omega)
      rfl
  | succ turns ih =>
      have hChunk := chunk_append_rest file 4096
      rw [List.replicate_succ, delivered, Nat.min_self]
      by_cases hEnd : file.take 4096 = []
      · obtain rfl : file = [] := by simpa using hEnd
        rfl
      · simp only [if_neg hEnd]
        rw [ih, hChunk]
        rw [List.length_drop, List.length_take]
        omega

/-- Without an error the loop sees the whole file. -/
theorem delivered_full (file : Bytes) : delivered file (full_reads file) = file := by
  apply delivered_replicate
  omega

theorem verified_inj {m m' : Bytes} {n n' : Nat} (h : verified m n = verified m' n') :
    m = m' ∧ n = n' := by
  have hDigits : ∀ n, (32 : UInt8) ∉ to_string n := by
    intro n hMem
    have hDigit := to_string_isdigit n 32 hMem
    cases hDigit
  unfold verified at h
  rw [List.append_assoc, List.append_assoc (str "OK " ++ m')] at h
  obtain ⟨hFirst, hLast⟩ : str "OK " ++ m = str "OK " ++ m' ∧ to_string n = to_string n' :=
    cut_last_unique h (hDigits n) (hDigits n')
  have hNumeral := congrArg (numeral 10) hLast
  rw [numeral_to_string, numeral_to_string] at hNumeral
  exact ⟨List.append_cancel_left hFirst, hNumeral⟩

end Loop

section Errors

variable {cfg : Config} {reads : Reads} {arg file : Bytes} {fs : FileSystem}

/-- The argument passes the checks and the file can be opened. -/
structure Opens (cfg : Config) (reads : Reads) (arg : Bytes) (fs : FileSystem) (file : Bytes) :
    Prop where
  nonempty : arg ≠ []
  no_dots : find_str arg (str "..") = none
  fopen : reads.fopen = true
  file : fs.read (c_str (cfg.in_upload_dir arg)) = some file

/-- The bytes that reach the loop. -/
def Reads.seen (reads : Reads) (file : Bytes) : Bytes :=
  delivered file (reads.counts.getD (full_reads file))

/-- A file that can be opened is verified as far as it is read. -/
theorem handle_verify_opens (h : Opens cfg reads arg fs file) :
    handle_verify cfg reads arg fs =
      verified (md5_compute (reads.seen file)) (reads.seen file).length := by
  obtain ⟨hNonempty, hDots, hOpen, hFile⟩ := h
  obtain ⟨hMd5, hTotal⟩ := verify_loop_absorbed MD5.Absorbed.reset 0 file
    (reads.counts.getD (full_reads file))
  have hFits : (reads.seen file).length < 2 ^ 64 := by
    have hPrefix := (delivered_initial file (reads.counts.getD (full_reads file))).length_le
    obtain ⟨inode, -, rfl⟩ := Option.map_eq_some_iff.mp hFile
    have hSize := fs.size_le inode
    unfold Reads.seen
    unfold Storage.maxFileSize at hSize
    omega
  have hSeen : delivered file (reads.counts.getD (full_reads file)) = reads.seen file := rfl
  rw [List.nil_append, hSeen] at hMd5
  rw [hSeen, UInt64.zero_add] at hTotal
  have hCount : (UInt64.ofNat (reads.seen file).length).toNat = (reads.seen file).length := by
    rw [UInt64.toNat_ofNat', Nat.mod_eq_of_lt hFits]
  simp only [handle_verify, hNonempty, hDots, hOpen, hFile, if_false, Option.isSome_none,
    Bool.false_eq_true, hMd5.hex, hTotal, hCount, verified]

/-- Every other answer is an error. -/
theorem handle_verify_refuses (h : ∀ file, ¬ Opens cfg reads arg fs file) :
    starts_with (handle_verify cfg reads arg fs) (str "ERROR") = true := by
  unfold handle_verify
  split
  · rfl
  · split
    · rfl
    · rename_i hNonempty hDots
      dsimp only
      split
      · rename_i file hOpen hFile
        exact absurd ⟨hNonempty, by simpa using hDots, hOpen, hFile⟩ (h file)
      · rfl

/-- A success names the digest and the size of the file, and any other answer is an error. -/
structure Certifies (cfg : Config) (arg : Bytes) (fs : FileSystem) (answer : Bytes) : Prop where
  success : ∀ m n, answer = verified m n →
    ∃ file, fs.read (c_str (cfg.in_upload_dir arg)) = some file ∧
      n = file.length ∧ m = md5_compute file
  error : (∀ m n, answer ≠ verified m n) → starts_with answer (str "ERROR") = true

theorem not_verified_of_error {answer : Bytes} (h : starts_with answer (str "ERROR") = true)
    (m : Bytes) (n : Nat) : answer ≠ verified m n := by
  rintro rfl
  have hNot := not_ok_of_error h
  cases hNot

/-- **What `AT+VERIFY` certifies.** It certifies nothing but the whole file exactly when no
read of the file it has opened ends it early. -/
theorem verify_certifies_iff :
    Certifies cfg arg fs (handle_verify cfg reads arg fs) ↔
      ∀ file, Opens cfg reads arg fs file → reads.seen file = file := by
  constructor
  · intro hCertifies file hOpens
    obtain ⟨found, hFound, hLength, -⟩ := hCertifies.success _ _ (handle_verify_opens hOpens)
    obtain rfl := Option.some.inj (hOpens.file.symm.trans hFound)
    exact (delivered_initial file _).eq_of_length hLength
  · intro hWhole
    by_cases hOpens : ∃ file, Opens cfg reads arg fs file
    · obtain ⟨file, hOpens⟩ := hOpens
      rw [handle_verify_opens hOpens, hWhole file hOpens]
      constructor
      · intro m n hAnswer
        obtain ⟨rfl, rfl⟩ := verified_inj hAnswer
        exact ⟨file, hOpens.file, rfl, rfl⟩
      · exact fun hNot => absurd rfl (hNot _ _)
    · have hError := handle_verify_refuses (not_exists.mp hOpens)
      constructor
      · exact fun m n hAnswer => absurd hAnswer (not_verified_of_error hError m n)
      · exact fun _ => hError

end Errors

/-- A disk with one file `f`, of the bytes `ab`. -/
def disk_ab : FileSystem :=
  let path := c_str (Config.in_upload_dir {} (str "f"))
  ((Storage.FileSystem.empty.fopen path true).2.fwrite 0 (str "ab") none).2

/-- The first read of a file of two bytes fails, and an empty file is certified. -/
theorem failed_read_is_certified :
    disk_ab.read (c_str (Config.in_upload_dir {} (str "f"))) = some (str "ab") ∧
      handle_verify {} { counts := some [0] } (str "f") disk_ab =
        str "OK d41d8cd98f00b204e9800998ecf8427e 0" ∧
      ¬ Certifies {} (str "f") disk_ab
        (handle_verify {} { counts := some [0] } (str "f") disk_ab) := by
  have hRead : disk_ab.read (c_str (Config.in_upload_dir {} (str "f"))) = some (str "ab") := by
    rfl
  have hAnswer : handle_verify {} { counts := some [0] } (str "f") disk_ab =
      str "OK d41d8cd98f00b204e9800998ecf8427e 0" := by decide +kernel
  refine ⟨hRead, hAnswer, ?_⟩
  rw [hAnswer]
  intro hCertifies
  obtain ⟨file, hFile, hLength, -⟩ :=
    hCertifies.success (str "d41d8cd98f00b204e9800998ecf8427e") 0 (by rfl)
  obtain rfl := Option.some.inj (hRead.symm.trans hFile)
  cases hLength

section Agreement

variable {cfg : Config} {build : Build} {t : Transfer} {fs : FileSystem}
  {past trace : List (Request × Bytes)} {label : Request × Bytes} {w₀ w w' : Host}

/-- A transfer was begun by an argument that `AT+PREUPLOAD` takes. -/
def WellNamed (t : Transfer) : Prop := ∃ arg f n m, PreuploadForm arg f n m ∧ t.filename = f

theorem Transfer.next_well_named {before : Option Transfer}
    (h : ∀ open_transfer, before = some open_transfer → WellNamed open_transfer)
    (label : Request × Bytes) :
    ∀ next, Transfer.next before label = some next → WellNamed next := by
  intro next hNext
  unfold Transfer.next at hNext
  split at hNext
  · split at hNext
    · rename_i arg _ _ _ args _ hParse
      obtain ⟨f, n, m, hForm, rfl⟩ := parse_preupload_ok_iff.mp hParse
      cases hNext
      exact ⟨arg, f, n, m, hForm, rfl⟩
    · exact h next hNext
  · split at hNext
    · rename_i found frame _ _
      cases hNext
      obtain ⟨arg, f, n, m, hForm, hName⟩ := h found rfl
      exact ⟨arg, f, n, m, hForm, hName⟩
    · exact h next hNext
  · cases hNext
  · cases hNext

/-- Every transfer in a history has a name that its announcement was checked for. -/
theorem transfer_well_named (trace : List (Request × Bytes)) :
    ∀ t, transfer_of trace = some t → WellNamed t := by
  induction trace using List.reverseRecOn with
  | nil => exact fun t hNone => by cases hNone
  | append_singleton past label ih =>
      rw [transfer_of_append]
      exact Transfer.next_well_named ih label

/-- What is left of a name when blanks are removed passes the check for two dots too. -/
theorem WellNamed.no_dots (h : WellNamed t) : find_str (trim t.filename) (str "..") = none := by
  obtain ⟨arg, f, n, m, hForm, rfl⟩ := h
  rw [find_str_eq_none_iff]
  intro hDots
  have hPrefix : trim t.filename <+: t.filename := List.rdropWhile_prefix _ _
  exact hForm.no_dots (hDots.trans hPrefix.isInfix)

/-- The command that asks for the digest of an uploaded file. -/
def verify_line (filename : Bytes) : Bytes := str "AT+VERIFY=" ++ filename

theorem dispatch_verify (filename : Bytes) :
    dispatch (verify_line filename) = .ok (.VERIFY (trim filename)) :=
  dispatch_append (show str "VERIFY" ≠ [] by decide) (by decide) (by rfl)

/-- Nothing has changed since, no read fails, and the command is answered with the digest and
the size of the upload. -/
def VerifyAgrees (cfg : Config) (build : Build) (t : Transfer) (fs : FileSystem) : Prop :=
  ∀ (d : Daemon) (call : Call), d.host.fs = fs → call.line = verify_line t.filename →
    call.around.reads = {} →
    (process cfg build d call).map Prod.snd = some (verified (md5_compute t.bytes) t.bytes.length)

theorem verify_answer {d : Daemon} {call : Call} (hLine : call.line = verify_line t.filename)
    (hReads : call.around.reads = {}) :
    (process cfg build d call).map Prod.snd =
      some (handle_verify cfg {} (trim t.filename) d.host.fs) := by
  have hDispatch : dispatch call.line = .ok (.VERIFY (trim t.filename)) := by
    rw [hLine, dispatch_verify]
  rw [process_ok hDispatch, execute, hReads, Option.map_some]

/-- The comparison in terms of the handler alone. -/
theorem verify_agrees_iff :
    VerifyAgrees cfg build t fs ↔ handle_verify cfg {} (trim t.filename) fs =
      verified (md5_compute t.bytes) t.bytes.length := by
  constructor
  · intro hAgrees
    have hAnswer := hAgrees ⟨.NONE, ⟨{}, fs⟩, {}⟩ ⟨.HTTP, verify_line t.filename, {}⟩ rfl rfl rfl
    rw [verify_answer rfl rfl] at hAnswer
    exact Option.some.inj hAnswer
  · rintro hAnswer d call rfl hLine hReads
    rw [verify_answer hLine hReads, hAnswer]

/-- A file read to its end is verified as it is stored. -/
theorem handle_verify_stored {stored : Bytes} {name : Bytes} (hNonempty : name ≠ [])
    (hDots : find_str name (str "..") = none)
    (hRead : fs.read (c_str (cfg.in_upload_dir name)) = some stored) :
    handle_verify cfg {} name fs = verified (md5_compute stored) stored.length := by
  have hOpens : Opens cfg {} name fs stored := ⟨hNonempty, hDots, rfl, hRead⟩
  have hAnswer := handle_verify_opens hOpens
  have hSeen : Reads.seen {} stored = stored := delivered_full stored
  rwa [hSeen] at hAnswer

/-- The command finds a file of the size and digest under the name that it is left with. -/
theorem WellNamed.verify_iff (h : WellNamed t) :
    handle_verify cfg {} (trim t.filename) fs = verified (md5_compute t.bytes) t.bytes.length ↔
      trim t.filename ≠ [] ∧ ∃ stored,
        fs.read (c_str (cfg.in_upload_dir (trim t.filename))) = some stored ∧
        stored.length = t.bytes.length ∧ md5_compute stored = md5_compute t.bytes := by
  constructor
  · intro hAnswer
    by_cases hOpens : ∃ stored, Opens cfg {} (trim t.filename) fs stored
    · obtain ⟨stored, hNonempty, hDots, -, hRead⟩ := hOpens
      rw [handle_verify_stored hNonempty hDots hRead] at hAnswer
      obtain ⟨hMd5, hLength⟩ := verified_inj hAnswer
      exact ⟨hNonempty, stored, hRead, hLength, hMd5⟩
    · have hError := handle_verify_refuses (not_exists.mp hOpens)
      exact absurd hAnswer (not_verified_of_error hError _ _)
  · rintro ⟨hNonempty, stored, hRead, hLength, hMd5⟩
    rw [handle_verify_stored hNonempty h.no_dots hRead, hLength, hMd5]

/-- **Upload and verify.** A completed upload and `AT+VERIFY` agree exactly when the name does
not end in blanks or line ends, or a file of the same size and digest lies under the name
that is left without them. -/
theorem upload_verify_agree_iff (hIdle : w₀.upload = {}) (run : UploadRun cfg w₀ past w)
    (last : Guarded (upload_machine cfg).Step NoIoError w label w')
    (hDone : confirmed past label = some t) :
    label.2 = t.confirmation ∧
      (VerifyAgrees cfg build t w'.fs ↔ trim t.filename = t.filename ∨
        trim t.filename ≠ [] ∧ ∃ stored,
          w'.fs.read (c_str (cfg.in_upload_dir (trim t.filename))) = some stored ∧
          stored.length = t.bytes.length ∧ md5_compute stored = md5_compute t.bytes) := by
  obtain ⟨hCommand, hOk, hOpen⟩ := confirmed_eq_some hDone
  have hNamed := transfer_well_named past t hOpen
  obtain ⟨⟨caller, command, io⟩, rfl, rfl, ⟨-, hFlush, -⟩, -⟩ := upload_run_step last
  obtain rfl : command = .UPLOADDONE := hCommand
  have hTracks : Tracks cfg (transfer_of past) w :=
    tracks_of_run hIdle (run.mono fun _ _ _ hStep => ⟨hStep.1, hStep.2.1.no_torn_write⟩)
  rw [hOpen] at hTracks
  obtain ⟨hAnswer, hSaved⟩ := (Receiving.uploaddone_verdict hTracks hFlush).2 hOk
  refine ⟨hAnswer, verify_agrees_iff.trans (hNamed.verify_iff.trans ?_)⟩
  constructor
  · exact Or.inr
  · rintro (hTrim | hFound)
    · rw [hTrim]
      obtain ⟨arg, f, n, m, hForm, hName⟩ := hNamed
      refine ⟨?_, t.bytes, hSaved, rfl, rfl⟩
      rw [hName]
      exact List.length_pos_iff.mp hForm.filename_size.1
    · exact hFound

end Agreement

/-- The history of an upload of `ab` up to its last frame. -/
def received_ab (filename : String) : List (Request × Bytes) :=
  [(announce_as filename, str "OK READY"), (send_ab {}, str "OK 2")]

/-- The command that completes it. -/
def completed_ab (filename : String) : Request × Bytes :=
  (⟨.HTTP, .UPLOADDONE, {}⟩,
    str "OK " ++ str filename ++ str " 2 187ef4436122d1cc2f40dc2b92f0eba0")

theorem completed_run {filename : String} {w : Host}
    (h : ((upload_machine {}).guard NoIoError).exec fresh_host
      ((received_ab filename ++ [completed_ab filename]).map Prod.fst) =
        some (w, received_ab filename ++ [completed_ab filename])) :
    ∃ u, UploadRun {} fresh_host (received_ab filename) u ∧
      Guarded (upload_machine {}).Step NoIoError u (completed_ab filename) w :=
  (Machine.runs_of_guard_exec h).split_last

/-- A file whose name `AT+VERIFY` takes, too. -/
theorem upload_verify_agree_ab : ∃ w t,
    UploadRun {} fresh_host (received_ab "f" ++ [completed_ab "f"]) w ∧ t.filename = str "f" ∧
      VerifyAgrees {} { date := [], time := [] } t w.fs := by
  obtain ⟨⟨w, trace⟩, hExec, hTrace⟩ := Option.map_eq_some_iff.mp
    (by decide +kernel : (((upload_machine {}).guard NoIoError).exec fresh_host
      ((received_ab "f" ++ [completed_ab "f"]).map Prod.fst)).map Prod.snd =
        some (received_ab "f" ++ [completed_ab "f"]))
  obtain rfl : trace = _ := hTrace
  obtain ⟨u, hPrior, hLast⟩ := completed_run hExec
  obtain ⟨t, hDone, hName⟩ := Option.map_eq_some_iff.mp
    (by rfl : (confirmed (received_ab "f") (completed_ab "f")).map Transfer.filename =
      some (str "f"))
  obtain ⟨-, hIff⟩ := upload_verify_agree_iff rfl hPrior hLast hDone
  refine ⟨w, t, Runs.succ hPrior hLast, hName, hIff.mpr (Or.inl ?_)⟩
  rw [hName]
  decide

/-- A file is stored under the name `f` with a blank behind it. `AT+VERIFY` looks for `f`. -/
theorem blank_behind_name : ∃ u w t,
    UploadRun {} fresh_host (received_ab "f ") u ∧
    Guarded (upload_machine {}).Step NoIoError u (completed_ab "f ") w ∧
    confirmed (received_ab "f ") (completed_ab "f ") = some t ∧
    handle_verify {} {} (trim t.filename) w.fs = str "ERROR: cannot open file 'f'" ∧
    ∀ build, ¬ VerifyAgrees {} build t w.fs := by
  obtain ⟨⟨w, trace⟩, hExec, hResult⟩ := Option.map_eq_some_iff.mp
    (by decide +kernel : (((upload_machine {}).guard NoIoError).exec fresh_host
      ((received_ab "f " ++ [completed_ab "f "]).map Prod.fst)).map (fun result =>
        (result.2, handle_verify {} {} (str "f") result.1.fs)) =
      some (received_ab "f " ++ [completed_ab "f "], str "ERROR: cannot open file 'f'"))
  obtain ⟨rfl, hAnswer⟩ := Prod.mk.inj hResult
  obtain ⟨u, hPrior, hLast⟩ := completed_run hExec
  obtain ⟨t, hDone, hName⟩ := Option.map_eq_some_iff.mp
    (by rfl : (confirmed (received_ab "f ") (completed_ab "f ")).map Transfer.filename =
      some (str "f "))
  have hTrim : trim t.filename = str "f" := by
    rw [hName]
    decide
  refine ⟨u, w, t, hPrior, hLast, hDone, by rw [hTrim, hAnswer], fun build hAgrees => ?_⟩
  have hVerified := verify_agrees_iff.mp hAgrees
  rw [hTrim, hAnswer] at hVerified
  exact absurd hVerified (not_verified_of_error rfl _ _)

end RkFlashd
