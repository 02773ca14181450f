import RkFlashd.AtHandler.UploadIntegrity
import RkFlashd.AtHandler.PreuploadGrammar
import RkFlashd.Machine.Lockstep

/-! The files that finished uploads have left in the directory, while other uploads are
begun, continued, cancelled and completed. Temporary names and stored names share one
directory. -/
namespace RkFlashd

open Text Storage Transition

/-- Every file call of the command succeeds, and its write stores the whole frame. -/
def NoIoError (w : Host) (label : Request × Bytes) : Prop :=
  WritesSucceed w label ∧ label.1.io.fopen = true ∧ label.1.io.rename = true

instance (w : Host) (label : Request × Bytes) : Decidable (NoIoError w label) :=
  inferInstanceAs (Decidable (_ ∧ _))

/-- A run of upload commands that meets no I/O error. -/
abbrev UploadRun (cfg : Config) : Host → List (Request × Bytes) → Host → Prop :=
  Runs (Guarded (upload_machine cfg).Step NoIoError)

/-- The transfer that a command completes: `AT+UPLOADDONE` was answered with `OK`. -/
def confirmed (past : List (Request × Bytes)) (label : Request × Bytes) : Option Transfer :=
  match label.1.command, starts_with label.2 (str "OK") with
  | .UPLOADDONE, true => transfer_of past
  | _, _ => none

/-- The command `done` completed the transfer, and the labels that came `later` have
completed none of its name. -/
def StandsSince (t : Transfer) (first : List (Request × Bytes)) (done : Request × Bytes)
    (later : List (Request × Bytes)) : Prop :=
  confirmed first done = some t ∧
  Always (fun past label => ∀ next, confirmed (first ++ done :: past) label = some next →
    next.filename ≠ t.filename) later

/-- The transfer is the last of its name that a history has completed. -/
def Stored (past : List (Request × Bytes)) (t : Transfer) : Prop :=
  ∃ first done later, past = first ++ done :: later ∧ StandsSince t first done later

/-- From the command that completed a transfer to the next that completes one of its name,
the content of `upload_dir/filename` stays the same. -/
def StoredFilesKept (cfg : Config) (w₀ : Host) (trace : List (Request × Bytes)) : Prop :=
  ∀ t first done later rest w w', trace = first ++ done :: (later ++ rest) →
    StandsSince t first done later → UploadRun cfg w₀ (first ++ [done]) w →
    UploadRun cfg w later w' →
    w'.fs.read (t.final_path cfg) = w.fs.read (t.final_path cfg)

/-- The command takes no path of a stored file: an upload that begins does not have its
temporary file there, and one that is completed does not go by another name of it, unless
with the same bytes. -/
def NamesApart (past : List (Request × Bytes)) (label : Request × Bytes) : Prop :=
  match label.1.command, transfer_of past with
  | .PREUPLOAD arg, none => ∀ args s, parse_preupload arg = .ok args → Stored past s →
      c_str (tmp_name args.filename) ≠ c_str s.filename
  | .UPLOADDONE, some t => t.Complete → ∀ s, Stored past s →
      c_str s.filename = c_str t.filename → s.filename = t.filename ∨ s.bytes = t.bytes
  | _, _ => True

variable {cfg : Config} {w w' w₀ : Host} {t s : Transfer} {r : Request}
  {past trace : List (Request × Bytes)} {label : Request × Bytes}

/-- An upload is confirmed by `AT+UPLOADDONE` with an `OK`, while a transfer is open. -/
theorem confirmed_eq_some (h : confirmed past label = some t) :
    label.1.command = .UPLOADDONE ∧ starts_with label.2 (str "OK") = true ∧
      transfer_of past = some t := by
  unfold confirmed at h
  split at h
  · exact ⟨by assumption, by assumption, h⟩
  · cases h

/-- A transfer that is stored after one more command was completed by it, or was stored
before and not replaced. -/
theorem Stored.of_concat (h : Stored (past ++ [label]) s) :
    confirmed past label = some s ∨
      Stored past s ∧ ∀ next, confirmed past label = some next → next.filename ≠ s.filename := by
  obtain ⟨first, done, later, hTrace, hDone, hLater⟩ := h
  rcases List.eq_nil_or_concat later with rfl | ⟨init, last, rfl⟩
  · obtain ⟨rfl, hLast⟩ := List.append_inj' hTrace rfl
    cases hLast
    exact Or.inl hDone
  · rw [List.concat_eq_append] at hTrace hLater
    rw [← List.cons_append, ← List.append_assoc] at hTrace
    obtain ⟨rfl, hLast⟩ := List.append_inj' hTrace rfl
    cases hLast
    obtain ⟨hInit, hNext⟩ := always_concat.mp hLater
    exact Or.inr ⟨⟨first, done, init, rfl, hDone, hInit⟩, hNext⟩

theorem not_stored_nil : ¬ Stored [] s := by
  intro h
  obtain ⟨first, done, later, hTrace, -⟩ := h
  simp at hTrace

theorem final_path_eq_iff : t.final_path cfg = s.final_path cfg ↔
    c_str t.filename = c_str s.filename := by
  rw [Transfer.final_path, Transfer.final_path, cfg.c_str_in_upload_dir, cfg.c_str_in_upload_dir]
  exact ⟨cfg.in_upload_dir_inj, congrArg cfg.in_upload_dir⟩

/-- A temporary file is a stored one if their names are the same up to a NUL. -/
theorem tmp_path_eq_final_path_iff {filename : Bytes} :
    c_str (cfg.in_upload_dir (tmp_name filename)) = s.final_path cfg ↔
      c_str (tmp_name filename) = c_str s.filename := by
  rw [Transfer.final_path, cfg.c_str_in_upload_dir, cfg.c_str_in_upload_dir]
  exact ⟨cfg.in_upload_dir_inj, congrArg cfg.in_upload_dir⟩

/-! What one command leaves alone. -/

theorem close_file_untouched {io : Io} (hFlush : io.fclose = 0) (path : Bytes) :
    FileSystem.Untouched w.fs (close_file io w).fs path := by
  unfold close_file
  split
  · exact FileSystem.Untouched.refl w.fs path
  · rw [hFlush]
    exact FileSystem.fclose_untouched w.fs _ path

/-- A frame touches no file but the one being received. -/
theorem Receiving.frame_untouched (h : Receiving cfg w t) (io : Io) (arg : Bytes) {path : Bytes}
    (hPath : path ≠ t.tmp_path cfg) :
    FileSystem.Untouched w.fs (handle_upload_frame io arg w).1.fs path := by
  obtain ⟨opened, hOpened, inode, hStream, hDir, -⟩ := h.writing
  have hWrite : ∀ data, FileSystem.Untouched w.fs (w.fs.fwrite opened data io.fwrite).2 path := by
    intro data
    apply FileSystem.fwrite_untouched
    intro found hFound hHere
    obtain rfl : _ = found := by simpa [hStream] using hFound
    exact hPath (w.fs.dir_inj hHere hDir)
  rcases handle_upload_frame_cases io arg w with
    ⟨count, answer, hResult, -⟩ | ⟨file, data, written, fs, hCheck, hFs, -, hResult⟩ |
    ⟨file, data, fs, hCheck, hFs, hResult⟩
  · rw [hResult]
    exact FileSystem.Untouched.refl w.fs path
  · obtain ⟨-, hFile, -⟩ := check_frame_ok hCheck
    obtain rfl : opened = file := by simpa [hOpened] using hFile
    rw [hResult]
    simpa [hFs] using hWrite data
  · obtain ⟨-, hFile, -⟩ := check_frame_ok hCheck
    obtain rfl : opened = file := by simpa [hOpened] using hFile
    rw [hResult]
    simpa [hFs] using hWrite data

/-- The end of an upload touches its temporary file, and its final one if it is complete. -/
theorem Receiving.uploaddone_untouched (h : Receiving cfg w t) {io : Io} (hFlush : io.fclose = 0)
    {path : Bytes} (hTmp : path ≠ t.tmp_path cfg)
    (hFinal : t.Complete → path ≠ t.final_path cfg) :
    FileSystem.Untouched w.fs (handle_uploaddone cfg io w).1.fs path := by
  have hClose := close_file_untouched (w := w) hFlush path
  obtain ⟨hClosed, -⟩ := h.closed hFlush
  rw [h.uploaddone_eq]
  apply hClose.trans
  rcases hClosed.verdict io with
    ⟨hComplete, -, fs, hResult, hRename, -⟩ | ⟨-, answer, hResult, -⟩
  · have hMoved : FileSystem.Untouched (close_file io w).fs
        ((close_file io w).fs.rename (t.tmp_path cfg) (t.final_path cfg) true).2 path :=
      FileSystem.rename_untouched true hTmp (hFinal hComplete)
    rw [hRename] at hMoved
    rw [hResult]
    exact hMoved
  · rw [hResult]
    exact FileSystem.unlink_untouched io.unlink hTmp

/-- A cancelled upload touches its temporary file only. -/
theorem Receiving.uploadcancel_untouched (h : Receiving cfg w t) {io : Io} (hFlush : io.fclose = 0)
    {path : Bytes} (hTmp : path ≠ t.tmp_path cfg) :
    FileSystem.Untouched w.fs (handle_uploadcancel io w).1.fs path := by
  rw [handle_uploadcancel_active h.active, h.tmp_path_eq]
  apply (close_file_untouched (w := w) hFlush path).trans
  exact FileSystem.unlink_untouched io.unlink hTmp

/-! How the files stand to the history as long as names stay apart. -/

/-- The host follows the history, what it has stored is there, and the transfer under way
has its temporary file elsewhere. -/
structure Shelved (cfg : Config) (past : List (Request × Bytes)) (w : Host) : Prop where
  tracks : Tracks cfg (transfer_of past) w
  nonempty : ∀ t, transfer_of past = some t → t.expected_size ≠ 0
  apart : ∀ t s, transfer_of past = some t → Stored past s → s.final_path cfg ≠ t.tmp_path cfg
  stored : ∀ s, Stored past s → s.bytes ≠ [] ∧ w.fs.read (s.final_path cfg) = some s.bytes

theorem Shelved.start (hIdle : w₀.upload = {}) : Shelved cfg [] w₀ where
  tracks := hIdle
  nonempty := by simp [transfer_of]
  apart := by simp [transfer_of]
  stored s h := absurd h not_stored_nil

theorem stored_concat_of_none (hNone : confirmed past label = none)
    (h : Stored (past ++ [label]) s) : Stored past s := by
  rcases h.of_concat with hDone | ⟨hBefore, -⟩
  · simp [hNone] at hDone
  · exact hBefore

/-- Files that a command leaves alone are still there. -/
theorem Shelved.stored_of_untouched (h : Shelved cfg past w)
    (hNone : confirmed past label = none)
    (hSame : ∀ s, Stored past s → FileSystem.Untouched w.fs w'.fs (s.final_path cfg)) :
    ∀ s, Stored (past ++ [label]) s →
      s.bytes ≠ [] ∧ w'.fs.read (s.final_path cfg) = some s.bytes := by
  intro s hStored
  have hBefore := stored_concat_of_none hNone hStored
  obtain ⟨hBytes, hRead⟩ := h.stored s hBefore
  exact ⟨hBytes, by rw [(hSame s hBefore).read, hRead]⟩

theorem confirmed_of_command (hCommand : label.1.command ≠ .UPLOADDONE) :
    confirmed past label = none := by
  cases h : confirmed past label with
  | none => rfl
  | some t => exact absurd (confirmed_eq_some h).1 hCommand

/-- An announced size is never zero. -/
theorem Transfer.next_expected_size {t : Option Transfer}
    (h : ∀ open_transfer, t = some open_transfer → open_transfer.expected_size ≠ 0)
    (label : Request × Bytes) :
    ∀ next, Transfer.next t label = some next → next.expected_size ≠ 0 := by
  intro next hNext
  unfold Transfer.next at hNext
  split at hNext
  · split at hNext
    · rename_i args _ hParse
      obtain ⟨f, n, m, hForm, rfl⟩ := parse_preupload_ok_iff.mp hParse
      cases hNext
      intro hZero
      have hNumeral := (strtoull_digits_eq_zero_iff hForm.digits).mp hZero
      exact absurd hForm.positive (by omega)
    · exact h next hNext
  · split at hNext
    · rename_i found frame _ _
      cases hNext
      exact h found rfl
    · exact h next hNext
  · cases hNext
  · cases hNext

/-- A command that completes nothing keeps the invariant, if it leaves the stored files
alone and the transfer it leaves open has its temporary file elsewhere. -/
theorem Shelved.of_untouched (h : Shelved cfg past w)
    (hTracks : Tracks cfg (Transfer.next (transfer_of past) label) w')
    (hCommand : label.1.command ≠ .UPLOADDONE)
    (hApart : ∀ t s, Transfer.next (transfer_of past) label = some t → Stored past s →
      s.final_path cfg ≠ t.tmp_path cfg)
    (hSame : ∀ s, Stored past s → FileSystem.Untouched w.fs w'.fs (s.final_path cfg)) :
    Shelved cfg (past ++ [label]) w' := by
  have hNone : confirmed past label = none := confirmed_of_command hCommand
  have hSize := Transfer.next_expected_size h.nonempty label
  rw [← transfer_of_append] at hTracks hSize hApart
  refine ⟨hTracks, hSize, ?_, h.stored_of_untouched hNone hSame⟩
  intro t s hOpen hStored
  exact hApart t s hOpen (stored_concat_of_none hNone hStored)

/-- An announcement keeps the stored files, unless it opens one of them. -/
theorem Shelved.preupload (h : Shelved cfg past w) (caller : Owner) (arg : Bytes) (io : Io)
    (hNames : NamesApart past (⟨caller, .PREUPLOAD arg, io⟩, (handle_preupload cfg io arg w).2)) :
    Shelved cfg (past ++ [(⟨caller, .PREUPLOAD arg, io⟩, (handle_preupload cfg io arg w).2)])
      (handle_preupload cfg io arg w).1 := by
  have hTracks := h.tracks.preupload caller arg io
  rcases handle_preupload_cases cfg io arg w with
    ⟨answer, hResult, hError⟩ | ⟨args, file, fs, hInactive, hParse, hOpen, hResult⟩
  · have hNext : Transfer.next (transfer_of past)
        (⟨caller, .PREUPLOAD arg, io⟩, (handle_preupload cfg io arg w).2) = transfer_of past := by
      rw [hResult]
      simp [Transfer.next, not_ok_of_error hError]
    apply h.of_untouched hTracks (by simp)
    · intro t s hTransfer hStored
      rw [hNext] at hTransfer
      exact h.apart t s hTransfer hStored
    · intro s _
      rw [hResult]
      exact FileSystem.Untouched.refl w.fs _
  · obtain ⟨hNone, -⟩ := h.tracks.idle hInactive
    have hElsewhere : ∀ s, Stored past s →
        s.final_path cfg ≠ c_str (cfg.in_upload_dir (tmp_name args.filename)) := by
      intro s hStored hSame
      simp only [NamesApart, hNone] at hNames
      exact hNames args s hParse hStored (tmp_path_eq_final_path_iff.mp hSame.symm)
    apply h.of_untouched hTracks (by simp)
    · intro t s hTransfer hStored
      have hOk : starts_with (str "OK READY") (str "OK") = true := rfl
      rw [hResult, hNone] at hTransfer
      simp only [Transfer.next, hOk, hParse, Option.some.injEq] at hTransfer
      subst hTransfer
      exact hElsewhere s hStored
    · intro s hStored
      rw [hResult]
      exact FileSystem.fopen_untouched hOpen (hElsewhere s hStored)

/-- A frame does not change the name of the transfer. -/
theorem Transfer.next_upload_tmp_path (cfg : Config) {t : Option Transfer} {caller : Owner}
    {arg answer : Bytes} {io : Io} {next : Transfer}
    (h : Transfer.next t (⟨caller, .UPLOAD arg, io⟩, answer) = some next) :
    ∃ before, t = some before ∧ next.tmp_path cfg = before.tmp_path cfg := by
  unfold Transfer.next at h
  simp only at h
  split at h
  · rename_i before frame _ _
    cases h
    exact ⟨before, rfl, rfl⟩
  · exact ⟨next, h, rfl⟩

/-- A frame keeps the stored files. -/
theorem Shelved.upload (h : Shelved cfg past w) (caller : Owner) (arg : Bytes) (io : Io)
    (hWrite : ∀ counts ∈ frame_write w ⟨caller, .UPLOAD arg, io⟩,
      counts.1 = counts.2 ∨ counts.1 = 0) :
    Shelved cfg (past ++ [(⟨caller, .UPLOAD arg, io⟩, (handle_upload_frame io arg w).2)])
      (handle_upload_frame io arg w).1 := by
  apply h.of_untouched (h.tracks.upload caller arg io hWrite) (by simp)
  · intro t s hTransfer hStored
    obtain ⟨before, hBefore, hPath⟩ := Transfer.next_upload_tmp_path cfg hTransfer
    rw [hPath]
    exact h.apart before s hBefore hStored
  · intro s hStored
    have hTracks := h.tracks
    cases hOpen : transfer_of past with
    | none =>
        rw [hOpen] at hTracks
        have hIdle : w.upload = {} := hTracks
        have hSame : (handle_upload_frame io arg w).1.fs = w.fs := by
          by_cases hArg : arg = []
          · simp [handle_upload_frame, check_frame, hArg]
          · simp [handle_upload_frame, check_frame, hArg, hIdle]
        rw [hSame]
        exact FileSystem.Untouched.refl w.fs _
    | some t =>
        rw [hOpen] at hTracks
        exact Receiving.frame_untouched hTracks io arg (h.apart t s hOpen hStored)

/-- A cancelled upload keeps the stored files. -/
theorem Shelved.uploadcancel (h : Shelved cfg past w) (caller : Owner) {io : Io}
    (hFlush : io.fclose = 0) :
    Shelved cfg (past ++ [(⟨caller, .UPLOADCANCEL, io⟩, (handle_uploadcancel io w).2)])
      (handle_uploadcancel io w).1 := by
  have hIdle : Tracks cfg (Transfer.next (transfer_of past)
      (⟨caller, .UPLOADCANCEL, io⟩, (handle_uploadcancel io w).2)) (handle_uploadcancel io w).1 :=
    h.tracks.uploadcancel io
  apply h.of_untouched hIdle (by simp)
  · intro t s hTransfer
    cases hTransfer
  · intro s hStored
    have hTracks := h.tracks
    cases hOpen : transfer_of past with
    | none =>
        rw [hOpen] at hTracks
        have hIdle : w.upload = {} := hTracks
        have hSame : (handle_uploadcancel io w).1 = w := by simp [handle_uploadcancel, hIdle]
        rw [hSame]
        exact FileSystem.Untouched.refl w.fs _
    | some t =>
        rw [hOpen] at hTracks
        exact Receiving.uploadcancel_untouched hTracks hFlush (h.apart t s hOpen hStored)

/-- A confirmed transfer is complete, and stored from then on. -/
theorem Shelved.completes (h : Shelved cfg past w) (caller : Owner) {io : Io}
    (hFlush : io.fclose = 0)
    (hDone : confirmed past (⟨caller, .UPLOADDONE, io⟩, (handle_uploaddone cfg io w).2) = some t) :
    transfer_of past = some t ∧ t.Complete ∧ t.bytes ≠ [] ∧
      (handle_uploaddone cfg io w).1.fs.read (t.final_path cfg) = some t.bytes := by
  obtain ⟨-, hOk, hOpen⟩ := confirmed_eq_some hDone
  have hTracks := h.tracks
  rw [hOpen] at hTracks
  obtain ⟨hVerdict, hSaved⟩ := Receiving.uploaddone_verdict hTracks hFlush
  obtain ⟨hComplete, -⟩ := hVerdict.mp hOk
  refine ⟨hOpen, hComplete, ?_, (hSaved hOk).2⟩
  intro hNil
  apply h.nonempty t hOpen
  apply UInt64.toNat_inj.mp
  rw [← hComplete.1, hNil]
  rfl

/-- A confirmed upload joins the stored files and keeps the others. -/
theorem Shelved.uploaddone (h : Shelved cfg past w) (caller : Owner) {io : Io}
    (hFlush : io.fclose = 0) (hRename : io.rename = true)
    (hNames : NamesApart past (⟨caller, .UPLOADDONE, io⟩, (handle_uploaddone cfg io w).2)) :
    Shelved cfg (past ++ [(⟨caller, .UPLOADDONE, io⟩, (handle_uploaddone cfg io w).2)])
      (handle_uploaddone cfg io w).1 := by
  have hNext := transfer_of_append past (⟨caller, .UPLOADDONE, io⟩, (handle_uploaddone cfg io w).2)
  have hNone : transfer_of
      (past ++ [(⟨caller, .UPLOADDONE, io⟩, (handle_uploaddone cfg io w).2)]) = none := hNext
  refine ⟨?_, by simp [hNone], by simp [hNone], ?_⟩
  · rw [hNone]
    exact h.tracks.uploaddone io fun _ => hFlush
  · intro s hStored
    rcases hStored.of_concat with hDone | ⟨hBefore, hOther⟩
    · obtain ⟨-, -, hBytes, hRead⟩ := h.completes caller hFlush hDone
      exact ⟨hBytes, hRead⟩
    · obtain ⟨hBytes, hRead⟩ := h.stored s hBefore
      refine ⟨hBytes, ?_⟩
      have hTracks := h.tracks
      cases hOpen : transfer_of past with
      | none =>
          rw [hOpen] at hTracks
          have hIdle : w.upload = {} := hTracks
          have hSame : (handle_uploaddone cfg io w).1 = w := by simp [handle_uploaddone, hIdle]
          rw [hSame, hRead]
      | some t =>
          rw [hOpen] at hTracks
          have hReceiving : Receiving cfg w t := hTracks
          obtain ⟨hVerdict, -⟩ := hReceiving.uploaddone_verdict hFlush
          by_cases hTaken : t.Complete ∧ s.final_path cfg = t.final_path cfg
          · -- the rename goes to the path of a file stored under another name
            obtain ⟨hComplete, hPath⟩ := hTaken
            have hOk := hVerdict.mpr ⟨hComplete, hRename⟩
            have hDone : confirmed past
                (⟨caller, .UPLOADDONE, io⟩, (handle_uploaddone cfg io w).2) = some t := by
              simp only [confirmed, hOk, hOpen]
            obtain ⟨-, -, -, hNew⟩ := h.completes caller hFlush hDone
            simp only [NamesApart, hOpen] at hNames
            rcases hNames hComplete s hBefore (final_path_eq_iff.mp hPath) with hName | hEqual
            · exact absurd hName.symm (hOther t hDone)
            · rw [hPath, hNew, hEqual]
          · have hSame := hReceiving.uploaddone_untouched hFlush (h.apart t s hOpen hBefore)
              fun hComplete hPath => hTaken ⟨hComplete, hPath⟩
            rw [hSame.read, hRead]

/-- A command without an I/O error whose names stay apart keeps the invariant. -/
theorem Shelved.step (h : Shelved cfg past w)
    (hIo : NoIoError w (r, (perform cfg w r).2))
    (hNames : NamesApart past (r, (perform cfg w r).2)) :
    Shelved cfg (past ++ [(r, (perform cfg w r).2)]) (perform cfg w r).1 := by
  obtain ⟨caller, command, io⟩ := r
  obtain ⟨⟨hWrite, hFlush, -⟩, -, hRename⟩ := hIo
  cases command with
  | PREUPLOAD arg => exact h.preupload caller arg io hNames
  | UPLOAD arg => exact h.upload caller arg io fun counts hCounts => Or.inl (hWrite counts hCounts)
  | UPLOADDONE => exact h.uploaddone caller hFlush hRename hNames
  | UPLOADCANCEL => exact h.uploadcancel caller hFlush

theorem upload_run_step (h : Guarded (upload_machine cfg).Step NoIoError w label w') :
    ∃ r, label = (r, (perform cfg w r).2) ∧ w' = (perform cfg w r).1 ∧
      NoIoError w (r, (perform cfg w r).2) := by
  obtain ⟨r, answer⟩ := label
  obtain ⟨hStep, hIo⟩ := h
  obtain ⟨rfl, rfl⟩ := upload_step hStep
  exact ⟨r, rfl, rfl, hIo⟩

/-- In every run whose names stay apart, the stored files stay what they were. -/
theorem shelved_of_run (hIdle : w₀.upload = {}) (run : UploadRun cfg w₀ trace w)
    (hNames : Always NamesApart trace) : Shelved cfg trace w := by
  induction run with
  | zero => exact Shelved.start hIdle
  | succ prior last ih =>
      obtain ⟨hPast, hLast⟩ := always_concat.mp hNames
      obtain ⟨r, rfl, rfl, hIo⟩ := upload_run_step last
      exact (ih hPast).step hIo hLast

/-- A stored file that one more command has kept is the same before and after it. -/
theorem StoredFilesKept.last (h : StoredFilesKept cfg w₀ (past ++ [label]))
    (run : UploadRun cfg w₀ past w)
    (last : Guarded (upload_machine cfg).Step NoIoError w label w') (hStored : Stored past s)
    (hOther : ∀ next, confirmed past label = some next → next.filename ≠ s.filename) :
    w'.fs.read (s.final_path cfg) = w.fs.read (s.final_path cfg) := by
  obtain ⟨first, done, later, rfl, hSince⟩ := hStored
  have hCut : first ++ done :: later = (first ++ [done]) ++ later := by simp
  rw [hCut] at run
  obtain ⟨u, hFirst, hLater⟩ := run.split
  have hBefore := h s first done later [label] u w (by simp) hSince hFirst hLater
  have hMore : StandsSince s first done (later ++ [label]) :=
    ⟨hSince.1, always_concat.mpr ⟨hSince.2, hOther⟩⟩
  have hAfter := h s first done (later ++ [label]) [] u w' (by simp) hMore hFirst
    (Runs.succ hLater last)
  rw [hAfter, hBefore]

theorem StoredFilesKept.earlier (h : StoredFilesKept cfg w₀ (past ++ [label])) :
    StoredFilesKept cfg w₀ past := by
  intro t first done later rest w w' hTrace
  exact h t first done later (rest ++ [label]) w w' (by simp [hTrace])

/-- A command whose names do not stay apart changes a stored file of another name. -/
theorem Shelved.names_apart (h : Shelved cfg past w)
    (last : Guarded (upload_machine cfg).Step NoIoError w label w')
    (hKept : ∀ s, Stored past s →
      (∀ next, confirmed past label = some next → next.filename ≠ s.filename) →
      w'.fs.read (s.final_path cfg) = w.fs.read (s.final_path cfg)) :
    NamesApart past label := by
  obtain ⟨⟨caller, command, io⟩, rfl, rfl, ⟨-, hFlush, -⟩, hOpens, hRename⟩ := upload_run_step last
  have hTracks := h.tracks
  cases hOpen : transfer_of past with
  | none =>
      cases command with
      | PREUPLOAD arg =>
          simp only [NamesApart, hOpen]
          intro args s hParse hStored hPath
          rw [hOpen] at hTracks
          have hIdle : w.upload = {} := hTracks
          -- the temporary file is opened over the stored one, and is empty
          obtain ⟨hBytes, hRead⟩ := h.stored s hStored
          have hSame := hKept s hStored fun next hNext => by
            simp [confirmed_of_command] at hNext
          obtain ⟨file, fs, hFile⟩ := FileSystem.fopen_succeeds w.fs
            (c_str (cfg.in_upload_dir (tmp_name args.filename)))
          have hFs : (perform cfg w ⟨caller, .PREUPLOAD arg, io⟩).1.fs = fs := by
            have hArg : arg ≠ [] := by
              rintro rfl
              cases hParse
            simp only at hOpens
            simp [perform, handle_preupload, hArg, hIdle, hParse, hOpens, hFile]
          have hNew := (FileSystem.Writing.of_fopen hFile).read
          rw [tmp_path_eq_final_path_iff.mpr hPath] at hNew
          rw [hFs, hNew, hRead] at hSame
          exact hBytes (Option.some.inj hSame).symm
      | UPLOAD arg => simp only [NamesApart]
      | UPLOADDONE => simp only [NamesApart, hOpen]
      | UPLOADCANCEL => simp only [NamesApart]
  | some t =>
      cases command with
      | PREUPLOAD arg => simp only [NamesApart, hOpen]
      | UPLOAD arg => simp only [NamesApart]
      | UPLOADCANCEL => simp only [NamesApart]
      | UPLOADDONE =>
          simp only [NamesApart, hOpen]
          intro hComplete s hStored hPath
          rw [hOpen] at hTracks
          obtain ⟨hVerdict, -⟩ := Receiving.uploaddone_verdict hTracks hFlush
          have hOk := hVerdict.mpr ⟨hComplete, hRename⟩
          have hDone : confirmed past
              (⟨caller, .UPLOADDONE, io⟩, (handle_uploaddone cfg io w).2) = some t := by
            simp only [confirmed, hOk, hOpen]
          obtain ⟨-, -, -, hNew⟩ := h.completes caller hFlush hDone
          by_cases hName : s.filename = t.filename
          · exact Or.inl hName
          · right
            have hSame := hKept s hStored fun next hNext => by
              obtain rfl : t = next := Option.some.inj (hDone.symm.trans hNext)
              exact fun hEq => hName hEq.symm
            rw [final_path_eq_iff.mpr hPath] at hSame
            have hRead := (h.stored s hStored).2
            rw [final_path_eq_iff.mpr hPath] at hRead
            have hBoth := (hNew.symm.trans hSame).trans hRead
            exact (Option.some.inj hBoth).symm

/-- **Stored files and other uploads.** In a run without I/O errors the stored files are
kept exactly when no upload takes the path of one of them. -/
theorem stored_files_kept_iff (hIdle : w₀.upload = {}) (run : UploadRun cfg w₀ trace w) :
    StoredFilesKept cfg w₀ trace ↔ Always NamesApart trace := by
  constructor
  · intro hKept
    induction run with
    | zero => exact always_nil
    | succ prior last ih =>
        have hPast := ih hKept.earlier
        have hShelved := shelved_of_run hIdle prior hPast
        exact always_concat.mpr ⟨hPast, hShelved.names_apart last fun s hStored hOther =>
          hKept.last prior last hStored hOther⟩
  · intro hNames t first done later rest w w' hTrace hSince hFirst hLater
    have hBoth := hFirst.trans hLater
    have hWhole : trace = ((first ++ [done]) ++ later) ++ rest := by simp [hTrace]
    have hPrefixes : Always NamesApart ((first ++ [done]) ++ later) := by
      intro past label more hEq
      exact hNames past label (more ++ rest) (by simp [hWhole, hEq])
    have hStart : Always NamesApart (first ++ [done]) := by
      intro past label more hEq
      exact hPrefixes past label (more ++ later) (by simp [hEq])
    have hThen := (shelved_of_run hIdle hFirst hStart).stored t ⟨first, done, [], by simp,
      hSince.1, always_nil⟩
    have hNow := (shelved_of_run hIdle hBoth hPrefixes).stored t ⟨first, done, later, by simp,
      hSince⟩
    rw [hThen.2, hNow.2]

/-- An upload of the bytes `ab` under a name. -/
def announce_as (filename : String) : Request :=
  ⟨.HTTP, .PREUPLOAD (str filename ++ str ",2,187ef4436122d1cc2f40dc2b92f0eba0"), {}⟩

/-- The history of a complete upload under a name of the form of a temporary name. -/
def stored_as_temporary : List (Request × Bytes) :=
  [(announce_as "upload_x.tmp", str "OK READY"), (send_ab {}, str "OK 2"),
    (⟨.HTTP, .UPLOADDONE, {}⟩, str "OK upload_x.tmp 2 187ef4436122d1cc2f40dc2b92f0eba0")]

/-- One upload is stored, and one of another name is begun after it. -/
theorem stored_files_kept_single : ∃ w trace,
    ((upload_machine {}).guard NoIoError).exec fresh_host
      [announce_as "f", send_ab {}, ⟨.HTTP, .UPLOADDONE, {}⟩, announce_as "g"] = some (w, trace) ∧
    (StoredFilesKept {} fresh_host trace ↔ Always NamesApart trace) := by
  obtain ⟨⟨w, trace⟩, hExec, -⟩ := Option.map_eq_some_iff.mp
    (by decide +kernel : (((upload_machine {}).guard NoIoError).exec fresh_host
      [announce_as "f", send_ab {}, ⟨.HTTP, .UPLOADDONE, {}⟩, announce_as "g"]).map
        (fun result => result.1.upload.active) = some true)
  exact ⟨w, trace, hExec, stored_files_kept_iff rfl (Machine.runs_of_guard_exec hExec)⟩

/-- The file `upload_x.tmp` has been stored. An upload of `x` that only begins opens its
temporary file there, and nothing is left of what was stored. -/
theorem temporary_file_over_stored : ∃ w w',
    UploadRun {} fresh_host stored_as_temporary w ∧
    UploadRun {} w [(announce_as "x", str "OK READY")] w' ∧
    w.fs.read (c_str (Config.in_upload_dir {} (str "upload_x.tmp"))) = some (str "ab") ∧
    w'.fs.read (c_str (Config.in_upload_dir {} (str "upload_x.tmp"))) = some [] ∧
    ¬ StoredFilesKept {} fresh_host
      (stored_as_temporary ++ [(announce_as "x", str "OK READY")]) := by
  obtain ⟨⟨w, trace⟩, hExec, hStored⟩ := Option.map_eq_some_iff.mp
    (by decide +kernel : (((upload_machine {}).guard NoIoError).exec fresh_host
      (stored_as_temporary.map Prod.fst)).map (fun result =>
        (result.2, result.1.fs.read (c_str (Config.in_upload_dir {} (str "upload_x.tmp"))))) =
      some (stored_as_temporary, some (str "ab")))
  obtain ⟨rfl, hBefore⟩ := Prod.mk.inj hStored
  obtain ⟨⟨w', trace'⟩, hExec', hEmpty⟩ := Option.map_eq_some_iff.mp
    (by decide +kernel : (((upload_machine {}).guard NoIoError).exec fresh_host
      (stored_as_temporary.map Prod.fst ++ [announce_as "x"])).map (fun result =>
        (result.2, result.1.fs.read (c_str (Config.in_upload_dir {} (str "upload_x.tmp"))))) =
      some (stored_as_temporary ++ [(announce_as "x", str "OK READY")], some []))
  obtain ⟨rfl, hAfter⟩ := Prod.mk.inj hEmpty
  have run : UploadRun {} fresh_host stored_as_temporary w := Machine.runs_of_guard_exec hExec
  obtain ⟨u, hPrior, hLast⟩ := (Machine.runs_of_guard_exec hExec').split_last
  obtain rfl : w = u := Machine.runs_unique run.unguard hPrior.unguard
  have run' : UploadRun {} w [(announce_as "x", str "OK READY")] w' := Runs.single hLast
  refine ⟨w, w', run, run', hBefore, hAfter, ?_⟩
  intro hKept
  obtain ⟨t, hDone, hName⟩ := Option.map_eq_some_iff.mp
    (by rfl : (confirmed (stored_as_temporary.take 2)
      (⟨.HTTP, .UPLOADDONE, {}⟩, str "OK upload_x.tmp 2 187ef4436122d1cc2f40dc2b92f0eba0")).map
        Transfer.filename = some (str "upload_x.tmp"))
  have hSince : StandsSince t (stored_as_temporary.take 2)
      (⟨.HTTP, .UPLOADDONE, {}⟩, str "OK upload_x.tmp 2 187ef4436122d1cc2f40dc2b92f0eba0")
      [(announce_as "x", str "OK READY")] := by
    refine ⟨hDone, always_single.mpr fun next hNext => ?_⟩
    exact absurd (confirmed_eq_some hNext).1 (by simp [announce_as])
  have hSame := hKept t _ _ _ [] w w' rfl hSince run run'
  rw [Transfer.final_path, hName, hBefore, hAfter] at hSame
  exact absurd hSame (by decide)

end RkFlashd
