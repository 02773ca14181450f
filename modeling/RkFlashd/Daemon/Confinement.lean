import RkFlashd.Storage.Path
import RkFlashd.AtHandler.FrameErrors
import RkFlashd.AtHandler.Verify
import RkFlashd.Daemon.FileCalls

/-! Where the files are that a client can name: the filters of the three entries, and the
paths that the calls on the files are given for what passes them. -/
namespace RkFlashd

open Text Storage Transition

variable {cfg : Config} {build : Build} {cwd : List Bytes} {name : Bytes}

/-- The place of the upload directory. For an empty name that is the root, since a slash is put
behind it. -/
def Config.upload_place (cfg : Config) (cwd : List Bytes) : List Bytes :=
  resolve cwd (cfg.in_upload_dir [])

/-- The path lies in the subtree of the upload directory. -/
def Below (cfg : Config) (cwd : List Bytes) (path : Bytes) : Prop :=
  cfg.upload_place cwd <+: resolve cwd path

/-- The path is the upload directory, or a direct child of it. -/
def Entry (cfg : Config) (cwd : List Bytes) (path : Bytes) : Prop :=
  resolve cwd path = cfg.upload_place cwd ∨
    ∃ child, resolve cwd path = cfg.upload_place cwd ++ [child]

theorem Entry.below {path : Bytes} (h : Entry cfg cwd path) : Below cfg cwd path := by
  rcases h with hHere | ⟨child, hChild⟩
  · rw [Below, hHere]
  · rw [Below, hChild]
    exact List.prefix_append _ [child]

/-- The path the system call sees goes on from the upload directory by the name, up to a NUL. -/
theorem resolve_in_upload_dir (cfg : Config) (cwd : List Bytes) (name : Bytes) :
    resolve cwd (c_str (cfg.in_upload_dir name)) =
      (components (c_str name)).foldl enter (cfg.upload_place cwd) := by
  have hSlash : ∀ name, cfg.in_upload_dir name = cfg.upload_dir.val ++ 47 :: name := by
    intro name
    have hText : str "/" = [47] := by decide
    rw [Config.in_upload_dir, hText, List.append_assoc]
    rfl
  have hPlace : cfg.upload_place cwd = resolve cwd (cfg.upload_dir.val ++ str "/") := by
    rw [Config.upload_place, Config.in_upload_dir, List.append_nil]
  rw [cfg.c_str_in_upload_dir, hSlash, resolve_slash, hPlace]

theorem c_str_initial (s : Bytes) : c_str s <+: s := List.takeWhile_prefix _

/-- A name without two dots in a row leads nowhere else, whatever slashes it holds. -/
theorem below_of_no_dots (h : ¬ str ".." <:+: name) :
    Below cfg cwd (c_str (cfg.in_upload_dir name)) := by
  rw [Below, resolve_in_upload_dir]
  apply prefix_foldl_enter
  intro hMem
  have hInfix := components_infix (c_str name) _ hMem
  exact h (hInfix.trans (c_str_initial name).isInfix)

/-- A name without a slash is one component. -/
theorem entry_of_no_slash (hSlash : (47 : UInt8) ∉ name) (hDots : c_str name ≠ str "..") :
    Entry cfg cwd (c_str (cfg.in_upload_dir name)) := by
  have hPlain : (47 : UInt8) ∉ c_str name := fun hMem => hSlash ((c_str_initial name).subset hMem)
  rw [Entry, resolve_in_upload_dir, components_single hPlain]
  exact enter_child hDots

section Filters

variable {f n m arg : Bytes}

theorem validated_entry (h : validate_filename f = true) :
    Entry cfg cwd (c_str (cfg.in_upload_dir f)) := by
  apply entry_of_no_slash
  · exact fun hMem => absurd (valid_chars h 47 hMem) (by decide)
  · rw [c_str_eq_self (valid_no_nul h)]
    rintro rfl
    cases h

theorem validated_tmp_entry (now : Int) (h : validate_filename f = true) :
    Entry cfg cwd (c_str (cfg.in_upload_dir (upload_tmp_name now f))) := by
  apply entry_of_no_slash
  · intro hMem
    simp only [upload_tmp_name, List.mem_append] at hMem
    rcases hMem with (hTime | hBar) | hName
    · rcases int_to_string_chars now 47 hTime with hDigit | hMinus
      · cases hDigit
      · cases hMinus
    · exact absurd hBar (by decide)
    · exact absurd (valid_chars h 47 hName) (by decide)
  · rw [c_str_eq_self (upload_tmp_name_no_nul now h)]
    intro hDots
    have hBar : (95 : UInt8) ∈ upload_tmp_name now f := by
      have hText : (95 : UInt8) ∈ str "_" := by decide
      simp [upload_tmp_name, hText]
    rw [hDots] at hBar
    exact absurd hBar (by decide)

theorem PreuploadForm.entry (h : PreuploadForm arg f n m) :
    Entry cfg cwd (c_str (cfg.in_upload_dir f)) := by
  apply entry_of_no_slash h.no_slash
  intro hDots
  apply h.no_dots
  rw [← hDots]
  exact (c_str_initial f).isInfix

theorem PreuploadForm.tmp_entry (h : PreuploadForm arg f n m) :
    Entry cfg cwd (c_str (cfg.in_upload_dir (tmp_name f))) := by
  have hPrefix : c_str (tmp_name f) = str "upload_" ++ c_str (f ++ str ".tmp") := by
    rw [tmp_name, List.append_assoc]
    exact c_str_append (by decide)
  apply entry_of_no_slash
  · have hFirst : (47 : UInt8) ∉ str "upload_" := by decide
    have hLast : (47 : UInt8) ∉ str ".tmp" := by decide
    simp [tmp_name, hFirst, hLast, h.no_slash]
  · intro hDots
    have hLength := congrArg List.length (hPrefix.symm.trans hDots)
    have hSeven : (str "upload_").length = 7 := by decide
    have hTwo : (str "..").length = 2 := by decide
    rw [List.length_append] at hLength
    omega

end Filters

section Runs

/-- The paths an active upload holds. -/
def Uploading (cfg : Config) (cwd : List Bytes) (u : UploadState) : Prop :=
  u.active = true →
    Entry cfg cwd (c_str u.tmp_path) ∧ Entry cfg cwd (c_str (cfg.in_upload_dir u.filename))

theorem Uploading.of_inactive {u : UploadState} (h : u.active = false) : Uploading cfg cwd u :=
  fun hActive => absurd (hActive.symm.trans h) Bool.true_eq_false_eq_False

/-- No command makes the upload state name a file elsewhere. -/
theorem Uploading.perform {w : Host} (h : Uploading cfg cwd w.upload) (r : Request) :
    Uploading cfg cwd (perform cfg w r).1.upload := by
  obtain ⟨caller, command, io⟩ := r
  cases command with
  | PREUPLOAD arg =>
      rcases handle_preupload_cases cfg io arg w with
        ⟨answer, hResult, -⟩ | ⟨args, file, fs, -, hParse, -, hResult⟩
      · simpa only [RkFlashd.perform, hResult] using h
      · obtain ⟨f, n, m, hForm, rfl⟩ := parse_preupload_ok_iff.mp hParse
        simp only [RkFlashd.perform, hResult]
        exact fun _ => ⟨hForm.tmp_entry, hForm.entry⟩
  | UPLOAD arg =>
      rcases handle_upload_frame_cases io arg w with
        ⟨count, answer, hResult, -⟩ | ⟨file, data, written, fs, -, -, -, hResult⟩ |
          ⟨file, data, fs, -, -, hResult⟩
      · simp only [RkFlashd.perform, hResult]
        exact h
      · simp only [RkFlashd.perform, hResult]
        exact h
      · simp only [RkFlashd.perform, hResult]
        exact h
  | UPLOADDONE =>
      simp only [RkFlashd.perform, handle_uploaddone]
      split
      · exact Uploading.of_inactive (finish_upload_inactive io _)
      · exact h
  | UPLOADCANCEL =>
      simp only [RkFlashd.perform, handle_uploadcancel]
      split
      · exact h
      · exact Uploading.of_inactive rfl

/-- In every run of the daemon the upload state names files of the directory only. -/
theorem uploading_of_run {d₀ d : Daemon} {trace : List (Call × Bytes)}
    (hIdle : d₀.host.upload.active = false)
    (run : Runs (process_machine cfg build).Step d₀ trace d) : Uploading cfg cwd d.host.upload :=
  run.invariant (I := fun d => Uploading cfg cwd d.host.upload)
    (fun _ _ _ h hStep => process_upload (fun _ r hHost => Uploading.perform hHost r) h hStep)
    (Uploading.of_inactive hIdle)

/-- The calls of an upload command: the temporary file, or the file itself. -/
theorem Uploading.calls {w : Host} (h : Uploading cfg cwd w.upload) (r : Request) :
    Within (Entry cfg cwd) (perform_calls cfg w r) := by
  obtain ⟨caller, command, io⟩ := r
  cases command with
  | PREUPLOAD arg =>
      simp only [perform_calls, preupload_calls]
      split
      · exact within_nil
      · cases hParse : parse_preupload arg with
        | error message => exact within_nil
        | ok args =>
            obtain ⟨f, n, m, hForm, rfl⟩ := parse_preupload_ok_iff.mp hParse
            simpa [FileCall.paths] using hForm.tmp_entry
  | UPLOAD arg =>
      simp only [perform_calls, upload_frame_calls]
      split <;> simp [FileCall.paths]
  | UPLOADDONE =>
      simp only [perform_calls, uploaddone_calls]
      split
      · rename_i file hActive hFile
        obtain ⟨hTmp, hFinal⟩ := h hActive
        have hClosed : (close_file io w).upload.tmp_path = w.upload.tmp_path ∧
            (close_file io w).upload.filename = w.upload.filename := by
          simp [close_file, hFile]
        rw [within_append]
        refine ⟨by simp [close_calls, hFile, FileCall.paths], ?_⟩
        simp only [finish_calls, discard_calls, hClosed.1, hClosed.2]
        split_ifs <;> simp [FileCall.paths, hTmp, hFinal]
      · exact within_nil
  | UPLOADCANCEL =>
      simp only [perform_calls, uploadcancel_calls]
      split
      · exact within_nil
      · rename_i hActive
        obtain ⟨hTmp, -⟩ := h (by simpa using hActive)
        rw [within_append]
        refine ⟨?_, by simpa [discard_calls, FileCall.paths] using hTmp⟩
        unfold close_calls
        split <;> simp [FileCall.paths]

/-- The file that `AT+VERIFY` opens, if it opens one. -/
theorem verify_calls_below (cfg : Config) (cwd : List Bytes) (arg : Bytes) :
    Within (Below cfg cwd) (verify_calls cfg arg) := by
  unfold verify_calls
  split
  · exact within_nil
  · split
    · exact within_nil
    · rename_i hDots
      have hNone : find_str arg (str "..") = none := by simpa using hDots
      simpa [FileCall.paths] using below_of_no_dots (find_str_eq_none_iff.mp hNone)

/-- A slash is let through. -/
example : verify_calls {} (str "sub/x") =
    [.fopen_read (Config.in_upload_dir {} (str "sub/x"))] := by
  decide

/-- The calls of a command, by what it is. -/
theorem Uploading.process_calls {d : Daemon} (h : Uploading cfg cwd d.host.upload) (call : Call) :
    Within (Below cfg cwd) (process_calls cfg d call) ∧
      ((∀ arg, dispatch call.line ≠ .ok (.VERIFY arg)) →
        Within (Entry cfg cwd) (RkFlashd.process_calls cfg d call)) := by
  have hUpload (command : UploadCommand) :
      Within (Entry cfg cwd) (perform_calls cfg d.host ⟨call.caller, command, call.around.io⟩) :=
    h.calls _
  have hBoth {calls : List FileCall} {other : Prop} (hEntry : Within (Entry cfg cwd) calls) :
      Within (Below cfg cwd) calls ∧ (other → Within (Entry cfg cwd) calls) :=
    ⟨hEntry.mono fun _ hPath => hPath.below, fun _ => hEntry⟩
  cases hLine : dispatch call.line with
  | error message =>
      simp only [RkFlashd.process_calls, hLine]
      exact hBoth within_nil
  | ok command =>
      simp only [RkFlashd.process_calls, hLine]
      cases command with
      | VERIFY arg => exact ⟨verify_calls_below cfg cwd arg, fun hOther => absurd rfl (hOther arg)⟩
      | PREUPLOAD | UPLOAD | UPLOADDONE | UPLOADCANCEL => exact hBoth (hUpload _)
      | STATUS | VERSION | RESET | FORCERESET | HELP | FLASH | TRYFLASHDONE | EXEC | REBOOT =>
          exact hBoth within_nil

end Runs

section Requests

variable {p : Post} {c : Connection} {state : ConnectionState}

/-- The paths of a request are made of a name that the validator has accepted. -/
def Named (cfg : Config) (state : ConnectionState) : Prop :=
  (state.upload_tmp_path = [] ∧ state.upload_file = none) ∨
    ∃ f now, validate_filename f = true ∧ state.upload_filename = f ∧
      state.upload_tmp_path = cfg.in_upload_dir (upload_tmp_name now f)

theorem write_calls_within (cfg : Config) (cwd : List Bytes) (p : Post) (state : ConnectionState) :
    Within (Entry cfg cwd) (write_calls p state) := by
  unfold write_calls
  split
  · exact within_nil
  · split <;> simp [FileCall.paths]

/-- A callback opens a file only under a name that is accepted, whatever was sent before. -/
theorem post_calls_within (cfg : Config) (cwd : List Bytes) (p : Post) (c : Connection) :
    Within (Entry cfg cwd) (post_calls cfg p c) := by
  have hWrite := write_calls_within cfg cwd p
  unfold post_calls
  split
  · split
    · exact within_nil
    · split
      · exact hWrite _
      · split
        · exact within_nil
        · rename_i f _ hValid
          have hName : validate_filename f = true := by simpa using hValid
          split
          · rw [within_cons]
            exact ⟨by simpa [FileCall.paths] using validated_tmp_entry p.now hName, hWrite _⟩
          · exact hWrite _
  · exact hWrite _

theorem write_part_names (p : Post) (c : Connection) :
    (write_part p c).state.upload_filename = c.state.upload_filename ∧
      (write_part p c).state.upload_file = c.state.upload_file := by
  unfold write_part
  split
  · exact ⟨rfl, rfl⟩
  · split <;> exact ⟨rfl, rfl⟩

theorem Named.write_part (h : Named cfg c.state) (p : Post) :
    Named cfg (write_part p c).state := by
  obtain ⟨hName, hFile⟩ := write_part_names p c
  unfold Named
  rw [write_part_tmp_path, hName, hFile]
  exact h

/-- No callback makes a request name a file elsewhere. -/
theorem Named.post_data (h : Named cfg c.state) (p : Post) :
    Named cfg (post_data cfg p c).1.state := by
  unfold RkFlashd.post_data
  split
  · split
    · exact h
    · split
      · exact h.write_part p
      · split
        · exact h
        · rename_i f _ hValid
          have hName : validate_filename f = true := by simpa using hValid
          split
          · have hOpened (file : Option Nat) (fs : FileSystem) : Named cfg (Connection.mk
                { c.state with
                  upload_filename := f
                  upload_tmp_path := cfg.in_upload_dir (upload_tmp_name p.now f)
                  upload_file := file } fs).state :=
              Or.inr ⟨f, p.now, hName, rfl, rfl⟩
            dsimp only
            split
            · exact hOpened _ _
            · exact (hOpened _ _).write_part p
          · exact h.write_part p
  · exact h.write_part p

theorem post_process_calls_within (cfg : Config) (cwd : List Bytes) (posts : List Post)
    (c : Connection) : Within (Entry cfg cwd) (post_process_calls cfg posts c) := by
  induction posts generalizing c with
  | nil => exact within_nil
  | cons p rest ih =>
      rw [post_process_calls, within_append]
      refine ⟨post_calls_within cfg cwd p c, ?_⟩
      split
      · exact ih _
      · exact within_nil

theorem Named.post_process (h : Named cfg c.state) (posts : List Post) :
    Named cfg (post_process cfg posts c).state := by
  induction posts generalizing c with
  | nil => exact h
  | cons p rest ih =>
      have hPost := h.post_data p
      rw [RkFlashd.post_process]
      cases hResult : RkFlashd.post_data cfg p c with
      | mk next goes_on =>
          rw [hResult] at hPost
          cases goes_on with
          | true => exact ih hPost
          | false => exact hPost

/-- The end of an upload: the temporary file under its old name or its new one. -/
theorem Named.save_calls (h : Named cfg c.state) (io : Io) {file : Nat}
    (hFile : c.state.upload_file = some file) :
    Within (Entry cfg cwd) (save_calls cfg io file c) := by
  rcases h with ⟨-, hNone⟩ | ⟨f, now, hValid, hName, hPath⟩
  · rw [hNone] at hFile
    cases hFile
  · have hTmp : Entry cfg cwd (c_str (cfg.in_upload_dir (upload_tmp_name now f))) :=
      validated_tmp_entry now hValid
    have hFinal : Entry cfg cwd (c_str (cfg.in_upload_dir f)) := validated_entry hValid
    unfold RkFlashd.save_calls
    rw [hName, hPath]
    split_ifs <;> simp [FileCall.paths, hTmp, hFinal]

/-- The calls for a piece of a body, and those at its end, stay in the directory. -/
theorem Named.handleUpload_calls (h : Named cfg c.state) (io : Io) (chunk : Option (List Post)) :
    Within (Entry cfg cwd) (handleUpload_calls cfg io chunk c) := by
  unfold RkFlashd.handleUpload_calls
  split
  · exact within_nil
  · split
    · exact post_process_calls_within cfg cwd _ _
    · rename_i file hFile
      exact h.save_calls io hFile
    · exact within_nil

theorem Named.handleUpload (h : Named cfg c.state) (posts : List Post) :
    Named cfg (handleUpload cfg {} (some posts) c).1.state := by
  unfold RkFlashd.handleUpload
  split
  · exact h
  · exact Named.post_process (c := received c) h posts

/-- In every state of the server all requests have their paths from the validator. -/
theorem named_of_run {fs : FileSystem} {trace : List UploadLabel} {s : UploadServer}
    (run : Runs (upload_server cfg).Step ⟨fs, []⟩ trace s) :
    ∀ id state, s.find id = some state → Named cfg state := by
  refine run.invariant (I := fun s => ∀ id state, s.find id = some state → Named cfg state) ?_ ?_
  · rintro s ⟨action, response⟩ t h hStep other found hFound
    cases action with
    | request =>
        cases hStep
        rcases UploadServer.find_arrived hFound with hOld | ⟨-, rfl⟩
        · exact h other found hOld
        · exact Or.inl ⟨rfl, rfl⟩
    | post id p =>
        obtain ⟨state, hFind, hEq⟩ := Option.map_eq_some_iff.mp hStep
        cases hEq
        by_cases hSame : other = id
        · subst hSame
          rw [UploadServer.find_put (UploadServer.lt_of_find hFind)] at hFound
          cases hFound
          exact (h other state hFind).handleUpload (c := ⟨state, s.fs⟩) [p]
        · rw [UploadServer.find_put_of_ne hSame] at hFound
          exact h other found hFound
    | finish id io =>
        obtain ⟨state, hFind, hEq⟩ := Option.map_eq_some_iff.mp hStep
        cases hEq
        by_cases hSame : other = id
        · subst hSame
          rw [UploadServer.find_put (UploadServer.lt_of_find hFind)] at hFound
          cases hFound
        · rw [UploadServer.find_put_of_ne hSame] at hFound
          exact h other found hFound
  · intro id state hFind
    simp [UploadServer.find] at hFind

end Requests

/-- Every path that a call on the files is given for a name from outside, and that these calls
are all there are. -/
structure Confined (cfg : Config) (build : Build) (cwd : List Bytes) : Prop where
  /-- The commands of both front ends. Only `AT+VERIFY` goes deeper than a direct child. -/
  commands : ∀ d₀ d trace call, d₀.host.upload.active = false →
    Runs (process_machine cfg build).Step d₀ trace d →
    Within (Below cfg cwd) (process_calls cfg d call) ∧
      ((∀ arg, dispatch call.line ≠ .ok (.VERIFY arg)) →
        Within (Entry cfg cwd) (process_calls cfg d call))
  /-- What a command does to the files; a shell command of `AT+EXEC` is not the daemon's. -/
  command_effect : ∀ d d' call answer, process cfg build d call = some (d', answer) →
    (∀ arg, dispatch call.line ≠ .ok (.EXEC arg)) →
    d'.host.fs = d.host.fs.replay (process_calls cfg d call)
  /-- What `AT+VERIFY` learns of the files. -/
  verify_effect : ∀ reads arg fs fs',
    (∀ made ∈ verify_calls cfg arg, ∀ path ∈ made.paths, fs'.read path = fs.read path) →
    handle_verify cfg reads arg fs' = handle_verify cfg reads arg fs
  /-- Any number of uploads to the server, their callbacks in any order and with any failures. -/
  requests : ∀ fs s trace action, Runs (upload_server cfg).Step ⟨fs, []⟩ trace s →
    Within (Entry cfg cwd) (request_calls cfg s action)
  request_effect : ∀ s t action response,
    (upload_server cfg).Step s (action, response) t →
    t.fs = s.fs.replay (request_calls cfg s action)

/-- **Path confinement.** Whatever passes the filter of an entry, from whatever working
directory: every path that the handlers open, look for, rename or remove lies below the upload
directory, and those of an upload are the directory itself or its direct children. -/
theorem paths_confined (cfg : Config) (build : Build) (cwd : List Bytes) :
    Confined cfg build cwd where
  commands := fun _ _ _ call hIdle run => (uploading_of_run hIdle run).process_calls call
  command_effect := fun _ _ _ _ h hExec => process_replay h hExec
  verify_effect := fun _ _ _ _ h => verify_reads h
  requests := by
    intro fs s trace action run
    have hNamed := named_of_run run
    cases action with
    | request => exact within_nil
    | post id p =>
        cases hFind : s.find id with
        | none => simp [request_calls, hFind]
        | some state =>
            simpa [request_calls, hFind] using
              (hNamed id state hFind).handleUpload_calls (c := ⟨state, s.fs⟩) {} (some [p])
    | finish id io =>
        cases hFind : s.find id with
        | none => simp [request_calls, hFind]
        | some state =>
            simpa [request_calls, hFind] using
              (hNamed id state hFind).handleUpload_calls (c := ⟨state, s.fs⟩) io none
  request_effect := fun _ _ _ _ hStep => request_replay hStep

end RkFlashd
