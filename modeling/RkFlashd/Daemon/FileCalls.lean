import RkFlashd.Storage.Calls
import RkFlashd.HttpServer.ConcurrentUploads
import RkFlashd.Process

/-! The calls on the files that the handlers make for a command or a request, in their order and
with the paths they are given. What the handlers leave of the files is what these calls leave. -/
namespace RkFlashd

open Text Storage Transition

abbrev FileCall := Storage.FileCall Bytes

/-! `handler_upload.cpp` and `handler_basic.cpp`. -/

def preupload_calls (cfg : Config) (io : Io) (arg : Bytes) (w : Host) : List FileCall :=
  if arg = [] ∨ w.upload.active = true then []
  else
    match parse_preupload arg with
    | .error _ => []
    | .ok args => [.fopen (c_str (cfg.in_upload_dir (tmp_name args.filename))) io.fopen]

def upload_frame_calls (io : Io) (arg : Bytes) (u : UploadState) : List FileCall :=
  match check_frame u arg with
  | .error _ => []
  | .ok (file, bin_data) => [.fwrite file bin_data io.fwrite]

def close_calls (io : Io) (u : UploadState) : List FileCall :=
  match u.file with
  | none => []
  | some file => [.fclose file io.fclose]

def discard_calls (io : Io) (u : UploadState) : List FileCall :=
  [.unlink (c_str u.tmp_path) io.unlink]

/-- The file is discarded as well when it cannot be renamed. -/
def finish_calls (cfg : Config) (io : Io) (w : Host) : List FileCall :=
  let u := w.upload
  if u.received ≠ u.expected_size then discard_calls io u
  else if u.md5_ctx.hex.2 ≠ u.expected_md5 then discard_calls io u
  else
    let final_path := cfg.in_upload_dir u.filename
    .rename (c_str u.tmp_path) (c_str final_path) io.rename ::
      if (w.fs.rename (c_str u.tmp_path) (c_str final_path) io.rename).1 then []
      else discard_calls io u

def uploaddone_calls (cfg : Config) (io : Io) (w : Host) : List FileCall :=
  match w.upload.active, w.upload.file with
  | true, some _ => close_calls io w.upload ++ finish_calls cfg io (close_file io w)
  | _, _ => []

def uploadcancel_calls (io : Io) (u : UploadState) : List FileCall :=
  if ¬ u.active then [] else close_calls io u ++ discard_calls io u

def verify_calls (cfg : Config) (arg : Bytes) : List FileCall :=
  if arg = [] then []
  else if (find_str arg (str "..")).isSome then []
  else [.fopen_read (c_str (cfg.in_upload_dir arg))]

def perform_calls (cfg : Config) (w : Host) (r : Request) : List FileCall :=
  match r.command with
  | .PREUPLOAD arg => preupload_calls cfg r.io arg w
  | .UPLOAD arg => upload_frame_calls r.io arg w.upload
  | .UPLOADDONE => uploaddone_calls cfg r.io w
  | .UPLOADCANCEL => uploadcancel_calls r.io w.upload

/-- The calls that `process` leads to. The command of an `AT+EXEC` makes its own. -/
def process_calls (cfg : Config) (d : Daemon) (call : Call) : List FileCall :=
  let upload (command : UploadCommand) :=
    perform_calls cfg d.host ⟨call.caller, command, call.around.io⟩
  match dispatch call.line with
  | .ok (.VERIFY arg) => verify_calls cfg arg
  | .ok (.PREUPLOAD arg) => upload (.PREUPLOAD arg)
  | .ok (.UPLOAD arg) => upload (.UPLOAD arg)
  | .ok .UPLOADDONE => upload .UPLOADDONE
  | .ok .UPLOADCANCEL => upload .UPLOADCANCEL
  | _ => []

/-! `http_server.cpp` and `handler_upload.cpp` of the server. -/

def write_calls (p : Post) (state : ConnectionState) : List FileCall :=
  match state.upload_file with
  | none => []
  | some file => if p.part.data = [] then [] else [.fwrite file p.part.data p.io.fwrite]

def post_calls (cfg : Config) (p : Post) (c : Connection) : List FileCall :=
  match p.part.key, p.part.filename with
  | some key, filename =>
      if key ≠ str "firmware" then []
      else
        match filename with
        | none => write_calls p c.state
        | some filename =>
            if ¬ validate_filename filename then []
            else if c.state.upload_tmp_path = [] then
              let tmp_path := cfg.in_upload_dir (upload_tmp_name p.now filename)
              let file := (c.fs.fopen (c_str tmp_path) p.io.fopen).1
              .fopen (c_str tmp_path) p.io.fopen ::
                write_calls p { c.state with upload_file := file }
            else write_calls p c.state
  | none, _ => write_calls p c.state

def post_process_calls (cfg : Config) : List Post → Connection → List FileCall
  | [], _ => []
  | p :: rest, c =>
      post_calls cfg p c ++
        match post_data cfg p c with
        | (c, true) => post_process_calls cfg rest c
        | (_, false) => []

def save_calls (cfg : Config) (io : Io) (file : Nat) (c : Connection) : List FileCall :=
  .fclose file io.fclose ::
    if ¬ validate_filename c.state.upload_filename then
      [.unlink (c_str c.state.upload_tmp_path) io.unlink]
    else
      .access (c_str c.state.upload_tmp_path) ::
        if (c.fs.fclose file io.fclose).2.exists_path (c_str c.state.upload_tmp_path) then
          [.rename (c_str c.state.upload_tmp_path)
            (c_str (cfg.in_upload_dir c.state.upload_filename)) io.rename]
        else []

def handleUpload_calls (cfg : Config) (io : Io) (chunk : Option (List Post)) (c : Connection) :
    List FileCall :=
  if ¬ c.state.pp then []
  else
    match chunk, c.state.upload_file with
    | some posts, _ => post_process_calls cfg posts (received c)
    | none, some file => save_calls cfg io file c
    | none, none => []

/-- The calls of one step of the server with many uploads. -/
def request_calls (cfg : Config) (s : UploadServer) : UploadAction → List FileCall
  | .request => []
  | .post id p =>
      match s.find id with
      | none => []
      | some state => handleUpload_calls cfg {} (some [p]) ⟨state, s.fs⟩
  | .finish id io =>
      match s.find id with
      | none => []
      | some state => handleUpload_calls cfg io none ⟨state, s.fs⟩

section Commands

variable {cfg : Config} {io : Io} {arg : Bytes} {w : Host}

/-- The calls listed for `handle_preupload` are what it does to the files. -/
theorem preupload_replay (cfg : Config) (io : Io) (arg : Bytes) (w : Host) :
    (handle_preupload cfg io arg w).1.fs = w.fs.replay (preupload_calls cfg io arg w) := by
  unfold handle_preupload preupload_calls
  by_cases hArg : arg = []
  · rw [if_pos hArg, if_pos (Or.inl hArg)]
    rfl
  · rw [if_neg hArg]
    by_cases hActive : w.upload.active = true
    · rw [if_pos hActive, if_pos (Or.inr hActive)]
      rfl
    · rw [if_neg hActive, if_neg (by simp [hArg, hActive])]
      cases parse_preupload arg with
      | error message => rfl
      | ok args =>
          dsimp only
          split
          · rename_i fs hOpen
            simp [FileSystem.call, hOpen]
          · rename_i file fs hOpen
            simp [FileSystem.call, hOpen]

/-- The calls listed for `handle_upload_frame` are what it does to the files. -/
theorem upload_frame_replay (io : Io) (arg : Bytes) (w : Host) :
    (handle_upload_frame io arg w).1.fs = w.fs.replay (upload_frame_calls io arg w.upload) := by
  unfold handle_upload_frame upload_frame_calls
  cases check_frame w.upload arg with
  | error result => rfl
  | ok result =>
      dsimp only
      split
      · rfl
      · rfl

theorem close_replay (io : Io) (w : Host) :
    (close_file io w).fs = w.fs.replay (close_calls io w.upload) := by
  unfold close_file close_calls
  cases w.upload.file <;> rfl

theorem finish_replay (cfg : Config) (io : Io) (w : Host) :
    (finish_upload cfg io w).1.fs = w.fs.replay (finish_calls cfg io w) := by
  unfold finish_upload finish_calls
  dsimp only
  split
  · rfl
  · split
    · rfl
    · cases hRename : w.fs.rename (c_str w.upload.tmp_path)
        (c_str (cfg.in_upload_dir w.upload.filename)) io.rename with
      | mk renamed fs => cases renamed <;> simp [FileSystem.call, hRename, discard, discard_calls]

/-- The calls listed for `handle_uploaddone` are what it does to the files. -/
theorem uploaddone_replay (cfg : Config) (io : Io) (w : Host) :
    (handle_uploaddone cfg io w).1.fs = w.fs.replay (uploaddone_calls cfg io w) := by
  unfold handle_uploaddone uploaddone_calls
  cases w.upload.active with
  | false => rfl
  | true =>
      cases w.upload.file with
      | none => rfl
      | some file =>
          dsimp only
          rw [FileSystem.replay_append, ← close_replay, finish_replay]

/-- Closing the file leaves the path to remove. -/
theorem close_file_tmp_path (io : Io) (w : Host) :
    (close_file io w).upload.tmp_path = w.upload.tmp_path := by
  unfold close_file
  split <;> rfl

/-- The calls listed for `handle_uploadcancel` are what it does to the files. -/
theorem uploadcancel_replay (io : Io) (w : Host) :
    (handle_uploadcancel io w).1.fs = w.fs.replay (uploadcancel_calls io w.upload) := by
  unfold handle_uploadcancel uploadcancel_calls
  split
  · rfl
  · rw [FileSystem.replay_append, ← close_replay, discard, close_file_tmp_path]
    rfl

/-- An upload command does to the files what its calls do. -/
theorem perform_replay (cfg : Config) (w : Host) (r : Request) :
    (perform cfg w r).1.fs = w.fs.replay (perform_calls cfg w r) := by
  obtain ⟨caller, command, io⟩ := r
  cases command with
  | PREUPLOAD arg => exact preupload_replay cfg io arg w
  | UPLOAD arg => exact upload_frame_replay io arg w
  | UPLOADDONE => exact uploaddone_replay cfg io w
  | UPLOADCANCEL => exact uploadcancel_replay io w

/-- And so does every command but the one that runs a shell. -/
theorem process_replay {build : Build} {d d' : Daemon} {call : Call} {answer : Bytes}
    (h : process cfg build d call = some (d', answer))
    (hExec : ∀ arg, dispatch call.line ≠ .ok (.EXEC arg)) :
    d'.host.fs = d.host.fs.replay (process_calls cfg d call) := by
  have hUpload (command : UploadCommand)
      (hCommand : some (d.upload_command cfg call command) = some (d', answer)) :
      d'.host.fs = d.host.fs.replay
        (perform_calls cfg d.host ⟨call.caller, command, call.around.io⟩) := by
    rw [← perform_replay]
    obtain rfl := congrArg Prod.fst (Option.some.inj hCommand)
    rfl
  cases hLine : dispatch call.line with
  | error message =>
      simp only [process, hLine, Option.some.injEq, Prod.mk.injEq] at h
      rw [process_calls, hLine, ← h.1]
      rfl
  | ok command =>
      rw [process_ok hLine] at h
      rw [process_calls, hLine]
      cases command with
      | FLASH arg | TRYFLASHDONE =>
          simp only [execute, Daemon.flash_command, Option.map_eq_some_iff] at h
          obtain ⟨_, -, hEq⟩ := h
          cases hEq
          rfl
      | EXEC arg => exact absurd hLine (hExec arg)
      | VERIFY arg =>
          cases h
          dsimp only
          unfold verify_calls
          split
          · rfl
          · split <;> rfl
      | STATUS | VERSION | RESET | FORCERESET | HELP | REBOOT =>
          cases h
          rfl
      | PREUPLOAD arg | UPLOAD arg | UPLOADDONE | UPLOADCANCEL => exact hUpload _ h

/-- The answer of `AT+VERIFY` depends on no file but the one it opens. -/
theorem verify_reads {reads : Reads} {fs fs' : FileSystem}
    (h : ∀ made ∈ verify_calls cfg arg, ∀ path ∈ made.paths, fs'.read path = fs.read path) :
    handle_verify cfg reads arg fs' = handle_verify cfg reads arg fs := by
  unfold handle_verify verify_calls at *
  split
  · rfl
  · rename_i hArg
    split
    · rfl
    · rename_i hDots
      rw [if_neg hArg, if_neg hDots] at h
      have hRead := h _ (List.mem_singleton_self _) _ (List.mem_singleton_self _)
      dsimp only
      rw [hRead]

end Commands

section Requests

variable {cfg : Config} {p : Post} {c : Connection}

theorem write_replay (p : Post) (c : Connection) :
    (write_part p c).fs = c.fs.replay (write_calls p c.state) := by
  unfold write_part write_calls
  cases c.state.upload_file with
  | none => rfl
  | some file =>
      dsimp only
      split <;> rfl

/-- A callback does to the files what its calls do. -/
theorem post_replay (cfg : Config) (p : Post) (c : Connection) :
    (post_data cfg p c).1.fs = c.fs.replay (post_calls cfg p c) := by
  unfold post_data post_calls
  cases p.part.key with
  | none => exact write_replay p c
  | some key =>
      dsimp only
      split
      · rfl
      · cases p.part.filename with
        | none => exact write_replay p c
        | some filename =>
            dsimp only
            split
            · rfl
            · split
              · cases hOpen : c.fs.fopen
                  (c_str (cfg.in_upload_dir (upload_tmp_name p.now filename))) p.io.fopen with
                | mk file fs =>
                    cases file with
                    | none => simp [FileSystem.call, write_calls, hOpen]
                    | some file =>
                        simp only [FileSystem.replay_cons, FileSystem.call, hOpen]
                        exact write_replay p ⟨_, fs⟩
              · exact write_replay p c

/-- The calls listed for a body are what its callbacks do to the files. -/
theorem post_process_replay (posts : List Post) (c : Connection) :
    (post_process cfg posts c).fs = c.fs.replay (post_process_calls cfg posts c) := by
  induction posts generalizing c with
  | nil => rfl
  | cons p rest ih =>
      have hPost := post_replay cfg p c
      rw [post_process, post_process_calls, FileSystem.replay_append, ← hPost]
      cases hResult : post_data cfg p c with
      | mk next goes_on =>
          cases goes_on with
          | true => exact ih next
          | false => rfl

/-- The calls listed for a finished upload are what it does to the files. -/
theorem save_replay (io : Io) (file : Nat) (c : Connection) :
    (save_upload cfg io file c).1.fs = c.fs.replay (save_calls cfg io file c) := by
  unfold save_upload save_calls
  dsimp only
  split
  · rfl
  · split
    · split <;> rename_i hRename <;> simp [FileSystem.call, hRename]
    · rfl

/-- The last call of a request, or one for a piece of its body, does to the files what its calls
on them do. -/
theorem handleUpload_replay (cfg : Config) (io : Io) (chunk : Option (List Post))
    (c : Connection) :
    (handleUpload cfg io chunk c).1.fs = c.fs.replay (handleUpload_calls cfg io chunk c) := by
  unfold handleUpload handleUpload_calls
  split
  · rfl
  · cases chunk with
    | some posts => exact post_process_replay posts _
    | none =>
        cases hFile : c.state.upload_file with
        | none =>
            simp only [and_true]
            split
            · split <;> rfl
            · split <;> rfl
        | some file =>
            simp only [reduceCtorEq, and_false, if_false]
            exact save_replay io file c

/-- A step of the server does to the files what its calls do. -/
theorem request_replay {s t : UploadServer} {action : UploadAction} {response : Option Response}
    (hStep : (upload_server cfg).Step s (action, response) t) :
    t.fs = s.fs.replay (request_calls cfg s action) := by
  cases action with
  | request =>
      cases hStep
      rfl
  | post id p =>
      obtain ⟨state, hFind, hEq⟩ := Option.map_eq_some_iff.mp hStep
      cases hEq
      rw [request_calls, hFind]
      exact handleUpload_replay cfg {} (some [p]) ⟨state, s.fs⟩
  | finish id io =>
      obtain ⟨state, hFind, hEq⟩ := Option.map_eq_some_iff.mp hStep
      cases hEq
      rw [request_calls, hFind]
      exact handleUpload_replay cfg io none ⟨state, s.fs⟩

end Requests

end RkFlashd
