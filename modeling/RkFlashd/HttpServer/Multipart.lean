import RkFlashd.HttpServer.Connection

/-! One `POST /api/upload` from its first part to its answer: what is in the file in the
end, and what is left behind when there is no success. -/
namespace RkFlashd

open Text

/-- The filename under which the callback opens a file for a part. -/
def accepted (key filename : Option Bytes) : Option Bytes :=
  match key, filename with
  | some key, some filename =>
      if key = str "firmware" ∧ validate_filename filename then some filename else none
  | _, _ => none

/-- Whether the callback writes the content of a part to a file that is open. -/
def written (key filename : Option Bytes) : Bool :=
  match key, filename with
  | some key, some filename => key = str "firmware" ∧ validate_filename filename
  | some key, none => key = str "firmware"
  | none, _ => true

theorem written_of_accepted {key filename : Option Bytes} {f : Bytes}
    (h : accepted key filename = some f) :
    key = some (str "firmware") ∧ filename = some f ∧ validate_filename f = true ∧
      written key filename = true := by
  unfold accepted at h
  split at h
  · split at h
    · cases h
      rename_i hBoth
      exact ⟨by rw [hBoth.1], rfl, hBoth.2, by simp [written, hBoth.1, hBoth.2]⟩
    · cases h
  · cases h

section Callback

variable {cfg : Config} {p : Post} {c : Connection}

/-- A write changes nothing of the request but its size. -/
theorem write_part_state (p : Post) (c : Connection) :
    ∃ size, (write_part p c).state = { c.state with upload_size := size } := by
  unfold write_part
  split
  · exact ⟨c.state.upload_size, rfl⟩
  · split
    · exact ⟨c.state.upload_size, rfl⟩
    · exact ⟨_, rfl⟩

@[simp] theorem write_part_type (p : Post) (c : Connection) :
    (write_part p c).state.type = c.state.type := by
  obtain ⟨size, hState⟩ := write_part_state p c
  rw [hState]

@[simp] theorem write_part_pp (p : Post) (c : Connection) :
    (write_part p c).state.pp = c.state.pp := by
  obtain ⟨size, hState⟩ := write_part_state p c
  rw [hState]

@[simp] theorem write_part_tmp_path (p : Post) (c : Connection) :
    (write_part p c).state.upload_tmp_path = c.state.upload_tmp_path := by
  obtain ⟨size, hState⟩ := write_part_state p c
  rw [hState]

@[simp] theorem write_part_file (p : Post) (c : Connection) :
    (write_part p c).state.upload_file = c.state.upload_file := by
  obtain ⟨size, hState⟩ := write_part_state p c
  rw [hState]

@[simp] theorem write_part_received (p : Post) (c : Connection) :
    (write_part p c).state.upload_data_received = c.state.upload_data_received := by
  obtain ⟨size, hState⟩ := write_part_state p c
  rw [hState]

theorem post_data_ignored (cfg : Config) (c : Connection)
    (h : written p.part.key p.part.filename = false) :
    ∃ error, post_data cfg p c = (⟨{ c.state with upload_error := error }, c.fs⟩, true) := by
  obtain ⟨⟨key, filename, data⟩, now, io⟩ := p
  cases key with
  | none => cases h
  | some key =>
      by_cases hKey : key = str "firmware"
      · cases filename with
        | none => simp [written, hKey] at h
        | some filename =>
            have hRejected : validate_filename filename = false := by
              simpa [written, hKey] using h
            refine ⟨str "rejected filename '" ++ filename ++ str "'", ?_⟩
            simp [post_data, hKey, hRejected]
      · refine ⟨str "unexpected field '" ++ key ++ str "' (expected 'firmware')", ?_⟩
        simp [post_data, hKey]

theorem post_data_written (h : written p.part.key p.part.filename = true)
    (hOpen : accepted p.part.key p.part.filename = none ∨ c.state.upload_tmp_path ≠ []) :
    post_data cfg p c = (write_part p c, true) := by
  obtain ⟨⟨key, filename, data⟩, now, io⟩ := p
  cases key with
  | none => rfl
  | some key =>
      cases filename with
      | none =>
          have hKey : key = str "firmware" := by simpa [written] using h
          simp [post_data, hKey]
      | some filename =>
          obtain ⟨hKey, hValid⟩ : key = str "firmware" ∧ validate_filename filename = true := by
            simpa [written] using h
          have hPath : c.state.upload_tmp_path ≠ [] := by
            apply hOpen.resolve_left
            simp [accepted, hKey, hValid]
          simp [post_data, hKey, hValid, hPath]

/-- The first accepted part opens the file and is written to it. -/
theorem post_data_opens {f : Bytes} (h : accepted p.part.key p.part.filename = some f)
    (hPath : c.state.upload_tmp_path = []) {file : Nat} {fs : FileSystem}
    (hOpen : c.fs.fopen (c_str (cfg.in_upload_dir (upload_tmp_name p.now f))) p.io.fopen =
      (some file, fs)) :
    post_data cfg p c =
      (write_part p ⟨{ c.state with
        upload_filename := f, upload_tmp_path := cfg.in_upload_dir (upload_tmp_name p.now f),
        upload_file := some file }, fs⟩, true) := by
  obtain ⟨hKey, hName, hValid, -⟩ := written_of_accepted h
  simp [post_data, hKey, hName, hValid, hPath, hOpen]

theorem post_data_fails {f : Bytes} (h : accepted p.part.key p.part.filename = some f)
    (hPath : c.state.upload_tmp_path = []) (hFails : p.io.fopen = false) :
    post_data cfg p c =
      (⟨{ c.state with
        upload_filename := f, upload_tmp_path := cfg.in_upload_dir (upload_tmp_name p.now f),
        upload_file := none }, c.fs⟩, false) := by
  obtain ⟨hKey, hName, hValid, -⟩ := written_of_accepted h
  simp [post_data, hKey, hName, hValid, hPath, hFails, Storage.FileSystem.fopen_fails]

/-- A callback ignores a part, or writes to whatever is open, or tries to open a file first. -/
theorem post_data_inv (cfg : Config) (p : Post) (c : Connection) :
    (∃ error, post_data cfg p c = (⟨{ c.state with upload_error := error }, c.fs⟩, true)) ∨
    (written p.part.key p.part.filename = true ∧ post_data cfg p c = (write_part p c, true)) ∨
    ∃ f, accepted p.part.key p.part.filename = some f ∧ c.state.upload_tmp_path = [] ∧
      (p.io.fopen = false ∧ post_data cfg p c =
        (⟨{ c.state with
          upload_filename := f, upload_tmp_path := cfg.in_upload_dir (upload_tmp_name p.now f),
          upload_file := none }, c.fs⟩, false) ∨
      p.io.fopen = true ∧ ∃ file fs,
        c.fs.fopen (c_str (cfg.in_upload_dir (upload_tmp_name p.now f))) true = (some file, fs) ∧
        post_data cfg p c =
          (write_part p ⟨{ c.state with
            upload_filename := f, upload_tmp_path := cfg.in_upload_dir (upload_tmp_name p.now f),
            upload_file := some file }, fs⟩, true)) := by
  cases hWritten : written p.part.key p.part.filename with
  | false => exact Or.inl (post_data_ignored cfg c hWritten)
  | true =>
      cases hAccepted : accepted p.part.key p.part.filename with
      | none => exact Or.inr (Or.inl ⟨rfl, post_data_written hWritten (Or.inl hAccepted)⟩)
      | some f =>
          by_cases hPath : c.state.upload_tmp_path = []
          · refine Or.inr (Or.inr ⟨f, rfl, hPath, ?_⟩)
            cases hOpen : p.io.fopen with
            | false => exact Or.inl ⟨rfl, post_data_fails hAccepted hPath hOpen⟩
            | true =>
                obtain ⟨file, fs, hFile⟩ :=
                  c.fs.fopen_succeeds (c_str (cfg.in_upload_dir (upload_tmp_name p.now f)))
                exact Or.inr ⟨rfl, file, fs, hFile,
                  post_data_opens hAccepted hPath (by rw [hOpen]; exact hFile)⟩
          · exact Or.inr (Or.inl ⟨rfl, post_data_written hWritten (Or.inr hPath)⟩)

/-- The same when no `fopen` fails. -/
theorem post_data_cases (cfg : Config) (c : Connection) (hOpen : p.io.fopen = true) :
    (∃ error, post_data cfg p c = (⟨{ c.state with upload_error := error }, c.fs⟩, true)) ∨
    (written p.part.key p.part.filename = true ∧ post_data cfg p c = (write_part p c, true)) ∨
    ∃ f file fs, accepted p.part.key p.part.filename = some f ∧ c.state.upload_tmp_path = [] ∧
      c.fs.fopen (c_str (cfg.in_upload_dir (upload_tmp_name p.now f))) true = (some file, fs) ∧
      post_data cfg p c =
        (write_part p ⟨{ c.state with
          upload_filename := f, upload_tmp_path := cfg.in_upload_dir (upload_tmp_name p.now f),
          upload_file := some file }, fs⟩, true) := by
  rcases post_data_inv cfg p c with hIgnored | hWritten | ⟨f, hAccepted, hPath, hFile⟩
  · exact Or.inl hIgnored
  · exact Or.inr (Or.inl hWritten)
  · rcases hFile with ⟨hFails, -⟩ | ⟨-, file, fs, hFile, hResult⟩
    · rw [hOpen] at hFails
      cases hFails
    · exact Or.inr (Or.inr ⟨f, file, fs, hAccepted, hPath, hFile, hResult⟩)

end Callback

theorem Config.in_upload_dir_ne_nil (cfg : Config) (name : Bytes) :
    cfg.in_upload_dir name ≠ [] := by
  have hSlash : str "/" ≠ [] := by decide
  simp [Config.in_upload_dir, hSlash]

/-- No part has been accepted yet. -/
structure Waiting (c : Connection) : Prop where
  pp : c.state.pp = true
  path : c.state.upload_tmp_path = []
  file : c.state.upload_file = none
  size : c.state.upload_size = 0

/-- A file has been opened for the name `f` and holds `bytes`. -/
structure Opened (cfg : Config) (f bytes : Bytes) (c : Connection) : Prop where
  pp : c.state.pp = true
  filename : c.state.upload_filename = f
  valid : validate_filename f = true
  path : ∃ now, c.state.upload_tmp_path = cfg.in_upload_dir (upload_tmp_name now f)
  file : ∃ file, c.state.upload_file = some file ∧
    c.fs.Writing file (c_str c.state.upload_tmp_path) bytes

/-- The size that is going to be reported is that of the file. -/
structure Storing (cfg : Config) (f bytes : Bytes) (c : Connection) : Prop extends
    Opened cfg f bytes c where
  size : c.state.upload_size = UInt64.ofNat bytes.length

/-- What one callback gives to `fwrite` when a file is open. -/
def Post.added (p : Post) : Bytes :=
  if written p.part.key p.part.filename then p.part.data else []

/-- How much of it is stored in a file of `n` bytes. -/
def Post.kept (p : Post) (n : Nat) : Bytes :=
  p.added.take (Storage.FileSystem.stored n p.added p.io.fwrite)

section Runs

variable {cfg : Config} {p : Post} {posts : List Post} {c : Connection} {f bytes : Bytes}

theorem Post.kept_all {n : Nat} (hIo : p.io.fwrite = none)
    (hRoom : n + p.added.length ≤ Storage.maxFileSize) : p.kept n = p.added := by
  have hAll : Storage.FileSystem.stored n p.added p.io.fwrite = p.added.length := by
    rw [hIo, Storage.FileSystem.stored, Option.getD_none]
    omega
  rw [Post.kept, hAll, List.take_length]

theorem Opened.tmp_path_ne_nil (h : Opened cfg f bytes c) : c.state.upload_tmp_path ≠ [] := by
  obtain ⟨now, hPath⟩ := h.path
  rw [hPath]
  exact cfg.in_upload_dir_ne_nil _

theorem Opened.write_part (h : Opened cfg f bytes c)
    (hWritten : written p.part.key p.part.filename = true) :
    Opened cfg f (bytes ++ p.kept bytes.length) (write_part p c) ∧
      (write_part p c).state.upload_size =
        c.state.upload_size + UInt64.ofNat p.added.length := by
  have hAdded : p.added = p.part.data := by simp [Post.added, hWritten]
  obtain ⟨file, hFile, hWriting⟩ := h.file
  rw [Post.kept, hAdded]
  by_cases hNil : p.part.data = []
  · have hSame : RkFlashd.write_part p c = c := by simp [RkFlashd.write_part, hFile, hNil]
    rw [hSame, hNil]
    exact ⟨by simpa using h, by simp⟩
  · obtain ⟨next, hNext, hMore⟩ := hWriting.fwrite p.part.data p.io.fwrite
    have hResult : RkFlashd.write_part p c =
        ⟨{ c.state with
            upload_size := c.state.upload_size + UInt64.ofNat p.part.data.length }, next⟩ := by
      simp [RkFlashd.write_part, hFile, hNil, hNext]
    rw [hResult]
    exact ⟨⟨h.pp, h.filename, h.valid, h.path, file, hFile, hMore⟩, rfl⟩

/-- A callback adds to the file that is open, or does nothing. -/
theorem Opened.post_data (h : Opened cfg f bytes c) (p : Post) :
    ∃ next, post_data cfg p c = (next, true) ∧
      Opened cfg f (bytes ++ p.kept bytes.length) next ∧
      next.state.upload_size = c.state.upload_size + UInt64.ofNat p.added.length := by
  cases hWritten : written p.part.key p.part.filename with
  | true =>
      exact ⟨_, post_data_written hWritten (Or.inr h.tmp_path_ne_nil), h.write_part hWritten⟩
  | false =>
      obtain ⟨error, hResult⟩ := post_data_ignored cfg c hWritten
      have hAdded : p.added = [] := by simp [Post.added, hWritten]
      rw [Post.kept, hAdded, List.take_nil, List.append_nil]
      exact ⟨_, hResult, ⟨h.pp, h.filename, h.valid, h.path, h.file⟩, by simp⟩

/-- The first accepted part opens a file. -/
theorem accepted_opens (cfg : Config) (hPp : c.state.pp = true)
    (hPath : c.state.upload_tmp_path = [])
    (hAccepted : accepted p.part.key p.part.filename = some f) (hOpen : p.io.fopen = true) :
    ∃ next, post_data cfg p c = (next, true) ∧ Opened cfg f (p.kept 0) next ∧
      next.state.upload_size = c.state.upload_size + UInt64.ofNat p.added.length := by
  obtain ⟨file, fs, hFile⟩ :=
    c.fs.fopen_succeeds (c_str (cfg.in_upload_dir (upload_tmp_name p.now f)))
  rw [← hOpen] at hFile
  obtain ⟨-, -, hValid, hWritten⟩ := written_of_accepted hAccepted
  have hStart : Opened cfg f [] ⟨{ c.state with
      upload_filename := f, upload_tmp_path := cfg.in_upload_dir (upload_tmp_name p.now f),
      upload_file := some file }, fs⟩ :=
    ⟨hPp, rfl, hValid, ⟨p.now, rfl⟩, file, rfl, Storage.FileSystem.Writing.of_fopen hFile⟩
  exact ⟨_, post_data_opens hAccepted hPath hFile, hStart.write_part hWritten⟩

theorem Waiting.post_data (cfg : Config) (h : Waiting c)
    (hIgnored : accepted p.part.key p.part.filename = none) :
    ∃ next, post_data cfg p c = (next, true) ∧ Waiting next := by
  cases hWritten : written p.part.key p.part.filename with
  | true =>
      have hSame : RkFlashd.write_part p c = c := by simp [RkFlashd.write_part, h.file]
      exact ⟨c, by rw [post_data_written hWritten (Or.inl hIgnored), hSame], h⟩
  | false =>
      obtain ⟨error, hResult⟩ := post_data_ignored cfg c hWritten
      exact ⟨_, hResult, h.pp, h.path, h.file, h.size⟩

/-- While a file is open and no write falls short, the callbacks add to it. -/
theorem Storing.post_process (h : Storing cfg f bytes c) (hIo : ∀ p ∈ posts, p.io.fwrite = none)
    (hRoom : bytes.length + (posts.flatMap Post.added).length ≤ Storage.maxFileSize) :
    Storing cfg f (bytes ++ posts.flatMap Post.added) (post_process cfg posts c) := by
  induction posts generalizing bytes c with
  | nil => simpa [RkFlashd.post_process] using h
  | cons p rest ih =>
      rw [List.flatMap_cons, List.length_append] at hRoom
      obtain ⟨next, hResult, hOpened, hSize⟩ := h.toOpened.post_data p
      rw [Post.kept_all (hIo p (by simp)) (by omega)] at hOpened
      have hNext : Storing cfg f (bytes ++ p.added) next := ⟨hOpened, by simp [hSize, h.size]⟩
      have hRest := ih hNext (fun p hMem => hIo p (by simp [hMem]))
        (by rw [List.length_append]; omega)
      rw [List.flatMap_cons, ← List.append_assoc]
      simpa only [RkFlashd.post_process, hResult] using hRest

/-- However the writes fare, the file stays open. -/
theorem Opened.post_process (h : Opened cfg f bytes c) (posts : List Post) :
    ∃ bytes, Opened cfg f bytes (RkFlashd.post_process cfg posts c) := by
  induction posts generalizing bytes c with
  | nil => exact ⟨bytes, h⟩
  | cons p rest ih =>
      obtain ⟨next, hResult, hNext, -⟩ := h.post_data p
      simpa only [RkFlashd.post_process, hResult] using ih hNext

theorem Waiting.post_process (h : Waiting c)
    (hIgnored : ∀ p ∈ posts, accepted p.part.key p.part.filename = none) :
    Waiting (post_process cfg posts c) := by
  induction posts generalizing c with
  | nil => exact h
  | cons p rest ih =>
      obtain ⟨next, hResult, hNext⟩ := h.post_data cfg (hIgnored p (by simp))
      simpa only [RkFlashd.post_process, hResult] using
        ih hNext (fun p hMem => hIgnored p (by simp [hMem]))

/-- One accepted part is enough to have a file open in the end. -/
theorem Waiting.opens (cfg : Config) (h : Waiting c) (hOpen : ∀ p ∈ posts, p.io.fopen = true)
    (hAccepted : ∃ p ∈ posts, (accepted p.part.key p.part.filename).isSome) :
    ∃ f bytes, Opened cfg f bytes (RkFlashd.post_process cfg posts c) := by
  induction posts generalizing c with
  | nil => simp at hAccepted
  | cons p rest ih =>
      cases hFirst : accepted p.part.key p.part.filename with
      | some f =>
          obtain ⟨next, hResult, hNext, -⟩ :=
            accepted_opens cfg h.pp h.path hFirst (hOpen p (by simp))
          obtain ⟨bytes, hRest⟩ := hNext.post_process rest
          exact ⟨f, bytes, by simpa only [RkFlashd.post_process, hResult] using hRest⟩
      | none =>
          obtain ⟨next, hResult, hNext⟩ := h.post_data cfg hFirst
          have hLater : ∃ p ∈ rest, (accepted p.part.key p.part.filename).isSome := by
            simpa [hFirst] using hAccepted
          simpa only [RkFlashd.post_process, hResult] using
            ih hNext (fun p hMem => hOpen p (by simp [hMem])) hLater

/-- The file and its size once the accepted part `p` has come, with what comes behind. -/
theorem Waiting.stores (cfg : Config) (h : Waiting c)
    (hAccepted : accepted p.part.key p.part.filename = some f) (hOpen : p.io.fopen = true)
    (hIo : ∀ q ∈ p :: posts, q.io.fwrite = none)
    (hRoom : ((p :: posts).flatMap Post.added).length ≤ Storage.maxFileSize) :
    Storing cfg f ((p :: posts).flatMap Post.added)
      (RkFlashd.post_process cfg (p :: posts) c) := by
  rw [List.flatMap_cons, List.length_append] at hRoom
  obtain ⟨next, hResult, hOpened, hSize⟩ := accepted_opens cfg h.pp h.path hAccepted hOpen
  rw [Post.kept_all (hIo p (by simp)) (by omega)] at hOpened
  have hNext : Storing cfg f p.added next := ⟨hOpened, by simpa [h.size] using hSize⟩
  rw [List.flatMap_cons]
  simpa only [RkFlashd.post_process, hResult] using
    hNext.post_process (fun q hMem => hIo q (by simp [hMem])) hRoom

/-- Without a failing `fopen` no callback stops the others. -/
theorem post_data_true (cfg : Config) (c : Connection) (h : p.io.fopen = true) :
    (post_data cfg p c).2 = true := by
  rcases post_data_cases cfg c h with
    ⟨error, hResult⟩ | ⟨-, hResult⟩ | ⟨f, file, fs, -, -, -, hResult⟩
  · rw [hResult]
  · rw [hResult]
  · rw [hResult]

end Runs

/-- A request whose headers have been seen. -/
def upload_request (fs : FileSystem) : Connection := ⟨{ type := .UPLOAD, pp := true }, fs⟩

/-- The calls of the handler with the chunks of the body. -/
def feed (cfg : Config) (chunks : List (List Post)) (c : Connection) : Connection :=
  chunks.foldl (fun c posts => (handleUpload cfg {} (some posts) c).1) c

/-- The calls of the handler up to the last. -/
def handle_request (cfg : Config) (io : Io) (chunks : List (List Post)) (c : Connection) :
    Connection × Option Response :=
  handleUpload cfg io none (feed cfg chunks c)

section Requests

variable {cfg : Config} {c : Connection} {f bytes : Bytes}

theorem post_data_flags (cfg : Config) (p : Post) (c : Connection) :
    (post_data cfg p c).1.state.pp = c.state.pp ∧
      (post_data cfg p c).1.state.upload_data_received = c.state.upload_data_received ∧
      (post_data cfg p c).1.state.type = c.state.type := by
  rcases post_data_inv cfg p c with
    ⟨error, hResult⟩ | ⟨-, hResult⟩ | ⟨f, -, -, ⟨-, hResult⟩ | ⟨-, file, fs, -, hResult⟩⟩
  · rw [hResult]
    exact ⟨rfl, rfl, rfl⟩
  · rw [hResult]
    simp
  · rw [hResult]
    exact ⟨rfl, rfl, rfl⟩
  · rw [hResult]
    simp

theorem post_process_append {first second : List Post} (h : ∀ p ∈ first, p.io.fopen = true) :
    post_process cfg (first ++ second) c =
      post_process cfg second (post_process cfg first c) := by
  induction first generalizing c with
  | nil => rfl
  | cons p rest ih =>
      have hTrue := post_data_true cfg c (h p (by simp))
      obtain ⟨next, hNext⟩ : ∃ next, post_data cfg p c = (next, true) := ⟨_, Prod.ext rfl hTrue⟩
      simp only [List.cons_append, post_process, hNext]
      exact ih fun p hMem => h p (by simp [hMem])

theorem post_process_flags (cfg : Config) (posts : List Post) (c : Connection) :
    (post_process cfg posts c).state.pp = c.state.pp ∧
      (post_process cfg posts c).state.upload_data_received = c.state.upload_data_received ∧
      (post_process cfg posts c).state.type = c.state.type := by
  induction posts generalizing c with
  | nil => exact ⟨rfl, rfl, rfl⟩
  | cons p rest ih =>
      have hFlags := post_data_flags cfg p c
      unfold post_process
      split
      · rename_i next hNext
        rw [hNext] at hFlags
        rw [(ih next).1, (ih next).2.1, (ih next).2.2]
        exact hFlags
      · rename_i next hNext
        rwa [hNext] at hFlags

/-- A request that has received some of its body. -/
def received (c : Connection) : Connection :=
  ⟨{ c.state with upload_data_received := true }, c.fs⟩

theorem received_eq (h : c.state.upload_data_received = true) : received c = c := by
  obtain ⟨state, fs⟩ := c
  obtain ⟨type, pp, filename, path, file, size, body, data_received, error⟩ := state
  cases h
  rfl

theorem feed_cons (posts : List Post) (chunks : List (List Post)) (hPp : c.state.pp = true) :
    feed cfg (posts :: chunks) c = feed cfg chunks (post_process cfg posts (received c)) := by
  simp [feed, handleUpload, hPp, received]

theorem feed_type (chunks : List (List Post)) (hPp : c.state.pp = true) :
    (feed cfg chunks c).state.type = c.state.type := by
  induction chunks generalizing c with
  | nil => rfl
  | cons posts rest ih =>
      have hFlags := post_process_flags cfg posts (received c)
      rw [feed_cons posts rest hPp, ih (hFlags.1.trans hPp)]
      exact hFlags.2.2

/-- How the body is cut into chunks makes no difference. -/
theorem feed_eq {chunks : List (List Post)} (hPp : c.state.pp = true)
    (hNe : chunks ≠ []) (h : ∀ p ∈ chunks.flatten, p.io.fopen = true) :
    feed cfg chunks c = post_process cfg chunks.flatten (received c) := by
  induction chunks generalizing c with
  | nil => exact absurd rfl hNe
  | cons posts rest ih =>
      have hFlags := post_process_flags cfg posts (received c)
      have hReceived := received_eq (hFlags.2.1.trans rfl)
      rw [feed_cons posts rest hPp, List.flatten_cons,
        post_process_append fun p hMem => h p (by simp [hMem])]
      by_cases hLast : rest = []
      · subst hLast
        rfl
      · rw [ih (hFlags.1.trans hPp) hLast fun p hMem => h p (by simp_all), hReceived]

theorem valid_chars (h : validate_filename f = true) :
    ∀ c ∈ f, (isalnum c || c == 45 || c == 95 || c == 46) = true := by
  unfold validate_filename at h
  split_ifs at h
  exact List.all_eq_true.mp h

/-- A filename that passes the validator is ASCII. -/
theorem valid_name_ascii (h : validate_filename f = true) : ∀ c ∈ f, c < 128 := by
  have hAscii : ∀ c : UInt8,
      (isalnum c || c == 45 || c == 95 || c == 46) = true → c < 128 := by
    grind [isalnum, isdigit]
  exact fun c hMem => hAscii c (valid_chars h c hMem)

theorem valid_no_nul (h : validate_filename f = true) : (0 : UInt8) ∉ f :=
  fun hMem => absurd (valid_chars h 0 hMem) (by decide)

theorem int_to_string_chars (now : Int) : ∀ c ∈ int_to_string now, isdigit c = true ∨ c = 45 := by
  intro c hc
  cases now with
  | ofNat n => exact Or.inl (to_string_isdigit n c hc)
  | negSucc n =>
      rcases List.mem_append.mp hc with hMinus | hDigit
      · have hText : str "-" = [45] := rfl
        exact Or.inr (by simpa [hText] using hMinus)
      · exact Or.inl (to_string_isdigit _ c hDigit)

theorem upload_tmp_name_no_nul (now : Int) (h : validate_filename f = true) :
    (0 : UInt8) ∉ upload_tmp_name now f := by
  intro hMem
  simp only [upload_tmp_name, List.mem_append] at hMem
  rcases hMem with (hTime | hBar) | hName
  · rcases int_to_string_chars now 0 hTime with hDigit | hMinus
    · cases hDigit
    · cases hMinus
  · exact absurd hBar (by decide)
  · exact valid_no_nul h hName

theorem c_str_in_upload_dir_eq {name : Bytes} (h : (0 : UInt8) ∉ name) :
    c_str (cfg.in_upload_dir name) = cfg.in_upload_dir name := by
  rw [cfg.c_str_in_upload_dir, c_str_eq_self h]

/-- A file is never received under the name it is going to have. -/
theorem Opened.tmp_path_ne (h : Opened cfg f bytes c) :
    c_str c.state.upload_tmp_path ≠ cfg.in_upload_dir f := by
  obtain ⟨now, hPath⟩ := h.path
  rw [hPath, c_str_in_upload_dir_eq (upload_tmp_name_no_nul now h.valid)]
  intro hEq
  have hLength := congrArg List.length (cfg.in_upload_dir_inj hEq)
  have hBar : (str "_").length = 1 := rfl
  simp only [upload_tmp_name, List.length_append] at hLength
  omega

/-- The end of an upload: the rename decides. -/
theorem Opened.save (io : Io) {file : Nat} (h : Opened cfg f bytes c)
    (hFile : c.state.upload_file = some file) :
    (io.rename = true ∧ ∃ next,
      save_upload cfg io file c = (next, upload_ok cfg f c.state.upload_size) ∧
      next.fs.read (cfg.in_upload_dir f) = some (bytes.take (bytes.length - io.fclose))) ∨
    (io.rename = false ∧ ∃ next json,
      save_upload cfg io file c = (next, ⟨500, .text json⟩) ∧ ¬ next.fs.is_open file ∧
      next.fs.read (c_str c.state.upload_tmp_path) =
        some (bytes.take (bytes.length - io.fclose))) := by
  obtain ⟨opened, hOpened, hWriting⟩ := h.file
  obtain rfl : opened = file := by simpa [hOpened] using hFile
  obtain ⟨fs, hClose, hClosed, hRead⟩ := hWriting.fclose io.fclose
  have hExists : fs.exists_path (c_str c.state.upload_tmp_path) = true := by
    obtain ⟨inode, hDir, -⟩ := Option.map_eq_some_iff.mp hRead
    simp [Storage.FileSystem.exists_path, hDir]
  have hFinal : c_str (cfg.in_upload_dir f) = cfg.in_upload_dir f :=
    c_str_in_upload_dir_eq (valid_no_nul h.valid)
  cases hRename : io.rename with
  | true =>
      left
      obtain ⟨next, hNext, hNew, -⟩ := Storage.FileSystem.rename_read hRead h.tmp_path_ne
      refine ⟨rfl, ⟨{ c.state with upload_file := none }, next⟩, ?_, hNew⟩
      simp only [save_upload, hClose, h.filename, h.valid, hExists, hFinal, hRename, hNext,
        not_true_eq_false, if_false, if_true]
  | false =>
      right
      refine ⟨rfl, ⟨{ c.state with upload_file := none }, fs⟩,
        str "\x7b\"status\":\"error\",\"message\":\"Failed to save file\"\x7d", ?_, hClosed, hRead⟩
      simp only [save_upload, hClose, h.filename, h.valid, hExists, hFinal, hRename,
        Storage.FileSystem.rename_fails, not_true_eq_false, if_false, if_true]

theorem handleUpload_some (io : Io) {file : Nat} (hPp : c.state.pp = true)
    (hFile : c.state.upload_file = some file) :
    handleUpload cfg io none c =
      ((save_upload cfg io file c).1, some (save_upload cfg io file c).2) := by
  simp [handleUpload, hPp, hFile]

end Requests

/-- A part of the body: its name and filename, and the pieces in which its content is
passed on. There is at least one call for every part. -/
structure Part where
  key : Option Bytes
  filename : Option Bytes
  pieces : List Bytes
  called : pieces ≠ []

namespace Part

def content (part : Part) : Bytes := part.pieces.flatten

def calls (part : Part) : List PartData :=
  part.pieces.map fun data => ⟨part.key, part.filename, data⟩

/-- The filename under which the part is accepted. -/
def accepted (part : Part) : Option Bytes := RkFlashd.accepted part.key part.filename

/-- What it adds to a file that is open. -/
def added (part : Part) : Bytes :=
  if written part.key part.filename then part.content else []

/-- It is a `firmware` part with the filename `f`. -/
def Named (f : Bytes) (part : Part) : Prop :=
  part.key = some (str "firmware") ∧ part.filename = some f

instance (f : Bytes) : DecidablePred (Named f) := fun _ => instDecidableAnd

theorem added_eq {part : Part} {posts : List Post} (h : posts.map Post.part = part.calls) :
    posts.flatMap Post.added = part.added := by
  obtain ⟨key, filename, pieces, called⟩ := part
  have hAdded : ∀ (pieces : List Bytes) (posts : List Post),
      posts.map Post.part = pieces.map (fun data => ⟨key, filename, data⟩) →
      posts.flatMap Post.added = if written key filename then pieces.flatten else [] := by
    intro pieces
    induction pieces with
    | nil =>
        intro posts h
        obtain rfl := List.map_eq_nil_iff.mp h
        simp
    | cons data rest ih =>
        intro posts h
        obtain ⟨p, others, rfl, hFirst, hRest⟩ := List.map_eq_cons_iff.mp h
        rw [List.flatMap_cons, ih others hRest, Post.added, hFirst]
        cases written key filename <;> simp
  exact hAdded pieces posts h

end Part

theorem parts_added {parts : List Part} {posts : List Post}
    (h : posts.map Post.part = parts.flatMap Part.calls) :
    posts.flatMap Post.added = parts.flatMap Part.added := by
  induction parts generalizing posts with
  | nil =>
      obtain rfl : posts = [] := by simpa using h
      rfl
  | cons part rest ih =>
      rw [List.flatMap_cons] at h
      obtain ⟨first, others, rfl, hFirst, hRest⟩ := List.map_eq_append_iff.mp h
      rw [List.flatMap_append, List.flatMap_cons, Part.added_eq hFirst, ih hRest]

theorem parts_ignored {parts : List Part} {posts : List Post}
    (h : posts.map Post.part = parts.flatMap Part.calls)
    (hIgnored : ∀ part ∈ parts, part.accepted = none) :
    ∀ p ∈ posts, accepted p.part.key p.part.filename = none := by
  intro p hMem
  have hPart := List.mem_map_of_mem (f := Post.part) hMem
  rw [h] at hPart
  obtain ⟨part, hMem, hCall⟩ := List.mem_flatMap.mp hPart
  obtain ⟨data, -, hData⟩ := List.mem_map.mp hCall
  rw [← hData]
  exact hIgnored part hMem

/-- A body has a first part that is accepted, or none. -/
theorem first_accepted (parts : List Part) :
    (∀ part ∈ parts, part.accepted = none) ∨
      ∃ before part after f, parts = before ++ part :: after ∧
        (∀ other ∈ before, other.accepted = none) ∧ part.accepted = some f := by
  induction parts with
  | nil => exact Or.inl (by simp)
  | cons part rest ih =>
      cases hAccepted : part.accepted with
      | some f => exact Or.inr ⟨[], part, rest, f, rfl, by simp, hAccepted⟩
      | none =>
          rcases ih with hNone | ⟨before, found, after, f, rfl, hBefore, hFound⟩
          · exact Or.inl (by simpa [hAccepted] using hNone)
          · refine Or.inr ⟨part :: before, found, after, f, rfl, ?_, hFound⟩
            simpa [hAccepted] using hBefore

/-- A success with name `f` and size `n` means that `f` holds the one part of that name. -/
def StoresNamedPart (cfg : Config) (parts : List Part)
    (result : Connection × Option Response) : Prop :=
  ∀ f n, result.2 = some (upload_ok cfg f n) →
    ∃ part, parts.filter (fun part => part.Named f) = [part] ∧
      result.1.fs.read (c_str (cfg.in_upload_dir f)) = some part.content ∧
      part.content.length = n.toNat

/-- Behind the first part that is accepted, no part has its name again, and none adds
anything to its file. -/
def LastPart : List Part → Prop
  | [] => True
  | part :: after =>
      match part.accepted with
      | none => LastPart after
      | some f => ∀ other ∈ after, ¬ other.Named f ∧ other.added = []

theorem last_part_of_ignored {parts : List Part} (h : ∀ part ∈ parts, part.accepted = none) :
    LastPart parts := by
  induction parts with
  | nil => trivial
  | cons part rest ih =>
      rw [LastPart, h part (by simp)]
      exact ih fun other hMem => h other (by simp [hMem])

/-- The first accepted part is the last if nothing behind it has its name or adds to its file. -/
theorem last_part_iff {before after : List Part} {part : Part} {f : Bytes}
    (hBefore : ∀ other ∈ before, other.accepted = none) (hPart : part.accepted = some f) :
    LastPart (before ++ part :: after) ↔ ∀ other ∈ after, ¬ other.Named f ∧ other.added = [] := by
  induction before with
  | nil => rw [List.nil_append, LastPart, hPart]
  | cons first rest ih =>
      rw [List.cons_append, LastPart, hBefore first (by simp)]
      exact ih fun other hMem => hBefore other (by simp [hMem])

theorem upload_ok_inj {cfg : Config} {f g : Bytes} {m n : UInt64}
    (h : upload_ok cfg f m = upload_ok cfg g n) : f = g ∧ m = n := by
  simp only [upload_ok, Response.mk.injEq, Body.dump.injEq, List.cons.injEq, Prod.mk.injEq,
    Json.string.injEq, Json.number.injEq, true_and, and_true] at h
  exact ⟨h.1, UInt64.toNat_inj.mp (by exact_mod_cast h.2.2)⟩

section NamedPart

variable {cfg : Config} {parts : List Part} {chunks : List (List Post)} {fs : FileSystem}

theorem upload_request_waiting (fs : FileSystem) : Waiting (received (upload_request fs)) :=
  ⟨rfl, rfl, rfl, rfl⟩

theorem added_length_le (parts : List Part) :
    (parts.flatMap Part.added).length ≤ (parts.map fun part => part.content.length).sum := by
  induction parts with
  | nil => simp
  | cons part rest ih =>
      have hOne : part.added.length ≤ part.content.length := by
        unfold Part.added
        split <;> simp
      simp only [List.flatMap_cons, List.length_append, List.map_cons, List.sum_cons]
      omega

/-- What is stored is the first accepted part, with what the parts behind it add. -/
theorem stores_first_part (cfg : Config) (fs : FileSystem) {before after : List Part}
    {part : Part} {f : Bytes}
    (hPosts : chunks.flatten.map Post.part = (before ++ part :: after).flatMap Part.calls)
    (hIo : ∀ p ∈ chunks.flatten, p.io = {})
    (hRoom : ((before ++ part :: after).map fun part => part.content.length).sum < 2 ^ 64)
    (hBefore : ∀ other ∈ before, other.accepted = none) (hPart : part.accepted = some f) :
    Storing cfg f (part.content ++ after.flatMap Part.added)
      (feed cfg chunks (upload_request fs)) := by
  obtain ⟨-, -, -, hWritten⟩ := written_of_accepted hPart
  have hContent : part.added = part.content := by simp [Part.added, hWritten]
  rw [List.flatMap_append, List.flatMap_cons] at hPosts
  obtain ⟨first, rest, hFlatten, hFirst, hRest⟩ := List.map_eq_append_iff.mp hPosts
  obtain ⟨own, others, rfl, hOwn, hOthers⟩ := List.map_eq_append_iff.mp hRest
  have hAdded : (own ++ others).flatMap Post.added = part.content ++ after.flatMap Part.added := by
    rw [List.flatMap_append, Part.added_eq hOwn, parts_added hOthers, hContent]
  obtain ⟨p, posts, rfl⟩ : ∃ p posts, own = p :: posts := by
    apply List.exists_cons_of_ne_nil
    rintro rfl
    exact part.called (List.map_eq_nil_iff.mp hOwn.symm)
  have hAccepted : RkFlashd.accepted p.part.key p.part.filename = some f := by
    obtain ⟨data, -, hData⟩ : ∃ data ∈ part.pieces, _ = p.part :=
      List.mem_map.mp (hOwn ▸ List.mem_map_of_mem (f := Post.part) (by simp : p ∈ p :: posts))
    rw [← hData]
    exact hPart
  have hMem : ∀ q ∈ first ++ (p :: posts ++ others), q.io = {} := hFlatten ▸ hIo
  have hNe : chunks ≠ [] := by
    rintro rfl
    cases first <;> cases hFlatten
  have hLength : ((p :: posts ++ others).flatMap Post.added).length ≤ Storage.maxFileSize := by
    rw [hAdded]
    have hBound := added_length_le after
    simp only [List.map_append, List.map_cons, List.sum_append, List.sum_cons] at hRoom
    rw [List.length_append]
    unfold Storage.maxFileSize
    omega
  have hWaiting : Waiting (post_process cfg first (received (upload_request fs))) :=
    (upload_request_waiting fs).post_process (parts_ignored hFirst hBefore)
  have hStoring := hWaiting.stores cfg hAccepted (by rw [hMem p (by simp)])
    (fun q hq => by rw [hMem q (by simp_all)]) hLength
  rw [feed_eq rfl hNe fun q hq => by rw [hIo q hq], hFlatten,
    post_process_append fun q hq => by rw [hMem q (by simp [hq])], ← hAdded]
  exact hStoring

/-- A request without an accepted part does not end with success. -/
theorem Waiting.finish {c : Connection} (h : Waiting c) (io : Io) :
    (handleUpload cfg io none c).1 = c ∧
      ∀ f n, (handleUpload cfg io none c).2 ≠ some (upload_ok cfg f n) := by
  simp only [handleUpload, h.pp, h.size, h.file, not_true_eq_false, if_false, and_self, if_true]
  split
  · exact ⟨rfl, by simp⟩
  · exact ⟨rfl, by simp [upload_ok]⟩

/-- It is told so once something has come in. -/
theorem Waiting.answers {c : Connection} (cfg : Config) (h : Waiting c) (io : Io)
    (hReceived : c.state.upload_data_received = true) :
    ∃ json, (handleUpload cfg io none c).2 = some ⟨400, .text json⟩ := by
  simp [handleUpload, h.pp, h.size, h.file, hReceived]

/-- Without an accepted part nothing is answered with success. -/
theorem ignored_not_ok (io : Io) (hPosts : chunks.flatten.map Post.part = parts.flatMap Part.calls)
    (hIo : ∀ p ∈ chunks.flatten, p.io = {}) (hIgnored : ∀ part ∈ parts, part.accepted = none)
    (f : Bytes) (n : UInt64) :
    (handle_request cfg io chunks (upload_request fs)).2 ≠ some (upload_ok cfg f n) := by
  by_cases hNe : chunks = []
  · subst hNe
    simp [handle_request, feed, handleUpload, upload_request]
  · have hWaiting : Waiting (feed cfg chunks (upload_request fs)) := by
      rw [feed_eq rfl hNe fun q hq => by rw [hIo q hq]]
      exact (upload_request_waiting fs).post_process (parts_ignored hPosts hIgnored)
    exact (hWaiting.finish io).2 f n

/-- The upload of an accepted part is answered with success, under the name of that part. -/
theorem first_part_answered (cfg : Config) (fs : FileSystem) {before after : List Part}
    {part : Part} {f : Bytes}
    (hPosts : chunks.flatten.map Post.part = (before ++ part :: after).flatMap Part.calls)
    (hIo : ∀ p ∈ chunks.flatten, p.io = {})
    (hRoom : ((before ++ part :: after).map fun part => part.content.length).sum < 2 ^ 64)
    (hBefore : ∀ other ∈ before, other.accepted = none) (hPart : part.accepted = some f) :
    ∃ next, handle_request cfg {} chunks (upload_request fs) =
        (next, some (upload_ok cfg f
          (UInt64.ofNat (part.content ++ after.flatMap Part.added).length))) ∧
      next.fs.read (c_str (cfg.in_upload_dir f)) =
        some (part.content ++ after.flatMap Part.added) := by
  have hStoring := stores_first_part cfg fs hPosts hIo hRoom hBefore hPart
  obtain ⟨file, hFile, -⟩ := hStoring.file
  rcases hStoring.save {} hFile with ⟨-, next, hSave, hRead⟩ | ⟨hFails, -⟩
  · refine ⟨next, ?_, ?_⟩
    · rw [handle_request, handleUpload_some {} hStoring.pp hFile, hSave, hStoring.size]
    · rw [c_str_in_upload_dir_eq (valid_no_nul hStoring.valid), hRead]
      exact congrArg some (List.take_of_length_le (Nat.le_refl _))
  · cases hFails

/-- Nothing in front of the first accepted part has its name. -/
theorem filter_named {before after : List Part} {part : Part} {f : Bytes}
    (hBefore : ∀ other ∈ before, other.accepted = none) (hPart : part.accepted = some f) :
    (before ++ part :: after).filter (fun part => part.Named f) =
      part :: after.filter (fun part => part.Named f) := by
  obtain ⟨hKey, hName, hValid, -⟩ := written_of_accepted hPart
  have hNone : before.filter (fun part => part.Named f) = [] := by
    apply List.filter_eq_nil_iff.mpr
    intro other hMem hNamed
    obtain ⟨hOtherKey, hOtherName⟩ : other.Named f := by simpa using hNamed
    have hAccepted : other.accepted = some f := by
      simp [Part.accepted, RkFlashd.accepted, hOtherKey, hOtherName, hValid]
    rw [hBefore other hMem] at hAccepted
    cases hAccepted
  have hNamed : part.Named f := ⟨hKey, hName⟩
  rw [List.filter_append, hNone, List.filter_cons_of_pos (by simpa using hNamed)]
  rfl

/-- **What an upload stores.** A success means that the file is the one part of its name
exactly when no later part repeats the name or adds to the file. -/
theorem stores_named_part_iff (hPosts : chunks.flatten.map Post.part = parts.flatMap Part.calls)
    (hIo : ∀ p ∈ chunks.flatten, p.io = {})
    (hRoom : (parts.map fun part => part.content.length).sum < 2 ^ 64) :
    StoresNamedPart cfg parts (handle_request cfg {} chunks (upload_request fs)) ↔
      LastPart parts := by
  rcases first_accepted parts with hIgnored | ⟨before, part, after, f, rfl, hBefore, hPart⟩
  · refine iff_of_true (fun f n hOk => ?_) (last_part_of_ignored hIgnored)
    exact absurd hOk (ignored_not_ok {} hPosts hIo hIgnored f n)
  · obtain ⟨next, hResult, hRead⟩ :=
      first_part_answered cfg fs hPosts hIo hRoom hBefore hPart
    rw [last_part_iff hBefore hPart, hResult]
    constructor
    · intro hStores other hMem
      obtain ⟨found, hFilter, hContent, -⟩ := hStores f _ rfl
      rw [filter_named hBefore hPart] at hFilter
      obtain ⟨rfl, hAfter⟩ := List.cons.inj hFilter
      have hNothing : after.flatMap Part.added = [] := by
        rw [hRead] at hContent
        simpa using hContent
      refine ⟨?_, List.flatMap_eq_nil_iff.mp hNothing other hMem⟩
      simpa using List.filter_eq_nil_iff.mp hAfter other hMem
    · intro hLast g n hOk
      obtain ⟨rfl, rfl⟩ := upload_ok_inj (Option.some.inj hOk)
      have hNothing : after.flatMap Part.added = [] :=
        List.flatMap_eq_nil_iff.mpr fun other hMem => (hLast other hMem).2
      rw [hNothing, List.append_nil] at hRead ⊢
      refine ⟨part, ?_, hRead, ?_⟩
      · have hAfter : after.filter (fun part => part.Named f) = [] :=
          List.filter_eq_nil_iff.mpr fun other hMem => by simpa using (hLast other hMem).1
        rw [filter_named hBefore hPart, hAfter]
      · have hLength : part.content.length < 2 ^ 64 := by
          simp only [List.map_append, List.map_cons, List.sum_append, List.sum_cons] at hRoom
          omega
        rw [UInt64.toNat_ofNat', Nat.mod_eq_of_lt hLength]

end NamedPart

def firmware_part (filename : Bytes) (content : Bytes) : Part :=
  ⟨some (str "firmware"), some filename, [content], by simp⟩

/-- The calls of the callback for these parts, all in one chunk. -/
def one_chunk (parts : List Part) : List (List Post) :=
  [(parts.flatMap Part.calls).map fun part => ⟨part, 0, {}⟩]

instance decidableLastPart : (parts : List Part) → Decidable (LastPart parts)
  | [] => isTrue trivial
  | part :: after =>
      match hAccepted : part.accepted with
      | none =>
          have := decidableLastPart after
          decidable_of_iff (LastPart after) (by rw [LastPart, hAccepted])
      | some f =>
          decidable_of_iff (∀ other ∈ after, ¬ other.Named f ∧ other.added = [])
            (by rw [LastPart, hAccepted])

/-- A field of another name before the firmware and one behind it, a firmware that is rejected
for its name, and one in three pieces. -/
def mixed_parts : List Part :=
  [⟨some (str "comment"), none, [str "hi"], by simp⟩, firmware_part (str "../a.bin") (str "no"),
    ⟨some (str "firmware"), some (str "a.bin"), [str "x", [], str "yz"], by simp⟩,
    ⟨some (str "note"), none, [str "bye"], by simp⟩]

/-- The calls for them in two chunks. -/
def mixed_chunks : List (List Post) :=
  let posts := (mixed_parts.flatMap Part.calls).map fun part => ⟨part, 0, {}⟩
  [posts.take 3, posts.drop 3]

/-- The pieces of the firmware that is accepted are stored, and nothing else. -/
theorem stores_named_part_mixed :
    (handle_request {} {} mixed_chunks (upload_request Storage.FileSystem.empty)).2 =
        some (upload_ok {} (str "a.bin") 3) ∧
      StoresNamedPart {} mixed_parts
        (handle_request {} {} mixed_chunks (upload_request Storage.FileSystem.empty)) := by
  have hIo : ∀ p ∈ mixed_chunks.flatten, p.io = {} := by decide +kernel
  have hLast : LastPart mixed_parts := by decide
  exact ⟨by rfl, (stores_named_part_iff rfl hIo (by decide)).mpr hLast⟩

/-- Two `firmware` parts with names of their own end up in one file. -/
theorem second_part_appended :
    ¬ StoresNamedPart {}
      [firmware_part (str "a.bin") (str "x"), firmware_part (str "b.bin") (str "y")]
      (handle_request {} {}
        (one_chunk [firmware_part (str "a.bin") (str "x"), firmware_part (str "b.bin") (str "y")])
        (upload_request Storage.FileSystem.empty)) := by
  intro hStores
  obtain ⟨part, hFilter, hRead, -⟩ := hStores (str "a.bin") 2 (by rfl)
  have hPart : [firmware_part (str "a.bin") (str "x"), firmware_part (str "b.bin") (str "y")].filter
      (fun part => part.Named (str "a.bin")) = [firmware_part (str "a.bin") (str "x")] := by
    simp [firmware_part, Part.Named]
    decide
  obtain rfl : firmware_part (str "a.bin") (str "x") = part :=
    (List.cons.inj (hPart.symm.trans hFilter)).1
  revert hRead
  decide +kernel

end RkFlashd
