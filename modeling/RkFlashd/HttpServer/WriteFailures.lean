import RkFlashd.HttpServer.Multipart
import RkFlashd.Machine.Execution

/-! An upload of one part when the file calls fail: what has reached the file, and what the
answer says. -/
namespace RkFlashd

open Text Transition

/-- What the file holds after the callbacks, when each write stores what it can. -/
def stored_bytes (bytes : Bytes) (posts : List Post) : Bytes :=
  posts.foldl (fun bytes p => bytes ++ p.kept bytes.length) bytes

/-- The write of a callback, made where the earlier ones should have ended, stores all of
its data. -/
def StoresAll (past : List Post) (p : Post) : Prop :=
  Storage.FileSystem.stored (past.flatMap Post.added).length p.added p.io.fwrite = p.added.length

/-- An answer with status 200 names a file that is there with all the bytes of the part, as
many as it says. -/
def StoresWholePart (cfg : Config) (part : Part) (result : Connection × Option Response) : Prop :=
  ∀ response, result.2 = some response → response.status_code = 200 →
    ∃ f n, response = upload_ok cfg f n ∧
      result.1.fs.read (c_str (cfg.in_upload_dir f)) = some part.content ∧
      part.content.length = n.toNat

/-- How the file calls of a request fare: it does not come to a success, or no write falls
short and the close loses nothing. -/
def WritesReachFile (io : Io) (posts : List Post) (part : Part) : Prop :=
  part.accepted = none ∨ (∃ p ∈ posts.head?, p.io.fopen = false) ∨ io.rename = false ∨
    Always StoresAll posts ∧ (io.fclose = 0 ∨ part.content = [])

section Bytes

variable {p : Post} {posts : List Post}

theorem Post.kept_length (p : Post) (n : Nat) :
    (p.kept n).length = Storage.FileSystem.stored n p.added p.io.fwrite := by
  rw [Post.kept, List.length_take]
  exact Nat.min_eq_left (Storage.FileSystem.stored_le n p.added p.io.fwrite)

theorem Post.kept_length_le (p : Post) (n : Nat) : (p.kept n).length ≤ p.added.length := by
  rw [p.kept_length]
  exact Storage.FileSystem.stored_le n p.added p.io.fwrite

theorem Post.kept_eq_iff {n : Nat} : p.kept n = p.added ↔
    Storage.FileSystem.stored n p.added p.io.fwrite = p.added.length := by
  constructor
  · intro h
    rw [← p.kept_length, h]
  · intro h
    rw [Post.kept, h, List.take_length]

theorem stored_bytes_concat (posts : List Post) (p : Post) :
    stored_bytes [] (posts ++ [p]) =
      stored_bytes [] posts ++ p.kept (stored_bytes [] posts).length := by
  simp [stored_bytes]

theorem stored_bytes_length_le (posts : List Post) :
    (stored_bytes [] posts).length ≤ (posts.flatMap Post.added).length := by
  induction posts using List.reverseRecOn with
  | nil => exact Nat.le_refl 0
  | append_singleton posts p ih =>
      have hKept := p.kept_length_le (stored_bytes [] posts).length
      rw [stored_bytes_concat, List.flatMap_append, List.length_append, List.length_append]
      simp only [List.flatMap_cons, List.flatMap_nil, List.append_nil]
      omega

/-- The file holds everything exactly when no write has fallen short. -/
theorem stored_bytes_eq_iff : (stored_bytes [] posts).length = (posts.flatMap Post.added).length ↔
    Always StoresAll posts := by
  induction posts using List.reverseRecOn with
  | nil => exact iff_of_true rfl always_nil
  | append_singleton posts p ih =>
      have hPosts := stored_bytes_length_le posts
      have hKept := p.kept_length_le (stored_bytes [] posts).length
      rw [stored_bytes_concat, always_concat, ← ih, List.flatMap_append, List.length_append,
        List.length_append]
      simp only [List.flatMap_cons, List.flatMap_nil, List.append_nil, StoresAll]
      constructor
      · intro h
        have hSame : (stored_bytes [] posts).length = (posts.flatMap Post.added).length := by omega
        refine ⟨hSame, ?_⟩
        rw [← hSame, ← p.kept_length]
        omega
      · intro h
        rw [p.kept_length, h.1, h.2]

/-- If every write is complete, all of the content is stored. -/
theorem stored_bytes_of_always (h : Always StoresAll posts) :
    stored_bytes [] posts = posts.flatMap Post.added := by
  induction posts using List.reverseRecOn with
  | nil => rfl
  | append_singleton posts p ih =>
      obtain ⟨hPosts, hLast⟩ := always_concat.mp h
      rw [stored_bytes_concat, ih hPosts, Post.kept_eq_iff.mpr hLast]
      simp

/-- What a close leaves of the file is the whole of it exactly when the file is complete and
the close loses nothing that was there. -/
theorem flushed_eq_iff (lost : Nat) {content : Bytes}
    (hAdded : posts.flatMap Post.added = content) :
    (stored_bytes [] posts).take ((stored_bytes [] posts).length - lost) = content ↔
      Always StoresAll posts ∧ (lost = 0 ∨ content = []) := by
  have hLe := stored_bytes_length_le posts
  rw [hAdded] at hLe
  constructor
  · intro h
    have hLength := congrArg List.length h
    rw [List.length_take] at hLength
    have hWhole : (stored_bytes [] posts).length = content.length := by omega
    refine ⟨stored_bytes_eq_iff.mp (by rw [hWhole, hAdded]), ?_⟩
    by_cases hNil : content = []
    · exact Or.inr hNil
    · have hPositive : 0 < content.length := List.length_pos_iff.mpr hNil
      exact Or.inl (by omega)
  · rintro ⟨hAll, hLost⟩
    rw [stored_bytes_of_always hAll, hAdded]
    rcases hLost with rfl | rfl
    · exact List.take_of_length_le (Nat.le_refl _)
    · exact List.take_nil

end Bytes

/-- The `fopen` of the accepted part has failed: nothing is ever written. -/
structure Failed (c : Connection) : Prop where
  pp : c.state.pp = true
  path : c.state.upload_tmp_path ≠ []
  file : c.state.upload_file = none
  size : c.state.upload_size = 0

section Callbacks

variable {cfg : Config} {p : Post} {posts : List Post} {chunks : List (List Post)}
  {c : Connection} {f bytes : Bytes}

theorem Failed.post_process (cfg : Config) (h : Failed c) (posts : List Post) :
    Failed (post_process cfg posts c) := by
  induction posts generalizing c with
  | nil => exact h
  | cons p rest ih =>
      have hNext : ∃ next, post_data cfg p c = (next, true) ∧ Failed next := by
        cases hWritten : written p.part.key p.part.filename with
        | true =>
            have hSame : write_part p c = c := by simp [write_part, h.file]
            exact ⟨c, by rw [post_data_written hWritten (Or.inr h.path), hSame], h⟩
        | false =>
            obtain ⟨error, hResult⟩ := post_data_ignored cfg c hWritten
            exact ⟨_, hResult, h.pp, h.path, h.file, h.size⟩
      obtain ⟨next, hResult, hFailed⟩ := hNext
      simpa only [RkFlashd.post_process, hResult] using ih hFailed

theorem Failed.feed (h : Failed c) (chunks : List (List Post)) : Failed (feed cfg chunks c) := by
  induction chunks generalizing c with
  | nil => exact h
  | cons posts rest ih =>
      have hReceived : Failed (RkFlashd.received c) := ⟨h.pp, h.path, h.file, h.size⟩
      rw [feed_cons posts rest h.pp]
      exact ih (hReceived.post_process cfg posts)

/-- Without an accepted part no file is opened, however the chunks are cut. -/
theorem Waiting.feed (h : Waiting c)
    (hIgnored : ∀ p ∈ chunks.flatten, accepted p.part.key p.part.filename = none) :
    Waiting (feed cfg chunks c) := by
  induction chunks generalizing c with
  | nil => exact h
  | cons posts rest ih =>
      have hReceived : Waiting (RkFlashd.received c) := ⟨h.pp, h.path, h.file, h.size⟩
      rw [feed_cons posts rest h.pp]
      apply ih
      · exact hReceived.post_process fun p hMem => hIgnored p (by simp [hMem])
      · exact fun p hMem => hIgnored p (by simp_all)

/-- An open file takes what each write stores; the size takes what each write was given. -/
theorem Opened.stored (h : Opened cfg f bytes c) (posts : List Post) :
    Opened cfg f (stored_bytes bytes posts) (RkFlashd.post_process cfg posts c) ∧
      (RkFlashd.post_process cfg posts c).state.upload_size =
        c.state.upload_size + UInt64.ofNat (posts.flatMap Post.added).length := by
  induction posts generalizing bytes c with
  | nil => exact ⟨h, by simp [RkFlashd.post_process]⟩
  | cons p rest ih =>
      obtain ⟨next, hResult, hNext, hSize⟩ := h.post_data p
      obtain ⟨hOpened, hTotal⟩ := ih hNext
      simp only [RkFlashd.post_process, hResult]
      refine ⟨hOpened, ?_⟩
      rw [hTotal, hSize, List.flatMap_cons, List.length_append, UInt64.ofNat_add, UInt64.add_assoc]

theorem Opened.received (h : Opened cfg f bytes c) : Opened cfg f bytes (RkFlashd.received c) :=
  ⟨h.pp, h.filename, h.valid, h.path, h.file⟩

theorem Opened.feed (h : Opened cfg f bytes c) (chunks : List (List Post)) :
    Opened cfg f (stored_bytes bytes chunks.flatten) (RkFlashd.feed cfg chunks c) ∧
      (RkFlashd.feed cfg chunks c).state.upload_size =
        c.state.upload_size + UInt64.ofNat (chunks.flatten.flatMap Post.added).length := by
  induction chunks generalizing bytes c with
  | nil => exact ⟨h, by simp [RkFlashd.feed]⟩
  | cons posts rest ih =>
      obtain ⟨hPosts, hSize⟩ := h.received.stored posts
      obtain ⟨hOpened, hTotal⟩ := ih hPosts
      have hBytes : stored_bytes bytes (posts :: rest).flatten =
          stored_bytes (stored_bytes bytes posts) rest.flatten := by
        rw [List.flatten_cons]
        exact List.foldl_append
      rw [feed_cons posts rest h.pp, hBytes]
      refine ⟨hOpened, ?_⟩
      rw [hTotal, hSize, List.flatten_cons, List.flatMap_append, List.length_append,
        UInt64.ofNat_add, UInt64.add_assoc]
      rfl

/-- The first callback of an accepted part opens the file. What comes behind is added. -/
theorem Waiting.feed_accepted (cfg : Config) (h : Waiting c) (hPosts : chunks.flatten = p :: posts)
    (hAccepted : accepted p.part.key p.part.filename = some f) (hOpen : p.io.fopen = true) :
    Opened cfg f (stored_bytes [] (p :: posts)) (RkFlashd.feed cfg chunks c) ∧
      (RkFlashd.feed cfg chunks c).state.upload_size =
        UInt64.ofNat ((p :: posts).flatMap Post.added).length := by
  induction chunks generalizing c with
  | nil => cases hPosts
  | cons first rest ih =>
      have hReceived : Waiting (RkFlashd.received c) := ⟨h.pp, h.path, h.file, h.size⟩
      rw [feed_cons first rest h.pp]
      cases first with
      | nil => exact ih hReceived (by simpa using hPosts)
      | cons q more =>
          obtain ⟨rfl, rfl⟩ : q = p ∧ more ++ rest.flatten = posts := by simpa using hPosts
          obtain ⟨next, hResult, hNext, hSize⟩ :=
            accepted_opens cfg hReceived.pp hReceived.path hAccepted hOpen
          obtain ⟨hMore, hMoreSize⟩ := hNext.stored more
          obtain ⟨hRest, hRestSize⟩ := hMore.feed rest
          have hBytes : stored_bytes [] (q :: (more ++ rest.flatten)) =
              stored_bytes (stored_bytes (q.kept 0) more) rest.flatten := by
            simp [stored_bytes]
          simp only [RkFlashd.post_process, hResult, hBytes]
          refine ⟨hRest, ?_⟩
          rw [hRestSize, hMoreSize, hSize, hReceived.size, List.flatMap_cons, List.flatMap_append,
            List.length_append, List.length_append, UInt64.ofNat_add, UInt64.ofNat_add,
            UInt64.add_assoc, UInt64.add_assoc, UInt64.zero_add]

/-- If it does not open, no later callback does. -/
theorem Waiting.feed_fails (cfg : Config) (h : Waiting c) (hPosts : chunks.flatten = p :: posts)
    (hAccepted : accepted p.part.key p.part.filename = some f) (hFails : p.io.fopen = false) :
    Failed (RkFlashd.feed cfg chunks c) := by
  induction chunks generalizing c with
  | nil => cases hPosts
  | cons first rest ih =>
      have hReceived : Waiting (RkFlashd.received c) := ⟨h.pp, h.path, h.file, h.size⟩
      rw [feed_cons first rest h.pp]
      cases first with
      | nil => exact ih hReceived (by simpa using hPosts)
      | cons q more =>
          obtain ⟨rfl, -⟩ : q = p ∧ more ++ rest.flatten = posts := by simpa using hPosts
          have hResult : RkFlashd.post_data cfg q (RkFlashd.received c) = _ :=
            post_data_fails hAccepted hReceived.path hFails
          simp only [RkFlashd.post_process, hResult]
          apply Failed.feed
          exact ⟨hReceived.pp, cfg.in_upload_dir_ne_nil _, rfl, hReceived.size⟩

end Callbacks

section SinglePart

variable {cfg : Config} {io : Io} {part : Part} {chunks : List (List Post)} {fs : FileSystem}

theorem no_file_answer {c : Connection} {response : Response} (hPp : c.state.pp = true)
    (hFile : c.state.upload_file = none) (hSize : c.state.upload_size = 0)
    (h : (handleUpload cfg io none c).2 = some response) : response.status_code = 400 := by
  simp only [handleUpload, hPp, hFile, hSize, not_true_eq_false, if_false, and_self, if_true] at h
  split at h
  · cases h
  · cases h
    rfl

theorem upload_request_starts (fs : FileSystem) : Waiting (upload_request fs) :=
  ⟨rfl, rfl, rfl, rfl⟩

/-- A part that is not accepted is not answered with success. -/
theorem ignored_part_answer (hPosts : chunks.flatten.map Post.part = part.calls)
    (hIgnored : part.accepted = none) :
    StoresWholePart cfg part (handle_request cfg io chunks (upload_request fs)) := by
  have hCalls : chunks.flatten.map Post.part = [part].flatMap Part.calls := by simpa using hPosts
  have hWaiting : Waiting (feed cfg chunks (upload_request fs)) :=
    (upload_request_starts fs).feed (parts_ignored hCalls (by simpa using hIgnored))
  intro response hResponse hOk
  rw [no_file_answer hWaiting.pp hWaiting.file hWaiting.size hResponse] at hOk
  cases hOk

theorem first_call {part : Part} {posts : List Post} (hPosts : posts.map Post.part = part.calls) :
    ∃ p rest, posts = p :: rest ∧
      accepted p.part.key p.part.filename = part.accepted := by
  obtain ⟨key, filename, pieces, called⟩ := part
  cases pieces with
  | nil => exact absurd rfl called
  | cons data others =>
      obtain ⟨p, rest, rfl, hFirst, -⟩ := List.map_eq_cons_iff.mp hPosts
      exact ⟨p, rest, rfl, by rw [hFirst]; rfl⟩

/-- **An upload under write failures.** A success tells the truth about the file exactly
when every write has stored all of its data and the close has flushed them. -/
theorem stores_whole_part_iff (hPosts : chunks.flatten.map Post.part = part.calls) :
    StoresWholePart cfg part (handle_request cfg io chunks (upload_request fs)) ↔
      WritesReachFile io chunks.flatten part := by
  cases hPart : part.accepted with
  | none => exact iff_of_true (ignored_part_answer hPosts hPart) (Or.inl hPart)
  | some f =>
      obtain ⟨p, rest, hChunks, hFirst⟩ := first_call hPosts
      rw [hPart] at hFirst
      obtain ⟨-, -, hValid, hWritten⟩ := written_of_accepted hPart
      have hAdded : chunks.flatten.flatMap Post.added = part.content := by
        rw [Part.added_eq hPosts, Part.added, if_pos hWritten]
      cases hOpen : p.io.fopen with
      | false =>
          have hFailed := (upload_request_starts fs).feed_fails cfg hChunks hFirst hOpen
          refine iff_of_true ?_ (Or.inr (Or.inl ⟨p, by simp [hChunks], hOpen⟩))
          intro response hResponse hOk
          rw [no_file_answer hFailed.pp hFailed.file hFailed.size hResponse] at hOk
          cases hOk
      | true =>
          obtain ⟨hOpened, hSize⟩ :=
            (upload_request_starts fs).feed_accepted cfg hChunks hFirst hOpen
          obtain ⟨file, hFile, -⟩ := hOpened.file
          rw [← hChunks] at hOpened hSize
          rw [hAdded] at hSize
          rcases hOpened.save io hFile with
            ⟨hRename, next, hSave, hRead⟩ | ⟨hRename, next, json, hSave, -⟩
          · have hResult : handle_request cfg io chunks (upload_request fs) =
                (next, some (upload_ok cfg f (UInt64.ofNat part.content.length))) := by
              rw [handle_request, handleUpload_some io hOpened.pp hFile, hSave, hSize]
            have hStored := flushed_eq_iff io.fclose hAdded
            rw [hResult]
            constructor
            · intro hStores
              obtain ⟨g, n, hOk, hContent, -⟩ := hStores _ rfl rfl
              obtain ⟨rfl, -⟩ := upload_ok_inj hOk
              rw [c_str_in_upload_dir_eq (valid_no_nul hValid), hRead] at hContent
              exact Or.inr (Or.inr (Or.inr (hStored.mp (Option.some.inj hContent))))
            · intro hReach response hResponse _
              have hWhole :
                  Always StoresAll chunks.flatten ∧ (io.fclose = 0 ∨ part.content = []) := by
                simpa [WritesReachFile, hPart, hChunks, hOpen, hRename] using hReach
              rw [hStored.mpr hWhole] at hRead
              refine ⟨f, UInt64.ofNat part.content.length, (Option.some.inj hResponse).symm, ?_, ?_⟩
              · rw [c_str_in_upload_dir_eq (valid_no_nul hValid), hRead]
              · obtain ⟨inode, -, hInode⟩ := Option.map_eq_some_iff.mp hRead
                have hLength := next.fs.size_le inode
                rw [hInode] at hLength
                unfold Storage.maxFileSize at hLength
                rw [UInt64.toNat_ofNat', Nat.mod_eq_of_lt (by omega)]
          · refine iff_of_true ?_ (Or.inr (Or.inr (Or.inl hRename)))
            intro response hResponse hOk
            rw [handle_request, handleUpload_some io hOpened.pp hFile, hSave] at hResponse
            cases hResponse
            cases hOk

end SinglePart

/-- The call for a body of one piece `xyz`, whose write stores what the device takes. -/
def write_xyz (fault : Option Nat) : Post :=
  ⟨⟨some (str "firmware"), some (str "a.bin"), str "xyz"⟩, 0, { fwrite := fault }⟩

/-- The device takes everything, and so the file holds the part. -/
theorem stores_whole_part_xyz :
    StoresWholePart {} (firmware_part (str "a.bin") (str "xyz"))
      (handle_request {} {} [[write_xyz none]] (upload_request Storage.FileSystem.empty)) := by
  refine (stores_whole_part_iff (by decide)).mpr (Or.inr (Or.inr (Or.inr ⟨?_, Or.inl rfl⟩)))
  show Always StoresAll [write_xyz none]
  refine always_single.mpr ?_
  unfold StoresAll
  decide

/-- One byte of three reaches the disk, and the upload is answered with the size 3. -/
theorem short_write_confirmed :
    ¬ StoresWholePart {} (firmware_part (str "a.bin") (str "xyz"))
      (handle_request {} {} [[write_xyz (some 1)]] (upload_request Storage.FileSystem.empty)) := by
  intro hStores
  obtain ⟨f, n, hOk, hRead, -⟩ := hStores (upload_ok {} (str "a.bin") 3) (by rfl) rfl
  obtain ⟨rfl, -⟩ := upload_ok_inj hOk
  revert hRead
  decide +kernel

end RkFlashd
