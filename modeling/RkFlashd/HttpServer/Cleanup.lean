import RkFlashd.HttpServer.Multipart

/-! What an upload leaves behind when it ends without success: a rename that fails, and a
client that goes away. -/
namespace RkFlashd

open Text

/-- The completion callback that `start()` gives to `MHD_start_daemon`: there is none. -/
def notify_completed : Option (Io → Connection → FileSystem) := none

/-- The files once libmicrohttpd is through with a request. -/
def release_request (io : Io) (c : Connection) : FileSystem :=
  match notify_completed with
  | none => c.fs
  | some completed => completed io c

/-- How a request ends: with the last call of the handler, or with the connection. -/
inductive RequestEnd where
  | completed (io : Io)
  | disconnected (io : Io)
  deriving DecidableEq, Repr

def conclude (cfg : Config) (c : Connection) : RequestEnd → FileSystem × Option Response
  | .completed io =>
      let (c, response) := handleUpload cfg io none c
      (release_request io c, response)
  | .disconnected io => (release_request io c, none)

/-- If the request is not answered with 200, its stream is closed and its file gone. -/
def CleansUp (cfg : Config) (c : Connection) (file : Nat) (ending : RequestEnd) : Prop :=
  (∀ response, (conclude cfg c ending).2 = some response → response.status_code ≠ 200) →
    ¬ (conclude cfg c ending).1.is_open file ∧
      (conclude cfg c ending).1.read (c_str c.state.upload_tmp_path) = none

section Files

variable {cfg : Config} {p : Post} {posts : List Post} {c : Connection}

/-- At every point of a request either no file is open or the one opened for it is. -/
def Tidy (cfg : Config) (c : Connection) : Prop :=
  c.state.pp = true ∧ c.state.upload_file = none ∨ ∃ f bytes, Opened cfg f bytes c

theorem Tidy.post_data (h : Tidy cfg c) (p : Post) : Tidy cfg (post_data cfg p c).1 := by
  rcases h with ⟨hPp, hFile⟩ | ⟨f, bytes, hOpened⟩
  · have hWrite : write_part p c = c := by simp [write_part, hFile]
    rcases post_data_inv cfg p c with
      ⟨error, hResult⟩ | ⟨-, hResult⟩ | ⟨f, hAccepted, hPath, ⟨-, hResult⟩ | ⟨hOpen, -⟩⟩
    · rw [hResult]
      exact Or.inl ⟨hPp, hFile⟩
    · rw [hResult, hWrite]
      exact Or.inl ⟨hPp, hFile⟩
    · rw [hResult]
      exact Or.inl ⟨hPp, rfl⟩
    · obtain ⟨next, hResult, hNext, -⟩ := accepted_opens cfg hPp hPath hAccepted hOpen
      rw [hResult]
      exact Or.inr ⟨f, _, hNext⟩
  · obtain ⟨next, hResult, hNext, -⟩ := hOpened.post_data p
    rw [hResult]
    exact Or.inr ⟨f, _, hNext⟩

theorem Tidy.post_process (h : Tidy cfg c) (posts : List Post) :
    Tidy cfg (post_process cfg posts c) := by
  induction posts generalizing c with
  | nil => exact h
  | cons p rest ih =>
      have hNext := h.post_data p
      unfold RkFlashd.post_process
      split
      · rename_i next hResult
        rw [hResult] at hNext
        exact ih hNext
      · rename_i next hResult
        rwa [hResult] at hNext

theorem Tidy.pp (h : Tidy cfg c) : c.state.pp = true := by
  rcases h with ⟨hPp, -⟩ | ⟨f, bytes, hOpened⟩
  · exact hPp
  · exact hOpened.pp

theorem Tidy.received (h : Tidy cfg c) : Tidy cfg (received c) := by
  rcases h with ⟨hPp, hFile⟩ | ⟨f, bytes, hOpened⟩
  · exact Or.inl ⟨hPp, hFile⟩
  · exact Or.inr ⟨f, bytes, hOpened.pp, hOpened.filename, hOpened.valid, hOpened.path, hOpened.file⟩

theorem Tidy.feed (h : Tidy cfg c) (chunks : List (List Post)) : Tidy cfg (feed cfg chunks c) := by
  induction chunks generalizing c with
  | nil => exact h
  | cons posts rest ih =>
      rw [feed_cons posts rest h.pp]
      exact ih (h.received.post_process posts)

/-- **What a failed upload leaves.** A request that had a file open cleans up after itself
only if it does not fail: it must come to its end, and the rename must succeed. -/
theorem failed_upload_cleaned_iff (chunks : List (List Post)) (fs : FileSystem)
    (ending : RequestEnd) {file : Nat}
    (hOpen : (feed cfg chunks (upload_request fs)).state.upload_file = some file) :
    CleansUp cfg (feed cfg chunks (upload_request fs)) file ending ↔
      ∃ io, ending = .completed io ∧ io.rename = true := by
  have hTidy : Tidy cfg (feed cfg chunks (upload_request fs)) :=
    Tidy.feed (Or.inl ⟨rfl, rfl⟩) chunks
  generalize feed cfg chunks (upload_request fs) = c at hTidy hOpen
  obtain ⟨f, bytes, hOpened⟩ : ∃ f bytes, Opened cfg f bytes c := by
    rcases hTidy with ⟨-, hNone⟩ | hOpened
    · rw [hOpen] at hNone
      cases hNone
    · exact hOpened
  cases ending with
  | disconnected io =>
      obtain ⟨opened, hFile, hWriting⟩ := hOpened.file
      obtain rfl : opened = file := by simpa [hFile] using hOpen
      constructor
      · intro hCleans
        exact absurd hWriting.is_open (hCleans (by simp [conclude])).1
      · rintro ⟨io, hEnd, -⟩
        cases hEnd
  | completed io =>
      have hEnd : conclude cfg c (.completed io) =
          ((save_upload cfg io file c).1.fs, some (save_upload cfg io file c).2) := by
        simp only [conclude, handleUpload_some io hOpened.pp hOpen]
        rfl
      rcases hOpened.save io hOpen with
        ⟨hRename, next, hSave, -⟩ | ⟨hFails, next, json, hSave, -, hRead⟩
      · refine iff_of_true (fun hFailed => ?_) ⟨io, rfl, hRename⟩
        rw [hEnd, hSave] at hFailed
        exact absurd rfl (hFailed _ rfl)
      · constructor
        · intro hCleans
          have hGone := (hCleans (by
            rw [hEnd, hSave]
            rintro _ ⟨⟩
            simp)).2
          rw [hEnd, hSave, hRead] at hGone
          cases hGone
        · rintro ⟨other, hSame, hRename⟩
          cases hSame
          rw [hFails] at hRename
          cases hRename

/-- The destructor, were it called, would close the stream, but it takes an upload for incomplete
only while its counter is zero: a file that has got a byte would stay. -/
theorem Opened.destroy {f bytes : Bytes} {file : Nat} {io : Io} (hOpened : Opened cfg f bytes c)
    (hOpen : c.state.upload_file = some file) (hUnlink : io.unlink = true) :
    ¬ (destroy io c).is_open file ∧
      ((destroy io c).read (c_str c.state.upload_tmp_path) = none ↔ c.state.upload_size = 0) := by
  obtain ⟨opened, hFile, hWriting⟩ := hOpened.file
  obtain rfl : opened = file := by simpa [hFile] using hOpen
  obtain ⟨now, hPath⟩ := hOpened.path
  have hNamed : c.state.upload_tmp_path ≠ [] := by
    rw [hPath]
    exact cfg.in_upload_dir_ne_nil _
  obtain ⟨closed, hClose, hShut, hRead⟩ := hWriting.fclose io.fclose
  simp only [RkFlashd.destroy, hOpen, hClose, hUnlink]
  by_cases hEmpty : c.state.upload_size = 0
  · obtain ⟨next, hUnlinked, -, -, hStream⟩ :=
      Storage.FileSystem.unlink_eq closed (c_str c.state.upload_tmp_path)
    have hGone := Storage.FileSystem.unlink_read closed (c_str c.state.upload_tmp_path)
    rw [hUnlinked] at hGone
    rw [if_pos ⟨hEmpty, hNamed⟩, hUnlinked]
    refine ⟨?_, iff_of_true hGone hEmpty⟩
    rwa [Storage.FileSystem.is_open, hStream]
  · rw [if_neg fun h => hEmpty h.1]
    exact ⟨hShut, iff_of_false (by simp [hRead]) hEmpty⟩

end Files

/-- A client that goes away after the first piece of its file. -/
theorem abandoned_upload_remains : ∃ file,
    (feed {} (one_chunk [firmware_part (str "a.bin") (str "x")])
      (upload_request Storage.FileSystem.empty)).state.upload_file = some file ∧
    ¬ CleansUp {} (feed {} (one_chunk [firmware_part (str "a.bin") (str "x")])
      (upload_request Storage.FileSystem.empty)) file (.disconnected {}) := by
  refine ⟨0, by rfl, fun hCleans => ?_⟩
  have hGone := (hCleans (by simp [conclude])).2
  revert hGone
  decide +kernel

/-- The same upload when the client stays to its end. -/
theorem failed_upload_cleaned_iff_single :
    CleansUp {} (feed {} (one_chunk [firmware_part (str "a.bin") (str "x")])
      (upload_request Storage.FileSystem.empty)) 0 (.completed {}) :=
  (failed_upload_cleaned_iff _ _ _ (by rfl)).mpr ⟨{}, rfl, rfl⟩

end RkFlashd
