import RkFlashd.Process

/-! Every answer of the processor begins with its status, so that none is empty and a client
can tell a result from an error, and both from a flash that still runs. -/
namespace RkFlashd

open Text Transition

/-- The first words of the answers. -/
def statuses : List Bytes := [str "OK", str "ERROR", str "RUNNING: ", str "TIMEOUT: "]

def reports (answer : Bytes) : Bool := statuses.any fun status => starts_with answer status

theorem reports_ne_nil {answer : Bytes} (h : reports answer = true) : answer ≠ [] := by
  rintro rfl
  revert h
  decide

theorem reports_of_error {answer : Bytes} (h : starts_with answer (str "ERROR") = true) :
    reports answer = true :=
  List.any_eq_true.mpr ⟨str "ERROR", by decide, h⟩

theorem FlashAnswer.text_reports (answer : FlashAnswer) : reports answer.text = true := by
  cases answer <;> rfl

section Handlers

theorem dispatch_error_reports {line message : Bytes} (h : dispatch line = .error message) :
    reports message = true := by
  unfold dispatch at h
  dsimp only at h
  split at h
  · cases h
    rfl
  · split at h
    · cases h
      rfl
    · split at h
      · cases h
        rfl
      · cases h

theorem handle_reset_reports (caller owner : Owner) :
    reports (handle_reset caller owner).2 = true := by
  unfold handle_reset
  split <;> rfl

theorem handle_exec_reports (build : Build) (popen : Option ShellRun) (arg : Bytes) :
    reports (handle_exec build popen arg) = true := by
  unfold handle_exec
  split
  · rfl
  · split
    · rfl
    · split
      · rfl
      · split <;> rfl

theorem handle_reboot_reports (build : Build) (reboot shutdown : Int) :
    reports (handle_reboot build reboot shutdown) = true := by
  unfold handle_reboot
  split
  · rfl
  · split
    · rfl
    · split <;> rfl

/-- The answer of `AT+VERIFY` says whether the file was read. -/
theorem handle_verify_reports (cfg : Config) (reads : Reads) (arg : Bytes) (fs : FileSystem) :
    reports (handle_verify cfg reads arg fs) = true := by
  unfold handle_verify
  split
  · rfl
  · split
    · rfl
    · dsimp only
      split <;> rfl

theorem handle_preupload_reports (cfg : Config) (io : Io) (arg : Bytes) (w : Host) :
    reports (handle_preupload cfg io arg w).2 = true := by
  rcases handle_preupload_cases cfg io arg w with ⟨answer, hEq, hError⟩ | ⟨_, _, _, -, -, -, hEq⟩
  · rw [hEq]
    exact reports_of_error hError
  · rw [hEq]
    rfl

theorem handle_upload_frame_reports (io : Io) (arg : Bytes) (w : Host) :
    reports (handle_upload_frame io arg w).2 = true := by
  rcases handle_upload_frame_cases io arg w with
    ⟨_, answer, hEq, hError⟩ | ⟨_, _, _, _, -, -, -, hEq⟩ | ⟨_, _, _, -, -, hEq⟩
  · rw [hEq]
    exact reports_of_error hError
  · rw [hEq]
    rfl
  · rw [hEq]
    rfl

theorem handle_uploaddone_reports (cfg : Config) (io : Io) (w : Host) :
    reports (handle_uploaddone cfg io w).2 = true := by
  unfold handle_uploaddone
  split
  · unfold finish_upload
    dsimp only
    split
    · rfl
    · split
      · rfl
      · split <;> rfl
  · rfl

theorem handle_uploadcancel_reports (io : Io) (w : Host) :
    reports (handle_uploadcancel io w).2 = true := by
  unfold handle_uploadcancel
  split <;> rfl

end Handlers

variable {cfg : Config} {build : Build} {d d' : Daemon} {call : Call} {answer : Bytes}

theorem flash_command_reports {actions : List FlashAction}
    (h : d.flash_command cfg actions = some (d', answer)) : reports answer = true := by
  obtain ⟨⟨flash, result⟩, -, hEq⟩ := Option.map_eq_some_iff.mp h
  cases hEq
  exact result.text_reports

/-- Every command that is answered reports its status. -/
theorem process_reports (h : process cfg build d call = some (d', answer)) :
    reports answer = true := by
  cases hDispatch : dispatch call.line with
  | error message =>
      simp only [process, hDispatch] at h
      cases h
      exact dispatch_error_reports hDispatch
  | ok command =>
      rw [process_ok hDispatch] at h
      cases command with
      | FLASH arg | TRYFLASHDONE => exact flash_command_reports h
      | STATUS | VERSION | FORCERESET | HELP =>
          cases h
          rfl
      | RESET =>
          cases h
          exact handle_reset_reports _ _
      | EXEC arg =>
          cases h
          exact handle_exec_reports build _ arg
      | REBOOT =>
          cases h
          exact handle_reboot_reports _ _ _
      | VERIFY arg =>
          cases h
          exact handle_verify_reports cfg _ _ _
      | PREUPLOAD arg =>
          cases h
          exact handle_preupload_reports cfg _ arg _
      | UPLOAD arg =>
          cases h
          exact handle_upload_frame_reports _ arg _
      | UPLOADDONE =>
          cases h
          exact handle_uploaddone_reports cfg _ _
      | UPLOADCANCEL =>
          cases h
          exact handle_uploadcancel_reports _ _

end RkFlashd
