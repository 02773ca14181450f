import RkFlashd.Text.Lines
import RkFlashd.Daemon.AnswerText

/-! Which answers of the processor are one line. The constant texts are, except for those of
`AT+EXEC`, and so are the numbers; the rest is what an answer quotes. -/
namespace RkFlashd

open Text Transition

theorem FlashAnswer.text_one_line_iff (answer : FlashAnswer) :
    OneLine answer.text ↔ ∀ text ∈ answer.quotes, OneLine text := by
  cases answer with
  | unknown_mode mode =>
      have hModes : OneLine ((str ", ").intercalate (FLASH_SCRIPTS.map Prod.fst)) := by decide
      simp only [text, quotes, one_line_append, hModes, and_true, List.mem_singleton, forall_eq]
      exact (and_iff_left (one_line_str (by decide))).trans
        ((and_iff_left (one_line_str (by decide))).trans
          (and_iff_right (one_line_str (by decide))))
  | submitted cmd =>
      simp only [text, quotes, one_line_append, List.mem_singleton, forall_eq]
      exact and_iff_right (one_line_str (by decide))
  | running cmd elapsed =>
      have hSlash : OneLine (str "/") := one_line_str (by decide)
      have hOpen : OneLine (str " (") := one_line_str (by decide)
      simp only [text, quotes, one_line_append, one_line_to_string, hSlash, hOpen, and_true,
        List.mem_singleton, forall_eq]
      exact (and_iff_left (one_line_str (by decide))).trans
        (and_iff_right (one_line_str (by decide)))
  | ok cmd output =>
      have hBlank : OneLine (str " ") := one_line_str (by decide)
      simp only [text, quotes, one_line_append, hBlank, and_true, List.forall_mem_cons,
        List.mem_singleton, forall_eq]
      exact and_congr_left' (and_iff_right (one_line_str (by decide)))
  | failed cmd exit_code output =>
      have hExit : OneLine (str " failed (exit=") := one_line_str (by decide)
      have hClose : OneLine (str ") ") := one_line_str (by decide)
      simp only [text, quotes, one_line_append, one_line_int_to_string, hExit, hClose, and_true,
        List.forall_mem_cons, List.mem_singleton, forall_eq]
      exact and_congr_left' (and_iff_right (one_line_str (by decide)))
  | timeout =>
      have hWaited : OneLine (str "TIMEOUT: flash did not complete within ") :=
        one_line_str (by decide)
      have hUnit : OneLine (str "s") := one_line_str (by decide)
      simp [text, quotes, hWaited, hUnit]
  | requires_file | empty_filename | in_progress | no_pending =>
      exact iff_of_true (one_line_str (by decide)) (by simp [quotes])

/-- A command that is answered has been carried through. -/
theorem completes_of_await {cfg : Config} {s : FlashSystem} {schedule : List FlashAction}
    {result : FlashSystem × FlashAnswer} (h : await_answer cfg s schedule = some result) :
    completes cfg s schedule = true := by
  induction schedule generalizing s with
  | nil => cases h
  | cons action rest ih =>
      unfold await_answer at h
      unfold completes
      split at h
      · cases h
      · rename_i hStep
        rw [hStep]
        exact ih h
      · rename_i hStep
        rw [hStep]
        split at h
        · simpa using ‹rest = []›
        · cases h
      · cases h

section Line

variable {line arg action answer : Bytes} {command : AtCommand}

theorem parse_at_one_line (h : OneLine line) (hParse : parse_at line = some (action, arg)) :
    OneLine action ∧ OneLine arg := by
  obtain ⟨head, name, rfl, ⟨rfl, rfl⟩ | rfl⟩ := parse_at_split hParse
  · exact ⟨one_line_map_toupper (h.of_subset (by simp)), by decide⟩
  · exact ⟨one_line_map_toupper (h.of_subset fun c hc => by simp [hc]),
      h.of_subset fun c hc => by simp [hc]⟩

/-- What a line is rejected with, and the argument of a command, are one line with the line. -/
theorem dispatch_one_line (h : OneLine line) :
    (∀ answer, dispatch line = .error answer → OneLine answer) ∧
      ∀ command, dispatch line = .ok command → OneLine command.argument := by
  have hTrim : OneLine (trim line) := h.of_subset (List.rdropWhile_prefix _ _).subset
  rcases dispatch_cases line with
    hEq | hEq | ⟨action, arg, hParse, hEq | ⟨command, hEq, hArgument⟩⟩ <;> rw [hEq]
  · refine ⟨?_, by simp⟩
    rintro answer ⟨⟩
    exact one_line_str (by decide)
  · refine ⟨?_, by simp⟩
    rintro answer ⟨⟩
    exact one_line_str (by decide)
  · obtain ⟨hAction, -⟩ := parse_at_one_line hTrim hParse
    refine ⟨?_, by simp⟩
    rintro answer ⟨⟩
    simp +decide [hAction]
  · obtain ⟨-, hArg⟩ := parse_at_one_line hTrim hParse
    have hCommand : OneLine command.argument := by
      rcases hArgument with hSame | hNil
      · rwa [hSame]
      · rw [hNil]
        decide
    simpa using hCommand

end Line

section Handlers

variable {cfg : Config} {build : Build} {w : Host} {arg : Bytes}

theorem handle_status_one_line_iff (cfg : Config) (uptime : Nat) (is_open : Bool) (owner : Owner) :
    OneLine (handle_status cfg uptime is_open owner) ↔
      (cfg.use_serial = true → OneLine cfg.serial_device.val) := by
  have hOpen : OneLine (if is_open then str "open" else str "closed") := by
    split <;> decide
  have hBusy : OneLine (if is_busy owner then str "yes" else str "no") := by
    split <;> decide
  have hDevice : OneLine (if cfg.use_serial then cfg.serial_device.val else str "none") ↔
      (cfg.use_serial = true → OneLine cfg.serial_device.val) := by
    split
    · simp [*]
    · exact iff_of_true (by decide) fun hUse => absurd hUse ‹_›
  unfold handle_status
  simp +decide only [one_line_append, one_line_to_string, hOpen, hBusy, hDevice, and_true, true_and]

theorem handle_version_one_line_iff (build : Build) :
    OneLine (handle_version build) ↔
      OneLine build.version ∧ OneLine build.arch ∧ OneLine build.date ∧ OneLine build.time := by
  simp +decide [handle_version]

theorem handle_reset_one_line (caller owner : Owner) : OneLine (handle_reset caller owner).2 := by
  unfold handle_reset
  split
  · exact one_line_str (by decide)
  · exact one_line_str (by decide)

theorem handle_help_one_line : OneLine handle_help := by
  simp only [handle_help, one_line_append]
  repeat' apply And.intro
  all_goals exact one_line_str (by decide)

theorem handle_reboot_one_line (build : Build) (reboot shutdown : Int) :
    OneLine (handle_reboot build reboot shutdown) := by
  unfold handle_reboot
  split
  · exact one_line_str (by decide)
  · split
    · exact one_line_str (by decide)
    · split
      · exact one_line_str (by decide)
      · have hCode : OneLine (str "ERROR: reboot failed (exit code ") := one_line_str (by decide)
        have hClose : OneLine (str ")") := one_line_str (by decide)
        simp [hCode, hClose]

/-- A command that is executed puts its output on a line of its own. -/
theorem handle_exec_one_line_iff (build : Build) (popen : Option ShellRun) (arg : Bytes) :
    OneLine (handle_exec build popen arg) ↔
      (build.allow_rce = true → arg ≠ [] → popen = none) := by
  unfold handle_exec
  split
  · rename_i hDisabled
    exact iff_of_true (one_line_str (by decide)) fun hRce => absurd hRce hDisabled
  · rename_i hEnabled
    have hRce : build.allow_rce = true := Decidable.not_not.mp hEnabled
    split
    · rename_i hNil
      exact iff_of_true (one_line_str (by decide)) fun _ hArg => absurd hNil hArg
    · rename_i hArg
      split
      · exact iff_of_true (one_line_str (by decide)) fun _ _ => rfl
      · have hNewline : ∀ before after : Bytes, ¬ OneLine (before ++ str "\n" ++ after) := by
          intro before after
          have hMem : (10 : UInt8) ∈ str "\n" := by decide
          simp [OneLine, hMem]
        refine iff_of_false ?_ fun hNone => by simpa using hNone hRce hArg
        split
        · exact hNewline (str "OK") _
        · exact hNewline _ _

theorem handle_verify_one_line (cfg : Config) (reads : Reads) (h : OneLine arg) (fs : FileSystem) :
    OneLine (handle_verify cfg reads arg fs) := by
  unfold handle_verify
  split
  · exact one_line_str (by decide)
  · split
    · exact one_line_str (by decide)
    · dsimp only
      split
      · simp +decide [one_line_xdigits (Checksum.MD5.hex_isxdigit _)]
      · simp +decide [h]

theorem parse_preupload_one_line {message : Bytes} (h : parse_preupload arg = .error message) :
    OneLine message := by
  unfold parse_preupload at h
  split at h
  · cases h
    exact one_line_str (by decide)
  · split at h
    · cases h
      exact one_line_str (by decide)
    · simp only at h
      split_ifs at h <;> cases h <;> exact one_line_str (by decide)

theorem handle_preupload_one_line (cfg : Config) (io : Io) (arg : Bytes) (w : Host) :
    OneLine (handle_preupload cfg io arg w).2 := by
  unfold handle_preupload
  split
  · exact one_line_str (by decide)
  · split
    · exact one_line_str (by decide)
    · split
      · exact parse_preupload_one_line ‹_›
      · dsimp only
        split
        · exact one_line_str (by decide)
        · exact one_line_str (by decide)

theorem parse_frame_one_line {message : Bytes} (h : parse_frame arg = .error message) :
    OneLine message := by
  unfold parse_frame at h
  split at h
  · cases h
    exact one_line_str (by decide)
  · split at h
    · cases h
      exact one_line_str (by decide)
    · simp only at h
      split_ifs at h <;> cases h
      all_goals first
        | exact one_line_str (by decide)
        | simp +decide

theorem handle_upload_frame_one_line (io : Io) (arg : Bytes) (w : Host) :
    OneLine (handle_upload_frame io arg w).2 := by
  unfold handle_upload_frame
  split
  · rename_i u answer hCheck
    unfold check_frame at hCheck
    split at hCheck
    · cases hCheck
      exact one_line_str (by decide)
    · split at hCheck
      · split at hCheck
        · cases hCheck
          exact parse_frame_one_line ‹_›
        · rename_i frame hFrame
          have hHex : OneLine frame.crc16_hex := one_line_xdigits (parse_frame_digits hFrame)
          simp only at hCheck
          split at hCheck
          · cases hCheck
            simp +decide [hHex]
          · cases hCheck
      · cases hCheck
        exact one_line_str (by decide)
  · dsimp only
    split <;> simp +decide

/-- The end of an upload quotes the name when it is stored, and the digest when that is wrong. -/
theorem handle_uploaddone_one_line_iff (cfg : Config) (io : Io) (w : Host) :
    OneLine (handle_uploaddone cfg io w).2 ↔
      (w.upload.active = true → w.upload.file.isSome = true →
        w.upload.received = w.upload.expected_size →
        (w.upload.md5_ctx.hex.2 = w.upload.expected_md5 → save_succeeds cfg io w = true →
          OneLine w.upload.filename) ∧
        (w.upload.md5_ctx.hex.2 ≠ w.upload.expected_md5 → OneLine w.upload.expected_md5)) := by
  have hNone : OneLine (str "ERROR: no active upload") := one_line_str (by decide)
  have hSave : OneLine (str "ERROR: failed to save firmware file") := one_line_str (by decide)
  have hOk : OneLine (str "OK ") := one_line_str (by decide)
  have hBlank : OneLine (str " ") := one_line_str (by decide)
  have hGot : OneLine (str " got=") := one_line_str (by decide)
  cases hFile : w.upload.file with
  | none => simp [handle_uploaddone, hFile, hNone]
  | some file =>
      by_cases hActive : w.upload.active = true
      · have hClose : close_file io w = ⟨{ w.upload with file := none },
            (w.fs.fclose file io.fclose).2⟩ := by simp [close_file, hFile]
        have hHex : OneLine w.upload.md5_ctx.hex.2 :=
          one_line_xdigits (Checksum.MD5.hex_isxdigit _)
        rw [uploaddone_halves cfg io hActive (by simp [hFile]), save_succeeds, hClose]
        simp only [hActive, Option.isSome_some, forall_const]
        unfold finish_upload
        dsimp only
        split
        · rename_i hSize
          have hExpected : OneLine (str "ERROR size mismatch expected=") := one_line_str (by decide)
          simp [hSize, hExpected, hGot]
        · rename_i hSize
          have hSize : w.upload.received = w.upload.expected_size := Decidable.not_not.mp hSize
          split
          · rename_i hDigest
            have hExpected : OneLine (str "ERROR MD5 mismatch expected=") :=
              one_line_str (by decide)
            simp [hSize, hDigest, hHex, hExpected, hGot]
          · rename_i hDigest
            have hDigest : w.upload.md5_ctx.hex.2 = w.upload.expected_md5 :=
              Decidable.not_not.mp hDigest
            split
            · rename_i fs hRename
              simp [hDigest, hRename, hSave]
            · rename_i fs hRename
              simp [hSize, hDigest, hRename, hDigest ▸ hHex, hOk, hBlank]
      · simp [handle_uploaddone, hActive, hNone]

theorem handle_uploadcancel_one_line (io : Io) (w : Host) :
    OneLine (handle_uploadcancel io w).2 := by
  unfold handle_uploadcancel
  split
  · exact one_line_str (by decide)
  · exact one_line_str (by decide)

end Handlers

/-- What the answer to a command quotes from outside the command line holds no newline, and
the command is no `AT+EXEC` that is executed. -/
def Unbroken (cfg : Config) (build : Build) (d : Daemon) (around : Circumstances) :
    AtCommand → Prop
  | .STATUS => cfg.use_serial = true → OneLine cfg.serial_device.val
  | .VERSION =>
      OneLine build.version ∧ OneLine build.arch ∧ OneLine build.date ∧ OneLine build.time
  | .FLASH arg => Submits cfg d.flash arg around.flash → OneLine cfg.scripts_dir.val
  | .TRYFLASHDONE =>
      ∀ text ∈ poll_reads cfg { d.flash with command := .poll_load_running } around.flash,
        OneLine text
  | .EXEC arg => build.allow_rce = true → arg ≠ [] → around.popen = none
  | .UPLOADDONE =>
      d.host.upload.active = true → d.host.upload.file.isSome = true →
        d.host.upload.received = d.host.upload.expected_size →
        (d.host.upload.md5_ctx.hex.2 = d.host.upload.expected_md5 →
          save_succeeds cfg around.io d.host = true → OneLine d.host.upload.filename) ∧
        (d.host.upload.md5_ctx.hex.2 ≠ d.host.upload.expected_md5 →
          OneLine d.host.upload.expected_md5)
  | _ => True

section Execution

variable {cfg : Config} {build : Build} {d d' : Daemon} {call : Call} {command : AtCommand}
  {arg answer : Bytes}

/-- The parts of the argument of an `AT+FLASH` are one line with it. -/
theorem parse_flash_one_line (h : OneLine arg) :
    (∀ answer, parse_flash arg = .error answer → OneLine answer.text) ∧
      ∀ script filename, parse_flash arg = .ok (script, filename) →
        OneLine script ∧ OneLine filename := by
  have hScripts : ∀ pair ∈ FLASH_SCRIPTS, OneLine pair.2 := by
    simp only [FLASH_SCRIPTS, List.forall_mem_cons]
    exact ⟨one_line_str (by decide), one_line_str (by decide), one_line_str (by decide),
      by simp⟩
  rcases parse_flash_cases arg with hEq | hEq | ⟨filename, mode, hSplit, hEq⟩
  · simp [hEq, FlashAnswer.text_one_line_iff, FlashAnswer.quotes]
  · simp [hEq, FlashAnswer.text_one_line_iff, FlashAnswer.quotes]
  · have hParts : OneLine filename ∧ OneLine mode := by
      rcases hSplit with ⟨rfl, rfl⟩ | rfl
      · exact ⟨h, one_line_str (by decide)⟩
      · exact ⟨h.of_subset (by simp), h.of_subset (by simp)⟩
    rcases hEq with hEq | ⟨pair, hPair, hEq⟩
    · simp [hEq, FlashAnswer.text_one_line_iff, FlashAnswer.quotes, hParts.2]
    · simpa [hEq] using ⟨hScripts pair hPair, hParts.1⟩

theorem flash_cmd_one_line_iff {script filename : Bytes} (hScript : OneLine script)
    (hFilename : OneLine filename) :
    OneLine (flash_cmd cfg script filename) ↔ OneLine cfg.scripts_dir.val := by
  have hSlash : OneLine (str "/") := by decide
  have hBlank : OneLine (str " ") := by decide
  simp [flash_cmd, hSlash, hBlank, hScript, hFilename]

/-- The answer to a submission is one line exactly if what it quotes is. -/
theorem flash_one_line_iff (hArg : OneLine arg)
    (h : execute cfg build d call (.FLASH arg) = some (d', answer)) :
    OneLine answer ↔ Unbroken cfg build d call.around (.FLASH arg) := by
  obtain ⟨hRejected, hAccepted⟩ := parse_flash_one_line hArg
  obtain ⟨result, hAwait, -⟩ := Option.map_eq_some_iff.mp
    (show (await_answer cfg d.flash (.FLASH arg :: call.around.flash)).map
      (fun result => ({ d with flash := result.1 }, result.2.text)) = some (d', answer) from h)
  have hOutcome : FlashOutcome cfg d arg call.around.flash
      (execute cfg build d call (.FLASH arg)) := flash_outcome (completes_of_await hAwait)
  rw [h] at hOutcome
  generalize hResult : some (d', answer) = outcome at hOutcome
  cases hOutcome with
  | rejected hParse hIdle =>
      cases hResult
      exact iff_of_true (hRejected _ hParse) fun hStarts => absurd hStarts hIdle
  | in_progress hIdle =>
      cases hResult
      exact iff_of_true (one_line_str (by decide)) fun hStarts => absurd hStarts hIdle
  | submitted hParse hStarts hFree =>
      cases hResult
      obtain ⟨hScript, hFilename⟩ := hAccepted _ _ hParse
      rw [FlashAnswer.text_one_line_iff]
      simp only [FlashAnswer.quotes, List.mem_singleton, forall_eq]
      rw [flash_cmd_one_line_iff hScript hFilename]
      exact ⟨fun hDir _ => hDir, fun hUnbroken => hUnbroken hStarts⟩
  | ends => cases hResult

/-- The answer to a poll is one line exactly if what it quotes is. -/
theorem poll_one_line_iff (h : execute cfg build d call .TRYFLASHDONE = some (d', answer)) :
    OneLine answer ↔ Unbroken cfg build d call.around .TRYFLASHDONE := by
  obtain ⟨⟨flash, result⟩, hAwait, hEq⟩ := Option.map_eq_some_iff.mp
    (show (await_answer cfg d.flash (.TRYFLASHDONE :: call.around.flash)).map
      (fun result => ({ d with flash := result.1 }, result.2.text)) = some (d', answer) from h)
  cases hEq
  obtain ⟨hPolls, hSame⟩ := completes_poll (completes_of_await hAwait)
  obtain ⟨t, found, hAnswer, hQuotes⟩ := polled rfl hPolls
  rw [hSame, hAnswer] at hAwait
  cases hAwait
  rw [result.text_one_line_iff, hQuotes, List.nil_append]
  rfl

/-- The answer to a command is one line if and only if the command quotes no newline. -/
theorem execute_one_line_iff (hArgument : OneLine command.argument)
    (h : execute cfg build d call command = some (d', answer)) :
    OneLine answer ↔ Unbroken cfg build d call.around command := by
  cases command with
  | FLASH arg => exact flash_one_line_iff hArgument h
  | TRYFLASHDONE => exact poll_one_line_iff h
  | STATUS =>
      cases h
      exact handle_status_one_line_iff cfg _ _ _
  | VERSION =>
      cases h
      exact handle_version_one_line_iff build
  | RESET =>
      cases h
      exact iff_true_intro (handle_reset_one_line _ _)
  | FORCERESET =>
      cases h
      exact iff_true_intro (one_line_str (by decide))
  | HELP =>
      cases h
      exact iff_true_intro handle_help_one_line
  | EXEC arg =>
      cases h
      exact handle_exec_one_line_iff build _ arg
  | REBOOT =>
      cases h
      exact iff_true_intro (handle_reboot_one_line _ _ _)
  | VERIFY arg =>
      cases h
      exact iff_true_intro (handle_verify_one_line cfg _ hArgument _)
  | PREUPLOAD arg =>
      cases h
      exact iff_true_intro (handle_preupload_one_line cfg _ arg _)
  | UPLOAD arg =>
      cases h
      exact iff_true_intro (handle_upload_frame_one_line _ arg _)
  | UPLOADDONE =>
      cases h
      exact handle_uploaddone_one_line_iff cfg _ _
  | UPLOADCANCEL =>
      cases h
      exact iff_true_intro (handle_uploadcancel_one_line _ _)

/-- The same for a whole line: one that is rejected is quoted, and holds no newline. -/
theorem process_one_line_iff (hLine : OneLine call.line)
    (h : process cfg build d call = some (d', answer)) :
    OneLine answer ↔
      ∀ command, dispatch call.line = .ok command → Unbroken cfg build d call.around command := by
  obtain ⟨hRejected, hArgument⟩ := dispatch_one_line hLine
  cases hDispatch : dispatch call.line with
  | error message =>
      simp only [process, hDispatch] at h
      cases h
      exact iff_of_true (hRejected _ hDispatch) (by simp)
  | ok command =>
      rw [process_ok hDispatch] at h
      simp only [Except.ok.injEq, forall_eq']
      exact execute_one_line_iff (hArgument command hDispatch) h

end Execution

end RkFlashd
