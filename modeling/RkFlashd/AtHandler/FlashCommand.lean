import RkFlashd.AtHandler.FlashReports
import RkFlashd.Text.Shell

/-! The line that an accepted `AT+FLASH` has `popen` run. It is read by a shell, which the
name of the file has never been checked for. -/
namespace RkFlashd

open Text Transition

variable {cfg : Config} {s t : FlashSystem} {action : FlashAction} {event : Option FlashEvent}
  {trace : List FlashLabel} {clock : Nat} {arg script filename cmd : Bytes}

/-- `scripts_dir` holds no character that is special to the shell. -/
def Config.PlainScripts (cfg : Config) : Prop := Shell.plain cfg.scripts_dir.val = true

/-- The C string that `popen` is given is one simple command, the script and the file. -/
def RunsScript (cfg : Config) (script filename cmd : Bytes) : Prop :=
  Shell.fields (c_str cmd) = some [cfg.scripts_dir.val ++ str "/" ++ script, filename]

theorem parse_flash_ok (h : parse_flash arg = .ok (script, filename)) :
    filename ≠ [] ∧ script ∈ FLASH_SCRIPTS.map Prod.snd := by
  unfold parse_flash at h
  split at h
  · cases h
  · split at h
    split at h
    · cases h
    · split at h <;> cases h
      rename_i hLookup _ hNonempty
      obtain ⟨before, after, hScripts, -⟩ := List.lookup_eq_some_iff.mp hLookup
      refine ⟨hNonempty, ?_⟩
      rw [hScripts, List.map_append, List.map_cons]
      exact List.mem_append_right _ List.mem_cons_self

/-- The names of the scripts are plain. -/
theorem scripts_plain (h : script ∈ FLASH_SCRIPTS.map Prod.snd) :
    Shell.plain (str "/" ++ script) = true ∧ (0 : UInt8) ∉ str "/" ++ script := by
  have hAll : (FLASH_SCRIPTS.map Prod.snd).all (fun script =>
      Shell.plain (str "/" ++ script) && !(str "/" ++ script).contains 0) = true := by
    rfl
  simpa using List.all_eq_true.mp hAll script h

/-- The script is run, and nothing else, exactly when the name stands for itself. -/
theorem runs_script_iff (hDir : cfg.PlainScripts)
    (hParse : parse_flash arg = .ok (script, filename)) :
    RunsScript cfg script filename (flash_cmd cfg script filename) ↔
      (0 : UInt8) ∉ filename ∧ Shell.Bare filename := by
  obtain ⟨hScript, hNul⟩ := scripts_plain (parse_flash_ok hParse).2
  have hPlain : Shell.plain (cfg.scripts_dir.val ++ str "/" ++ script) = true := by
    rw [List.append_assoc, Shell.plain_append, hDir, hScript, Bool.and_self]
  have hSlash : (47 : UInt8) ∈ cfg.scripts_dir.val ++ str "/" ++ script := by
    simp [show str "/" = [47] by decide]
  have hCommand := Shell.bare_of_plain (List.ne_nil_of_mem hSlash) hPlain
  have hName := Shell.is_command_path hSlash (Shell.not_mem_of_plain hPlain (by decide))
  have hLine : c_str (flash_cmd cfg script filename) =
      cfg.scripts_dir.val ++ str "/" ++ script ++ 32 :: c_str filename := by
    have hFree : (0 : UInt8) ∉ cfg.scripts_dir.val ++ str "/" ++ script ++ str " " := by
      rw [List.append_assoc cfg.scripts_dir.val]
      intro hMem
      rcases List.mem_append.mp hMem with hMem | hBlank
      · exact (List.mem_append.mp hMem).elim cfg.scripts_dir.property hNul
      · exact absurd hBlank (by decide)
    rw [flash_cmd, c_str_append hFree]
    simp [show str " " = [32] by decide]
  have hShort : (c_str filename).length ≤ filename.length :=
    (List.takeWhile_prefix _).length_le
  rw [RunsScript, hLine, Shell.fields_pair_iff hCommand hName hShort]
  refine and_congr_left fun _ => ?_
  constructor
  · intro hSame hMem
    rw [← hSame] at hMem
    have hNonzero := List.mem_takeWhile_imp hMem
    simp at hNonzero
  · exact c_str_eq_self

/-- The argument of the last `AT+FLASH`. -/
def last_argument (trace : List FlashLabel) : Option Bytes :=
  trace.foldl (fun found label =>
    match label.1 with
    | .FLASH arg => some arg
    | _ => found) none

/-- The line belongs to the last `AT+FLASH`. -/
def Requested (cfg : Config) (trace : List FlashLabel) (cmd : Bytes) : Prop :=
  ∃ arg script filename, last_argument trace = some arg ∧
    parse_flash arg = .ok (script, filename) ∧ cmd = flash_cmd cfg script filename

/-- The line that the command in progress is about to submit. -/
def FlashSystem.submitting (s : FlashSystem) : Option Bytes :=
  match s.command with
  | .flash_load cmd | .flash_stores cmd => some cmd
  | .flash_assign => some s.op.cmd
  | _ => none

/-- A line that is being submitted stays the one of the argument that came last. -/
theorem requested_step (h : ∀ cmd, s.submitting = some cmd → Requested cfg trace cmd)
    (hStep : FlashStep cfg s action event t) (hCmd : t.submitting = some cmd) :
    Requested cfg (trace ++ [(action, event)]) cmd := by
  have hQuiet : (∀ arg, action ≠ .FLASH arg) →
      last_argument (trace ++ [(action, event)]) = last_argument trace := by
    intro hNot
    rw [last_argument, List.foldl_concat]
    cases action <;> first | rfl | exact absurd rfl (hNot _)
  unfold Requested
  unfold FlashSystem.submitting at h hCmd
  cases hStep with
  | flash_rejected hFree => simp [hFree] at hCmd
  | @flash_arrives arg script filename hFree hParse =>
      refine ⟨arg, script, filename, ?_, hParse, (Option.some.inj hCmd).symm⟩
      rw [last_argument, List.foldl_concat]
  | flash_admitted hAt | flash_stores hAt =>
      rw [hQuiet (by simp)]
      exact h cmd (by rw [hAt]; exact hCmd)
  | poll_arrives | flash_refused | flash_submits | poll_finds_running | poll_finds_idle
  | poll_idle_done | poll_nothing | poll_finds_done | poll_finds_undone | poll_expires
  | poll_running | poll_timeout | poll_result | poll_reports => simp at hCmd
  | _ =>
      rw [hQuiet (by simp)]
      exact h cmd hCmd

/-- Every line that is being submitted comes from the argument that came last. -/
theorem requested_of_run (run : Runs (flash_machine cfg).Step (idle_at clock) trace s) :
    ∀ cmd, s.submitting = some cmd → Requested cfg trace cmd := by
  refine Runs.history (I := fun trace s => ∀ cmd, s.submitting = some cmd →
    Requested cfg trace cmd) (by simp [idle_at, FlashSystem.submitting]) ?_ run
  rintro past u ⟨action, event⟩ v - hBefore hStep cmd hCmd
  exact requested_step hBefore (flash_step_cases hStep).2 hCmd

/-- The line in an `OK submitted` is the one that the command in progress has stored. -/
theorem submitted_line (hCoherent : Coherent s)
    (hStep : FlashStep cfg s action (some (.answer (.submitted cmd))) t) :
    s.submitting = some cmd := by
  unfold FlashSystem.submitting
  generalize hEvent : some (FlashEvent.answer (.submitted cmd)) = event at hStep
  cases hStep with
  | flash_submits hAt =>
      cases hEvent
      rw [hAt]
  | poll_reports hAt =>
      obtain ⟨-, rfl⟩ := hCoherent.reported _ hAt
      have hNot := s.op.result_is_terminal.2
      rw [← hEvent] at hNot
      cases hNot
  | flash_rejected hFree hParse =>
      rcases parse_flash_error hParse with rfl | rfl | ⟨mode, rfl⟩ <;> cases hEvent
  | _ => cases hEvent

/-- **What an accepted `AT+FLASH` has the shell run.** With a plain `scripts_dir`, the line of
every `OK submitted` is the script of the mode and the name of the file, one simple command
of these two words, exactly when the name holds no NUL and is a word as it stands. -/
theorem submitted_line_reads_iff (hDir : cfg.PlainScripts)
    (run : Runs (flash_machine cfg).Step (idle_at clock) trace s) :
    Always (fun past label => ∀ cmd, label.2 = some (.answer (.submitted cmd)) →
      ∃ arg script filename, last_argument past = some arg ∧
        parse_flash arg = .ok (script, filename) ∧
        (RunsScript cfg script filename cmd ↔ (0 : UInt8) ∉ filename ∧ Shell.Bare filename))
      trace := by
  refine run.always ?_
  rintro past u ⟨action, event⟩ v prior hStep cmd rfl
  obtain ⟨hLive, hRule⟩ := flash_step_cases hStep
  have hLine := submitted_line (recorded_of_run prior hLive).coherent hRule
  obtain ⟨arg, script, filename, hLast, hParse, rfl⟩ := requested_of_run prior cmd hLine
  exact ⟨arg, script, filename, hLast, hParse, runs_script_iff hDir hParse⟩

/-- Submit a file of this name. -/
def submit (filename : Bytes) : List FlashAction := [.FLASH filename, .resume, .resume, .resume]

theorem default_scripts_plain : ({} : Config).PlainScripts := by rfl

/-- The line submitted for `a.img` is one that the shell reads as it was meant. -/
theorem submitted_line_reads_image : ∃ trace s,
    (flash_machine {}).exec (idle_at 0) (submit (str "a.img")) = some (s, trace) ∧
    Always (fun past label => ∀ cmd, label.2 = some (.answer (.submitted cmd)) →
      ∃ arg script filename, last_argument past = some arg ∧
        parse_flash arg = .ok (script, filename) ∧
        (RunsScript {} script filename cmd ↔ (0 : UInt8) ∉ filename ∧ Shell.Bare filename))
      trace := by
  obtain ⟨⟨s, trace⟩, hExec⟩ := Option.isSome_iff_exists.mp
    (by rfl : ((flash_machine {}).exec (idle_at 0) (submit (str "a.img"))).isSome = true)
  exact ⟨trace, s, hExec,
    submitted_line_reads_iff default_scripts_plain (Machine.runs_of_exec hExec)⟩

/-- A name with a second command in it is accepted, and the shell runs both. -/
theorem second_command_submitted : ({} : Config).PlainScripts ∧ ∃ trace s,
    Runs (flash_machine {}).Step (idle_at 0) trace s ∧
    trace.getLast? =
      some (.resume, some (.answer (.submitted (str "/sbin/flash_full.sh a;reboot")))) ∧
    parse_flash (str "a;reboot") = .ok (str "flash_full.sh", str "a;reboot") ∧
    Shell.tokens (c_str (str "/sbin/flash_full.sh a;reboot")) =
      some [.word (Shell.unquoted (str "/sbin/flash_full.sh")), .word (Shell.unquoted (str "a")),
        .operator (str ";"), .word (Shell.unquoted (str "reboot"))] ∧
    ¬ RunsScript {} (str "flash_full.sh") (str "a;reboot")
      (str "/sbin/flash_full.sh a;reboot") := by
  obtain ⟨⟨s, trace⟩, hExec, hLast⟩ := Option.map_eq_some_iff.mp
    (by rfl : ((flash_machine {}).exec (idle_at 0) (submit (str "a;reboot"))).map
      (fun result => result.2.getLast?) =
        some (some (.resume, some (.answer (.submitted (str "/sbin/flash_full.sh a;reboot"))))))
  refine ⟨default_scripts_plain, trace, s, Machine.runs_of_exec hExec, hLast, by rfl,
    by rfl, ?_⟩
  have hFields : Shell.fields (c_str (str "/sbin/flash_full.sh a;reboot")) = none := by rfl
  rw [RunsScript, hFields]
  exact Option.some_ne_none _ ∘ Eq.symm

end RkFlashd
