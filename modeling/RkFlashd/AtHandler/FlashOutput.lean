import RkFlashd.AtHandler.FlashRuns
import RkFlashd.AtHandler.System
import RkFlashd.Text.Fgets

/-! What a client gets to see of the output of a script or of a command: the bytes between
`popen` and `pclose`, through a buffer of 256 bytes and a C string. -/
namespace RkFlashd

open Text Transition

variable {cfg : Config} {s t : FlashSystem} {action : FlashAction} {event : Option FlashEvent}
  {trace : List FlashLabel} {clock : Nat} {stdout : Bytes}

/-- The size of `buf`. -/
def buf_size : Nat := 256

/-- What the loop of `fgets` makes of an output. -/
def collect (lines : List Bytes) : Bytes := trim_newlines (lines.flatMap c_str)

theorem mem_trim_newlines {c : UInt8} {output : Bytes} (hMem : c ∈ output) (hFirst : c ≠ 10)
    (hSecond : c ≠ 13) : c ∈ trim_newlines output := by
  unfold trim_newlines
  induction output using List.reverseRecOn with
  | nil => cases hMem
  | append_singleton output d ih =>
      by_cases hLast : d = 10 ∨ d = 13
      · rw [List.rdropWhile_concat_pos _ _ _ (by simpa using hLast)]
        refine ih ((List.mem_append.mp hMem).resolve_right ?_)
        rw [List.mem_singleton]
        rintro rfl
        rcases hLast with h | h
        · exact hFirst h
        · exact hSecond h
      · rwa [List.rdropWhile_concat_neg _ _ _ (by simpa using hLast)]

theorem trim_newlines_subset (output : Bytes) : trim_newlines output ⊆ output :=
  (List.rdropWhile_prefix _ output).subset

/-- The output of a process comes out as it went in, but for the newlines at its end, if and
only if there is no NUL in it. -/
theorem collect_fgets_iff (stdout : Bytes) :
    collect (fgets_lines buf_size stdout) = trim_newlines stdout ↔ (0 : UInt8) ∉ stdout := by
  have hSize : 2 ≤ buf_size := by decide
  constructor
  · intro h hNul
    have hKept := mem_trim_newlines hNul (by decide) (by decide)
    rw [← h] at hKept
    exact flatMap_c_str_no_nul _ (trim_newlines_subset _ hKept)
  · intro h
    rw [collect, (flatMap_c_str_fgets_iff hSize stdout).mpr h]

/-- The loop of the worker gets through any output. -/
theorem worker_reads {lines : List Bytes} (hLive : s.terminated = false) (hAt : s.worker = .reading)
    (hFits : ∀ line ∈ lines, 0 < line.length ∧ line.length < buf_size) :
    ∃ t trace, (flash_machine cfg).exec s (lines.map .fgets ++ [.eof]) = some (t, trace) ∧
      t.op.output = trim_newlines (s.op.output ++ lines.flatMap c_str) := by
  induction lines generalizing s with
  | nil =>
      have hEof : flash_machine cfg s .eof = some ({ s with
          op := { s.op with output := trim_newlines s.op.output }, worker := .closing }, none) := by
        simp [flash_machine, flash_step, hLive, hAt]
      exact ⟨_, _, Machine.exec_cons hEof rfl, by simp⟩
  | cons line rest ih =>
      have hFirst : 0 < line.length ∧ line.length < 256 := hFits line (by simp)
      have hLine : flash_machine cfg s (.fgets line) = some ({ s with
          op := { s.op with output := s.op.output ++ c_str line } }, none) := by
        simp [flash_machine, flash_step, hLive, hAt, hFirst]
      obtain ⟨t, trace, hExec, hOutput⟩ := ih
        (s := { s with op := { s.op with output := s.op.output ++ c_str line } }) hLive hAt
        fun other hOther => hFits other (by simp [hOther])
      refine ⟨t, (.fgets line, none) :: trace, Machine.exec_cons hLine hExec, ?_⟩
      rw [hOutput]
      simp

theorem worker_reads_output (hLive : s.terminated = false) (hAt : s.worker = .reading)
    (stdout : Bytes) : ∃ t trace,
    (flash_machine cfg).exec s ((fgets_lines buf_size stdout).map .fgets ++ [.eof]) =
        some (t, trace) ∧
      t.op.output = trim_newlines (s.op.output ++ (fgets_lines buf_size stdout).flatMap c_str) :=
  worker_reads hLive hAt fun _ hLine => fgets_loop_fits (by decide) hLine

/-- The same of a command that the serial line or the HTTP server has had executed. -/
theorem exec_answer_iff {build : Build} {run : ShellRun} {arg : Bytes}
    (hRce : build.allow_rce = true) (hArg : arg ≠ [])
    (hLines : run.lines = fgets_lines buf_size stdout) :
    handle_exec build (some run) arg =
        (if run.exit_code = 0 then str "OK\n"
        else str "ERROR exit=" ++ int_to_string run.exit_code ++ str "\n") ++
          trim_newlines stdout ↔ (0 : UInt8) ∉ stdout := by
  have hOutput : run.output = collect (fgets_lines buf_size stdout) := by
    rw [ShellRun.output, hLines, collect]
  rw [← collect_fgets_iff, ← hOutput]
  unfold handle_exec
  rw [if_neg (by simp [hRce]), if_neg hArg]
  by_cases hCode : run.exit_code = 0
  · simp only [if_pos hCode]
    exact List.append_right_inj _
  · simp only [if_neg hCode]
    exact List.append_right_inj _

/-- The lines that have been read from the script of the last submission. -/
def lines_read (trace : List FlashLabel) : List Bytes :=
  trace.foldl (fun lines label =>
    match label with
    | (.fgets line, _) => lines ++ [line]
    | (_, event) => if FlashEvent.is_submitted event then [] else lines) []

/-- The worker has not started its script. -/
def Worker.is_early : Worker → Bool
  | .begun | .running_set | .time_set => true
  | _ => false

/-- The output of an operation, by how far its worker has read it. -/
def output_of (worker : Worker) (lines : List Bytes) : Bytes :=
  match worker with
  | .begun | .running_set | .time_set => []
  | .reading => lines.flatMap c_str
  | .none | .closing | .coded | .done_set | .finished => collect lines

/-- The static `output` is that of the last submission, unless a new one is being stored over
it; that goes on only when there is nobody left to write to it. -/
structure Gathered (trace : List FlashLabel) (s : FlashSystem) : Prop where
  early : s.worker.is_early = true → lines_read trace = []
  output : s.command ≠ .flash_assign → s.op.output = output_of s.worker (lines_read trace)
  stored : s.command = .flash_assign → s.op.joinable = false → s.op.output = []

theorem lines_read_quiet (hRead : ∀ line, action ≠ .fgets line)
    (hEvent : FlashEvent.is_submitted event = false) :
    lines_read (trace ++ [(action, event)]) = lines_read trace := by
  rw [lines_read, List.foldl_concat]
  cases action with
  | fgets line => exact absurd rfl (hRead line)
  | _ => simp [hEvent, lines_read]

/-- A step of a command that does not store anything. -/
theorem Gathered.move (h : Gathered trace s) {trace' : List FlashLabel}
    (hLines : lines_read trace' = lines_read trace) (hWorker : t.worker = s.worker)
    (hOutput : t.op.output = s.op.output) (hFrom : s.command ≠ .flash_assign)
    (hTo : t.command ≠ .flash_assign) : Gathered trace' t where
  early := by
    rw [hWorker, hLines]
    exact h.early
  output := fun _ => by rw [hOutput, hWorker, hLines, h.output hFrom]
  stored := fun hAt => absurd hAt hTo

/-- A step of the worker, which has a thread to itself. -/
theorem Gathered.work (h : Gathered trace s) (hCoherent : Coherent s)
    (hLive : s.worker.is_live = true) {trace' : List FlashLabel} {op : FlashOp} {worker : Worker}
    {script : Script} (hJoinable : op.joinable = s.op.joinable)
    (hEarly : worker.is_early = true → lines_read trace' = [])
    (hOutput : s.op.output = output_of s.worker (lines_read trace) →
      op.output = output_of worker (lines_read trace')) :
    Gathered trace' { s with op := op, worker := worker, script := script } where
  early := hEarly
  output := fun hAt => hOutput (h.output hAt)
  stored := by
    intro _ hFree
    rw [show _ = op.joinable from rfl, hJoinable, hCoherent.live hLive] at hFree
    cases hFree

/-- A step of the worker or of a command keeps track of the lines read. -/
theorem Gathered.step (h : Gathered trace s) (hCoherent : Coherent s)
    (hStep : FlashStep cfg s action event t) : Gathered (trace ++ [(action, event)]) t := by
  cases hStep with
  | flash_rejected hFree hParse =>
      refine h.move (lines_read_quiet (by simp) ?_) rfl rfl (by simp [hFree]) (by simp [hFree])
      rcases parse_flash_error hParse with rfl | rfl | ⟨mode, rfl⟩ <;> rfl
  | flash_arrives hAt | poll_arrives hAt | flash_refused hAt | flash_admitted hAt
  | poll_finds_running hAt | poll_finds_idle hAt | poll_idle_done hAt | poll_nothing hAt
  | poll_finds_done hAt | poll_finds_undone hAt | poll_expires hAt | poll_running hAt
  | poll_timeout hAt | poll_result hAt =>
      exact h.move (lines_read_quiet (by simp) rfl) rfl rfl (by simp [hAt]) (by simp)
  | poll_reports hAt =>
      obtain ⟨-, rfl⟩ := hCoherent.reported _ hAt
      exact h.move (lines_read_quiet (by simp) s.op.result_is_terminal.2) rfl rfl (by simp [hAt])
        (by simp)
  | flash_stores hAt =>
      have hLines : lines_read (trace ++ [(.resume, none)]) = lines_read trace :=
        lines_read_quiet (by simp) rfl
      exact ⟨by rw [hLines]; exact h.early, fun hNot => absurd rfl hNot, fun _ _ => rfl⟩
  | flash_terminates hAt =>
      have hLines : lines_read (trace ++ [(.resume, some .terminate)]) = lines_read trace :=
        lines_read_quiet (by simp) rfl
      exact ⟨by rw [hLines]; exact h.early, fun hNot => absurd hAt hNot, h.stored⟩
  | flash_submits hAt hJoinable =>
      have hLines :
          lines_read (trace ++ [(.resume, some (.answer (.submitted s.op.cmd)))]) = [] := by
        simp [lines_read, FlashEvent.is_submitted]
      exact ⟨fun _ => hLines, fun _ => h.stored hAt hJoinable, fun hNot => by cases hNot⟩
  | set_running hAt | set_start_time hAt =>
      have hEarly := h.early (by rw [hAt]; rfl)
      refine h.work hCoherent (by rw [hAt]; rfl) rfl (fun _ => ?_) (fun hOutput => ?_)
      · rw [lines_read_quiet (by simp) rfl, hEarly]
      · rw [hAt] at hOutput
        exact hOutput
  | popen hAt | popen_fails hAt =>
      have hEarly := h.early (by rw [hAt]; rfl)
      refine h.work hCoherent (by rw [hAt]; rfl) rfl (fun hNot => by cases hNot)
        (fun hOutput => ?_)
      rw [hAt] at hOutput
      rw [lines_read_quiet (by simp) rfl, hEarly]
      exact hOutput
  | @fgets line hAt =>
      have hLines : lines_read (trace ++ [(.fgets line, none)]) = lines_read trace ++ [line] := by
        simp [lines_read]
      refine h.work hCoherent (by rw [hAt]; rfl) rfl (fun hNot => ?_) (fun hOutput => ?_)
      · rw [hAt] at hNot
        cases hNot
      · rw [hAt] at hOutput ⊢
        simp only [hOutput, hLines, output_of, List.flatMap_append, List.flatMap_singleton]
  | eof hAt =>
      refine h.work hCoherent (by rw [hAt]; rfl) rfl (fun hNot => by cases hNot)
        (fun hOutput => ?_)
      rw [hAt] at hOutput
      rw [lines_read_quiet (by simp) rfl]
      simp only [hOutput, output_of, collect]
  | pclose hAt | set_done hAt | clear_running hAt =>
      refine h.work hCoherent (by rw [hAt]; rfl) rfl (fun hNot => by cases hNot)
        (fun hOutput => ?_)
      rw [hAt] at hOutput
      rw [lines_read_quiet (by simp) rfl]
      exact hOutput
  | @script_ends ending =>
      have hLines : lines_read (trace ++ [(.script_ends ending, none)]) = lines_read trace :=
        lines_read_quiet (by simp) rfl
      exact ⟨by rw [hLines]; exact h.early, by rw [hLines]; exact h.output, h.stored⟩
  | @tick ns =>
      have hLines : lines_read (trace ++ [(.tick ns, none)]) = lines_read trace :=
        lines_read_quiet (by simp) rfl
      exact ⟨by rw [hLines]; exact h.early, by rw [hLines]; exact h.output, h.stored⟩

theorem gathered_initial (clock : Nat) : Gathered [] (idle_at clock) where
  early := fun h => by cases h
  output := fun _ => rfl
  stored := fun h => by cases h

/-- Along every run the output is what has been read of the lines, as far as it is stored. -/
theorem gathered_of_run (run : Runs (flash_machine cfg).Step (idle_at clock) trace s) :
    Gathered trace s := by
  refine Runs.history (I := Gathered) (gathered_initial clock) ?_ run
  rintro past u ⟨action, event⟩ v prior hBefore hStep
  obtain ⟨hLive, hRule⟩ := flash_step_cases hStep
  exact hBefore.step (recorded_of_run prior hLive).coherent hRule

/-- The output in a report of a finished operation. -/
def FlashEvent.output : Option FlashEvent → Option Bytes
  | some (.answer (.ok _ output)) | some (.answer (.failed _ _ output)) => some output
  | _ => none

theorem FlashOp.result_output (op : FlashOp) :
    FlashEvent.output (some (.answer op.result)) = some op.output := by
  unfold FlashOp.result
  split <;> rfl

/-- **The output of a script.** The output in every report is what the worker has read from the
script of the last submission, and it is all that the script has written, but for the newlines
at the end, if and only if the script has written no NUL. -/
theorem reported_output_iff (run : Runs (flash_machine cfg).Step (idle_at clock) trace s) :
    Always (fun past label => ∀ output, FlashEvent.output label.2 = some output →
      output = collect (lines_read past) ∧
      ∀ stdout, lines_read past = fgets_lines buf_size stdout →
        (output = trim_newlines stdout ↔ (0 : UInt8) ∉ stdout)) trace := by
  refine run.always ?_
  rintro past u ⟨action, event⟩ v prior hStep output hOutput
  obtain ⟨hLive, hRule⟩ := flash_step_cases hStep
  have hCoherent := (recorded_of_run prior hLive).coherent
  suffices hCollected : output = collect (lines_read past) by
    refine ⟨hCollected, fun stdout hLines => ?_⟩
    rw [hCollected, hLines]
    exact collect_fgets_iff stdout
  cases hRule with
  | poll_reports hAt =>
      obtain ⟨hDone, rfl⟩ := hCoherent.reported _ hAt
      rw [u.op.result_output] at hOutput
      cases hOutput
      have hKept := (gathered_of_run prior).output (by simp [hAt])
      have hWorker := hCoherent.done hDone
      cases hNow : u.worker with
      | done_set | finished =>
          rw [hNow] at hKept
          exact hKept
      | _ =>
          rw [hNow] at hWorker
          cases hWorker
  | flash_rejected hFree hParse =>
      rcases parse_flash_error hParse with rfl | rfl | ⟨mode, rfl⟩ <;> cases hOutput
  | _ => cases hOutput

/-- A line with a NUL in it. -/
def nul_line : Bytes := [111, 107, 0, 33, 10]

/-- A script that writes this line. -/
def print_nul : List FlashAction :=
  [.FLASH (str "a.img"), .resume, .resume, .resume, .set_running, .set_start_time, .popen true,
    .fgets nul_line, .script_ends (.exited 0), .eof, .pclose false, .set_done, .clear_running,
    .TRYFLASHDONE, .resume, .resume, .resume, .resume, .resume]

/-- The answer ends at the NUL, where the line does not. -/
theorem reported_output_nul : ∃ past label s,
    (flash_machine {}).exec (idle_at 0) print_nul = some (s, past ++ [label]) ∧
    FlashEvent.output label.2 = some (str "ok") ∧
    lines_read past = fgets_lines buf_size nul_line ∧ str "ok" ≠ trim_newlines nul_line := by
  obtain ⟨⟨s, trace⟩, hExec, hEq⟩ := Option.map_eq_some_iff.mp
    (by rfl : ((flash_machine {}).exec (idle_at 0) print_nul).map (fun result =>
      (result.2.getLast?.map (fun label => FlashEvent.output label.2),
        lines_read result.2.dropLast)) =
      some (some (some (str "ok")), fgets_lines buf_size nul_line))
  obtain ⟨hReport, hLines⟩ := Prod.mk.inj hEq
  obtain ⟨label, hLast, hOutput⟩ := Option.map_eq_some_iff.mp hReport
  have hTrace : trace.dropLast ++ [label] = trace := List.dropLast_append_getLast? label hLast
  have hAll :=
    (reported_output_iff (Machine.runs_of_exec hExec)) trace.dropLast label [] hTrace.symm
  refine ⟨trace.dropLast, label, s, by rw [hTrace]; exact hExec, hOutput, hLines, ?_⟩
  intro hSame
  exact ((hAll (str "ok") hOutput).2 nul_line hLines).mp hSame (by decide)

end RkFlashd
