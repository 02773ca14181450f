import RkFlashd.Machine.Execution
import RkFlashd.Daemon.Config

/-! `handler_flash.cpp`: `AT+FLASH`, `AT+TRYFLASHDONE` and the background worker as
one system. The commands come one after the other; the worker, the script and the
clock move between any two accesses that a command makes to the shared `FlashOp`. -/
namespace RkFlashd

open Text Transition

def ASYNC_TIMEOUT_SEC : Nat := 60

/-- `FLASH_SCRIPTS`, in the order in which a `std::map` is traversed. -/
def FLASH_SCRIPTS : List (Bytes × Bytes) :=
  [(str "ASSETS", str "flash_assets.sh"), (str "FULL", str "flash_full.sh"),
   (str "PARTIAL", str "flash_partial.sh")]

/-- The answers of the two commands. -/
inductive FlashAnswer where
  | requires_file
  | empty_filename
  | unknown_mode (mode : Bytes)
  | in_progress
  | submitted (cmd : Bytes)
  | no_pending
  | timeout
  | running (cmd : Bytes) (elapsed : Nat)
  | ok (cmd output : Bytes)
  | failed (cmd : Bytes) (exit_code : Int) (output : Bytes)
  deriving DecidableEq, Repr

def FlashAnswer.text : FlashAnswer → Bytes
  | .requires_file => str "ERROR: AT+FLASH requires <file>[,MODE]"
  | .empty_filename => str "ERROR: AT+FLASH filename cannot be empty"
  | .unknown_mode mode =>
      str "ERROR: unknown flash mode '" ++ mode ++ str "' (valid: " ++
        (str ", ").intercalate (FLASH_SCRIPTS.map Prod.fst) ++ str ")"
  | .in_progress => str "ERROR: flash already in progress, use AT+TRYFLASHDONE to poll"
  | .submitted cmd => str "OK submitted: " ++ cmd
  | .no_pending => str "ERROR: no pending flash operation"
  | .timeout =>
      str "TIMEOUT: flash did not complete within " ++ to_string ASYNC_TIMEOUT_SEC ++ str "s"
  | .running cmd elapsed =>
      str "RUNNING: " ++ cmd ++ str " (" ++ to_string elapsed ++ str "/" ++
        to_string ASYNC_TIMEOUT_SEC ++ str "s)"
  | .ok cmd output => str "OK " ++ cmd ++ str " " ++ output
  | .failed cmd exit_code output =>
      str "ERROR " ++ cmd ++ str " failed (exit=" ++ int_to_string exit_code ++ str ") " ++ output

/-- The checks of `handle_flash` on its argument: the script of the mode and the file. -/
def parse_flash (arg : Bytes) : Except FlashAnswer (Bytes × Bytes) :=
  if arg = [] then .error .requires_file
  else
    let (filename, mode) :=
      match find arg 44 0 with
      | none => (arg, str "FULL")
      | some comma => (substr arg 0 comma, substr_from arg (comma + 1))
    if filename = [] then .error .empty_filename
    else
      match FLASH_SCRIPTS.lookup mode with
      | none => .error (.unknown_mode mode)
      | some script => .ok (script, filename)

def flash_cmd (cfg : Config) (script filename : Bytes) : Bytes :=
  cfg.scripts_dir.val ++ str "/" ++ script ++ str " " ++ filename

/-- How a process ends. -/
inductive Ending where
  | exited (code : UInt8)
  | signaled (sig : {n : Nat // 0 < n ∧ n < 127}) (core : Bool)
  deriving DecidableEq

/-- The status `wait` encodes an ending in. -/
def wait_status : Ending → Int
  | .exited code => code.toNat * 256
  | .signaled sig core => sig.val + if core then 128 else 0

/-- `(status & 0xff00) >> 8`. -/
def WEXITSTATUS (status : Int) : Int := status / 256 % 256

/-- `FlashOp`. Of the `std::thread`, only whether it is joinable. Times are in
nanoseconds of the steady clock. -/
structure FlashOp where
  joinable : Bool := false
  running : Bool := false
  done : Bool := false
  exit_code : Int := -1
  output : Bytes := []
  cmd : Bytes := []
  start_time : Nat := 0
  deriving DecidableEq, Repr

/-- Where the thread last started is in `async_flash_worker`. -/
inductive Worker where
  | none
  | begun
  | running_set
  | time_set
  | reading
  | closing
  | coded
  | done_set
  | finished
  deriving DecidableEq, Repr

/-- The script of the thread last started. -/
inductive Script where
  | none
  | running
  | ended (ending : Ending)
  deriving DecidableEq

/-- Where the command in progress is. -/
inductive Command where
  | none
  | flash_load (cmd : Bytes)
  | flash_stores (cmd : Bytes)
  | flash_assign
  | poll_load_running
  | poll_idle
  | poll_load_done
  | poll_elapsed
  | poll_cancel
  | poll_result
  | poll_join (result : FlashAnswer)
  deriving DecidableEq, Repr

/-- `terminated` is set by `std::terminate`, after which nothing moves. -/
structure FlashSystem where
  op : FlashOp := {}
  worker : Worker := .none
  script : Script := .none
  command : Command := .none
  clock : Nat := 0
  terminated : Bool := false
  deriving DecidableEq

inductive FlashAction where
  -- the arrival of a command, and the next access of the command in progress
  | FLASH (arg : Bytes)
  | TRYFLASHDONE
  | resume
  -- the steps of the worker, with the results of its calls
  | set_running
  | set_start_time
  | popen (succeeds : Bool)
  | fgets (line : Bytes)
  | eof
  | pclose (fails : Bool)
  | set_done
  | clear_running
  -- the rest of the world
  | script_ends (ending : Ending)
  | tick (ns : Nat)
  deriving DecidableEq

inductive FlashEvent where
  | answer (answer : FlashAnswer)
  | terminate
  deriving DecidableEq, Repr

/-- `elapsed_sec()`. -/
def FlashSystem.elapsed_sec (s : FlashSystem) : Nat := (s.clock - s.op.start_time) / 10 ^ 9

/-- The result a finished operation is reported with. -/
def FlashOp.result (op : FlashOp) : FlashAnswer :=
  if op.exit_code = 0 then .ok op.cmd op.output else .failed op.cmd op.exit_code op.output

/-- `worker.join()` returns once the worker has; on a thread that is not joinable it
is not called. -/
def FlashSystem.join_returns (s : FlashSystem) : Bool := !s.op.joinable || s.worker == .finished

/-- The next access of the command in progress. -/
def FlashSystem.resume (s : FlashSystem) : Option (FlashSystem × Option FlashEvent) :=
  match s.command with
  | .none => none
  | .flash_load cmd =>
      if s.op.running then some ({ s with command := .none }, some (.answer .in_progress))
      else some ({ s with command := .flash_stores cmd }, none)
  | .flash_stores cmd =>
      some ({ s with
        op := { s.op with cmd := cmd, done := false, output := [], exit_code := -1 }
        command := .flash_assign }, none)
  | .flash_assign =>
      -- a thread that is assigned to while joinable ends the process
      if s.op.joinable then some ({ s with terminated := true }, some .terminate)
      else
        some ({ s with
          op := { s.op with joinable := true }
          worker := .begun, script := .none, command := .none },
          some (.answer (.submitted s.op.cmd)))
  | .poll_load_running =>
      some ({ s with command := if s.op.running then .poll_load_done else .poll_idle }, none)
  | .poll_idle =>
      if s.op.done then some ({ s with command := .poll_load_done }, none)
      else some ({ s with command := .none }, some (.answer .no_pending))
  | .poll_load_done =>
      some ({ s with command := if s.op.done then .poll_result else .poll_elapsed }, none)
  | .poll_elapsed =>
      if ASYNC_TIMEOUT_SEC ≤ s.elapsed_sec then some ({ s with command := .poll_cancel }, none)
      else
        some ({ s with command := .none },
          some (.answer (.running s.op.cmd s.elapsed_sec)))
  | .poll_cancel =>
      if s.join_returns then
        some ({ s with
          op := { s.op with joinable := false, running := false, done := true }
          command := .none }, some (.answer .timeout))
      else none
  | .poll_result => some ({ s with command := .poll_join s.op.result }, none)
  | .poll_join result =>
      if s.join_returns then
        some ({ s with
          op := { s.op with joinable := false, running := false, done := false }
          command := .none }, some (.answer result))
      else none

/-- `while (back() == '\n' || back() == '\r') pop_back()`. -/
def trim_newlines (output : Bytes) : Bytes := output.rdropWhile fun c => c = 10 ∨ c = 13

/-- One step of the system, with what it makes visible. -/
def flash_step (cfg : Config) (s : FlashSystem) (action : FlashAction) :
    Option (FlashSystem × Option FlashEvent) :=
  if s.terminated then none
  else
    match action, s.worker, s.script with
    | .FLASH arg, _, _ =>
        if s.command ≠ .none then none
        else
          match parse_flash arg with
          | .error answer => some (s, some (.answer answer))
          | .ok (script, filename) =>
              some ({ s with command := .flash_load (flash_cmd cfg script filename) }, none)
    | .TRYFLASHDONE, _, _ =>
        if s.command ≠ .none then none else some ({ s with command := .poll_load_running }, none)
    | .resume, _, _ => s.resume
    | .set_running, .begun, _ =>
        some ({ s with op := { s.op with running := true }, worker := .running_set }, none)
    | .set_start_time, .running_set, _ =>
        some ({ s with op := { s.op with start_time := s.clock }, worker := .time_set }, none)
    | .popen true, .time_set, _ =>
        some ({ s with script := .running, worker := .reading }, none)
    | .popen false, .time_set, _ => some ({ s with worker := .coded }, none)
    | .fgets line, .reading, _ =>
        if 0 < line.length ∧ line.length < 256 then
          some ({ s with op := { s.op with output := s.op.output ++ c_str line } }, none)
        else none
    | .eof, .reading, _ =>
        some ({ s with
          op := { s.op with output := trim_newlines s.op.output }, worker := .closing }, none)
    | .pclose fails, .closing, .ended ending =>
        some ({ s with
          op := { s.op with exit_code := WEXITSTATUS (if fails then -1 else wait_status ending) }
          worker := .coded }, none)
    | .set_done, .coded, _ =>
        some ({ s with op := { s.op with done := true }, worker := .done_set }, none)
    | .clear_running, .done_set, _ =>
        some ({ s with op := { s.op with running := false }, worker := .finished }, none)
    | .script_ends ending, _, .running => some ({ s with script := .ended ending }, none)
    | .tick ns, _, _ => some ({ s with clock := s.clock + ns }, none)
    | _, _, _ => none

def flash_machine (cfg : Config) : Machine FlashSystem FlashAction (Option FlashEvent) :=
  flash_step cfg

/-- Everything a step can do, one rule a branch. -/
inductive FlashStep (cfg : Config) (s : FlashSystem) :
    FlashAction → Option FlashEvent → FlashSystem → Prop where
  | flash_rejected {arg : Bytes} {answer : FlashAnswer} (hFree : s.command = .none)
      (hParse : parse_flash arg = .error answer) :
      FlashStep cfg s (.FLASH arg) (some (.answer answer)) s
  | flash_arrives {arg script filename : Bytes} (hFree : s.command = .none)
      (hParse : parse_flash arg = .ok (script, filename)) :
      FlashStep cfg s (.FLASH arg) none
        { s with command := .flash_load (flash_cmd cfg script filename) }
  | poll_arrives (hFree : s.command = .none) :
      FlashStep cfg s .TRYFLASHDONE none { s with command := .poll_load_running }
  | flash_refused {cmd : Bytes} (hAt : s.command = .flash_load cmd)
      (hRunning : s.op.running = true) :
      FlashStep cfg s .resume (some (.answer .in_progress)) { s with command := .none }
  | flash_admitted {cmd : Bytes} (hAt : s.command = .flash_load cmd)
      (hRunning : s.op.running = false) :
      FlashStep cfg s .resume none { s with command := .flash_stores cmd }
  | flash_stores {cmd : Bytes} (hAt : s.command = .flash_stores cmd) :
      FlashStep cfg s .resume none
        { s with
          op := { s.op with cmd := cmd, done := false, output := [], exit_code := -1 }
          command := .flash_assign }
  | flash_terminates (hAt : s.command = .flash_assign) (hJoinable : s.op.joinable = true) :
      FlashStep cfg s .resume (some .terminate) { s with terminated := true }
  | flash_submits (hAt : s.command = .flash_assign) (hJoinable : s.op.joinable = false) :
      FlashStep cfg s .resume (some (.answer (.submitted s.op.cmd)))
        { s with
          op := { s.op with joinable := true }
          worker := .begun, script := .none, command := .none }
  | poll_finds_running (hAt : s.command = .poll_load_running) (hRunning : s.op.running = true) :
      FlashStep cfg s .resume none { s with command := .poll_load_done }
  | poll_finds_idle (hAt : s.command = .poll_load_running) (hRunning : s.op.running = false) :
      FlashStep cfg s .resume none { s with command := .poll_idle }
  | poll_idle_done (hAt : s.command = .poll_idle) (hDone : s.op.done = true) :
      FlashStep cfg s .resume none { s with command := .poll_load_done }
  | poll_nothing (hAt : s.command = .poll_idle) (hDone : s.op.done = false) :
      FlashStep cfg s .resume (some (.answer .no_pending)) { s with command := .none }
  | poll_finds_done (hAt : s.command = .poll_load_done) (hDone : s.op.done = true) :
      FlashStep cfg s .resume none { s with command := .poll_result }
  | poll_finds_undone (hAt : s.command = .poll_load_done) (hDone : s.op.done = false) :
      FlashStep cfg s .resume none { s with command := .poll_elapsed }
  | poll_expires (hAt : s.command = .poll_elapsed) (hLate : ASYNC_TIMEOUT_SEC ≤ s.elapsed_sec) :
      FlashStep cfg s .resume none { s with command := .poll_cancel }
  | poll_running (hAt : s.command = .poll_elapsed) (hEarly : s.elapsed_sec < ASYNC_TIMEOUT_SEC) :
      FlashStep cfg s .resume (some (.answer (.running s.op.cmd s.elapsed_sec)))
        { s with command := .none }
  | poll_timeout (hAt : s.command = .poll_cancel) (hJoin : s.join_returns = true) :
      FlashStep cfg s .resume (some (.answer .timeout))
        { s with
          op := { s.op with joinable := false, running := false, done := true }
          command := .none }
  | poll_result (hAt : s.command = .poll_result) :
      FlashStep cfg s .resume none { s with command := .poll_join s.op.result }
  | poll_reports {result : FlashAnswer} (hAt : s.command = .poll_join result)
      (hJoin : s.join_returns = true) :
      FlashStep cfg s .resume (some (.answer result))
        { s with
          op := { s.op with joinable := false, running := false, done := false }
          command := .none }
  | set_running (hAt : s.worker = .begun) :
      FlashStep cfg s .set_running none
        { s with op := { s.op with running := true }, worker := .running_set }
  | set_start_time (hAt : s.worker = .running_set) :
      FlashStep cfg s .set_start_time none
        { s with op := { s.op with start_time := s.clock }, worker := .time_set }
  | popen (hAt : s.worker = .time_set) :
      FlashStep cfg s (.popen true) none { s with script := .running, worker := .reading }
  | popen_fails (hAt : s.worker = .time_set) :
      FlashStep cfg s (.popen false) none { s with worker := .coded }
  | fgets {line : Bytes} (hAt : s.worker = .reading) :
      FlashStep cfg s (.fgets line) none
        { s with op := { s.op with output := s.op.output ++ c_str line } }
  | eof (hAt : s.worker = .reading) :
      FlashStep cfg s .eof none
        { s with op := { s.op with output := trim_newlines s.op.output }, worker := .closing }
  | pclose {fails : Bool} {ending : Ending} (hAt : s.worker = .closing)
      (hScript : s.script = .ended ending) :
      FlashStep cfg s (.pclose fails) none
        { s with
          op := { s.op with exit_code := WEXITSTATUS (if fails then -1 else wait_status ending) }
          worker := .coded }
  | set_done (hAt : s.worker = .coded) :
      FlashStep cfg s .set_done none
        { s with op := { s.op with done := true }, worker := .done_set }
  | clear_running (hAt : s.worker = .done_set) :
      FlashStep cfg s .clear_running none
        { s with op := { s.op with running := false }, worker := .finished }
  | script_ends {ending : Ending} (hScript : s.script = .running) :
      FlashStep cfg s (.script_ends ending) none { s with script := .ended ending }
  | tick {ns : Nat} : FlashStep cfg s (.tick ns) none { s with clock := s.clock + ns }

/-- The three ways in which an argument is rejected. -/
theorem parse_flash_error {arg : Bytes} {answer : FlashAnswer}
    (h : parse_flash arg = .error answer) :
    answer = .requires_file ∨ answer = .empty_filename ∨ ∃ mode, answer = .unknown_mode mode := by
  unfold parse_flash at h
  split at h
  · cases h
    exact Or.inl rfl
  · split at h
    split at h
    · cases h
      exact Or.inr (Or.inl rfl)
    · split at h <;> cases h
      exact Or.inr (Or.inr ⟨_, rfl⟩)

/-- What the thread of a command does when it goes on. -/
theorem resume_cases {cfg : Config} {s t : FlashSystem} {event : Option FlashEvent}
    (h : s.resume = some (t, event)) : FlashStep cfg s .resume event t := by
  unfold FlashSystem.resume at h
  split at h
  · cases h
  · rename_i cmd hAt
    split at h <;> cases h
    · exact .flash_refused hAt ‹_›
    · exact .flash_admitted hAt (Bool.eq_false_of_not_eq_true ‹_›)
  · cases h
    exact .flash_stores ‹_›
  · rename_i hAt
    split at h <;> cases h
    · exact .flash_terminates hAt ‹_›
    · exact .flash_submits hAt (Bool.eq_false_of_not_eq_true ‹_›)
  · rename_i hAt
    cases h
    cases hRunning : s.op.running
    · exact .poll_finds_idle hAt hRunning
    · exact .poll_finds_running hAt hRunning
  · rename_i hAt
    split at h <;> cases h
    · exact .poll_idle_done hAt ‹_›
    · exact .poll_nothing hAt (Bool.eq_false_of_not_eq_true ‹_›)
  · rename_i hAt
    cases h
    cases hDone : s.op.done
    · exact .poll_finds_undone hAt hDone
    · exact .poll_finds_done hAt hDone
  · rename_i hAt
    split at h <;> cases h
    · exact .poll_expires hAt ‹_›
    · exact .poll_running hAt (Nat.lt_of_not_le ‹_›)
  · rename_i hAt
    split at h <;> cases h
    exact .poll_timeout hAt ‹_›
  · cases h
    exact .poll_result ‹_›
  · rename_i hAt
    split at h <;> cases h
    exact .poll_reports hAt ‹_›

/-- A system that has terminated is stuck, and otherwise the rules say it all. -/
theorem flash_step_cases {cfg : Config} {s t : FlashSystem} {action : FlashAction}
    {event : Option FlashEvent} (h : flash_step cfg s action = some (t, event)) :
    s.terminated = false ∧ FlashStep cfg s action event t := by
  unfold flash_step at h
  split at h
  · cases h
  rename_i hLive
  refine ⟨by simpa using hLive, ?_⟩
  split at h
  · split at h
    · cases h
    · rename_i hBusy
      have hFree : s.command = .none := by simpa using hBusy
      split at h <;> cases h
      · exact .flash_rejected hFree ‹_›
      · exact .flash_arrives hFree ‹_›
  · split at h <;> cases h
    exact .poll_arrives (Decidable.not_not.mp ‹_›)
  · exact resume_cases h
  · cases h; exact .set_running ‹_›
  · cases h; exact .set_start_time ‹_›
  · cases h; exact .popen ‹_›
  · cases h; exact .popen_fails ‹_›
  · split at h <;> cases h
    exact .fgets ‹_›
  · cases h; exact .eof ‹_›
  · cases h; exact .pclose ‹_› ‹_›
  · cases h; exact .set_done ‹_›
  · cases h; exact .clear_running ‹_›
  · cases h; exact .script_ends ‹_›
  · cases h; exact .tick
  · cases h

end RkFlashd
