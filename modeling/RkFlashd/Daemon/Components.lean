import RkFlashd.Machine.Simulation
import RkFlashd.AtHandler.FlashRuns
import RkFlashd.Process

/-! The whole daemon: the commands of both front ends one after the other, and between them
the flash worker, its script and the clock. Seen on the flash operation alone it is the
flash system; seen on the upload alone, the upload commands. -/
namespace RkFlashd

open Text Transition

/-- A step that no command takes. -/
def FlashAction.is_background : FlashAction → Bool
  | .FLASH _ | .TRYFLASHDONE | .resume => false
  | _ => true

inductive DaemonAction where
  | command (call : Call)
  | background (action : FlashAction)

/-- A step of the daemon, and the answer when it is a command. -/
def daemon_step (cfg : Config) (build : Build) (d : Daemon) :
    DaemonAction → Option (Daemon × Option Bytes)
  | .command call => (process cfg build d call).map fun result => (result.1, some result.2)
  | .background action =>
      if action.is_background then
        (flash_step cfg d.flash action).map fun result => ({ d with flash := result.1 }, none)
      else none

def daemon_machine (cfg : Config) (build : Build) : Machine Daemon DaemonAction (Option Bytes) :=
  daemon_step cfg build

abbrev DaemonLabel := DaemonAction × Option Bytes

/-- The upload command that a line is. -/
def upload_request_of (call : Call) : Option Request :=
  match dispatch call.line with
  | .ok (.PREUPLOAD arg) => some ⟨call.caller, .PREUPLOAD arg, call.around.io⟩
  | .ok (.UPLOAD arg) => some ⟨call.caller, .UPLOAD arg, call.around.io⟩
  | .ok .UPLOADDONE => some ⟨call.caller, .UPLOADDONE, call.around.io⟩
  | .ok .UPLOADCANCEL => some ⟨call.caller, .UPLOADCANCEL, call.around.io⟩
  | _ => none

/-- What the upload sees of a step. -/
def upload_view : DaemonLabel → Option (Request × Bytes)
  | (.command call, some answer) => (upload_request_of call).map fun r => (r, answer)
  | _ => none

/-- The flash command that a line is. -/
def flash_arrival (line : Bytes) : Option FlashAction :=
  match dispatch line with
  | .ok (.FLASH arg) => some (.FLASH arg)
  | .ok .TRYFLASHDONE => some .TRYFLASHDONE
  | _ => none

/-- What the flash operation sees of a step: a flash command from its arrival to the answer
that its caller is given, and nothing of any other command. -/
def FlashView : DaemonLabel → List FlashLabel → Prop
  | (.background action, _), view => view = [(action, none)]
  | (.command call, answer), view =>
      (flash_arrival call.line = none ∧ view = []) ∨
      ∃ arrival given, flash_arrival call.line = some arrival ∧
        view.map Prod.fst = arrival :: call.around.flash ∧
        view.filterMap Prod.snd = [.answer given] ∧ answer = some given.text

variable {cfg : Config} {build : Build} {d d' : Daemon} {trace : List DaemonLabel}

/-- A command that is answered is a run of the flash system from its arrival on. -/
theorem runs_of_await {s t : FlashSystem} {actions : List FlashAction} {given : FlashAnswer}
    (h : await_answer cfg s actions = some (t, given)) :
    ∃ view, Runs (flash_machine cfg).Step s view t ∧ view.map Prod.fst = actions ∧
      view.filterMap Prod.snd = [.answer given] := by
  induction actions generalizing s with
  | nil => cases h
  | cons action rest ih =>
      rw [await_answer] at h
      cases hStep : flash_step cfg s action with
      | none => simp [hStep] at h
      | some result =>
          obtain ⟨u, event⟩ := result
          rw [hStep] at h
          have hFirst : (flash_machine cfg).Step s (action, event) u := hStep
          cases event with
          | none =>
              obtain ⟨view, hRun, hActions, hAnswer⟩ := ih h
              refine ⟨(action, none) :: view, ?_, by rw [List.map_cons, hActions], hAnswer⟩
              exact (Runs.single hFirst).trans hRun
          | some event =>
              cases event with
              | terminate => cases h
              | answer answer =>
                  simp only at h
                  split at h
                  · rename_i hLast
                    cases h
                    rw [hLast]
                    exact ⟨[(action, some (.answer given))], Runs.single hFirst, rfl, rfl⟩
                  · cases h

/-- A command either does not concern the flash operation or is followed up to its answer. -/
theorem process_flash {call : Call} {answer : Bytes}
    (h : process cfg build d call = some (d', answer)) :
    (flash_arrival call.line = none ∧ d'.flash = d.flash) ∨
      ∃ arrival given, flash_arrival call.line = some arrival ∧
        await_answer cfg d.flash (arrival :: call.around.flash) = some (d'.flash, given) ∧
        answer = given.text := by
  have hFlash (arrival : FlashAction) (hArrival : flash_arrival call.line = some arrival)
      (hCommand : d.flash_command cfg (arrival :: call.around.flash) = some (d', answer)) :
      ∃ arrival given, flash_arrival call.line = some arrival ∧
        await_answer cfg d.flash (arrival :: call.around.flash) = some (d'.flash, given) ∧
        answer = given.text := by
    obtain ⟨⟨flash, given⟩, hAwait, hEq⟩ := Option.map_eq_some_iff.mp hCommand
    cases hEq
    exact ⟨arrival, given, hArrival, hAwait, rfl⟩
  cases hLine : dispatch call.line with
  | error message =>
      simp only [process, hLine, Option.some.injEq, Prod.mk.injEq] at h
      exact Or.inl ⟨by rw [flash_arrival, hLine], by rw [← h.1]⟩
  | ok command =>
      rw [process_ok hLine] at h
      cases command with
      | FLASH arg => exact Or.inr (hFlash _ (by rw [flash_arrival, hLine]) h)
      | TRYFLASHDONE => exact Or.inr (hFlash _ (by rw [flash_arrival, hLine]) h)
      | STATUS | VERSION | RESET | FORCERESET | HELP | EXEC | REBOOT | VERIFY | PREUPLOAD | UPLOAD
      | UPLOADDONE | UPLOADCANCEL =>
          cases h
          exact Or.inl ⟨by rw [flash_arrival, hLine], rfl⟩

/-- A flash command that is answered is a run of the flash system. -/
theorem flash_command_view {call : Call} {answer : Bytes}
    (h : process cfg build d call = some (d', answer)) :
    ∃ view, FlashView (.command call, some answer) view ∧
      Runs (flash_machine cfg).Step d.flash view d'.flash := by
  rcases process_flash h with ⟨hNone, hSame⟩ | ⟨arrival, given, hArrival, hAwait, rfl⟩
  · rw [hSame]
    exact ⟨[], Or.inl ⟨hNone, rfl⟩, Runs.zero d.flash⟩
  · obtain ⟨view, hRun, hActions, hAnswer⟩ := runs_of_await hAwait
    exact ⟨view, Or.inr ⟨arrival, given, hArrival, hActions, hAnswer, rfl⟩, hRun⟩

/-- What happens between the commands happens to the flash operation, and nobody is told. -/
theorem background_step {action : FlashAction} {answer : Option Bytes}
    (h : (daemon_machine cfg build).Step d (.background action, answer) d') :
    action.is_background = true ∧ answer = none ∧ d'.host = d.host ∧
      flash_step cfg d.flash action = some (d'.flash, none) := by
  simp only [Machine.Step, daemon_machine, daemon_step] at h
  split at h
  · rename_i hBackground
    obtain ⟨⟨flash, event⟩, hFlash, hEq⟩ := Option.map_eq_some_iff.mp h
    cases hEq
    obtain rfl : event = none := by
      cases (flash_step_cases hFlash).2 <;> first | rfl | cases hBackground
    exact ⟨hBackground, rfl, rfl, hFlash⟩
  · cases h

/-- An upload command is a step of the upload, and no other command touches it. -/
theorem upload_command_view {call : Call} {answer : Bytes} (hRce : build.allow_rce = false)
    (h : process cfg build d call = some (d', answer)) :
    (∀ r, upload_request_of call = some r → perform cfg d.host r = (d'.host, answer)) ∧
      (upload_request_of call = none → d'.host = d.host) := by
  have hUpload (command : UploadCommand)
      (hRequest : upload_request_of call = some ⟨call.caller, command, call.around.io⟩)
      (hCommand : some (d.upload_command cfg call command) = some (d', answer)) :
      (∀ r, upload_request_of call = some r → perform cfg d.host r = (d'.host, answer)) ∧
        (upload_request_of call = none → d'.host = d.host) := by
    have hResult := Option.some.inj hCommand
    obtain rfl : (d.upload_command cfg call command).1 = d' := congrArg Prod.fst hResult
    obtain rfl : (d.upload_command cfg call command).2 = answer := congrArg Prod.snd hResult
    rw [hRequest]
    refine ⟨fun r hr => ?_, fun hNone => by cases hNone⟩
    obtain rfl := Option.some.inj hr
    rfl
  cases hLine : dispatch call.line with
  | error message =>
      simp only [process, hLine, Option.some.injEq, Prod.mk.injEq] at h
      simp [upload_request_of, hLine, ← h.1]
  | ok command =>
      rw [process_ok hLine] at h
      cases command with
      | FLASH arg | TRYFLASHDONE =>
          simp only [execute, Daemon.flash_command, Option.map_eq_some_iff] at h
          obtain ⟨_, -, hEq⟩ := h
          cases hEq
          simp [upload_request_of, hLine]
      | EXEC arg =>
          cases h
          simp [upload_request_of, hLine, hRce]
      | STATUS | VERSION | RESET | FORCERESET | HELP | REBOOT | VERIFY =>
          cases h
          simp [upload_request_of, hLine]
      | PREUPLOAD | UPLOAD | UPLOADDONE | UPLOADCANCEL =>
          exact hUpload _ (by rw [upload_request_of, hLine]) h

/-- **The parts of the daemon.** In a build without `AT+EXEC`, a run of the whole daemon is,
seen on the upload state and the files, the run of its upload commands alone; and in every
build it is, seen on the flash operation, a run of the flash system that is made of the
flash commands, each from its arrival to the answer its caller is given, and of what the
worker, the script and the clock do in between. -/
theorem daemon_components (run : Runs (daemon_machine cfg build).Step d trace d') :
    (build.allow_rce = false →
      Runs (upload_machine cfg).Step d.host (trace.filterMap upload_view) d'.host) ∧
    ∃ views, List.Forall₂ FlashView trace views ∧
      Runs (flash_machine cfg).Step d.flash views.flatten d'.flash := by
  constructor
  · intro hRce
    refine run.project_filterMap Daemon.host upload_view ?_ ?_
    · rintro s ⟨action, output⟩ t seen hStep hView
      cases action with
      | background => simp [upload_view] at hView
      | command call =>
          obtain ⟨⟨next, answer⟩, hProcess, hEq⟩ := Option.map_eq_some_iff.mp hStep
          cases hEq
          obtain ⟨r, hRequest, rfl⟩ := Option.map_eq_some_iff.mp hView
          exact congrArg some ((upload_command_view hRce hProcess).1 r hRequest)
    · rintro s ⟨action, output⟩ t hStep hView
      cases action with
      | background action => exact (background_step hStep).2.2.1
      | command call =>
          obtain ⟨⟨next, answer⟩, hProcess, hEq⟩ := Option.map_eq_some_iff.mp hStep
          cases hEq
          exact (upload_command_view hRce hProcess).2 (Option.map_eq_none_iff.mp hView)
  · refine run.project Daemon.flash FlashView ?_
    rintro s ⟨action, output⟩ t hStep
    cases action with
    | background action =>
        obtain ⟨-, rfl, -, hFlash⟩ := background_step hStep
        exact ⟨[(action, none)], rfl, Runs.single hFlash⟩
    | command call =>
        obtain ⟨⟨next, answer⟩, hProcess, hEq⟩ := Option.map_eq_some_iff.mp hStep
        cases hEq
        exact flash_command_view hProcess

def idle_daemon : Daemon := { host := ⟨{}, Storage.FileSystem.empty⟩ }

/-- A submission, the worker's first step, and two commands that do not concern it. -/
def submit_and_cancel : List DaemonAction :=
  [.command ⟨.HTTP, str "AT+FLASH=a.img", { flash := [.resume, .resume, .resume] }⟩,
   .background .set_running, .command ⟨.SERIAL, str "at+uploadcancel", {}⟩,
   .command ⟨.SERIAL, str "AT+RESET", {}⟩]

/-- Its uploads and its flash are runs of the two components. -/
theorem daemon_components_submitted : ∃ trace d',
    (daemon_machine {} { date := [], time := [] }).exec idle_daemon submit_and_cancel =
      some (d', trace) ∧
    Runs (upload_machine {}).Step idle_daemon.host (trace.filterMap upload_view) d'.host ∧
    ∃ views, List.Forall₂ FlashView trace views ∧
      Runs (flash_machine {}).Step idle_daemon.flash views.flatten d'.flash := by
  obtain ⟨⟨d', trace⟩, hExec⟩ := Option.isSome_iff_exists.mp
    (by rfl : ((daemon_machine {} { date := [], time := [] }).exec idle_daemon
      submit_and_cancel).isSome = true)
  obtain ⟨hUpload, hFlash⟩ := daemon_components (Machine.runs_of_exec hExec)
  exact ⟨trace, d', hExec, hUpload rfl, hFlash⟩

end RkFlashd
