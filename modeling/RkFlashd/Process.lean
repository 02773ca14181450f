import RkFlashd.AtCommand
import RkFlashd.AtHandler.Basic
import RkFlashd.AtHandler.System
import RkFlashd.AtHandler.UploadRuns

/-! `AtCommand::process` as one call: from the command line to the answer, on all that
the handlers share. The flash worker moves while a flash command is executed. -/
namespace RkFlashd

open Text Transition

/-- The state that outlives a command: the session lock, the static upload state with
the files, and the static flash operation. -/
structure Daemon where
  owner : Owner := .NONE
  host : Host
  flash : FlashSystem := {}

/-- What the outside world contributes to one command. -/
structure Circumstances where
  io : Io := {}
  uptime : Nat := 0
  is_open : Bool := false
  reads : Reads := {}
  popen : Option ShellRun := none
  -- what the command of `AT+EXEC` does to the files
  effect : FileSystem → FileSystem := id
  reboot : Int := 0
  shutdown : Int := 0
  -- what happens between the arrival of a flash command and its answer
  flash : List FlashAction := []

/-- One command line, who sends it, and the circumstances it is executed in. -/
structure Call where
  caller : Owner
  line : Bytes
  around : Circumstances := {}

/-- Follow the flash system up to the answer of the command in progress. There is none
when the process is terminated first, or when the schedule stops short. -/
def await_answer (cfg : Config) :
    FlashSystem → List FlashAction → Option (FlashSystem × FlashAnswer)
  | _, [] => none
  | s, action :: rest =>
      match flash_step cfg s action with
      | none => none
      | some (t, none) => await_answer cfg t rest
      | some (t, some (.answer answer)) => if rest = [] then some (t, answer) else none
      | some (_, some .terminate) => none

def Daemon.flash_command (cfg : Config) (d : Daemon) (actions : List FlashAction) :
    Option (Daemon × Bytes) :=
  (await_answer cfg d.flash actions).map fun (flash, answer) =>
    ({ d with flash := flash }, answer.text)

/-- A command of the upload protocol. -/
def Daemon.upload_command (cfg : Config) (d : Daemon) (call : Call) (command : UploadCommand) :
    Daemon × Bytes :=
  let (host, answer) := perform cfg d.host ⟨call.caller, command, call.around.io⟩
  ({ d with host := host }, answer)

/-- The calls of the handlers in `process`. -/
def execute (cfg : Config) (build : Build) (d : Daemon) (call : Call) :
    AtCommand → Option (Daemon × Bytes)
  | .STATUS => some (d, handle_status cfg call.around.uptime call.around.is_open d.owner)
  | .VERSION => some (d, handle_version build)
  | .RESET =>
      let (owner, answer) := handle_reset call.caller d.owner
      some ({ d with owner := owner }, answer)
  | .FORCERESET =>
      let (owner, answer) := handle_forcereset d.owner
      some ({ d with owner := owner }, answer)
  | .HELP => some (d, handle_help)
  | .FLASH arg => d.flash_command cfg (.FLASH arg :: call.around.flash)
  | .TRYFLASHDONE => d.flash_command cfg (.TRYFLASHDONE :: call.around.flash)
  | .EXEC arg =>
      let fs := if build.allow_rce then call.around.effect d.host.fs else d.host.fs
      some ({ d with host := { d.host with fs := fs } },
        handle_exec build call.around.popen arg)
  | .REBOOT => some (d, handle_reboot build call.around.reboot call.around.shutdown)
  | .VERIFY arg => some (d, handle_verify cfg call.around.reads arg d.host.fs)
  | .PREUPLOAD arg => some (d.upload_command cfg call (.PREUPLOAD arg))
  | .UPLOAD arg => some (d.upload_command cfg call (.UPLOAD arg))
  | .UPLOADDONE => some (d.upload_command cfg call .UPLOADDONE)
  | .UPLOADCANCEL => some (d.upload_command cfg call .UPLOADCANCEL)

/-- `process`. It gives no answer only where a flash command gives none. -/
def process (cfg : Config) (build : Build) (d : Daemon) (call : Call) : Option (Daemon × Bytes) :=
  match dispatch call.line with
  | .error answer => some (d, answer)
  | .ok command => execute cfg build d call command

def process_machine (cfg : Config) (build : Build) : Machine Daemon Call Bytes :=
  process cfg build

variable {cfg : Config} {build : Build} {d d' : Daemon} {call : Call} {answer : Bytes}

theorem process_ok {command : AtCommand} (h : dispatch call.line = .ok command) :
    process cfg build d call = execute cfg build d call command := by
  simp [process, h]

/-- Only the two resets touch the lock, so the session protocol may treat every other
command as a step that does not access it. -/
theorem process_owner (h : process cfg build d call = some (d', answer))
    (hReset : dispatch call.line ≠ .ok .RESET) (hForce : dispatch call.line ≠ .ok .FORCERESET) :
    d'.owner = d.owner := by
  cases hLine : dispatch call.line with
  | error message =>
      simp only [process, hLine, Option.some.injEq, Prod.mk.injEq] at h
      rw [← h.1]
  | ok command =>
      rw [process_ok hLine] at h
      rw [hLine] at hReset hForce
      cases command with
      | RESET => exact absurd rfl hReset
      | FORCERESET => exact absurd rfl hForce
      | FLASH arg | TRYFLASHDONE =>
          simp only [execute, Daemon.flash_command, Option.map_eq_some_iff] at h
          obtain ⟨_, -, hEq⟩ := h
          cases hEq
          rfl
      | STATUS | VERSION | HELP | EXEC | REBOOT | VERIFY =>
          cases h
          rfl
      | PREUPLOAD | UPLOAD | UPLOADDONE | UPLOADCANCEL =>
          cases h
          rfl

/-- What the upload commands keep, every command keeps. -/
theorem process_upload {I : UploadState → Prop}
    (hPerform : ∀ w r, I w.upload → I (perform cfg w r).1.upload) (h : I d.host.upload)
    (hStep : process cfg build d call = some (d', answer)) : I d'.host.upload := by
  have hCommand : ∀ command, some (d.upload_command cfg call command) = some (d', answer) →
      I d'.host.upload := by
    intro command hEq
    obtain rfl : (d.upload_command cfg call command).1 = d' :=
      congrArg Prod.fst (Option.some.inj hEq)
    exact hPerform _ _ h
  cases hLine : dispatch call.line with
  | error message =>
      simp only [process, hLine, Option.some.injEq, Prod.mk.injEq] at hStep
      rwa [← hStep.1]
  | ok command =>
      rw [process_ok hLine] at hStep
      cases command with
      | FLASH arg | TRYFLASHDONE =>
          simp only [execute, Daemon.flash_command, Option.map_eq_some_iff] at hStep
          obtain ⟨_, -, hEq⟩ := hStep
          cases hEq
          exact h
      | STATUS | VERSION | RESET | FORCERESET | HELP | EXEC | REBOOT | VERIFY =>
          cases hStep
          exact h
      | PREUPLOAD | UPLOAD | UPLOADDONE | UPLOADCANCEL => exact hCommand _ hStep

end RkFlashd
