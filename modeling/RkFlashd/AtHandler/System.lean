import RkFlashd.AtHandler.Flash

/-! `handler_exec.cpp` and `handler_version.cpp`: the commands that depend on how the
daemon was built and on the system around it. -/
namespace RkFlashd

open Text

/-- What is fixed when the daemon is compiled. -/
structure Build where
  allow_rce : Bool := false
  allow_reboot : Bool := false
  version : Bytes := str "0.1.0-dev"
  arch : Bytes := str "unknown"
  date : Bytes
  time : Bytes

/-- A shell command: the lines `fgets` reads of its output and how `pclose` finds it. -/
structure ShellRun where
  lines : List Bytes
  ending : Ending
  pclose_fails : Bool := false

def ShellRun.output (run : ShellRun) : Bytes := trim_newlines (run.lines.flatMap c_str)

def ShellRun.exit_code (run : ShellRun) : Int :=
  WEXITSTATUS (if run.pclose_fails then -1 else wait_status run.ending)

/-- `popen` is `none` when it fails. -/
def handle_exec (build : Build) (popen : Option ShellRun) (arg : Bytes) : Bytes :=
  if ¬ build.allow_rce then
    str "ERROR: AT+EXEC is disabled (rebuild with -DALLOW_RCE to enable)"
  else if arg = [] then str "ERROR: AT+EXEC requires a command"
  else
    match popen with
    | none => str "ERROR: failed to execute command"
    | some run =>
        if run.exit_code = 0 then str "OK\n" ++ run.output
        else str "ERROR exit=" ++ int_to_string run.exit_code ++ str "\n" ++ run.output

def handle_version (build : Build) : Bytes :=
  str "OK" ++ str " daemon=" ++ build.version ++ str " arch=" ++ build.arch ++
    str " build=" ++ build.date ++ str " " ++ build.time

/-- The results of `system("reboot")` and of `system("shutdown -r now")`. -/
def handle_reboot (build : Build) (reboot shutdown : Int) : Bytes :=
  if ¬ build.allow_reboot then
    str "ERROR: AT+REBOOT is disabled (rebuild with -DENABLE_REBOOT=ON)"
  else if reboot = 0 then str "OK rebooting"
  else if shutdown = 0 then str "OK rebooting"
  else str "ERROR: reboot failed (exit code " ++ int_to_string shutdown ++ str ")"

end RkFlashd
