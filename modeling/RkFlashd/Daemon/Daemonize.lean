import RkFlashd.Daemon.Config
import RkFlashd.Storage.Descriptors

/-! `daemonize` and `cleanup_pid_file`: the process that comes out of the two forks, which
descriptors it has, and what it writes down about itself. -/
namespace RkFlashd

open Text Storage

abbrev Pid := {n : Nat // 0 < n ∧ n < 2 ^ 31}

/-- What a descriptor stands for: something the daemon was started with, or a file that
`daemonize` opens. -/
inductive OpenFile where
  | inherited (id : Nat)
  | dev_null
  | pid_file
  deriving DecidableEq, Repr

/-- The attributes of a process that `daemonize` changes, and the files. -/
structure ProcessState where
  pid : Pid
  sid : Pid
  umask : Nat
  cwd : List Bytes
  fds : Descriptors OpenFile
  fs : FileSystem

/-- The outcomes of the calls. A fork gives the process that goes on; `open_max` is what
`sysconf(_SC_OPEN_MAX)` gives as an `int`, `-1` where there is no limit. -/
structure DaemonizeCalls where
  fork : Option Pid
  setsid : Bool := true
  fork_second : Option Pid
  chdir : Bool := true
  open_max : Int
  dev_null : Bool := true
  pid_file : Io := {}

/-- The loop over the descriptors, from the highest number down. -/
def close_all (open_max : Int) (fds : Descriptors OpenFile) : Descriptors OpenFile :=
  if 0 ≤ open_max then fds.close_down open_max.toNat else fds

/-- `/dev/null` as standard input, output and error. -/
def redirect (fds : Descriptors OpenFile) : Descriptors OpenFile :=
  let (fd, fds) := fds.open_file .dev_null
  let fds := fds.dup2 fd 0
  let fds := fds.dup2 fd 1
  let fds := fds.dup2 fd 2
  if 2 < fd then fds.close fd else fds

/-- `"%d\n"`. -/
def pid_line (pid : Pid) : Bytes := to_string pid.val ++ str "\n"

def write_pid_file (cfg : Config) (io : Io) (p : ProcessState) : ProcessState :=
  match p.fs.fopen cfg.pid_file.val io.fopen with
  | (none, fs) => { p with fs := fs }
  | (some pidfile, fs) =>
      let (fd, fds) := p.fds.open_file .pid_file
      let fs := (fs.fwrite pidfile (pid_line p.pid) io.fwrite).2
      let fs := (fs.fclose pidfile io.fclose).2
      { p with fds := fds.close fd, fs := fs }

/-- `daemonize`: whether it returns true and in which process, with the processes that have
exited with status 0 on the way. -/
def daemonize (cfg : Config) (calls : DaemonizeCalls) (p : ProcessState) :
    (Bool × ProcessState) × List Pid :=
  match calls.fork with
  | none => ((false, p), [])
  | some pid =>
      let exited := [p.pid]
      let p := { p with pid := pid }
      if ¬ calls.setsid then ((false, p), exited)
      else
        let p := { p with sid := p.pid }
        match calls.fork_second with
        | none => ((false, p), exited)
        | some pid =>
            let exited := exited ++ [p.pid]
            let p := { p with pid := pid, umask := 0 }
            if ¬ calls.chdir then ((false, p), exited)
            else
              let p := { p with cwd := [], fds := close_all calls.open_max p.fds }
              let p := if calls.dev_null then { p with fds := redirect p.fds } else p
              ((true, write_pid_file cfg calls.pid_file p), exited)

/-- `cleanup_pid_file`. -/
def cleanup_pid_file (cfg : Config) (io : Io) (p : ProcessState) : ProcessState :=
  { p with fs := (p.fs.unlink cfg.pid_file.val io.unlink).2 }

variable {cfg : Config} {calls : DaemonizeCalls} {p q : ProcessState} {exited : List Pid}

theorem file_close_all (open_max : Int) (fds : Descriptors OpenFile) (n : Nat) :
    (close_all open_max fds).file n = if n ≤ open_max then none else fds.file n := by
  unfold close_all
  split
  · rename_i hLimit
    have hIff : n ≤ open_max.toNat ↔ (n : Int) ≤ open_max := by omega
    rw [Descriptors.file_close_down, if_congr hIff rfl rfl]
  · rename_i hNone
    rw [if_neg (by omega)]

/-- Wherever `/dev/null` is opened first, it ends up in the three places and nowhere else. -/
theorem file_redirect (fds : Descriptors OpenFile) (n : Nat) :
    (redirect fds).file n = if n ≤ 2 then some .dev_null else fds.file n := by
  have hFree := fds.file_lowest
  have hFirst : (fds.put fds.lowest .dev_null).file fds.lowest = some .dev_null := by simp
  unfold redirect Descriptors.open_file
  dsimp only
  generalize hTable : fds.put fds.lowest .dev_null = t₀ at hFirst ⊢
  have hFile₀ : ∀ k, t₀.file k = if k = fds.lowest then some .dev_null else fds.file k := by
    intro k
    rw [← hTable, Descriptors.file_put]
  have hSecond : (t₀.dup2 fds.lowest 0).file fds.lowest = some .dev_null := by
    rw [Descriptors.file_dup2 t₀ hFirst, hFirst]
    split <;> rfl
  have hThird : ((t₀.dup2 fds.lowest 0).dup2 fds.lowest 1).file fds.lowest = some .dev_null := by
    rw [Descriptors.file_dup2 _ hSecond, hSecond]
    split <;> rfl
  have hAll : ∀ k, (((t₀.dup2 fds.lowest 0).dup2 fds.lowest 1).dup2 fds.lowest 2).file k =
      if k ≤ 2 ∨ k = fds.lowest then some .dev_null else fds.file k := by
    intro k
    rw [Descriptors.file_dup2 _ hThird, Descriptors.file_dup2 _ hSecond,
      Descriptors.file_dup2 _ hFirst, hFile₀]
    split_ifs <;> first | rfl | omega
  split
  · rename_i hHigh
    rw [Descriptors.file_close, hAll]
    split_ifs <;> first | rfl | omega | simp_all
  · rename_i hLow
    rw [hAll]
    split_ifs <;> first | rfl | omega

/-- The descriptor of the PID file is closed again, and the file holds what was written. -/
theorem write_pid_file_cases (cfg : Config) (io : Io) (p : ProcessState) :
    (∀ n, (write_pid_file cfg io p).fds.file n = p.fds.file n) ∧
      (write_pid_file cfg io p).pid = p.pid ∧ (write_pid_file cfg io p).sid = p.sid ∧
      (write_pid_file cfg io p).umask = p.umask ∧ (write_pid_file cfg io p).cwd = p.cwd ∧
      (io.fopen = true → ∃ written, written <+: pid_line p.pid ∧
        (write_pid_file cfg io p).fs.read cfg.pid_file.val = some written ∧
        (io.fwrite = none → io.fclose = 0 → written = pid_line p.pid)) := by
  unfold write_pid_file
  split
  · rename_i fs hFopen
    refine ⟨fun n => rfl, rfl, rfl, rfl, rfl, fun hOpens => ?_⟩
    obtain ⟨file, next, hSome⟩ := p.fs.fopen_succeeds cfg.pid_file.val
    rw [hOpens, hSome] at hFopen
    cases hFopen
  · rename_i pidfile fs hFopen
    refine ⟨fun n => p.fds.file_close_open .pid_file n, rfl, rfl, rfl, rfl, fun _ => ?_⟩
    obtain ⟨next, hWrite, hWriting⟩ :=
      (FileSystem.Writing.of_fopen hFopen).fwrite (pid_line p.pid) io.fwrite
    obtain ⟨final, hClose, -, hRead⟩ := hWriting.fclose io.fclose
    simp only [hWrite, hClose]
    refine ⟨_, ?_, hRead, fun hFull hFlush => ?_⟩
    · rw [List.nil_append]
      exact (List.take_prefix _ _).trans (List.take_prefix _ _)
    · have hLength : (pid_line p.pid).length ≤ maxFileSize := by
        have hDigits := to_string_length_le p.pid.val
        have hPid := p.pid.property.2
        simp only [pid_line, List.length_append]
        have hNewline : (str "\n").length = 1 := by decide
        unfold maxFileSize
        omega
      simp [hFull, hFlush, FileSystem.stored, hLength]

/-- The process that `daemonize` returns in has no parent to wait for it and leads no session.
It has the three standard descriptors, and those above the limit that it was started with. -/
structure Detached (cfg : Config) (calls : DaemonizeCalls) (p q : ProcessState)
    (exited : List Pid) : Prop where
  parents : ∃ child, calls.fork = some child ∧ exited = [p.pid, child] ∧ q.sid = child
  no_leader : q.pid ≠ q.sid
  surroundings : q.cwd = [] ∧ q.umask = 0
  descriptors : ∀ n : Nat, q.fds.file n =
    if n ≤ 2 ∧ calls.dev_null = true then some .dev_null
    else if n ≤ calls.open_max then none else p.fds.file n
  pid_file : calls.pid_file.fopen = true → ∃ written, written <+: pid_line q.pid ∧
    q.fs.read cfg.pid_file.val = some written ∧
    (calls.pid_file.fwrite = none → calls.pid_file.fclose = 0 → written = pid_line q.pid)
  removed : ∀ io : Io, io.unlink = true →
    (cleanup_pid_file cfg io q).fs.read cfg.pid_file.val = none

/-- What `daemonize` does once it is the second child. -/
theorem daemonize_child {child pid : Pid} (hNe : pid ≠ child) :
    Detached cfg { calls with fork := some child, fork_second := some pid } p
      (write_pid_file cfg calls.pid_file
        (let p : ProcessState :=
          ⟨pid, child, 0, [], close_all calls.open_max p.fds, p.fs⟩
        if calls.dev_null then { p with fds := redirect p.fds } else p)) [p.pid, child] := by
  dsimp only
  generalize hReady : (if calls.dev_null = true then
    (⟨pid, child, 0, [], redirect (close_all calls.open_max p.fds), p.fs⟩ : ProcessState)
    else ⟨pid, child, 0, [], close_all calls.open_max p.fds, p.fs⟩) = ready
  have hFiles : ∀ n : Nat, ready.fds.file n =
      if n ≤ 2 ∧ calls.dev_null = true then some .dev_null
      else if n ≤ calls.open_max then none else p.fds.file n := by
    intro n
    rw [← hReady]
    by_cases hNull : calls.dev_null = true
    · simp [hNull, file_redirect, file_close_all]
    · simp [hNull, file_close_all]
  have hIdentity : ready.pid = pid ∧ ready.sid = child ∧ ready.cwd = [] ∧ ready.umask = 0 := by
    rw [← hReady]
    split <;> exact ⟨rfl, rfl, rfl, rfl⟩
  obtain ⟨hSame, hPid, hSid, hUmask, hCwd, hPidFile⟩ :=
    write_pid_file_cases cfg calls.pid_file ready
  refine ⟨⟨child, rfl, rfl, hSid.trans hIdentity.2.1⟩, ?_,
    ⟨hCwd.trans hIdentity.2.2.1, hUmask.trans hIdentity.2.2.2⟩,
    fun n => (hSame n).trans (hFiles n), ?_, ?_⟩
  · rw [hPid, hSid, hIdentity.1, hIdentity.2.1]
    exact hNe
  · rw [hPid]
    exact hPidFile
  · intro io hUnlink
    rw [cleanup_pid_file, hUnlink]
    exact FileSystem.unlink_read _ _

/-- A daemon is detached from where it was started. If it cannot be, its descriptors and the
files are as they were, but unless the very first fork has failed, the process that was started
has already exited with status 0. -/
theorem daemonize_detaches (cfg : Config) (calls : DaemonizeCalls) (p : ProcessState)
    (hFresh : ∀ child, calls.fork = some child → calls.fork_second ≠ some child) :
    ((daemonize cfg calls p).1.1 = true →
      Detached cfg calls p (daemonize cfg calls p).1.2 (daemonize cfg calls p).2) ∧
    ((daemonize cfg calls p).1.1 = false →
      (daemonize cfg calls p).1.2.fds = p.fds ∧ (daemonize cfg calls p).1.2.fs = p.fs ∧
      (p.pid ∈ (daemonize cfg calls p).2 ↔ calls.fork ≠ none)) := by
  rcases calls with ⟨fork, setsid, fork_second, chdir, open_max, dev_null, pid_file⟩
  cases fork with
  | none => simp [daemonize]
  | some child =>
      cases setsid with
      | false => simp [daemonize]
      | true =>
          cases fork_second with
          | none => simp [daemonize]
          | some pid =>
              cases chdir with
              | false => simp [daemonize]
              | true =>
                  have hNe : pid ≠ child := fun hEq => hFresh child rfl (by rw [hEq])
                  have hChild := @daemonize_child cfg
                    ⟨some child, true, some pid, true, open_max, dev_null, pid_file⟩ p child pid hNe
                  exact ⟨fun _ => hChild, fun hFalse => by simp [daemonize] at hFalse⟩

/-- A process with its three standard descriptors and a file that it was given. -/
def started_process : ProcessState where
  pid := ⟨100, by decide⟩
  sid := ⟨99, by decide⟩
  umask := 18
  cwd := [str "root"]
  fds := (((({ file := fun _ => none, bound := 0, none_above := fun _ _ => rfl } :
    Descriptors OpenFile).put 0 (.inherited 0)).put 1 (.inherited 1)).put 2 (.inherited 2)).put 7
      (.inherited 7)
  fs := FileSystem.empty

/-- There is no limit for descriptors. -/
def unlimited_calls : DaemonizeCalls where
  fork := some ⟨101, by decide⟩
  fork_second := some ⟨102, by decide⟩
  open_max := -1

/-- Without a limit the loop closes nothing, and the file stays open. -/
theorem daemonize_detaches_unlimited :
    ∃ q, (daemonize {} unlimited_calls started_process).1 = (true, q) ∧
      q.fds.file 7 = some (.inherited 7) ∧ q.fds.file 3 = none ∧
      q.fs.read (Config.pid_file {}).val = some (str "102\n") := by
  obtain ⟨hTrue, -⟩ := daemonize_detaches {} unlimited_calls started_process
    (by rintro child ⟨⟩; decide)
  have hDetached := hTrue rfl
  obtain ⟨written, -, hRead, hFull⟩ := hDetached.pid_file rfl
  refine ⟨(daemonize {} unlimited_calls started_process).1.2, rfl, ?_, ?_, ?_⟩
  · rw [hDetached.descriptors]
    rfl
  · rw [hDetached.descriptors]
    rfl
  · rw [hRead, hFull rfl rfl]
    rfl

end RkFlashd
