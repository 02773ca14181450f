import RkFlashd.AtHandler.UploadRoundTrip
import RkFlashd.Daemon.Session

/-! The static upload state under the session lock: whose commands reach an upload that
one of the two callers has opened. A handler body is performed as it returns. -/
namespace RkFlashd

open Text Transition

/-- The upload branches of `process`. -/
def AtCommand.upload : AtCommand → Option UploadCommand
  | .PREUPLOAD arg => some (.PREUPLOAD arg)
  | .UPLOAD arg => some (.UPLOAD arg)
  | .UPLOADDONE => some .UPLOADDONE
  | .UPLOADCANCEL => some .UPLOADCANCEL
  | _ => none

/-- What `process` does to the upload state and the files is what `perform` does. -/
theorem execute_upload {cfg : Config} {build : Build} {d : Daemon} {call : Call}
    {command : AtCommand} {u : UploadCommand} (h : command.upload = some u) :
    execute cfg build d call command = some (d.upload_command cfg call u) := by
  cases command <;> cases h <;> rfl

/-- The session with the upload. The code keeps no record of the `opener`, the caller
whose `AT+PREUPLOAD` opened the upload last. -/
structure SharedUpload where
  session : SessionState
  host : Host
  opener : Option Caller

/-- A step of the session, and how the file calls fare if it is the return of a handler. -/
structure SharedAction where
  action : SessionAction
  io : Io := {}
  deriving DecidableEq, Repr

/-- What a step shows, with the answer of an upload command that returns. -/
structure SharedEvent where
  event : SessionEvent
  answer : Option (UploadCommand × Bytes)
  deriving DecidableEq, Repr

/-- The upload command that a step completes. -/
def completed (s : SessionState) : SessionAction → Option (Caller × UploadCommand)
  | .finish who =>
      match s.phase who with
      | .executing (.ok command) => command.upload.map fun u => (who, u)
      | _ => none
  | _ => none

/-- An `AT+PREUPLOAD` that succeeds opens an upload. -/
def opens (command : UploadCommand) (answer : Bytes) : Bool :=
  match command with
  | .PREUPLOAD _ => starts_with answer (str "OK")
  | _ => false

def shared_machine (cfg : Config) : Machine SharedUpload SharedAction SharedEvent := fun s a =>
  (session_machine s.session a.action).map fun (session, event) =>
    match completed s.session a.action with
    | none => ({ s with session := session }, ⟨event, none⟩)
    | some (who, command) =>
        let (host, answer) := perform cfg s.host ⟨who.owner, command, a.io⟩
        ({ session := session, host := host,
           opener := if opens command answer then some who else s.opener },
          ⟨event, some (command, answer)⟩)

abbrev SharedLabel := SharedAction × SharedEvent

/-- A frame is accepted, or an upload in progress is completed or cancelled. -/
def acts (u : UploadState) (command : UploadCommand) (answer : Bytes) : Prop :=
  match command with
  | .PREUPLOAD _ => False
  | .UPLOAD _ => starts_with answer (str "OK") = true
  | .UPLOADDONE => u.active = true ∧ u.file.isSome = true
  | .UPLOADCANCEL => u.active = true

instance (u : UploadState) (command : UploadCommand) (answer : Bytes) :
    Decidable (acts u command answer) :=
  match command with
  | .PREUPLOAD _ => instDecidableFalse
  | .UPLOAD _ => inferInstanceAs (Decidable (_ = _))
  | .UPLOADDONE => inferInstanceAs (Decidable (_ ∧ _))
  | .UPLOADCANCEL => inferInstanceAs (Decidable (_ = _))

/-- Whoever acts on an upload has opened it. -/
def Isolated (s : SharedUpload) (label : SharedLabel) : Prop :=
  ∀ who command answer, completed s.session label.1.action = some (who, command) →
    label.2.answer = some (command, answer) → acts s.host.upload command answer →
      s.opener = some who

/-- A line that may act on an upload. -/
def Reaching (line : Except Bytes AtCommand) : Bool :=
  match line with
  | .ok (.UPLOAD _) => true
  | .ok .UPLOADDONE => true
  | .ok .UPLOADCANCEL => true
  | _ => false

/-- A thread past the gate with such a line. -/
def PastGate : Phase → Bool
  | .admitted cmd => Reaching (dispatch cmd)
  | .executing line => Reaching line
  | _ => false

/-- The caller that a step gives the lock to. -/
def takes (s : SessionState) : SessionAction → Option Caller
  | .access who =>
      match s.phase who with
      | .acquiring _ => if s.owner = .NONE then some who else none
      | _ => none
  | .override .debug_lock => if s.owner = .NONE then some .serial else none
  | _ => none

/-- An announcement that finds no upload in progress, a well-formed argument, and a temp
file that can be created. -/
def may_open (w : Host) (io : Io) : UploadCommand → Bool
  | .PREUPLOAD arg => ¬ w.upload.active ∧ (parse_preupload arg).isOk ∧ io.fopen
  | _ => false

/-- Nobody is given the lock while an upload that the other caller opened is active, and
an upload is opened only while the other caller neither owns the lock nor is past the gate
with a line that may act on it. -/
def Undisturbed (s : SharedUpload) (label : SharedLabel) : Prop :=
  (∀ who ∈ takes s.session label.1.action,
    s.host.upload.active = true → s.opener = some who) ∧
  (∀ done ∈ completed s.session label.1.action, may_open s.host label.1.io done.2 = true →
    s.session.owner ≠ done.1.other.owner ∧
      PastGate (s.session.phase done.1.other) = false)

instance (s : SharedUpload) (label : SharedLabel) : Decidable (Undisturbed s label) :=
  inferInstanceAs (Decidable (_ ∧ _))

/-- A caller that neither owns the lock nor is past the gate with a line that may act on
an upload. -/
def Outside (s : SessionState) (who : Caller) : Prop :=
  s.owner ≠ who.owner ∧ PastGate (s.phase who) = false

section Steps

variable {cfg : Config} {s t : SessionState} {event : SessionEvent} {who other : Caller}

theorem past_gate_relies {phase : Phase} (h : PastGate phase = true) : Relies phase := by
  cases phase with
  | admitted cmd =>
      constructor
      · intro hReset
        simp [PastGate, hReset, Reaching] at h
      · intro hForce
        simp [PastGate, hForce, Reaching] at h
  | executing line =>
      intro hReset
      simp [PastGate, hReset, Reaching] at h
  | idle | checking | acquiring | comparing | releasing | answering => cases h

theorem receive_not_past_gate (who : Caller) (cmd : Bytes) :
    PastGate (receive who cmd) = false :=
  Bool.eq_false_of_not_eq_true fun h => receive_not_relies who cmd (past_gate_relies h)

/-- An access that leaves the lock with a caller has found it there, or has taken it. -/
theorem access_takes {owner : Owner} {phase : Phase}
    (h : access who s.owner (s.phase who) = some (owner, phase, event))
    (hOwner : owner = other.owner) :
    s.owner = other.owner ∨ takes s (.access who) = some other := by
  by_cases hForce : s.phase who = .executing (.ok .FORCERESET)
  · rw [hForce] at h
    cases h
    exact absurd hOwner.symm (owner_ne_none other)
  · rcases access_cases h hForce with
      hSame | ⟨⟨cmd, hPhase, -⟩, hFree, hTaken⟩ | ⟨-, -, hReleased⟩
    · exact Or.inl (hSame ▸ hOwner)
    · right
      have hWho : who = other := by
        rw [hTaken] at hOwner
        revert hOwner
        cases who <;> cases other <;> decide
      subst hWho
      simp [takes, hPhase, hFree]
    · left
      rw [hReleased, release] at hOwner
      split at hOwner
      · exact absurd hOwner.symm (owner_ne_none other)
      · exact hOwner

theorem override_takes {event : Override} (h : override event s.owner = other.owner) :
    s.owner = other.owner ∨ takes s (.override event) = some other := by
  cases event with
  | api_reset | stop => exact absurd h.symm (owner_ne_none other)
  | debug_lock =>
      by_cases hFree : s.owner = .NONE
      · right
        simp only [override, try_acquire, hFree, if_true] at h
        cases other with
        | http => cases h
        | serial => simp [takes, hFree]
      · left
        simpa only [override, try_acquire, hFree, if_false] using h

/-- Only who is given the lock comes in from outside. -/
theorem Outside.step {action : SessionAction} (h : Outside s who)
    (hStep : session_machine s action = some (t, event)) (hTakes : takes s action ≠ some who) :
    Outside t who := by
  have hGoto : ∀ c phase, (c = who → PastGate phase = false) → Outside (s.goto c phase) who := by
    intro c phase hPhase
    refine ⟨h.1, ?_⟩
    by_cases hc : who = c
    · subst hc
      rw [SessionState.goto_phase]
      exact hPhase rfl
    · rw [SessionState.goto_phase_of_ne hc]
      exact h.2
  cases action with
  | arrive c cmd =>
      simp only [session_machine] at hStep
      split at hStep <;> cases hStep
      exact hGoto c _ fun _ => receive_not_past_gate c cmd
  | access c =>
      simp only [session_machine] at hStep
      split at hStep <;> cases hStep
      rename_i owner phase hAccess
      have hOwner : owner ≠ who.owner := by
        intro hOwner
        rcases access_takes hAccess hOwner with hOwned | hTaken
        · exact h.1 hOwned
        · exact hTakes hTaken
      refine ⟨hOwner, ?_⟩
      by_cases hc : who = c
      · subst hc
        rw [SessionState.goto_phase]
        exact Bool.eq_false_of_not_eq_true fun hPast =>
          hOwner (access_relies hAccess (past_gate_relies hPast))
      · rw [SessionState.goto_phase_of_ne hc]
        exact h.2
  | start c =>
      simp only [session_machine] at hStep
      split at hStep <;> cases hStep
      rename_i cmd hAdmitted
      apply hGoto
      rintro rfl
      have hPast := h.2
      rwa [hAdmitted] at hPast
  | finish c =>
      simp only [session_machine] at hStep
      split at hStep <;> cases hStep
      exact hGoto c .idle fun _ => rfl
  | override change =>
      cases hStep
      refine ⟨fun hOwner => ?_, h.2⟩
      rcases override_takes hOwner with hOwned | hTaken
      · exact h.1 hOwned
      · exact hTakes hTaken

theorem takes_of_completed {action : SessionAction} {done : Caller × UploadCommand}
    (h : completed s action = some done) : takes s action = none := by
  cases action with
  | finish c => rfl
  | arrive | access | start | override => cases h

/-- A caller about to complete a command that acts on an upload is past the gate. -/
theorem past_gate_of_completed {action : SessionAction} {command : UploadCommand}
    (h : completed s action = some (who, command)) :
    PastGate (s.phase who) = true ∨ ∃ arg, command = .PREUPLOAD arg := by
  unfold completed at h
  split at h
  · rename_i c
    split at h
    · rename_i found hPhase
      obtain ⟨u, hUpload, hEq⟩ := Option.map_eq_some_iff.mp h
      cases hEq
      rw [hPhase]
      cases found <;> cases hUpload
      · exact Or.inr ⟨_, rfl⟩
      · exact Or.inl rfl
      · exact Or.inl rfl
      · exact Or.inl rfl
    · cases h
  · cases h

end Steps

section Uploads

variable {cfg : Config} {w : Host} {caller : Owner} {command : UploadCommand} {io : Io}

/-- An announcement that opens an upload is one that may. -/
theorem opens_may_open (h : opens command (perform cfg w ⟨caller, command, io⟩).2 = true) :
    may_open w io command = true := by
  cases command with
  | PREUPLOAD arg =>
      rcases handle_preupload_cases cfg io arg w with
        ⟨answer, hResult, hError⟩ | ⟨args, file, fs, hInactive, hParse, hOpen, -⟩
      · simp [opens, perform, hResult, not_ok_of_error hError] at h
      · have hCreated := (Storage.FileSystem.fopen_inv hOpen).1
        simp [may_open, hInactive, hParse, hCreated, Except.isOk, Except.toBool]
  | UPLOAD | UPLOADDONE | UPLOADCANCEL => cases h

/-- An upload that is active after a command was so before, or the command opened it. -/
theorem perform_active
    (h : (perform cfg w ⟨caller, command, io⟩).1.upload.active = true) :
    w.upload.active = true ∨
      opens command (perform cfg w ⟨caller, command, io⟩).2 = true := by
  cases command with
  | PREUPLOAD arg =>
      rcases handle_preupload_cases cfg io arg w with
        ⟨answer, hResult, -⟩ | ⟨args, file, fs, -, -, -, hResult⟩
      · left
        simpa [perform, hResult] using h
      · right
        simp only [opens, perform, hResult]
        rfl
  | UPLOAD arg =>
      left
      rcases handle_upload_frame_cases io arg w with
        ⟨count, answer, hResult, -⟩ | ⟨file, data, written, fs, -, -, -, hResult⟩ |
          ⟨file, data, fs, -, -, hResult⟩
      · simpa [perform, hResult] using h
      · simpa [perform, hResult] using h
      · simpa [perform, hResult] using h
  | UPLOADDONE =>
      left
      simp only [perform, handle_uploaddone] at h
      split at h
      · assumption
      · exact h
  | UPLOADCANCEL =>
      left
      simp only [perform, handle_uploadcancel] at h
      split at h
      · exact h
      · cases h

theorem acts_active
    (h : acts w.upload command (perform cfg w ⟨caller, command, io⟩).2) :
    w.upload.active = true := by
  cases command with
  | PREUPLOAD arg => cases h
  | UPLOAD arg =>
      rcases handle_upload_frame_cases io arg w with
        ⟨count, answer, hResult, hError⟩ | ⟨file, data, written, fs, hCheck, -, -, -⟩ |
          ⟨file, data, fs, hCheck, -, -⟩
      · simp [acts, perform, hResult, not_ok_of_error hError] at h
      · exact (check_frame_ok hCheck).1
      · exact (check_frame_ok hCheck).1
  | UPLOADDONE => exact h.1
  | UPLOADCANCEL => exact h

/-- The two kinds of step: the upload stays as it is, or a handler works on it. -/
theorem shared_cases {s t : SharedUpload} {label : SharedLabel}
    (h : (shared_machine cfg).Step s label t) :
    ∃ event, session_machine s.session label.1.action = some (t.session, event) ∧
      (completed s.session label.1.action = none ∧ t.host = s.host ∧ t.opener = s.opener ∨
        ∃ who command, completed s.session label.1.action = some (who, command) ∧
          t.host = (perform cfg s.host ⟨who.owner, command, label.1.io⟩).1 ∧
          label.2.answer =
            some (command, (perform cfg s.host ⟨who.owner, command, label.1.io⟩).2) ∧
          t.opener =
            if opens command (perform cfg s.host ⟨who.owner, command, label.1.io⟩).2 then some who
            else s.opener) := by
  obtain ⟨⟨session, event⟩, hSession, hEq⟩ := Option.map_eq_some_iff.mp h
  dsimp only at hEq
  refine ⟨event, ?_⟩
  split at hEq
  · rename_i hNone
    obtain ⟨rfl, -⟩ := Prod.mk.inj hEq
    exact ⟨hSession, Or.inl ⟨hNone, rfl, rfl⟩⟩
  · rename_i who command hCompleted
    obtain ⟨rfl, hEvent⟩ := Prod.mk.inj hEq
    exact ⟨hSession, Or.inr ⟨who, command, hCompleted, rfl, by rw [← hEvent], rfl⟩⟩

end Uploads

/-- The caller that did not open the active upload has no way to it. -/
def Sheltered (s : SharedUpload) : Prop :=
  s.host.upload.active = true → ∃ who, s.opener = some who ∧ Outside s.session who.other

theorem other_ne (who : Caller) : who.other ≠ who := by
  cases who <;> decide

/-- An undisturbed step gives the other caller no way to the upload. -/
theorem Sheltered.step {cfg : Config} {s t : SharedUpload} {label : SharedLabel}
    (h : Sheltered s)
    (hStep : Guarded (shared_machine cfg).Step Undisturbed s label t) : Sheltered t := by
  obtain ⟨hStep, hTakes, hOpens⟩ := hStep
  obtain ⟨event, hSession, hCases⟩ := shared_cases hStep
  -- what the guard says about the lock keeps the other caller outside
  have hOutside : s.host.upload.active = true → ∃ who, s.opener = some who ∧
      Outside t.session who.other := by
    intro hActive
    obtain ⟨who, hOpener, hOther⟩ := h hActive
    refine ⟨who, hOpener, hOther.step hSession ?_⟩
    intro hTaken
    have hSame := (hTakes _ hTaken hActive).symm.trans hOpener
    exact other_ne who (Option.some.inj hSame)
  intro hActive
  rcases hCases with ⟨-, hHost, hOpener⟩ | ⟨who, command, hCompleted, hHost, -, hOpener⟩
  · rw [hHost] at hActive
    rw [hOpener]
    exact hOutside hActive
  · rw [hHost] at hActive
    rcases perform_active hActive with hBefore | hOpened
    · have hKept : ¬ opens command
          (perform cfg s.host ⟨who.owner, command, label.1.io⟩).2 = true := by
        intro hOpened
        have hMay := opens_may_open hOpened
        cases command <;> simp [may_open, hBefore] at hMay
      rw [hOpener, if_neg hKept]
      exact hOutside hBefore
    · have hOther : Outside s.session who.other := hOpens _ hCompleted (opens_may_open hOpened)
      have hNone : takes s.session label.1.action = none := takes_of_completed hCompleted
      rw [hOpener, if_pos hOpened]
      exact ⟨who, rfl, hOther.step hSession (by simp [hNone])⟩

theorem Sheltered.isolated {cfg : Config} {s t : SharedUpload} {label : SharedLabel}
    (h : Sheltered s) (hStep : (shared_machine cfg).Step s label t) : Isolated s label := by
  obtain ⟨event, -, hCases⟩ := shared_cases hStep
  intro who command answer hCompleted hAnswer hActs
  rcases hCases with ⟨hNone, -⟩ | ⟨found, done, hFound, -, hResult, -⟩
  · rw [hNone] at hCompleted
    cases hCompleted
  · obtain ⟨rfl, rfl⟩ : found = who ∧ done = command := by simpa [hFound] using hCompleted
    obtain rfl : (perform cfg s.host ⟨found.owner, done, label.1.io⟩).2 = answer := by
      simpa [hResult] using hAnswer
    obtain ⟨opener, hOpener, hOutside⟩ := h (acts_active hActs)
    by_cases hSame : found = opener
    · rw [hOpener, hSame]
    · have hOther : found = opener.other := by
        revert hSame
        cases found <;> cases opener <;> decide
      rcases past_gate_of_completed hFound with hPast | ⟨arg, rfl⟩
      · rw [hOther, hOutside.2] at hPast
        cases hPast
      · cases hActs

/-- **Upload isolation.** As long as the lock never goes to another caller during an
upload, whoever acts on an upload is the caller that opened it. -/
theorem upload_isolated {cfg : Config} {s₀ s t : SharedUpload} {trace : List SharedLabel}
    {label : SharedLabel} (hIdle : s₀.host.upload.active = false)
    (run : Runs (Guarded (shared_machine cfg).Step Undisturbed) s₀ trace s)
    (hStep : (shared_machine cfg).Step s label t) : Isolated s label := by
  have hSheltered : Sheltered s := by
    apply run.invariant (I := Sheltered) fun _ _ _ h hNext => h.step hNext
    intro hActive
    exact absurd (hActive.symm.trans hIdle) (by decide)
  exact hSheltered.isolated hStep

/-- A caller sends a line and passes the gate in so many accesses. -/
def sends (who : Caller) (accesses : Nat) (cmd : Bytes) : List SharedAction :=
  ⟨.arrive who cmd, {}⟩ :: (List.replicate accesses ⟨.access who, {}⟩ ++ [⟨.start who, {}⟩])

def announce_line : Bytes := str "AT+PREUPLOAD=" ++ preupload_arg (str "f") (str "ab")

def frame_line : Bytes := (Sent.good (str "ab")).line

/-- An upload over HTTP, up to the frame. -/
theorem upload_isolated_http :
    ∃ trace s label t,
      Runs (Guarded (shared_machine {}).Step Undisturbed) ⟨.start, fresh_host, none⟩ trace s ∧
        (shared_machine {}).Step s label t ∧
        s.host.upload.active = true ∧ Isolated s label := by
  obtain ⟨⟨s, trace⟩, hExec, hFound⟩ := Option.map_eq_some_iff.mp
    (by decide +kernel : (((shared_machine {}).guard Undisturbed).exec ⟨.start, fresh_host, none⟩
      (sends .http 2 announce_line ++ [⟨.finish .http, {}⟩] ++ sends .http 2 frame_line)).map
        (fun r => (r.1.host.upload.active, (shared_machine {} r.1 ⟨.finish .http, {}⟩).isSome)) =
          some (true, true))
  have hActive : s.host.upload.active = true := congrArg Prod.fst hFound
  obtain ⟨⟨t, event⟩, hStep⟩ := Option.isSome_iff_exists.mp (congrArg Prod.snd hFound)
  exact ⟨trace, s, (⟨.finish .http, {}⟩, event), t, Machine.runs_of_guard_exec hExec, hStep,
    hActive, upload_isolated rfl (Machine.runs_of_guard_exec hExec) hStep⟩

/-- HTTP opens an upload and resets its session; the serial side gets the lock, and the
upload with it. -/
theorem upload_taken_over :
    ∃ trace s label t, Runs (shared_machine {}).Step ⟨.start, fresh_host, none⟩ trace s ∧
      (shared_machine {}).Step s label t ∧ ¬ Isolated s label := by
  obtain ⟨⟨s, trace⟩, hExec, hFound⟩ := Option.map_eq_some_iff.mp
    (by decide +kernel : ((shared_machine {}).exec ⟨.start, fresh_host, none⟩
      (sends .http 2 announce_line ++ [⟨.finish .http, {}⟩] ++ sends .http 0 (str "AT+RESET") ++
        [⟨.access .http, {}⟩, ⟨.access .http, {}⟩, ⟨.finish .http, {}⟩] ++
        sends .serial 1 frame_line)).map
        (fun r => (decide (r.1.opener = some .http),
          decide (completed r.1.session (.finish .serial) =
            some (.serial, .UPLOAD (Sent.good (str "ab")).arg)),
          decide ((shared_machine {} r.1 ⟨.finish .serial, {}⟩).map (fun x => x.2.answer) =
            some (some (.UPLOAD (Sent.good (str "ab")).arg, str "OK 2"))))) =
        some (true, true, true))
  simp only [Prod.mk.injEq, decide_eq_true_eq] at hFound
  obtain ⟨hOpener, hCompleted, hFinish⟩ := hFound
  obtain ⟨⟨t, event⟩, hStep, hAnswer⟩ := Option.map_eq_some_iff.mp hFinish
  refine ⟨trace, s, (⟨.finish .serial, {}⟩, event), t, Machine.runs_of_exec hExec, hStep, ?_⟩
  intro hIsolated
  have hSerial := hIsolated .serial _ _ hCompleted hAnswer rfl
  rw [hOpener] at hSerial
  cases hSerial

end RkFlashd
