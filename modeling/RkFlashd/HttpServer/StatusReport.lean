import RkFlashd.HttpServer.Access
import RkFlashd.Daemon.SessionSafety
import RkFlashd.Machine.Lockstep

/-! `GET /api/status` reads the lock three times, while the serial reader goes on. -/
namespace RkFlashd

open Text Transition

/-- What `handleStatus` reads next, with what it has put into the answer. -/
inductive StatusPhase where
  | first
  | second (daemon_busy : Bool)
  | third (daemon_busy : Bool)
  | reported (daemon_busy : Bool) (lock_owner : Json)

/-- A request on the HTTP thread, and the two threads' session. -/
structure StatusState where
  session : SessionState
  phase : StatusPhase

inductive StatusAction where
  | load
  | session (action : SessionAction)

/-- The next access of `handleStatus` to `owner_`. -/
def StatusPhase.load (owner : Owner) : StatusPhase → Option StatusPhase
  | .first => some (.second (is_busy owner))
  | .second daemon_busy =>
      if is_busy owner then some (.third daemon_busy) else some (.reported daemon_busy .null)
  | .third daemon_busy =>
      some (.reported daemon_busy (.string (if owner = .HTTP then str "HTTP" else str "SERIAL")))
  | .reported .. => none

/-- The HTTP thread is busy with the request, so that only the reader uses the lock. -/
def status_machine : Machine StatusState StatusAction (Option SessionEvent) := fun s action =>
  match action with
  | .load => (s.phase.load s.session.owner).map fun phase => ({ s with phase := phase }, none)
  | .session action =>
      if action.caller = some .serial then
        (session_machine s.session action).map fun result =>
          ({ s with session := result.1 }, some result.2)
      else none

abbrev StatusLabel := StatusAction × Option SessionEvent

variable {s t : StatusState} {label : StatusLabel} {trace : List StatusLabel} {busy : Bool}
  {owner : Json}

/-- Both answers of a request that is not disturbed are those of `handleStatus`. -/
theorem status_undisturbed (session : SessionState) :
    ∃ actions trace, status_machine.exec ⟨session, .first⟩ actions =
      some (⟨session, .reported (is_busy session.owner) (lock_owner session.owner)⟩, trace) := by
  cases hOwner : session.owner with
  | NONE =>
      refine ⟨[.load, .load], [(.load, none), (.load, none)], ?_⟩
      simp [Machine.exec, status_machine, StatusPhase.load, hOwner, is_busy, lock_owner]
  | HTTP | SERIAL =>
      refine ⟨[.load, .load, .load], [(.load, none), (.load, none), (.load, none)], ?_⟩
      simp [Machine.exec, status_machine, StatusPhase.load, hOwner, is_busy, lock_owner]

/-- The reader gives the lock away, but not to the HTTP server. -/
theorem access_serial_http {owner owner' : Owner} {phase phase' : Phase} {event : SessionEvent}
    (h : access .serial owner phase = some (owner', phase', event)) (hOwner : owner' = .HTTP) :
    owner = .HTTP := by
  by_cases hForce : phase = .executing (.ok .FORCERESET)
  · subst hForce
    cases h
    cases hOwner
  · rcases access_cases h hForce with hSame | ⟨-, -, hTaken⟩ | ⟨-, -, hReleased⟩
    · exact hSame.symm.trans hOwner
    · rw [hTaken] at hOwner
      cases hOwner
    · rw [hReleased, release] at hOwner
      split at hOwner
      · cases hOwner
      · exact hOwner

theorem session_serial_http {s t : SessionState} {action : SessionAction} {event : SessionEvent}
    (h : session_machine s action = some (t, event)) (hCaller : action.caller = some .serial)
    (hOwner : t.owner = .HTTP) : s.owner = .HTTP := by
  cases action with
  | override => cases hCaller
  | arrive who cmd =>
      simp only [session_machine] at h
      split at h <;> cases h
      exact hOwner
  | start who =>
      simp only [session_machine] at h
      split at h <;> cases h
      exact hOwner
  | finish who =>
      simp only [session_machine] at h
      split at h <;> cases h
      exact hOwner
  | access who =>
      cases hCaller
      simp only [session_machine] at h
      split at h
      · cases h
      · cases h
        exact access_serial_http ‹_› hOwner

/-- The steps of a status request. -/
inductive StatusMove (s : StatusState) : StatusLabel → StatusState → Prop where
  | load {phase : StatusPhase} (next : s.phase.load s.session.owner = some phase) :
      StatusMove s (.load, none) { s with phase := phase }
  | session {action : SessionAction} {event : SessionEvent} {t : SessionState}
      (caller : action.caller = some .serial)
      (step : session_machine s.session action = some (t, event)) :
      StatusMove s (.session action, some event) { s with session := t }

/-- The moves of a status request and of the session beside it. -/
theorem status_step_cases (h : status_machine.Step s label t) : StatusMove s label t := by
  obtain ⟨action, event⟩ := label
  simp only [Machine.Step, status_machine] at h
  cases action with
  | load =>
      obtain ⟨phase, hLoad, hEq⟩ := Option.map_eq_some_iff.mp h
      cases hEq
      exact StatusMove.load hLoad
  | session action =>
      simp only at h
      split at h
      · obtain ⟨⟨next, shown⟩, hStep, hEq⟩ := Option.map_eq_some_iff.mp h
        cases hEq
        exact StatusMove.session ‹_› hStep
      · cases h

/-- Once the HTTP server does not hold the lock, it does not for the rest of the request. -/
theorem StatusMove.held (h : StatusMove s label t) (hOwner : t.session.owner = .HTTP) :
    s.session.owner = .HTTP := by
  cases h with
  | load => exact hOwner
  | session hCaller hStep => exact session_serial_http hStep hCaller hOwner

/-- Beside a status request nobody acquires the lock for HTTP. -/
theorem held_of_run (run : Runs status_machine.Step s trace t) (hOwner : t.session.owner = .HTTP) :
    s.session.owner = .HTTP := by
  induction run with
  | zero => exact hOwner
  | succ prior last ih => exact ih ((status_step_cases last).held hOwner)

/-- There is a load yet to come. -/
def Loads (rest : List StatusLabel) : Prop := ∃ label ∈ rest, label.1 = .load

/-- The load that `daemon_busy` is from. -/
def FirstLoad (session : SessionState) (past : List StatusLabel) (busy : Bool) : Prop :=
  ∃ before rest v, past = before ++ (.load, none) :: rest ∧
    Runs status_machine.Step ⟨session, .first⟩ before v ∧ busy = is_busy v.session.owner

/-- The load that `lock_owner` is from. -/
def LastLoad (session : SessionState) (past : List StatusLabel) (owner : Json) : Prop :=
  ∃ before rest v, past = before ++ (.load, none) :: rest ∧ ¬ Loads rest ∧
    Runs status_machine.Step ⟨session, .first⟩ before v ∧
    (v.session.owner = .NONE ∧ owner = .null ∨
      owner = .string (if v.session.owner = .HTTP then str "HTTP" else str "SERIAL"))

/-- What the answer so far is from. -/
def StatusHistory (session : SessionState) (past : List StatusLabel) : StatusPhase → Prop
  | .first => True
  | .second busy | .third busy => FirstLoad session past busy
  | .reported busy owner => FirstLoad session past busy ∧ LastLoad session past owner

theorem FirstLoad.concat {session : SessionState} (h : FirstLoad session trace busy)
    (label : StatusLabel) : FirstLoad session (trace ++ [label]) busy := by
  obtain ⟨before, rest, v, rfl, hRun, hBusy⟩ := h
  exact ⟨before, rest ++ [label], v, by simp, hRun, hBusy⟩

theorem LastLoad.concat {session : SessionState} (h : LastLoad session trace owner)
    (hLabel : label.1 ≠ .load) : LastLoad session (trace ++ [label]) owner := by
  obtain ⟨before, rest, v, rfl, hLast, hRun, hOwner⟩ := h
  refine ⟨before, rest ++ [label], v, by simp, ?_, hRun, hOwner⟩
  rintro ⟨found, hFound, hLoad⟩
  rcases List.mem_append.mp hFound with hBefore | hHere
  · exact hLast ⟨found, hBefore, hLoad⟩
  · rw [List.mem_singleton.mp hHere] at hLoad
    exact hLabel hLoad

/-- What the request has read so far is from the history, after every step. -/
theorem StatusHistory.step {session : SessionState}
    (run : Runs status_machine.Step ⟨session, .first⟩ trace s)
    (h : StatusHistory session trace s.phase) (hMove : StatusMove s label t) :
    StatusHistory session (trace ++ [label]) t.phase := by
  have hNone : ¬ Loads [] := by
    rintro ⟨label, hMem, -⟩
    cases hMem
  cases hMove with
  | session =>
      cases hPhase : s.phase with
      | first => trivial
      | second busy | third busy =>
          rw [hPhase] at h
          exact FirstLoad.concat h _
      | reported busy owner =>
          rw [hPhase] at h
          exact ⟨h.1.concat _, h.2.concat (by simp)⟩
  | load hLoad =>
      cases hPhase : s.phase with
      | first =>
          rw [hPhase] at hLoad
          cases hLoad
          exact ⟨trace, [], s, rfl, run, rfl⟩
      | second busy =>
          rw [hPhase] at h hLoad
          simp only [StatusPhase.load] at hLoad
          split at hLoad
          · cases hLoad
            exact FirstLoad.concat h _
          · rename_i hFree
            cases hLoad
            have hOwner : s.session.owner = .NONE := by simpa [is_busy] using hFree
            exact ⟨FirstLoad.concat h _, trace, [], s, rfl, hNone, run, Or.inl ⟨hOwner, rfl⟩⟩
      | third busy =>
          rw [hPhase] at h hLoad
          cases hLoad
          exact ⟨FirstLoad.concat h _, trace, [], s, rfl, hNone, run, Or.inr rfl⟩
      | reported =>
          rw [hPhase] at hLoad
          cases hLoad

/-- A state with a load yet to come is not later than the last load. -/
theorem prefix_of_loads {before rest past later : List StatusLabel}
    (h : before ++ (.load, none) :: rest = past ++ later) (hLast : ¬ Loads rest)
    (hLoads : Loads later) : ∃ between, before = past ++ between := by
  rcases List.append_eq_append_iff.mp h with ⟨between, hPast, hLater⟩ | ⟨between, hBefore, -⟩
  · cases between with
    | nil => exact ⟨[], by simpa using hPast.symm⟩
    | cons label between =>
        obtain ⟨-, rfl⟩ := List.cons.inj hLater
        obtain ⟨found, hFound, hLoad⟩ := hLoads
        exact absurd ⟨found, List.mem_append_right between hFound, hLoad⟩ hLast
  · exact ⟨between, hBefore⟩

/-- **Whom the status names.** The answer says that the HTTP server owns the lock exactly when
it does in every state of the request up to the last load, and then it says busy too. The
other answers are put together from loads that need not fit. -/
theorem status_names_http_iff {session : SessionState}
    (run : Runs status_machine.Step ⟨session, .first⟩ trace s)
    (hReport : s.phase = .reported busy owner) :
    (owner = .string (str "HTTP") ↔ ∀ past rest u, trace = past ++ rest → Loads rest →
      Runs status_machine.Step ⟨session, .first⟩ past u → u.session.owner = .HTTP) ∧
    (owner = .string (str "HTTP") → busy = true) := by
  have hHistory : StatusHistory session trace s.phase :=
    Runs.history (I := fun past u => StatusHistory session past u.phase)
      (show StatusHistory session [] .first from trivial)
      (fun _ _ _ _ hRun h hStep => h.step hRun (status_step_cases hStep)) run
  rw [hReport] at hHistory
  obtain ⟨⟨early, later, w, hEarly, hFirst, hBusy⟩, before, rest, v, hTrace, hLast, hRun, hOwner⟩ :=
    hHistory
  have hTexts : str "SERIAL" ≠ str "HTTP" := by decide
  have hLoads : ∀ rest : List StatusLabel, Loads ((.load, none) :: rest) :=
    fun rest => ⟨(.load, none), List.mem_cons_self, rfl⟩
  have hForth : owner = .string (str "HTTP") → ∀ past rest u, trace = past ++ rest → Loads rest →
      Runs status_machine.Step ⟨session, .first⟩ past u → u.session.owner = .HTTP := by
    intro hHttp past rest' u hSplit hYet hPast
    have hHeld : v.session.owner = .HTTP := by
      rcases hOwner with ⟨-, hNull⟩ | hNamed
      · rw [hNull] at hHttp
        cases hHttp
      · by_contra hNot
        rw [hNamed, if_neg hNot] at hHttp
        exact hTexts (Json.string.inj hHttp)
    obtain ⟨between, rfl⟩ := prefix_of_loads (hTrace.symm.trans hSplit) hLast hYet
    obtain ⟨middle, hFront, hBack⟩ := hRun.split
    obtain rfl := Machine.runs_unique hPast hFront
    exact held_of_run hBack hHeld
  refine ⟨⟨hForth, fun hAlways => ?_⟩, fun hHttp => ?_⟩
  · have hHeld : v.session.owner = .HTTP := hAlways before _ v hTrace (hLoads rest) hRun
    rcases hOwner with ⟨hFree, -⟩ | hNamed
    · rw [hHeld] at hFree
      cases hFree
    · rw [hNamed, if_pos hHeld]
  · have hHeld : w.session.owner = .HTTP := hForth hHttp early _ w hEarly (hLoads later) hFirst
    rw [hBusy, hHeld]
    rfl

/-- The reader is about to execute `AT+FORCERESET`, while the HTTP server takes the lock. -/
def late_forcereset : List SessionAction :=
  [.arrive .serial (str "AT+FORCERESET"), .access .serial, .start .serial, .override .api_reset,
    .arrive .http (str "AT+STATUS"), .access .http, .access .http, .start .http, .finish .http]

/-- The lock is forced open between the last two loads, and the answer names the reader, who
has not held it during the request. -/
theorem status_names_http_forced : ∃ reached session trace s,
    session_machine.exec .start late_forcereset = some (session, reached) ∧
    status_machine.exec ⟨session, .first⟩ [.load, .load, .session (.access .serial), .load] =
      some (s, trace) ∧
    session.owner = .HTTP ∧ s.session.owner = .NONE ∧
    s.phase = .reported true (.string (str "SERIAL")) ∧
    ¬ ∀ past rest u, trace = past ++ rest → Loads rest →
      Runs status_machine.Step ⟨session, .first⟩ past u → u.session.owner = .HTTP := by
  obtain ⟨⟨session, reached⟩, hReached⟩ := Option.isSome_iff_exists.mp
    (by rfl : (session_machine.exec .start late_forcereset).isSome = true)
  have hBoth : ((session_machine.exec .start late_forcereset).bind fun result =>
      (status_machine.exec ⟨result.1, .first⟩
        [.load, .load, .session (.access .serial), .load]).map fun final =>
          (result.1.owner, final.1.session.owner, final.1.phase)) =
      some (.HTTP, .NONE, .reported true (.string (str "SERIAL"))) := by rfl
  rw [hReached, Option.bind_some, Option.map_eq_some_iff] at hBoth
  obtain ⟨⟨s, trace⟩, hExec, hEq⟩ := hBoth
  obtain ⟨hBefore, hRest⟩ := Prod.mk.inj hEq
  obtain ⟨hAfter, hReport⟩ := Prod.mk.inj hRest
  refine ⟨reached, session, trace, s, hReached, hExec, hBefore, hAfter, hReport, fun hAlways => ?_⟩
  have hTexts : str "SERIAL" ≠ str "HTTP" := by decide
  have hNamed := (status_names_http_iff (Machine.runs_of_exec hExec) hReport).1.mpr hAlways
  exact hTexts (Json.string.inj hNamed)

end RkFlashd
