import RkFlashd.Daemon.AnswerText
import RkFlashd.HttpServer.Connection

/-! `handler_command.cpp`: a command in the body of a request, from the JSON it is wrapped in
to the JSON of its answer, and the exceptions that leave the handler. -/
namespace RkFlashd

open Text Transition

/-- A value that `dump()` writes: its strings are valid UTF-8. -/
def Json.Valid : Json → Prop
  | .string value => ValidUtf8 value
  | _ => True

instance : DecidablePred Json.Valid
  | .string value => inferInstanceAs (Decidable (ValidUtf8 value))
  | .null | .bool _ | .number _ => isTrue trivial

def JsonObject.Valid (resp : JsonObject) : Prop :=
  ∀ field ∈ resp, ValidUtf8 field.1 ∧ field.2.Valid

@[simp] theorem Json.valid_string {value : Bytes} : (Json.string value).Valid ↔ ValidUtf8 value :=
  Iff.rfl

@[simp] theorem JsonObject.valid_nil : JsonObject.Valid [] := by simp [JsonObject.Valid]

@[simp] theorem JsonObject.valid_cons {key : Bytes} {value : Json} {rest : JsonObject} :
    JsonObject.Valid ((key, value) :: rest) ↔ (ValidUtf8 key ∧ value.Valid) ∧ rest.Valid := by
  simp [JsonObject.Valid]

instance : DecidablePred JsonObject.Valid := fun resp =>
  inferInstanceAs (Decidable (∀ field ∈ resp, ValidUtf8 field.1 ∧ field.2.Valid))

/-- What `json::parse` makes of a body: of a value only the string under `cmd` is looked at,
if it is an object that has one. A number that no `double` holds is an exception of its own. -/
inductive Parsed where
  | value (cmd : Option Bytes)
  | parse_error (what : Bytes)
  | out_of_range
  deriving DecidableEq, Repr

/-- `nlohmann::json`. Of `dump()` only whether it returns. -/
structure JsonLibrary where
  parse : Bytes → Parsed
  dumps : JsonObject → Bool

/-- What the library documents: the strings of a value are valid UTF-8, and `dump()` with the
default handler throws for an object with a string that is not. -/
structure JsonLibrary.Documented (lib : JsonLibrary) : Prop where
  parse_valid : ∀ {body cmd}, lib.parse body = .value (some cmd) → ValidUtf8 cmd
  dumps_iff : ∀ resp, lib.dumps resp = true ↔ resp.Valid

/-- How a call of a handler ends: with `MHD_YES` and no response, with `sendJson`, with an
exception, or not at all, because the process is terminated or a thread is waited for. -/
inductive CallEnd where
  | waits
  | sends (response : Response)
  | throws
  | stuck
  deriving DecidableEq, Repr

/-- The handler comes back to its caller. -/
def CallEnd.Returns : CallEnd → Prop
  | .waits | .sends _ => True
  | .throws | .stuck => False

/-- `return sendJson(connection, status_code, resp.dump())`. -/
def JsonLibrary.send (lib : JsonLibrary) (response : Response) : CallEnd :=
  match response.body with
  | .text _ => .sends response
  | .dump resp => if lib.dumps resp then .sends response else .throws

/-- The session check of `handleCommand`, with nobody else at the lock meanwhile. -/
def session_check (cmd : Bytes) (owner : Owner) : Bool × Owner :=
  if bypass_lock cmd then (true, owner)
  else if ¬ is_busy owner then try_acquire owner .HTTP
  else (owner = .HTTP, owner)

def busy_response : Response :=
  ⟨503, .dump [(str "status", .string (str "busy")),
    (str "message", .string (str "serial daemon is busy, wait for AT+RESET"))]⟩

/-- `handleCommand`, with a piece of the body or without data. -/
def handleCommand (lib : JsonLibrary) (cfg : Config) (build : Build) (around : Circumstances)
    (upload_data : Bytes) (state : ConnectionState) (d : Daemon) :
    (ConnectionState × Daemon) × CallEnd :=
  if upload_data ≠ [] then
    (({ state with cmd_body := state.cmd_body ++ upload_data }, d), .waits)
  else if state.cmd_body = [] then ((state, d), .waits)
  else
    match lib.parse state.cmd_body with
    | .parse_error what =>
        ((state, d), lib.send ⟨400, .dump [(str "status", .string (str "error")),
          (str "message", .string (str "Invalid JSON: " ++ what))]⟩)
    | .out_of_range => ((state, d), .throws)
    | .value none =>
        ((state, d), lib.send
          ⟨400, .text (str "\x7b\"status\":\"error\",\"message\":\"Missing 'cmd' field\"\x7d")⟩)
    | .value (some cmd) =>
        match session_check cmd d.owner with
        | (false, owner) => ((state, { d with owner := owner }), lib.send busy_response)
        | (true, owner) =>
            match process cfg build { d with owner := owner } ⟨.HTTP, cmd, around⟩ with
            | none => ((state, { d with owner := owner }), .stuck)
            | some (d, response) =>
                ((state, d), lib.send ⟨200, .dump [(str "status", .string (str "ok")),
                  (str "response", .string response)]⟩)

/-- The session check is what the session protocol does for an undisturbed request. -/
theorem session_check_run (cmd : Bytes) (s : SessionState) (hIdle : s.phase .http = .idle) :
    ∃ trace t, Runs session_machine.Step s trace t ∧
      (∀ label ∈ trace, label.1.caller = some .http) ∧ t.owner = (session_check cmd s.owner).2 ∧
      t.phase .http = if (session_check cmd s.owner).1 then .admitted cmd else .idle := by
  have hArrive : session_machine.Step s (.arrive .http cmd, .received)
      ⟨s.owner, Function.update s.phase .http (receive .http cmd)⟩ := by
    simp [Machine.Step, session_machine, hIdle, SessionState.goto]
  have hAccess : ∀ owner owner' phase phase' event,
      access .http owner phase = some (owner', phase', event) →
      session_machine.Step ⟨owner, Function.update s.phase .http phase⟩ (.access .http, event)
        ⟨owner', Function.update s.phase .http phase'⟩ := by
    intro owner owner' phase phase' event hStep
    simp [Machine.Step, session_machine, hStep, SessionState.goto]
  cases hBypass : bypass_lock cmd with
  | true =>
      refine ⟨_, _, Runs.single hArrive, by simp [SessionAction.caller], ?_, ?_⟩
      · simp [session_check, hBypass]
      · simp [session_check, receive, hBypass]
  | false =>
      have hChecking : receive .http cmd = .checking cmd := by simp [receive, hBypass, gate]
      rw [hChecking] at hArrive
      cases hOwner : s.owner with
      | NONE =>
          rw [hOwner] at hArrive
          have hLoad := hAccess .NONE .NONE (.checking cmd) (.acquiring cmd) .passed rfl
          have hTake := hAccess .NONE .HTTP (.acquiring cmd) (.admitted cmd) .passed rfl
          refine ⟨_, _, ((Runs.single hArrive).succ hLoad).succ hTake, ?_, ?_, ?_⟩
          · simp [SessionAction.caller]
          · simp [session_check, hBypass, is_busy, try_acquire]
          · simp [session_check, hBypass, is_busy, try_acquire]
      | HTTP =>
          rw [hOwner] at hArrive
          have hLoad := hAccess .HTTP .HTTP (.checking cmd) (.comparing cmd) .passed rfl
          have hCompare := hAccess .HTTP .HTTP (.comparing cmd) (.admitted cmd) .passed rfl
          refine ⟨_, _, ((Runs.single hArrive).succ hLoad).succ hCompare, ?_, ?_, ?_⟩
          · simp [SessionAction.caller]
          · simp [session_check, hBypass, is_busy]
          · simp [session_check, hBypass, is_busy]
      | SERIAL =>
          rw [hOwner] at hArrive
          have hLoad := hAccess .SERIAL .SERIAL (.checking cmd) (.comparing cmd) .passed rfl
          have hCompare := hAccess .SERIAL .SERIAL (.comparing cmd) .idle .refused rfl
          refine ⟨_, _, ((Runs.single hArrive).succ hLoad).succ hCompare, ?_, ?_, ?_⟩
          · simp [SessionAction.caller]
          · simp [session_check, hBypass, is_busy]
          · simp [session_check, hBypass, is_busy]

variable {lib : JsonLibrary} {cfg : Config} {build : Build} {around : Circumstances} {d : Daemon}

theorem JsonLibrary.send_text (lib : JsonLibrary) (status_code : Nat) (json : Bytes) :
    (lib.send ⟨status_code, .text json⟩).Returns := trivial

theorem JsonLibrary.send_not_waits (lib : JsonLibrary) (response : Response) :
    lib.send response ≠ .waits := by
  unfold JsonLibrary.send
  split
  · nofun
  · split <;> nofun

theorem JsonLibrary.Documented.send_dump (h : lib.Documented) (status_code : Nat)
    (resp : JsonObject) : (lib.send ⟨status_code, .dump resp⟩).Returns ↔ resp.Valid := by
  rw [← h.dumps_iff, JsonLibrary.send]
  cases hDumps : lib.dumps resp <;> simp [CallEnd.Returns, hDumps]

/-- The body does not make the handler throw: it is no number out of range, the text about a
syntax error is valid UTF-8, and a command that is executed does no harm. -/
def SafeBody (lib : JsonLibrary) (cfg : Config) (build : Build) (around : Circumstances)
    (body : Bytes) (d : Daemon) : Prop :=
  match lib.parse body with
  | .parse_error what => ValidUtf8 what
  | .out_of_range => False
  | .value none => True
  | .value (some cmd) => (session_check cmd d.owner).1 = true →
      ∀ command, dispatch cmd = .ok command → Harmless cfg build d around command

/-- The schedules of the flash commands are carried through. -/
def CoversBody (lib : JsonLibrary) (cfg : Config) (around : Circumstances) (body : Bytes)
    (d : Daemon) : Prop :=
  ∀ cmd command, lib.parse body = .value (some cmd) → dispatch cmd = .ok command →
    Covers cfg d around command

/-- The last call, with a body to look at, does not wait for more. -/
theorem handleCommand_not_waits (lib : JsonLibrary) (cfg : Config) (build : Build)
    (around : Circumstances) (d : Daemon) {state : ConnectionState} (hBody : state.cmd_body ≠ []) :
    (handleCommand lib cfg build around [] state d).2 ≠ .waits := by
  rw [handleCommand, if_neg (not_not_intro rfl), if_neg hBody]
  split
  · dsimp only
    exact lib.send_not_waits _
  · nofun
  · dsimp only
    exact lib.send_not_waits _
  · split
    · dsimp only
      exact lib.send_not_waits _
    · split
      · nofun
      · dsimp only
        exact lib.send_not_waits _

/-- It comes back to its caller exactly if the body is safe. -/
theorem handleCommand_last_iff (hLib : lib.Documented) {state : ConnectionState}
    (hBody : state.cmd_body ≠ []) (hCovers : CoversBody lib cfg around state.cmd_body d) :
    (handleCommand lib cfg build around [] state d).2.Returns ↔
      SafeBody lib cfg build around state.cmd_body d := by
  rw [handleCommand, if_neg (not_not_intro rfl), if_neg hBody]
  unfold SafeBody
  unfold CoversBody at hCovers
  split
  · rw [hLib.send_dump]
    simp [valid_str, valid_append_iff (valid_str _)]
  · exact iff_of_false id id
  · exact iff_of_true (lib.send_text _ _) trivial
  · rename_i cmd hParse
    have hCmd := hLib.parse_valid hParse
    split
    · rename_i owner hCheck
      refine iff_of_true ((hLib.send_dump _ _).mpr ?_) (by simp [hCheck])
      simp [valid_str]
    · rename_i owner hCheck
      simp only [hCheck, forall_const]
      have hAnswers : (∃ d' answer, process cfg build { d with owner := owner }
          ⟨.HTTP, cmd, around⟩ = some (d', answer) ∧ ValidUtf8 answer) ↔
            ∀ command, dispatch cmd = .ok command → Harmless cfg build d around command :=
        process_answers_iff hCmd fun command hLine => hCovers cmd command hParse hLine
      rw [← hAnswers]
      cases hProcess : process cfg build { d with owner := owner } ⟨.HTTP, cmd, around⟩ with
      | none => simp [CallEnd.Returns]
      | some result =>
          obtain ⟨d', response⟩ := result
          dsimp only
          rw [hLib.send_dump]
          simp [valid_str]

/-- **Exceptions of the command handler.** A call returns if and only if it is no last call,
or there is nothing in the body that makes it throw. -/
theorem handleCommand_returns_iff (hLib : lib.Documented) (upload_data : Bytes)
    (state : ConnectionState) (hCovers : CoversBody lib cfg around state.cmd_body d) :
    (handleCommand lib cfg build around upload_data state d).2.Returns ↔
      (upload_data = [] → state.cmd_body ≠ [] →
        SafeBody lib cfg build around state.cmd_body d) := by
  by_cases hData : upload_data = []
  · by_cases hBody : state.cmd_body = []
    · refine iff_of_true ?_ fun _ hSome => absurd hBody hSome
      simp [handleCommand, hData, hBody, CallEnd.Returns]
    · rw [hData, handleCommand_last_iff hLib hBody hCovers]
      simp [hBody]
  · refine iff_of_true ?_ fun hNil => absurd hNil hData
    simp [handleCommand, hData, CallEnd.Returns]

def help_body : Bytes := str "\x7b\"cmd\":\"AT+HELP\"\x7d"

/-- The library on two bodies: a command, and a byte at which the reading ends. -/
def sample_library : JsonLibrary where
  parse body :=
    if body = help_body then .value (some (str "AT+HELP"))
    else
      .parse_error (str "[json.exception.parse_error.101] parse error at line 1, column 1: " ++
        str "syntax error while parsing value - invalid literal; last read: '" ++ body.take 1 ++
        str "'")
  dumps resp := resp.Valid

theorem sample_library_documented : sample_library.Documented where
  parse_valid := by
    intro body cmd h
    simp only [sample_library] at h
    split at h
    · cases h
      exact valid_str _
    · cases h
  dumps_iff := by simp [sample_library]

def sample_build : Build := { date := str "Jan  1 2025", time := str "00:00:00" }

theorem help_parsed : sample_library.parse help_body = .value (some (str "AT+HELP")) := by
  simp [sample_library]

theorem help_dispatched : dispatch (str "AT+HELP") = .ok .HELP := by decide

theorem help_covers : CoversBody sample_library {} {} help_body { host := fresh_host } := by
  intro cmd command hCmd hCommand
  obtain rfl : str "AT+HELP" = cmd := by simpa [help_parsed] using hCmd
  rw [help_dispatched] at hCommand
  cases hCommand
  trivial

theorem help_safe :
    SafeBody sample_library {} sample_build {} help_body { host := fresh_host } := by
  simp only [SafeBody, help_parsed, help_dispatched, Except.ok.injEq, forall_eq']
  exact fun _ => trivial

/-- `AT+HELP` is answered. -/
theorem handleCommand_returns_help :
    (handleCommand sample_library {} sample_build {} [] { cmd_body := help_body }
      { host := fresh_host }).2.Returns := by
  have hIff := @handleCommand_returns_iff sample_library {} sample_build {} { host := fresh_host }
    sample_library_documented [] { cmd_body := help_body } help_covers
  rw [hIff]
  exact fun _ _ => help_safe

/-- The text about a body that is no JSON quotes its first byte, and the handler throws while
it is about to answer with that text. -/
theorem bad_json_throws : sample_library.Documented ∧
    (handleCommand sample_library {} sample_build {} [] { cmd_body := [255] }
      { host := fresh_host }).2 = .throws := by
  have hByte : ¬ ValidUtf8 (255 :: str "'") := by decide +kernel
  have hOther : [255] ≠ help_body := by decide
  refine ⟨sample_library_documented, ?_⟩
  simp only [handleCommand, sample_library, hOther, JsonLibrary.send]
  simp [valid_str, valid_append_iff (valid_str _), hByte]

end RkFlashd
