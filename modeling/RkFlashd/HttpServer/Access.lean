import RkFlashd.HttpServer.Command
import RkFlashd.HttpServer.Multipart

/-! `HttpServer::accessHandler`: one request from the call with its headers to the call at the
end of its body, and which of its calls gets a response queued. -/
namespace RkFlashd

open Text

/-- The server as it was built and started. `debug` stands for a build without `NDEBUG`. -/
structure Server where
  lib : JsonLibrary
  cfg : Config := {}
  build : Build
  debug : Bool := false

/-- The headers of a request. Whether `MHD_create_post_processor` gives a post-processor
depends on the encoding they name. -/
structure HttpRequest where
  url : CString
  method : CString
  post_processor : Bool := false

/-- A piece of the body as it is passed on, with the callbacks of the post-processor that it
leads to. -/
structure Chunk where
  data : Bytes
  nonempty : data ≠ []
  posts : List Post := []

def HttpRequest.asks (request : HttpRequest) (url method : String) : Bool :=
  request.url.val = str url ∧ request.method.val = str method

/-- The type that the first call gives to a request. -/
def HttpRequest.type (request : HttpRequest) : RequestType :=
  if request.asks "/api/upload" "POST" then .UPLOAD
  else if request.asks "/api/command" "POST" then .COMMAND
  else if request.asks "/api/status" "GET" then .STATUS
  else if request.asks "/api/reset" "POST" then .RESET
  else .NONE

/-- It asks for the debug endpoint, and there is one. -/
def Server.locks (s : Server) (request : HttpRequest) : Bool :=
  request.type = .NONE ∧ s.debug ∧ request.asks "/api/debug/lock-serial" "POST"

def lock_owner (owner : Owner) : Json :=
  if is_busy owner then .string (if owner = .HTTP then str "HTTP" else str "SERIAL") else .null

def handleStatus (s : Server) (around : Circumstances) (d : Daemon) : CallEnd :=
  s.lib.send ⟨200, .dump
    [(str "status", .string (str "ok")), (str "version", .string (str "0.1.0")),
      (str "uptime_seconds", .number around.uptime),
      (str "serial_port", .string s.cfg.serial_device.val),
      (str "serial_connected", .bool around.is_open),
      (str "daemon_busy", .bool (is_busy d.owner)), (str "lock_owner", lock_owner d.owner),
      (str "port", .number s.cfg.port.toNat), (str "upload_dir", .string s.cfg.upload_dir.val)]⟩

def handleReset (s : Server) (d : Daemon) : Daemon × CallEnd :=
  ({ d with owner := force_release d.owner },
    s.lib.send ⟨200, .dump [(str "status", .string (str "ok"))]⟩)

/-- The `POST /api/debug/lock-serial` of the first call. -/
def lock_serial (d : Daemon) : Daemon × CallEnd :=
  match try_acquire d.owner .SERIAL with
  | (true, owner) =>
      ({ d with owner := owner }, .sends
        ⟨200, .text (str "\x7b\"status\":\"ok\",\"message\":\"Lock acquired for SERIAL\"\x7d")⟩)
  | (false, owner) =>
      ({ d with owner := owner }, .sends
        ⟨409, .text (str "\x7b\"status\":\"error\",\"message\":\"Lock is already held\"\x7d")⟩)

def not_found : Response :=
  ⟨404, .text (str "\x7b\"status\":\"error\",\"message\":\"Not found\"\x7d")⟩

/-- `accessHandler`, with a piece of the body or with `*upload_data_size` zero. -/
def accessHandler (s : Server) (around : Circumstances) (request : HttpRequest)
    (chunk : Option Chunk) (req_cls : Option ConnectionState) (d : Daemon) :
    (Option ConnectionState × Daemon) × CallEnd :=
  match req_cls with
  | none =>
      if s.locks request then
        let (d, ending) := lock_serial d
        ((none, d), ending)
      else
        ((some { type := request.type, pp := request.type = .UPLOAD ∧ request.post_processor },
          d), .waits)
  | some state =>
      match state.type with
      | .UPLOAD =>
          let (c, response) :=
            handleUpload s.cfg around.io (chunk.map Chunk.posts) ⟨state, d.host.fs⟩
          ((some c.state, { d with host := { d.host with fs := c.fs } }),
            match response with
            | none => .waits
            | some response => s.lib.send response)
      | .COMMAND =>
          let upload_data := match chunk with
            | none => []
            | some chunk => chunk.data
          let ((state, d), ending) :=
            handleCommand s.lib s.cfg s.build around upload_data state d
          ((some state, d), ending)
      | .STATUS => ((some state, d), handleStatus s around d)
      | .RESET =>
          let (d, ending) := handleReset s d
          ((some state, d), ending)
      | .NONE => ((some state, d), .sends not_found)

/-- A request while it is handled: the responses that were queued, and whether there is
nothing more to come from the server. -/
structure Exchange where
  req_cls : Option ConnectionState := none
  daemon : Daemon
  queued : List Response := []
  closed : Bool := false

/-- One call and what libmicrohttpd makes of it. A response is refused while there is more of
the body, and the `MHD_NO` that is then returned closes the connection. No call follows a
response. -/
def Exchange.call (s : Server) (around : Circumstances) (request : HttpRequest) (x : Exchange)
    (chunk : Option Chunk) : Exchange :=
  if x.closed ∨ x.queued ≠ [] then x
  else
    match accessHandler s around request chunk x.req_cls x.daemon with
    | ((req_cls, d), .waits) => { x with req_cls := req_cls, daemon := d }
    | ((req_cls, d), .sends response) =>
        if chunk.isSome then { x with req_cls := req_cls, daemon := d, closed := true }
        else { x with req_cls := req_cls, daemon := d, queued := x.queued ++ [response] }
    | ((req_cls, d), .throws) | ((req_cls, d), .stuck) =>
        { x with req_cls := req_cls, daemon := d, closed := true }

/-- The calls with the pieces of the body. -/
def Exchange.receive (s : Server) (around : Circumstances) (request : HttpRequest)
    (chunks : List Chunk) (x : Exchange) : Exchange :=
  chunks.foldl (fun x chunk => x.call s around request (some chunk)) x

/-- All calls for one request. What is `around` is looked at in the last of them only. -/
def serve (s : Server) (around : Circumstances) (request : HttpRequest) (chunks : List Chunk)
    (d : Daemon) : Exchange :=
  (((⟨none, d, [], false⟩ : Exchange).call s around request none).receive s around request
    chunks).call s around request none

/-- The pieces of the body put together. -/
def body_of (chunks : List Chunk) : Bytes := chunks.flatMap Chunk.data

section Calls

variable {s : Server} {around : Circumstances} {request : HttpRequest} {d : Daemon}
  {state : ConnectionState} {chunks : List Chunk} {x : Exchange}

theorem CallEnd.sends_iff {ending : CallEnd} (h : ending ≠ .waits) :
    (∃ response, ending = .sends response) ↔ ending.Returns := by
  cases ending with
  | waits => exact absurd rfl h
  | sends response => exact iff_of_true ⟨response, rfl⟩ trivial
  | throws | stuck => simp [CallEnd.Returns]

theorem Exchange.call_over (h : x.closed = true ∨ x.queued ≠ []) (chunk : Option Chunk) :
    x.call s around request chunk = x := if_pos h

theorem Exchange.receive_over (h : x.closed = true ∨ x.queued ≠ []) :
    x.receive s around request chunks = x := by
  induction chunks with
  | nil => rfl
  | cons chunk rest ih =>
      show Exchange.receive s around request rest (x.call s around request (some chunk)) = x
      rw [Exchange.call_over h]
      exact ih

/-- The first call, unless it answers at once. -/
theorem serve_first (h : s.locks request = false) :
    serve s around request chunks d =
      ((⟨some { type := request.type, pp := request.type = .UPLOAD ∧ request.post_processor }, d,
        [], false⟩ : Exchange).receive s around request chunks).call s around request none := by
  have hFirst : (⟨none, d, [], false⟩ : Exchange).call s around request none =
      ⟨some { type := request.type, pp := request.type = .UPLOAD ∧ request.post_processor }, d,
        [], false⟩ := by
    simp [Exchange.call, accessHandler, h]
  rw [serve, hFirst]

/-- The debug endpoint answers in the first call. -/
theorem serve_locks (h : s.locks request = true) :
    ∃ response, (serve s around request chunks d).queued = [response] := by
  obtain ⟨d', response, hLock⟩ : ∃ d' response, lock_serial d = (d', .sends response) := by
    unfold lock_serial
    split <;> exact ⟨_, _, rfl⟩
  have hFirst : (⟨none, d, [], false⟩ : Exchange).call s around request none =
      ⟨none, d', [response], false⟩ := by
    simp [Exchange.call, accessHandler, h, hLock]
  have hOver : (⟨none, d', [response], false⟩ : Exchange).closed = true ∨
      (⟨none, d', [response], false⟩ : Exchange).queued ≠ [] := Or.inr (by simp)
  refine ⟨response, ?_⟩
  rw [serve, hFirst, Exchange.receive_over hOver, Exchange.call_over hOver]

/-- The last call of an open request. -/
theorem call_last_iff :
    (∃ response, ((⟨some state, d, [], false⟩ : Exchange).call s around request none).queued =
      [response]) ↔
        ∃ response, (accessHandler s around request none (some state) d).2 = .sends response := by
  rcases hResult : accessHandler s around request none (some state) d with
    ⟨⟨req_cls, d'⟩, ending⟩
  cases ending with
  | waits | sends | throws | stuck => simp [Exchange.call, hResult]

/-- A route that tries to answer whatever call comes first. -/
theorem refused_iff
    (h : ∀ chunk, (accessHandler s around request chunk (some state) d).2 ≠ .waits) :
    (∃ response, (((⟨some state, d, [], false⟩ : Exchange).receive s around request chunks).call
      s around request none).queued = [response]) ↔
        chunks = [] ∧ (accessHandler s around request none (some state) d).2.Returns := by
  cases chunks with
  | nil =>
      rw [← CallEnd.sends_iff (h none), ← call_last_iff]
      simp [Exchange.receive]
  | cons chunk rest =>
      have hRefused : ∃ next : Exchange, (⟨some state, d, [], false⟩ : Exchange).call s around
          request (some chunk) = next ∧ next.closed = true ∧ next.queued = [] := by
        refine ⟨_, rfl, ?_⟩
        rcases hResult : accessHandler s around request (some chunk) (some state) d with
          ⟨⟨req_cls, d'⟩, ending⟩
        have hWaits := h (some chunk)
        rw [hResult] at hWaits
        cases ending with
        | waits => exact absurd rfl hWaits
        | sends | throws | stuck => simp [Exchange.call, hResult]
      obtain ⟨next, hNext, hClosed, hQueued⟩ := hRefused
      have hReceive : (⟨some state, d, [], false⟩ : Exchange).receive s around request
          (chunk :: rest) = next := by
        show Exchange.receive s around request rest (Exchange.call s around request _ _) = next
        rw [hNext, Exchange.receive_over (Or.inl hClosed)]
      rw [hReceive, Exchange.call_over (Or.inl hClosed), hQueued]
      simp

/-- The command route collects the body. -/
theorem command_receive (hType : state.type = .COMMAND) :
    (⟨some state, d, [], false⟩ : Exchange).receive s around request chunks =
      ⟨some { state with cmd_body := state.cmd_body ++ body_of chunks }, d, [], false⟩ := by
  induction chunks generalizing state with
  | nil => simp [Exchange.receive, body_of]
  | cons chunk rest ih =>
      have hOne : (⟨some state, d, [], false⟩ : Exchange).call s around request (some chunk) =
          ⟨some { state with cmd_body := state.cmd_body ++ chunk.data }, d, [], false⟩ := by
        simp [Exchange.call, accessHandler, hType, handleCommand, chunk.nonempty]
      show Exchange.receive s around request rest (Exchange.call s around request _ _) = _
      have hRest := @ih { state with cmd_body := state.cmd_body ++ chunk.data } hType
      rw [hOne, hRest]
      simp [body_of]

theorem serve_command (hType : request.type = .COMMAND) :
    serve s around request chunks d =
      (⟨some { type := .COMMAND, cmd_body := body_of chunks }, d, [], false⟩ : Exchange).call
        s around request none := by
  have hLocks : s.locks request = false := by simp [Server.locks, hType]
  rw [serve_first hLocks, command_receive hType]
  simp [hType]

/-- The upload route feeds the post-processor. -/
theorem upload_receive (hType : state.type = .UPLOAD) (hPp : state.pp = true) :
    (⟨some state, d, [], false⟩ : Exchange).receive s around request chunks =
      ⟨some (feed s.cfg (chunks.map Chunk.posts) ⟨state, d.host.fs⟩).state,
        { d with host := { d.host with
          fs := (feed s.cfg (chunks.map Chunk.posts) ⟨state, d.host.fs⟩).fs } }, [], false⟩ := by
  induction chunks generalizing state d with
  | nil => rfl
  | cons chunk rest ih =>
      have hFlags := post_process_flags s.cfg chunk.posts (received ⟨state, d.host.fs⟩)
      have hOne : (⟨some state, d, [], false⟩ : Exchange).call s around request (some chunk) =
          ⟨some (post_process s.cfg chunk.posts (received ⟨state, d.host.fs⟩)).state,
            { d with host := { d.host with
              fs := (post_process s.cfg chunk.posts (received ⟨state, d.host.fs⟩)).fs } },
            [], false⟩ := by
        simp [Exchange.call, accessHandler, hType, handleUpload, hPp, received]
      show Exchange.receive s around request rest (Exchange.call s around request _ _) = _
      rw [hOne, ih (hFlags.2.2.trans hType) (hFlags.1.trans hPp), List.map_cons, feed_cons _ _ hPp]

end Calls

section Answers

variable {s : Server} {around : Circumstances} {request : HttpRequest} {d : Daemon}
  {chunks : List Chunk}

/-- Some part is accepted, and the file it opens can be renamed. -/
def Saves (io : Io) (posts : List Post) : Prop :=
  (∃ p ∈ posts, (accepted p.part.key p.part.filename).isSome) ∧ io.rename = true

/-- An upload of which something has come in is answered, if the answer can be dumped. -/
theorem upload_answered_iff {lib : JsonLibrary} (hLib : lib.Documented) (cfg : Config) (io : Io)
    (chunks : List (List Post)) (fs : FileSystem)
    (hOpen : ∀ p ∈ chunks.flatten, p.io.fopen = true) :
    (∃ response, (handleUpload cfg io none (feed cfg chunks (upload_request fs))).2 =
      some response ∧ (lib.send response).Returns) ↔
        chunks ≠ [] ∧ (Saves io chunks.flatten → ValidUtf8 cfg.upload_dir.val) := by
  by_cases hNil : chunks = []
  · subst hNil
    simp [feed, handleUpload, upload_request]
  have hFeed := @feed_eq cfg (upload_request fs) chunks rfl hNil hOpen
  have hWaiting := upload_request_waiting fs
  rw [hFeed]
  simp only [hNil, ne_eq, not_false_eq_true, true_and]
  by_cases hAccepted : ∃ p ∈ chunks.flatten, (accepted p.part.key p.part.filename).isSome
  · obtain ⟨f, bytes, hOpened⟩ := hWaiting.opens cfg hOpen hAccepted
    obtain ⟨file, hFile, -⟩ := hOpened.file
    rw [handleUpload_some io hOpened.pp hFile]
    rcases hOpened.save io hFile with ⟨hRename, next, hSave, -⟩ | ⟨hRename, next, json, hSave, -⟩
    · have hName : ValidUtf8 f := valid_ascii (valid_name_ascii hOpened.valid)
      have hPath : ValidUtf8 (cfg.in_upload_dir f) ↔ ValidUtf8 cfg.upload_dir.val := by
        rw [Config.in_upload_dir, List.append_assoc, valid_append_str "/" (by decide)]
        simp [hName]
      have hSaves : Saves io chunks.flatten := ⟨hAccepted, hRename⟩
      simp only [hSaves, forall_const, hSave, Option.some.injEq, exists_eq_left', upload_ok]
      rw [hLib.send_dump]
      simp [Json.Valid, valid_str, hName, hPath]
    · have hSaves : ¬ Saves io chunks.flatten := fun h => by simp [hRename, Saves] at h
      simp [hSave, JsonLibrary.send_text, hSaves]
  · have hIgnored : ∀ p ∈ chunks.flatten, accepted p.part.key p.part.filename = none := by
      simpa using hAccepted
    have hDone : Waiting (post_process cfg chunks.flatten (received (upload_request fs))) :=
      hWaiting.post_process hIgnored
    have hReceived := (post_process_flags cfg chunks.flatten (received (upload_request fs))).2.1
    have hSaves : ¬ Saves io chunks.flatten := fun h => hAccepted h.1
    obtain ⟨json, hAnswer⟩ := hDone.answers cfg io (hReceived.trans rfl)
    simp [hAnswer, JsonLibrary.send_text, hSaves]

theorem body_of_eq_nil {chunks : List Chunk} : body_of chunks = [] ↔ chunks = [] := by
  cases chunks with
  | nil => simp [body_of]
  | cons chunk rest => simp [body_of, chunk.nonempty]

/-- Exactly one response is queued in the course of the calls. -/
def OneResponse (s : Server) (around : Circumstances) (request : HttpRequest)
    (chunks : List Chunk) (d : Daemon) : Prop :=
  ∃ response, (serve s around request chunks d).queued = [response]

/-- A command is answered once if it has a body that is safe to handle. -/
theorem command_response_iff (hLib : s.lib.Documented) (hType : request.type = .COMMAND)
    (hCovers : CoversBody s.lib s.cfg around (body_of chunks) d) :
    OneResponse s around request chunks d ↔
      chunks ≠ [] ∧ SafeBody s.lib s.cfg s.build around (body_of chunks) d := by
  have hCall : (accessHandler s around request none
      (some { type := .COMMAND, cmd_body := body_of chunks }) d).2 =
        (handleCommand s.lib s.cfg s.build around []
          { type := .COMMAND, cmd_body := body_of chunks } d).2 := rfl
  rw [OneResponse, serve_command hType, call_last_iff, hCall]
  by_cases hBody : body_of chunks = []
  · rw [hBody]
    simp [handleCommand, body_of_eq_nil.mp hBody]
  · have hWaits := @handleCommand_not_waits s.lib s.cfg s.build around d
      { type := .COMMAND, cmd_body := body_of chunks } hBody
    have hLast := @handleCommand_last_iff s.lib s.cfg s.build around d hLib
      { type := .COMMAND, cmd_body := body_of chunks } hBody hCovers
    rw [CallEnd.sends_iff hWaits, hLast]
    exact (and_iff_right (mt body_of_eq_nil.mpr hBody)).symm

/-- The last call of an upload. -/
theorem upload_call_iff {c : Connection} (hType : c.state.type = .UPLOAD) :
    (∃ response, (accessHandler s around request none (some c.state)
      { d with host := { d.host with fs := c.fs } }).2 = .sends response) ↔
        ∃ response, (handleUpload s.cfg around.io none c).2 = some response ∧
          (s.lib.send response).Returns := by
  have hCall : (accessHandler s around request none (some c.state)
      { d with host := { d.host with fs := c.fs } }).2 =
        match (handleUpload s.cfg around.io none c).2 with
        | none => .waits
        | some response => s.lib.send response := by
    simp [accessHandler, hType]
  rw [hCall]
  cases (handleUpload s.cfg around.io none c).2 with
  | none => simp
  | some response => simpa using CallEnd.sends_iff (s.lib.send_not_waits response)

/-- An upload is answered once if it has a body and the answer is valid UTF-8; without a
post-processor, if it has no body. -/
theorem upload_response_iff (hLib : s.lib.Documented) (hType : request.type = .UPLOAD)
    (hOpen : ∀ p ∈ chunks.flatMap Chunk.posts, p.io.fopen = true) :
    OneResponse s around request chunks d ↔
      if request.post_processor then chunks ≠ [] ∧
        (Saves around.io (chunks.flatMap Chunk.posts) → ValidUtf8 s.cfg.upload_dir.val)
      else chunks = [] := by
  have hLocks : s.locks request = false := by simp [Server.locks, hType]
  rw [OneResponse, serve_first hLocks]
  cases hPp : request.post_processor with
  | false =>
      rw [refused_iff fun chunk => by simp [accessHandler, hType, handleUpload, JsonLibrary.send]]
      simp [accessHandler, hType, handleUpload, JsonLibrary.send_text]
  | true =>
      have hAnswered := upload_answered_iff hLib s.cfg around.io (chunks.map Chunk.posts) d.host.fs
        (by rwa [← List.flatMap_def])
      rw [← List.flatMap_def] at hAnswered
      rw [upload_receive hType (by simp [hType]), call_last_iff, upload_call_iff]
      · simpa [upload_request, hType] using hAnswered
      · rw [feed_type _ (by simp [hType])]
        exact hType

/-- A status is answered once if the request has no body and the settings are valid UTF-8. -/
theorem status_response_iff (hLib : s.lib.Documented) (hType : request.type = .STATUS) :
    OneResponse s around request chunks d ↔ chunks = [] ∧
      ValidUtf8 s.cfg.serial_device.val ∧ ValidUtf8 s.cfg.upload_dir.val := by
  have hLocks : s.locks request = false := by simp [Server.locks, hType]
  have hOwner : (lock_owner d.owner).Valid := by
    unfold lock_owner
    split
    · split <;> exact valid_str _
    · trivial
  rw [OneResponse, serve_first hLocks,
    refused_iff fun chunk => by
      simp only [accessHandler, hType]
      exact s.lib.send_not_waits _]
  simp only [accessHandler, hType, handleStatus]
  rw [hLib.send_dump]
  simp only [JsonObject.valid_cons, JsonObject.valid_nil, Json.valid_string, valid_str, hOwner,
    true_and, and_true]
  simp [Json.Valid]

/-- A reset is answered once if the request has no body. -/
theorem reset_response_iff (hLib : s.lib.Documented) (hType : request.type = .RESET) :
    OneResponse s around request chunks d ↔ chunks = [] := by
  have hLocks : s.locks request = false := by simp [Server.locks, hType]
  rw [OneResponse, serve_first hLocks,
    refused_iff fun chunk => by
      simp only [accessHandler, hType, handleReset]
      exact s.lib.send_not_waits _]
  simp only [accessHandler, hType, handleReset]
  rw [hLib.send_dump]
  simp [valid_str]

/-- A request for nothing known is answered once if it has no body. -/
theorem unknown_response_iff (hType : request.type = .NONE) (hLocks : s.locks request = false) :
    OneResponse s around request chunks d ↔ chunks = [] := by
  rw [OneResponse, serve_first hLocks, refused_iff fun chunk => by simp [accessHandler, hType]]
  simp [accessHandler, hType, CallEnd.Returns]

/-- The requests that come to a response: those with a body go to the two routes that wait for
one, all others have none. -/
def Answerable (s : Server) (around : Circumstances) (request : HttpRequest)
    (chunks : List Chunk) (d : Daemon) : Prop :=
  match request.type with
  | .UPLOAD =>
      if request.post_processor then chunks ≠ [] ∧
        (Saves around.io (chunks.flatMap Chunk.posts) → ValidUtf8 s.cfg.upload_dir.val)
      else chunks = []
  | .COMMAND => chunks ≠ [] ∧ SafeBody s.lib s.cfg s.build around (body_of chunks) d
  | .STATUS =>
      chunks = [] ∧ ValidUtf8 s.cfg.serial_device.val ∧ ValidUtf8 s.cfg.upload_dir.val
  | .RESET => chunks = []
  | .NONE => s.locks request = true ∨ chunks = []

/-- **One response for every request.** With a directory to write to, a request gets exactly
one response if and only if it is answerable. How the body of a command is cut makes no
difference. -/
theorem one_response_iff (hLib : s.lib.Documented)
    (hOpen : ∀ p ∈ chunks.flatMap Chunk.posts, p.io.fopen = true)
    (hCovers : request.type = .COMMAND → CoversBody s.lib s.cfg around (body_of chunks) d) :
    (OneResponse s around request chunks d ∧
      (request.type = .COMMAND → ∀ others, body_of others = body_of chunks →
        (serve s around request others d).queued = (serve s around request chunks d).queued)) ↔
      Answerable s around request chunks d := by
  have hSplit : request.type = .COMMAND → ∀ others, body_of others = body_of chunks →
      (serve s around request others d).queued = (serve s around request chunks d).queued := by
    intro hType others hSame
    rw [serve_command hType, serve_command hType, hSame]
  rw [and_iff_left hSplit]
  unfold Answerable
  cases hType : request.type with
  | UPLOAD => exact upload_response_iff hLib hType hOpen
  | COMMAND => exact command_response_iff hLib hType (hCovers hType)
  | STATUS => exact status_response_iff hLib hType
  | RESET => exact reset_response_iff hLib hType
  | NONE =>
      cases hLocks : s.locks request with
      | true => exact iff_of_true (serve_locks hLocks) (Or.inl rfl)
      | false =>
          rw [unknown_response_iff hType hLocks]
          simp

end Answers

def sample_server : Server := { lib := sample_library, build := sample_build }

def command_request : HttpRequest where
  url := ⟨str "/api/command", by decide⟩
  method := ⟨str "POST", by decide⟩

def help_chunk : Chunk := ⟨help_body, by decide, []⟩

/-- `AT+HELP` in one piece is answered once, and so it is in any other pieces. -/
theorem one_response_help :
    OneResponse sample_server {} command_request [help_chunk] { host := fresh_host } ∧
      (command_request.type = .COMMAND → ∀ others, body_of others = body_of [help_chunk] →
        (serve sample_server {} command_request others { host := fresh_host }).queued =
          (serve sample_server {} command_request [help_chunk] { host := fresh_host }).queued) := by
  have hBody : body_of [help_chunk] = help_body := by simp [body_of, help_chunk]
  have hType : command_request.type = .COMMAND := by decide
  have hIff := @one_response_iff sample_server {} command_request { host := fresh_host }
    [help_chunk] sample_library_documented (by simp [help_chunk])
    (fun _ => by rw [hBody]; exact help_covers)
  rw [hIff]
  unfold Answerable
  rw [hType, hBody]
  exact ⟨by simp, help_safe⟩

/-- An endpoint that there is not, with a body of one byte: the 404 is refused. -/
theorem unknown_with_body_unanswered : sample_server.lib.Documented ∧
    ¬ OneResponse sample_server {}
      ⟨⟨str "/api/nosuch", by decide⟩, ⟨str "POST", by decide⟩, false⟩
      [⟨str "x", by decide, []⟩] { host := fresh_host } := by
  refine ⟨sample_library_documented, fun hOne => ?_⟩
  have hNone : (serve sample_server {}
      ⟨⟨str "/api/nosuch", by decide⟩, ⟨str "POST", by decide⟩, false⟩
      [⟨str "x", by decide, []⟩] { host := fresh_host }).queued = [] := by rfl
  simp [OneResponse, hNone] at hOne

end RkFlashd
