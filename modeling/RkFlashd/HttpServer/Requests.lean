import RkFlashd.HttpServer.Access
import RkFlashd.Machine.Lockstep
import RkFlashd.Machine.Turns

/-! Requests that are handled at the same time, the calls for one between the calls for
another. Unless they upload a file, they get the responses they would get one after the other. -/
namespace RkFlashd

open Text Transition

/-- A request with its body, and the circumstances it is answered in. -/
structure Incoming where
  request : HttpRequest
  chunks : List Chunk := []
  around : Circumstances := {}

/-- A request between two calls of the handler, with the calls that are still to come. -/
structure OpenRequest where
  req_cls : Option ConnectionState := none
  queued : List Response := []
  closed : Bool := false
  calls : List (Option Chunk)

/-- The call with the headers, those with the pieces of the body, and the one at its end. -/
def Incoming.opened (r : Incoming) : OpenRequest :=
  { calls := none :: (r.chunks.map some ++ [none]) }

def OpenRequest.exchange (l : OpenRequest) (d : Daemon) : Exchange :=
  ⟨l.req_cls, d, l.queued, l.closed⟩

def next_call (s : Server) (r : Incoming) (d : Daemon) (l : OpenRequest) :
    Option (Daemon × OpenRequest) :=
  match l.calls with
  | [] => none
  | chunk :: rest =>
      let x := (l.exchange d).call s r.around r.request chunk
      some (x.daemon, ⟨x.req_cls, x.queued, x.closed, rest⟩)

/-- The polling thread of the server: one call at a time, for whichever request. -/
def server_turn {Client : Type*} (s : Server) (incoming : Client → Incoming) :
    Turn Client Daemon OpenRequest :=
  fun i now => next_call s (incoming i) now.1 now.2

/-- Requests one after the other: what they make of the daemon, and the responses to each. -/
def serve_in_turn {Client : Type*} (s : Server) (incoming : Client → Incoming) (d : Daemon)
    (order : List Client) : Daemon × List (List Response) :=
  order.foldl (fun past i =>
    let x := serve s (incoming i).around (incoming i).request (incoming i).chunks past.1
    (x.daemon, past.2 ++ [x.queued])) (d, [])

/-- Nothing more comes from the server. -/
def OpenRequest.Over (l : OpenRequest) : Prop := l.closed = true ∨ l.queued ≠ []

/-- The request is being collected. -/
structure OpenRequest.Waiting (r : Incoming) (l : OpenRequest) : Prop where
  still_open : l.closed = false
  unanswered : l.queued = []
  route : ∀ state, l.req_cls = some state → state.type = r.request.type

variable {s : Server} {r : Incoming} {d d' : Daemon} {l l' : OpenRequest}

section Calls

variable {around : Circumstances} {request : HttpRequest} {chunk : Option Chunk}
  {req_cls : Option ConnectionState}

/-- A call that waits for more has not looked at the daemon. -/
theorem accessHandler_waits (hRoute : ∀ state, req_cls = some state → state.type = request.type)
    (hUpload : request.type ≠ .UPLOAD)
    (h : (accessHandler s around request chunk req_cls d).2 = .waits) :
    ∃ state, state.type = request.type ∧
      ∀ d', accessHandler s around request chunk req_cls d' = ((some state, d'), .waits) := by
  cases req_cls with
  | none =>
      by_cases hLocks : s.locks request = true
      · have hSends : (lock_serial d).2 ≠ .waits := by
          unfold lock_serial
          split <;> nofun
        exact absurd (by simpa [accessHandler, hLocks] using h) hSends
      · exact ⟨{ type := request.type, pp := request.type = .UPLOAD ∧ request.post_processor },
          rfl, fun d' => by simp [accessHandler, hLocks]⟩
  | some state =>
      have hType := hRoute state rfl
      rw [← hType] at hUpload ⊢
      cases hState : state.type with
      | UPLOAD => exact absurd hState hUpload
      | STATUS | RESET =>
          simp only [accessHandler, hState, handleStatus, handleReset] at h
          exact absurd h (s.lib.send_not_waits _)
      | NONE => simp [accessHandler, hState] at h
      | COMMAND =>
          cases chunk with
          | some chunk =>
              refine ⟨{ state with cmd_body := state.cmd_body ++ chunk.data }, hState, fun d' => ?_⟩
              simp [accessHandler, hState, handleCommand, chunk.nonempty]
          | none =>
              by_cases hBody : state.cmd_body = []
              · exact ⟨state, hState, fun d' => by
                  simp [accessHandler, hState, handleCommand, hBody]⟩
              · have hAnswers := handleCommand_not_waits s.lib s.cfg s.build around d hBody
                exact absurd (by simpa [accessHandler, hState] using h) hAnswers

/-- A call that does not wait ends the exchange. -/
theorem Exchange.call_ends {x : Exchange} (hOpen : x.closed = false) (hNone : x.queued = [])
    (h : (accessHandler s around request chunk x.req_cls x.daemon).2 ≠ .waits) :
    (x.call s around request chunk).closed = true ∨
      (x.call s around request chunk).queued ≠ [] := by
  rcases hResult : accessHandler s around request chunk x.req_cls x.daemon with
    ⟨⟨req_cls, d⟩, ending⟩
  rw [hResult] at h
  cases ending with
  | waits => exact absurd rfl h
  | sends response => cases chunk <;> simp [Exchange.call, hOpen, hNone, hResult]
  | throws | stuck => simp [Exchange.call, hOpen, hNone, hResult]

end Calls

/-- Unless it uploads, a request comes to the daemon in one of its calls only. -/
theorem server_settles_once {Client : Type*} {incoming : Client → Incoming}
    (hRoute : ∀ i, (incoming i).request.type ≠ .UPLOAD) :
    SettlesOnce (server_turn s incoming) (fun i => OpenRequest.Waiting (incoming i))
      (fun _ => OpenRequest.Over) where
  waits := by
    intro i l d next hWaiting hTurn
    rcases l with ⟨req_cls, queued, closed, _ | ⟨chunk, rest⟩⟩
    · cases hTurn
    obtain ⟨rfl, rfl, hType⟩ := hWaiting
    by_cases hWaits : (accessHandler s (incoming i).around (incoming i).request chunk req_cls d).2 =
        .waits
    · obtain ⟨state, hState, hSame⟩ := accessHandler_waits hType (hRoute i) hWaits
      have hUnseen : Unseen (server_turn s incoming) i ⟨req_cls, [], false, chunk :: rest⟩
          ⟨some state, [], false, rest⟩ := by
        intro d'
        simp [server_turn, next_call, OpenRequest.exchange, Exchange.call, hSame d']
      obtain rfl : (d, (⟨some state, [], false, rest⟩ : OpenRequest)) = next :=
        Option.some.inj ((hUnseen d).symm.trans hTurn)
      refine Or.inl ⟨hUnseen, rfl, rfl, ?_⟩
      rintro found ⟨⟩
      exact hState
    · cases hTurn
      exact Or.inr (Exchange.call_ends rfl rfl hWaits)
  stays := by
    intro i l d next hOver hTurn
    rcases l with ⟨req_cls, queued, closed, _ | ⟨chunk, rest⟩⟩
    · cases hTurn
    have hUnseen : Unseen (server_turn s incoming) i ⟨req_cls, queued, closed, chunk :: rest⟩
        ⟨req_cls, queued, closed, rest⟩ := by
      intro d'
      have hCall : (⟨req_cls, d', queued, closed⟩ : Exchange).call s (incoming i).around
          (incoming i).request chunk = ⟨req_cls, d', queued, closed⟩ := if_pos hOver
      simp [server_turn, next_call, OpenRequest.exchange, hCall]
    obtain rfl : (d, (⟨req_cls, queued, closed, rest⟩ : OpenRequest)) = next :=
      Option.some.inj ((hUnseen d).symm.trans hTurn)
    exact ⟨hUnseen, hOver⟩

/-- The calls that are still to come, without any others in between. -/
def OpenRequest.finish (s : Server) (r : Incoming) (d : Daemon) (l : OpenRequest) : Exchange :=
  l.calls.foldl (fun x chunk => x.call s r.around r.request chunk) (l.exchange d)

theorem OpenRequest.finish_next (h : next_call s r d l = some (d', l')) :
    l'.finish s r d' = l.finish s r d := by
  rcases l with ⟨req_cls, queued, closed, _ | ⟨chunk, rest⟩⟩
  · cases h
  · cases h
    rfl

theorem Incoming.finish_opened (s : Server) (r : Incoming) (d : Daemon) :
    r.opened.finish s r d = serve s r.around r.request r.chunks d := by
  simp [OpenRequest.finish, Incoming.opened, OpenRequest.exchange, serve, Exchange.receive,
    List.foldl_map]

variable {Client : Type*} {incoming : Client → Incoming} {i : Client}

/-- A request that is handled alone to its end is served. -/
theorem serve_of_alone (h : Alone (server_turn s incoming) i (d, (incoming i).opened) (d', l))
    (hDone : l.calls = []) :
    serve s (incoming i).around (incoming i).request (incoming i).chunks d = l.exchange d' := by
  have hFinish : ∀ a b, Alone (server_turn s incoming) i a b →
      b.2.finish s (incoming i) b.1 = a.2.finish s (incoming i) a.1 := by
    intro a b hAlone
    induction hAlone with
    | refl => rfl
    | tail prior step ih => exact (OpenRequest.finish_next step).trans ih
  have hServed := hFinish _ _ h
  rw [Incoming.finish_opened, OpenRequest.finish, hDone] at hServed
  exact hServed.symm

/-- Requests that are handled to their end in turn are served in turn. -/
theorem serve_in_turn_of_one_by_one {last : Client → OpenRequest} {order : List Client}
    (h : OneByOne (server_turn s incoming) (fun i => (incoming i).opened) last d order d')
    (hDone : ∀ i ∈ order, (last i).calls = []) :
    serve_in_turn s incoming d order = (d', order.map fun i => (last i).queued) := by
  induction h with
  | nil => rfl
  | @concat t u order i prior alone ih =>
      have hServe := serve_of_alone alone (hDone i (by simp))
      have hPrior := ih fun j hj => hDone j (by simp [hj])
      rw [serve_in_turn] at hPrior
      rw [serve_in_turn, List.foldl_append, hPrior]
      simp [hServe, OpenRequest.exchange]

/-- **Requests as if one by one.** However the calls for requests that upload nothing are
interleaved, there is an order of the requests in which, served one after the other, they leave
the same daemon and get the same responses. It follows one call of each, so that a request that
ends before another one begins comes before it. The other requests have no response and do
nothing to the daemon, whenever they are served. -/
theorem requests_serialize [DecidableEq Client] {last : Client → OpenRequest}
    {trace : List (Client × Unit)} (hRoute : ∀ i, (incoming i).request.type ≠ .UPLOAD)
    (run : Runs (turn_machine (server_turn s incoming)).Step (d, fun i => (incoming i).opened)
      trace (d', last))
    (hDone : ∀ i ∈ trace.map Prod.fst, (last i).calls = []) :
    ∃ order, order.Sublist (trace.map Prod.fst) ∧ order.Nodup ∧
      serve_in_turn s incoming d order = (d', order.map fun i => (last i).queued) ∧
      ∀ i ∈ trace.map Prod.fst, i ∉ order → (last i).queued = [] ∧ ∀ d₀,
        serve s (incoming i).around (incoming i).request (incoming i).chunks d₀ =
          (last i).exchange d₀ := by
  have hStart : ∀ i, OpenRequest.Waiting (incoming i) (incoming i).opened :=
    fun i => ⟨rfl, rfl, fun state hState => by cases hState⟩
  obtain ⟨order, hOrder⟩ := (server_settles_once hRoute).one_by_one run hStart
  refine ⟨order, hOrder.turns, hOrder.once, ?_, fun i hMem hOther => ?_⟩
  · exact serve_in_turn_of_one_by_one hOrder.one_by_one
      fun i hi => hDone i (hOrder.turns.subset hi)
  · obtain ⟨hWaiting, hPath⟩ := hOrder.others i hOther
    exact ⟨hWaiting.unanswered, fun d₀ =>
      serve_of_alone (Alone.of_unseen hPath d₀) (hDone i hMem)⟩

theorem reset_url_ends : (0 : UInt8) ∉ str "/api/reset" := by decide

def reset_request : HttpRequest := { command_request with url := ⟨_, reset_url_ends⟩ }

/-- `AT+HELP`, and a reset that comes while its body is collected. -/
def help_and_reset : Bool → Incoming
  | true => { request := command_request, chunks := [help_chunk] }
  | false => { request := reset_request }

/-- The serial line holds the lock, until the reset is handled. -/
def locked_daemon : Daemon := { owner := .SERIAL, host := fresh_host }

/-- The command is turned away, and the reset succeeds. -/
def help_and_reset_responses : Bool → List Response
  | true => [busy_response]
  | false => [⟨200, .dump [(str "status", .string (str "ok"))]⟩]

/-- The reset begins before the command has come to its end, and is handled after it. -/
theorem help_and_reset_handled :
    ((turn_machine (server_turn sample_server help_and_reset)).exec
      (locked_daemon, fun i => (help_and_reset i).opened)
      [true, false, true, true, false]).map (fun result => (result.1.2 true, result.1.2 false)) =
      some (⟨some { type := .COMMAND, cmd_body := help_body }, help_and_reset_responses true,
        false, []⟩, ⟨some { type := .RESET }, help_and_reset_responses false, false, []⟩) := by
  rfl

/-- Both are answered as they would be one after the other. -/
theorem requests_serialize_two :
    ∃ d last trace order, (turn_machine (server_turn sample_server help_and_reset)).exec
        (locked_daemon, fun i => (help_and_reset i).opened)
        [true, false, true, true, false] = some ((d, last), trace) ∧
      (∀ i, (last i).queued = help_and_reset_responses i) ∧
      (∀ i, i ∈ order) ∧ order.Nodup ∧
      serve_in_turn sample_server help_and_reset locked_daemon order =
        (d, order.map help_and_reset_responses) := by
  obtain ⟨⟨⟨d, last⟩, trace⟩, hExec, hLast⟩ := Option.map_eq_some_iff.mp help_and_reset_handled
  obtain ⟨hHelp, hReset⟩ := Prod.mk.inj hLast
  have hAnswered : ∀ i, (last i).queued = help_and_reset_responses i := by
    intro i
    cases i with
    | true => exact congrArg OpenRequest.queued hHelp
    | false => exact congrArg OpenRequest.queued hReset
  have hDone : ∀ i, (last i).calls = [] := by
    intro i
    cases i with
    | true => exact congrArg OpenRequest.calls hHelp
    | false => exact congrArg OpenRequest.calls hReset
  obtain ⟨order, -, hOnce, hServed, hOthers⟩ :=
    requests_serialize (by decide) (Machine.runs_of_exec hExec) (fun i _ => hDone i)
  rw [Machine.exec_actions hExec] at hOthers
  -- a request that is not in the order would have no response
  have hMem : ∀ i, i ∈ order := by
    intro i
    by_contra hOut
    obtain ⟨hSilent, -⟩ := hOthers i (by cases i <;> decide) hOut
    rw [hAnswered] at hSilent
    cases i <;> exact List.cons_ne_nil _ _ hSilent
  rw [List.map_congr_left fun i _ => hAnswered i] at hServed
  exact ⟨d, last, trace, order, hExec, hAnswered, hMem, hOnce, hServed⟩

end RkFlashd
