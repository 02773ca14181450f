import RkFlashd.Daemon.UploadSession
import RkFlashd.HttpServer.Access
import RkFlashd.Machine.Simulation
import RkFlashd.Serial.Delivery

/-! An upload over the serial line, from the bytes that arrive to the bytes that go out, with
the other threads at work. What the loop does between two commands does not show in the files,
and neither does a request that finds the lock taken. -/
namespace RkFlashd

open Text Checksum Transition

/-- The lines that carry a file. -/
def upload_lines (f d : Bytes) (frames : List Sent) : List Bytes :=
  (str "AT+PREUPLOAD=" ++ preupload_arg f d) :: (frames.map Sent.line ++ [str "AT+UPLOADDONE"])

/-- The file calls of a command succeed, and the other threads leave the upload, the files and
the lock alone. -/
def Calm (s : ReaderState) (label : ReaderLabel) : Prop :=
  match label.1 with
  | .handle around => around.io = {}
  | .other daemon => daemon.host = s.daemon.host ∧ daemon.owner = s.daemon.owner
  | _ => True

/-- The command that a step executes, with its answer. -/
def executed : ReaderLabel → Option (Call × Bytes)
  | (.handle around, .handled line answer) => some (⟨.SERIAL, line, around⟩, answer)
  | _ => none

/-- The line of a command of the upload protocol. -/
def UploadLine (line : Bytes) : Prop :=
  ∃ command upload, dispatch line = .ok command ∧ command.upload = some upload

/-- The loop is not going to turn its line away. -/
structure Unopposed (s : ReaderState) : Prop where
  owner : s.daemon.owner ≠ .HTTP
  comparing : ∀ line, s.phase = .comparing line → s.daemon.owner = .SERIAL

variable {cfg : Config} {build : Build} {d d' : Daemon} {call : Call} {answer : Bytes}
  {s t : ReaderState} {label : ReaderLabel} {trace : List ReaderLabel}

/-- The reader does not give the lock to the other side. -/
theorem process_owner_ne_http (h : process cfg build d call = some (d', answer))
    (hOwner : d.owner ≠ .HTTP) : d'.owner ≠ .HTTP := by
  by_cases hReset : dispatch call.line = .ok .RESET
  · rw [process_ok hReset] at h
    cases h
    change (handle_reset call.caller d.owner).1 ≠ .HTTP
    unfold handle_reset release
    split_ifs <;> simp [hOwner]
  · by_cases hForce : dispatch call.line = .ok .FORCERESET
    · rw [process_ok hForce] at h
      cases h
      simp [force_release]
    · rwa [process_owner h hReset hForce]

/-- A calm step turns no line away, and leaves none to be turned away. -/
theorem Unopposed.step (h : Unopposed s) (hMove : ReaderMove cfg build s label t)
    (hCalm : Calm s label) : Unopposed t ∧ label.2 ≠ .refused := by
  cases hMove with
  | acquired hPhase hFree => exact ⟨⟨by simp, by simp⟩, by simp⟩
  | contended hPhase hHeld =>
      have hOwn : s.daemon.owner = .SERIAL := by
        cases hOwner : s.daemon.owner with
        | NONE => exact absurd hOwner hHeld
        | HTTP => exact absurd hOwner h.owner
        | SERIAL => rfl
      exact ⟨⟨h.owner, fun _ _ => hOwn⟩, by simp⟩
  | refused hPhase hForeign => exact absurd (h.comparing _ hPhase) hForeign
  | handled hPhase hResult =>
      refine ⟨⟨process_owner_ne_http hResult h.owner, fun line hNext => ?_⟩, by simp⟩
      dsimp only at hNext
      split at hNext <;> cases hNext
  | other =>
      obtain ⟨-, hOwner⟩ := hCalm
      refine ⟨⟨?_, fun line hNext => ?_⟩, by simp⟩
      · exact hOwner ▸ h.owner
      · exact hOwner.trans (h.comparing line hNext)
  | stopping | closed | stopped => exact ⟨⟨h.owner, h.comparing⟩, by simp⟩
  | next | exit | got_line | no_line | retry | still_open | opened | reused | wrote =>
      exact ⟨⟨h.owner, by simp⟩, by simp⟩

/-- What a run settles it executes, and the file calls of its commands succeed. -/
theorem calm_run (run : Runs (Guarded (reader_machine cfg build).Step Calm) s trace t)
    (h : Unopposed s) :
    Unopposed t ∧
      settled trace = (trace.filterMap executed).map (fun done => .handled done.1.line done.2) ∧
      ∀ done ∈ trace.filterMap executed, done.1.around.io = {} := by
  induction run with
  | zero => exact ⟨h, rfl, by simp⟩
  | @succ t u trace label prior last ih =>
      obtain ⟨hNow, hSettled, hIo⟩ := ih
      have hMove := reader_step_cases last.1
      obtain ⟨hNext, hAnswered⟩ := hNow.step hMove last.2
      have hLast : settled [label] =
          ((executed label).toList).map (fun done => .handled done.1.line done.2) := by
        cases hMove with
        | refused => exact absurd rfl hAnswered
        | _ => rfl
      have hLastIo : ∀ done ∈ executed label, done.1.around.io = {} := by
        intro done hDone
        cases hMove with
        | handled =>
            cases hDone
            exact last.2
        | _ => cases hDone
      have hConcat : (trace ++ [label]).filterMap executed =
          trace.filterMap executed ++ (executed label).toList := by
        rw [List.filterMap_append]
        cases hSome : executed label <;> simp [hSome]
      refine ⟨hNext, ?_, ?_⟩
      · rw [settled_concat, hSettled, hLast, hConcat, List.map_append]
      · rw [hConcat]
        intro done hDone
        rcases List.mem_append.mp hDone with hPast | hHere
        · exact hIo done hPast
        · exact hLastIo done (Option.mem_toList.mp hHere)

/-- An upload command looks at the upload state and the files only. -/
theorem process_host (hLine : UploadLine call.line)
    (h : process cfg build d call = some (d', answer)) :
    process cfg build { host := d.host } call = some ({ host := d'.host }, answer) := by
  obtain ⟨command, upload, hDispatch, hUpload⟩ := hLine
  rw [process_ok hDispatch, execute_upload hUpload] at h ⊢
  cases h
  rfl

/-- The commands of a run of the loop, all of the upload protocol, are a run of `process` on
the upload state and the files. -/
theorem executed_run (run : Runs (Guarded (reader_machine cfg build).Step Calm) s trace t)
    (hLines : ∀ done ∈ trace.filterMap executed, UploadLine done.1.line) :
    Runs (process_machine cfg build).Step { host := s.daemon.host } (trace.filterMap executed)
      { host := t.daemon.host } := by
  have hLabels : ∀ label ∈ trace, ∀ done, executed label = some done → UploadLine done.1.line :=
    fun label hLabel done hDone => hLines done (List.mem_filterMap.mpr ⟨label, hLabel, hDone⟩)
  refine (run.guard_labels hLabels).project_filterMap
    (fun u => ({ host := u.daemon.host } : Daemon)) executed ?_ ?_
  · rintro u label v done ⟨⟨hStep, -⟩, hLine⟩ hDone
    cases reader_step_cases hStep with
    | handled hPhase hResult =>
        have hUpload := hLine done hDone
        cases hDone
        exact process_host hUpload hResult
    | _ => cases hDone
  · rintro u label v ⟨⟨hStep, hCalm⟩, -⟩ hNone
    cases reader_step_cases hStep with
    | handled => cases hNone
    | other => rw [hCalm.1]
    | _ => rfl

/-- The file can be announced under its name, and the accepted frames make it up. -/
structure Uploadable (f d : Bytes) (frames : List Sent) : Prop where
  name : f ≠ [] ∧ f.length ≤ 255
  no_slash : (47 : UInt8) ∉ f
  no_dots : ¬ str ".." <:+: f
  no_comma : (44 : UInt8) ∉ f
  no_nul : (0 : UInt8) ∉ f
  one_line : OneLine f
  data : d ≠ [] ∧ d.length < 2 ^ 64
  well_formed : ∀ frame ∈ frames, frame.WellFormed
  cut : frames.flatMap Sent.accepted = d

section Lines

variable {f data line : Bytes} {frames : List Sent}

/-- The line of a frame begins with its command and is dispatched to it. -/
theorem Sent.line_arg (frame : Sent) :
    ∃ x crc16_hex, frame.line = str "AT+UPLOAD=" ++ frame_arg x crc16_hex ∧
      (frame.WellFormed → OneLine crc16_hex) := by
  cases frame with
  | good x => exact ⟨x, _, rfl, fun _ => one_line_print_hex true 4 _⟩
  | bad x crc16_hex => exact ⟨x, crc16_hex, rfl, fun h => one_line_xdigits h.2.2.1⟩

theorem hex_encode_one_line (x : Bytes) : OneLine (hex_encode x) := by
  intro hMem
  obtain ⟨byte, -, hByte⟩ := List.mem_flatMap.mp hMem
  exact one_line_print_hex false 2 byte.toNat hByte

theorem upload_lines_one_line (h : Uploadable f data frames)
    (hLine : line ∈ upload_lines f data frames) : OneLine line := by
  have hComma : ∀ {a b : Bytes}, OneLine a → OneLine b → OneLine (a ++ 44 :: b) := by
    intro a b ha hb
    have hPart : OneLine (a ++ ([44] ++ b)) :=
      one_line_append.mpr ⟨ha, one_line_append.mpr ⟨by decide, hb⟩⟩
    exact hPart
  rcases List.mem_cons.mp hLine with rfl | hLine
  · refine one_line_append.mpr ⟨one_line_str (by decide), hComma h.one_line ?_⟩
    exact hComma (one_line_to_string _) (one_line_xdigits (md5_compute_isxdigit data))
  · rcases List.mem_append.mp hLine with hFrame | hDone
    · obtain ⟨frame, hSent, rfl⟩ := List.mem_map.mp hFrame
      obtain ⟨x, crc16_hex, hText, hCrc⟩ := frame.line_arg
      rw [hText]
      refine one_line_append.mpr ⟨one_line_str (by decide), hComma (hex_encode_one_line x) ?_⟩
      exact hComma (hCrc (h.well_formed frame hSent)) (one_line_to_string _)
    · rw [List.mem_singleton.mp hDone]
      exact one_line_str (by decide)

theorem upload_line (hLine : line ∈ upload_lines f data frames) : UploadLine line := by
  rcases List.mem_cons.mp hLine with rfl | hLine
  · exact ⟨_, _, dispatch_preupload f data, rfl⟩
  · rcases List.mem_append.mp hLine with hFrame | hDone
    · obtain ⟨frame, -, rfl⟩ := List.mem_map.mp hFrame
      obtain ⟨x, crc16_hex, hText, -⟩ := frame.line_arg
      rw [hText]
      exact ⟨_, _, dispatch_frame x crc16_hex, rfl⟩
    · rw [List.mem_singleton.mp hDone]
      exact ⟨.UPLOADDONE, .UPLOADDONE, by decide, rfl⟩

/-- The lines arrive as they were sent. -/
theorem deliverable_upload (h : Uploadable f data frames)
    (hFit : ∀ line ∈ upload_lines f data frames, line.length ≤ SerialPort.MAX_LINE_LEN) :
    deliverable (wire_of (upload_lines f data frames)) = upload_lines f data frames := by
  have hLines := (lines_of_wire_of_iff (upload_lines f data frames)).mpr
    fun line hLine => upload_lines_one_line h hLine
  rw [deliverable, hLines, List.filter_eq_self]
  exact fun line hLine => by simpa using hFit line hLine

end Lines

/-- Lines that are all executed are the lines of the commands. -/
theorem lines_of_settles {commands : List (Call × Bytes)} {lines : List Bytes}
    (h : List.Forall₂ Settles (commands.map fun done => .handled done.1.line done.2) lines) :
    commands.map (fun done => done.1.line) = lines := by
  induction commands generalizing lines with
  | nil =>
      cases h
      rfl
  | cons done rest ih =>
      cases h with
      | cons hFirst hRest =>
          cases hFirst
          rw [List.map_cons, ih hRest]

/-- A run of just these commands stores the file. -/
theorem upload_run {f data : Bytes} {frames : List Sent} {commands : List (Call × Bytes)}
    (h : Uploadable f data frames)
    (run : Runs (process_machine cfg build).Step d commands d')
    (hLines : commands.map (fun done => done.1.line) = upload_lines f data frames)
    (hIo : ∀ done ∈ commands, done.1.around.io = {}) (hIdle : d.host.upload.active = false) :
    ∃ replies, commands.map Prod.snd = str "OK READY" :: (replies ++
        [str "OK " ++ f ++ str " " ++ to_string data.length ++ str " " ++ md5_compute data]) ∧
      Replies 0 frames replies ∧ d'.host.fs.read (cfg.in_upload_dir f) = some data ∧
      d'.host.upload.active = false := by
  obtain ⟨first, rest, rfl, hFirst, hRest⟩ := List.map_eq_cons_iff.mp hLines
  obtain ⟨sent, final, rfl, hSent, hFinal⟩ := List.map_eq_append_iff.mp hRest
  obtain ⟨last, tail, rfl, hLast, hTail⟩ := List.map_eq_cons_iff.mp hFinal
  obtain rfl : tail = [] := by simpa using hTail
  have hSentLines : (sent.map Prod.fst).map Call.line = frames.map Sent.line := by
    rw [← hSent, List.map_map]
    rfl
  have hSentIo : ∀ call ∈ sent.map Prod.fst, call.around.io = {} := by
    intro call hCall
    obtain ⟨done, hDone, rfl⟩ := List.mem_map.mp hCall
    exact hIo done (by simp [hDone])
  have hRoom : ([] : Bytes).length + (frames.flatMap Sent.accepted).length ≤
      Storage.maxFileSize := by
    have hLength := h.data.2
    rw [h.cut, List.length_nil]
    unfold Storage.maxFileSize
    omega
  -- the announcement, the frames and the verdict, each from the state before it
  obtain ⟨d₁, hReady, hOpen⟩ := process_announcement cfg build hIdle
    (parse_preupload_arg h.name h.no_slash h.no_dots h.no_comma h.data) hFirst (hIo _ (by simp))
  obtain ⟨d₂, trace, t, hFrames, hReceiving, ⟨hName, hSize, hDigest⟩, hBytes, hReplies⟩ :=
    process_frames build hOpen h.well_formed hRoom hSentLines hSentIo
  have hStored : t.bytes = data := by rw [hBytes, h.cut]; rfl
  have hComplete : t.Complete := by
    constructor
    · rw [hSize, hStored, UInt64.toNat_ofNat', Nat.mod_eq_of_lt h.data.2]
    · rw [hDigest, hStored]
  obtain ⟨d₃, hVerdict, hRead, hEnd⟩ :=
    process_verdict build hReceiving hComplete hLast (hIo _ (by simp))
  have hExec := Machine.exec_cons hReady (Machine.exec_append hFrames
    (Machine.exec_cons hVerdict (rfl : (process_machine cfg build).exec d₃ [] = some (d₃, []))))
  have hRun := Machine.exec_of_runs run
  simp only [List.map_cons, List.map_append, List.map_nil] at hRun
  obtain ⟨rfl, hCommands⟩ := Prod.mk.inj (Option.some.inj (hRun.symm.trans hExec))
  refine ⟨trace.map Prod.snd, ?_, hReplies, ?_, ?_⟩
  · rw [hCommands]
    simp [Transfer.confirmation, hStored, show t.filename = f from hName]
  · have hPath : t.final_path cfg = cfg.in_upload_dir f := by
      rw [Transfer.final_path, show t.filename = f from hName, cfg.c_str_in_upload_dir,
        c_str_eq_self h.no_nul]
    rw [← hPath, hRead, hStored]
  · rw [hEnd]

/-- A file whose lines come in while the other threads are calm is stored under its name. -/
theorem calm_upload_stored {f data : Bytes} {frames : List Sent}
    (h : Uploadable f data frames)
    (hFit : ∀ line ∈ upload_lines f data frames, line.length ≤ SerialPort.MAX_LINE_LEN)
    (run : Runs (Guarded (reader_machine cfg build).Step fun u label =>
      WholeRead u label ∧ CompleteWrite u label ∧ Calm u label) s trace t)
    (hStart : s.phase = .loop) (hOwner : s.daemon.owner ≠ .HTTP)
    (hIdle : s.daemon.host.upload.active = false)
    (hStream : arrived (reads_of trace) = wire_of (upload_lines f data frames))
    (hTaken : t.phase.line = none) :
    ∃ replies,
      wire trace ++ wire_of t.phase.pending = wire_of (str "OK READY" :: (replies ++
        [str "OK " ++ f ++ str " " ++ to_string data.length ++ str " " ++ md5_compute data])) ∧
      Replies 0 frames replies ∧ t.daemon.host.fs.read (cfg.in_upload_dir f) = some data ∧
      t.daemon.host.upload.active = false := by
  have hUnopposed : Unopposed s := ⟨hOwner, fun line hLine => by rw [hStart] at hLine; cases hLine⟩
  have calm : Runs (Guarded (reader_machine cfg build).Step Calm) s trace t :=
    run.mono fun _ _ _ hStep => ⟨hStep.1, hStep.2.2.2⟩
  obtain ⟨-, hSettled, hIo⟩ := calm_run calm hUnopposed
  obtain ⟨lines, hBalance, hDone⟩ :=
    (delivered_run (run.mono fun _ _ _ hStep => ⟨hStep.1, hStep.2.1⟩) (by rw [hStart]; rfl)).balance
  rw [hStream, deliverable_upload h hFit, hTaken, Option.toList_none, List.append_nil] at hBalance
  subst hBalance
  rw [hSettled] at hDone
  have hLines := lines_of_settles hDone
  have hUpload : ∀ done ∈ trace.filterMap executed, UploadLine done.1.line := by
    intro done hMem
    have hLine : done.1.line ∈ upload_lines f data frames := hLines ▸ List.mem_map_of_mem hMem
    exact upload_line hLine
  obtain ⟨replies, hAnswers, hReplies, hRead, hEnd⟩ :=
    upload_run h (executed_run calm hUpload) hLines hIo hIdle
  refine ⟨replies, ?_, hReplies, hRead, hEnd⟩
  have hWire := wire_run (run.mono fun _ _ _ hStep => ⟨hStep.1, hStep.2.2.1⟩) (by rw [hStart]; rfl)
  have hReply : (settled trace).map ReaderEvent.reply =
      (trace.filterMap executed).map Prod.snd := by
    rw [hSettled, List.map_map]
    rfl
  rw [← hWire, (reply_run run.unguard).1, hReply, hAnswers]

/-- A call for an HTTP request that is neither an upload nor a forced reset of the lock. -/
def Unforced (srv : Server) (req_cls : Option ConnectionState) : Prop :=
  ∀ state, req_cls = some state → state.type ≠ .UPLOAD ∧ state.type ≠ .RESET ∧
    ∀ cmd, srv.lib.parse state.cmd_body = .value (some cmd) → dispatch cmd ≠ .ok .FORCERESET

/-- What the other threads do: the worker of a flash moves, or the server is called. -/
inductive Bystander (srv : Server) (d : Daemon) : Daemon → Prop where
  | flash (flash : FlashSystem) : Bystander srv d { d with flash := flash }
  | request (around : Circumstances) (request : HttpRequest) (chunk : Option Chunk)
      {req_cls : Option ConnectionState} (h : Unforced srv req_cls) :
      Bystander srv d (accessHandler srv around request chunk req_cls d).1.2

/-- The file calls of a command succeed, and the other threads are bystanders. -/
def Among (srv : Server) (s : ReaderState) (label : ReaderLabel) : Prop :=
  match label.1 with
  | .handle around => around.io = {}
  | .other daemon => Bystander srv s.daemon daemon
  | _ => True

section Bystanders

variable {srv : Server} {around : Circumstances} {request : HttpRequest} {chunk : Option Chunk}
  {req_cls : Option ConnectionState} {state : ConnectionState}

theorem with_owner_eq (h : d.owner = .SERIAL) : { d with owner := .SERIAL } = d := by
  rw [← h]

/-- During a session of the serial side a command that comes over HTTP is turned away or finds
that it is not the owner. -/
theorem handleCommand_held (hOwner : d.owner = .SERIAL) (upload_data : Bytes)
    (hForce : ∀ cmd, srv.lib.parse state.cmd_body = .value (some cmd) →
      dispatch cmd ≠ .ok .FORCERESET) :
    (handleCommand srv.lib srv.cfg srv.build around upload_data state d).1.2 = d := by
  unfold handleCommand
  split
  · rfl
  · split
    · rfl
    · split
      · rfl
      · rfl
      · rfl
      · rename_i cmd hParse
        cases hBypass : bypass_lock cmd with
        | false =>
            have hCheck : session_check cmd d.owner = (false, .SERIAL) := by
              simp [session_check, hBypass, is_busy, hOwner]
            rw [hCheck]
            exact with_owner_eq hOwner
        | true =>
            have hReset : dispatch cmd = .ok .RESET :=
              (bypass_lock_dispatch hBypass).resolve_right (hForce cmd hParse)
            have hProcess : process srv.cfg srv.build { d with owner := .SERIAL }
                ⟨.HTTP, cmd, around⟩ = some ({ d with owner := .SERIAL },
                  str "ERROR: only the lock owner can reset") := by
              rw [process_ok hReset]
              rfl
            have hCheck : session_check cmd d.owner = (true, .SERIAL) := by
              simp [session_check, hBypass, hOwner]
            rw [hCheck]
            dsimp only
            rw [hProcess]
            exact with_owner_eq hOwner

/-- A request that neither uploads nor forces the lock does nothing while the lock is held. -/
theorem accessHandler_held (hOwner : d.owner = .SERIAL) (h : Unforced srv req_cls) :
    (accessHandler srv around request chunk req_cls d).1.2 = d := by
  cases req_cls with
  | none =>
      by_cases hLocks : srv.locks request = true
      · have hHeld : (lock_serial d).1 = d := by
          simp [lock_serial, try_acquire, hOwner, with_owner_eq hOwner]
        simpa [accessHandler, hLocks] using hHeld
      · simp [accessHandler, hLocks]
  | some state =>
      obtain ⟨hUpload, hReset, hForce⟩ := h state rfl
      cases hType : state.type with
      | UPLOAD => exact absurd hType hUpload
      | RESET => exact absurd hType hReset
      | STATUS | NONE => simp [accessHandler, hType]
      | COMMAND => simpa [accessHandler, hType] using handleCommand_held hOwner _ hForce

theorem Bystander.keeps (h : Bystander srv d d') (hOwner : d.owner = .SERIAL) :
    d'.host = d.host ∧ d'.owner = d.owner := by
  cases h with
  | flash flash => exact ⟨rfl, rfl⟩
  | request around request chunk hForce =>
      rw [accessHandler_held hOwner hForce]
      exact ⟨rfl, rfl⟩

/-- The session of the serial side goes on, and its bystanders are calm. -/
theorem session_step (hOwner : s.daemon.owner = .SERIAL) (hMove : ReaderMove cfg build s label t)
    (hAmong : Among srv s label)
    (hLine : ∀ line answer, label.2 = .handled line answer → UploadLine line) :
    t.daemon.owner = .SERIAL ∧ Calm s label := by
  cases hMove with
  | handled hPhase hResult =>
      obtain ⟨command, upload, hDispatch, hUpload⟩ := hLine _ _ rfl
      refine ⟨?_, hAmong⟩
      rw [process_owner hResult, hOwner]
      · rw [hDispatch]
        rintro ⟨⟩
        cases hUpload
      · rw [hDispatch]
        rintro ⟨⟩
        cases hUpload
  | other =>
      have hKeeps := Bystander.keeps hAmong hOwner
      exact ⟨hKeeps.2.trans hOwner, hKeeps⟩
  | acquired => exact ⟨rfl, trivial⟩
  | next | exit | got_line | no_line | retry | still_open | opened | contended | refused | reused
  | wrote | stopping | closed | stopped => exact ⟨hOwner, trivial⟩

end Bystanders

/-- **An upload in traffic.** A file whose lines come in over the serial port during a session
of the serial side is stored under its name, and the wire carries the answers to these lines and
nothing else, however the reads cut the stream up and whatever flash workers and HTTP requests
do in between: as long as no line is torn or too long, the writes are complete, and no request
uploads a file or forces the lock. -/
theorem serial_upload_stored {srv : Server} {f data : Bytes} {frames : List Sent}
    (h : Uploadable f data frames)
    (hFit : ∀ line ∈ upload_lines f data frames, line.length ≤ SerialPort.MAX_LINE_LEN)
    (run : Runs (Guarded (reader_machine srv.cfg srv.build).Step fun u label =>
      WholeRead u label ∧ CompleteWrite u label ∧ Among srv u label) s trace t)
    (hStart : s.phase = .loop) (hOwner : s.daemon.owner = .SERIAL)
    (hIdle : s.daemon.host.upload.active = false)
    (hStream : arrived (reads_of trace) = wire_of (upload_lines f data frames))
    (hTaken : t.phase.line = none) :
    ∃ replies,
      wire trace ++ wire_of t.phase.pending = wire_of (str "OK READY" :: (replies ++
        [str "OK " ++ f ++ str " " ++ to_string data.length ++ str " " ++ md5_compute data])) ∧
      Replies 0 frames replies ∧ t.daemon.host.fs.read (srv.cfg.in_upload_dir f) = some data ∧
      t.daemon.host.upload.active = false := by
  obtain ⟨lines, hBalance, hDone⟩ :=
    (delivered_run (run.mono fun _ _ _ hStep => ⟨hStep.1, hStep.2.1⟩) (by rw [hStart]; rfl)).balance
  rw [hStream, deliverable_upload h hFit, hTaken, Option.toList_none, List.append_nil] at hBalance
  have hLabels : ∀ label ∈ trace, ∀ line answer, label.2 = .handled line answer →
      UploadLine line := by
    intro label hLabel line answer hHandled
    have hSettled : ReaderEvent.handled line answer ∈ settled trace := by
      rw [settled, List.mem_filter]
      exact ⟨List.mem_map.mpr ⟨label, hLabel, hHandled⟩, rfl⟩
    obtain ⟨found, hFound, hSettles⟩ := settles_of_mem hDone hSettled
    cases hSettles
    exact upload_line (hBalance ▸ hFound)
  have hStep : ∀ u label v, u.daemon.owner = .SERIAL →
      Guarded (reader_machine srv.cfg srv.build).Step (fun u label =>
        WholeRead u label ∧ CompleteWrite u label ∧ Among srv u label) u label v →
      (∀ line answer, label.2 = .handled line answer → UploadLine line) →
      v.daemon.owner = .SERIAL ∧ Calm u label := fun u label v hSession hMove hLine =>
    session_step hSession (reader_step_cases hMove.1) hMove.2.2.2 hLine
  obtain ⟨calm, -⟩ := (run.guard_labels hLabels).guard_of_invariant hStep hOwner
  exact calm_upload_stored h hFit
    (calm.mono fun _ _ _ hMove => ⟨hMove.1.1, hMove.1.2.1, hMove.1.2.2.1, hMove.2⟩) hStart
    (by rw [hOwner]; decide) hIdle hStream hTaken

/-- The byte `a`, with a damaged frame first. -/
def frames_a : List Sent := [.bad (str "a") (str "00fF"), .good (str "a")]

theorem frames_a_uploadable : Uploadable (str "f") (str "a") frames_a where
  name := by decide
  no_slash := by decide
  no_dots := by decide
  no_comma := by decide
  no_nul := by decide
  one_line := by decide
  data := by decide
  well_formed := by
    intro frame hFrame
    simp only [frames_a, List.mem_cons, List.not_mem_nil, or_false] at hFrame
    rcases hFrame with rfl | rfl
    · exact ⟨by decide, by decide, by decide +kernel, by decide +kernel⟩
    · exact (by decide : (str "a").length < 2 ^ 32)
  cut := rfl

/-- The reader in a session of its own. -/
def session_reader : ReaderState :=
  { waiting_reader with daemon := { host := fresh_host, owner := .SERIAL } }

/-- A further line, when the reader holds the lock already. -/
def held_actions (line : Bytes) (written : Int) : List ReaderAction :=
  [.go, .read quick_call.clock (line_reads line), .go, .go, .handle {}, .write written]

/-- The lines one by one, with a call in between that times out before its first read. -/
def upload_actions : List ReaderAction :=
  held_actions (str "AT+PREUPLOAD=" ++ preupload_arg (str "f") (str "a")) 10 ++
    (held_actions (Sent.bad (str "a") (str "00fF")).line 51 ++
      ([.go, .read (fun _ => 500) [], .go, .reopen {}] ++
        (held_actions (Sent.good (str "a")).line 6 ++ held_actions (str "AT+UPLOADDONE") 41)))

/-- A call that reads nothing or has all the time it needs, a handler without a failing file
call, no other thread. -/
def Smooth : ReaderAction → Prop
  | .read clock reads => reads = [] ∨ clock = quick_call.clock ∧ .error ∉ reads
  | .handle around => around.io = {}
  | .other _ => False
  | _ => True

theorem Smooth.allowed {label : ReaderLabel} (h : Smooth label.1) (srv : Server) (s : ReaderState) :
    WholeRead s label ∧ Among srv s label := by
  obtain ⟨action, event⟩ := label
  cases action with
  | read clock reads =>
      rcases h with rfl | ⟨rfl, hError⟩
      · refine ⟨?_, trivial⟩
        rintro ⟨quiet, rest, hEmpty, -, hTaken, -⟩
        rw [(List.append_eq_nil_iff.mp hEmpty.symm).1] at hTaken
        exact hTaken rfl
      · exact ⟨quick_call_not_torn hError, trivial⟩
  | handle around => exact ⟨trivial, h⟩
  | other => exact h.elim
  | go | reopen | write | stop_store | stop_close => exact ⟨trivial, trivial⟩

theorem upload_actions_smooth : ∀ action ∈ upload_actions, Smooth action := by
  simp [upload_actions, held_actions, line_reads, Smooth]

/-- `AT+HELP` over HTTP, which is turned away. -/
theorem help_turned_away : Bystander sample_server session_reader.daemon session_reader.daemon := by
  have hUnforced : Unforced sample_server (some { type := .COMMAND, cmd_body := help_body }) := by
    rintro state ⟨⟩
    refine ⟨by decide, by decide, fun cmd hCmd => ?_⟩
    obtain rfl : str "AT+HELP" = cmd := by simpa [sample_server, help_parsed] using hCmd
    rw [help_dispatched]
    nofun
  have hCall : Bystander sample_server session_reader.daemon
      (accessHandler sample_server {} command_request none
        (some { type := .COMMAND, cmd_body := help_body }) session_reader.daemon).1.2 :=
    Bystander.request {} command_request none hUnforced
  rwa [accessHandler_held rfl hUnforced] at hCall

/-- The byte is stored, and the wire carries the answers to the four lines, after a request over
HTTP that is turned away. -/
theorem serial_upload_stored_a :
    ∃ trace t replies, Runs (reader_machine {} sample_build).Step session_reader trace t ∧
      wire trace = wire_of (str "OK READY" ::
        (replies ++ [str "OK f 1 0cc175b9c0f1b6a831c399e269772661"])) ∧
      Replies 0 frames_a replies ∧
      t.daemon.host.fs.read (Config.in_upload_dir {} (str "f")) = some (str "a") := by
  obtain ⟨⟨t, trace⟩, hExec, hPhase⟩ := Option.map_eq_some_iff.mp
    (by decide +kernel : (((reader_machine {} sample_build).guard CompleteWrite).exec
      session_reader upload_actions).map (fun result => result.1.phase) = some .loop)
  have hActions := Machine.exec_actions hExec
  have hReads : reads_of trace = upload_actions.flatMap ReaderAction.reads := by
    rw [← hActions, List.flatMap_map]
    rfl
  have hSmooth : ∀ label ∈ trace, Smooth label.1 := fun label hLabel =>
    upload_actions_smooth label.1 (hActions ▸ List.mem_map_of_mem hLabel)
  have hRequest : Guarded (reader_machine {} sample_build).Step
      (fun u label => WholeRead u label ∧ CompleteWrite u label ∧ Among sample_server u label)
      session_reader (.other session_reader.daemon, .moved) session_reader :=
    ⟨rfl, trivial, rfl, help_turned_away⟩
  have run := (Runs.single hRequest).trans
    (((Machine.runs_of_guard_exec hExec).guard_labels hSmooth).mono fun u _ _ h =>
      ⟨h.1.1, (h.2.allowed sample_server u).1, h.1.2, (h.2.allowed sample_server u).2⟩)
  have hStream : arrived (reads_of ([(ReaderAction.other session_reader.daemon,
      ReaderEvent.moved)] ++ trace)) = wire_of (upload_lines (str "f") (str "a") frames_a) := by
    have hFirst : reads_of ([(ReaderAction.other session_reader.daemon, ReaderEvent.moved)] ++
        trace) = reads_of trace := rfl
    rw [hFirst, hReads]
    decide +kernel
  obtain ⟨replies, hWire, hReplies, hRead, -⟩ :=
    @serial_upload_stored session_reader t _ sample_server _ _ _
      frames_a_uploadable (by decide +kernel) run rfl rfl rfl hStream (by rw [hPhase]; rfl)
  have hLast : str "OK " ++ str "f" ++ str " " ++ to_string (str "a").length ++ str " " ++
      md5_compute (str "a") = str "OK f 1 0cc175b9c0f1b6a831c399e269772661" := by
    decide +kernel
  have hSent : wire_of t.phase.pending = [] := by
    rw [hPhase]
    rfl
  rw [hSent, List.append_nil, hLast] at hWire
  exact ⟨_, t, replies, run.unguard, hWire, hReplies, hRead⟩

end RkFlashd
