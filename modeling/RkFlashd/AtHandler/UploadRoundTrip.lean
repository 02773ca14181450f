import RkFlashd.Process
import RkFlashd.AtHandler.FrameGrammar
import RkFlashd.AtHandler.UploadIntegrity

/-! The client's side of the upload protocol: the lines that carry a file to the
daemon, how each is read back, and the round trip of a whole upload. -/
namespace RkFlashd

open Text Checksum Transition

/-- Two hex digits a byte. -/
def hex_encode (data : Bytes) : Bytes := data.flatMap fun byte => print_hex false 2 byte.toNat

/-- `f,|d|,md5_compute(d)`. -/
def preupload_arg (f d : Bytes) : Bytes :=
  f ++ 44 :: (to_string d.length ++ 44 :: md5_compute d)

/-- `hex(x),crc,|x|`. -/
def frame_arg (data crc16_hex : Bytes) : Bytes :=
  hex_encode data ++ 44 :: (crc16_hex ++ 44 :: to_string data.length)

/-- What a client puts on the line for a frame: the data with their CRC, or with
another one. -/
inductive Sent where
  | good (data : Bytes)
  | bad (data crc16_hex : Bytes)

namespace Sent

def arg : Sent → Bytes
  | good data => frame_arg data (print_hex true 4 (crc16_compute data).toNat)
  | bad data crc16_hex => frame_arg data crc16_hex

def line (frame : Sent) : Bytes := str "AT+UPLOAD=" ++ frame.arg

/-- The frame is shorter than `2^32` bytes and its CRC field is well-formed. A bad one
declares another CRC than that of its data. -/
def WellFormed : Sent → Prop
  | good data => data.length < 2 ^ 32
  | bad data crc16_hex =>
      data.length < 2 ^ 32 ∧ crc16_hex.length = 4 ∧ (∀ c ∈ crc16_hex, isxdigit c = true) ∧
        numeral 16 crc16_hex ≠ (crc16_compute data).toNat

/-- What a frame adds to the file. -/
def accepted : Sent → Bytes
  | good data => data
  | bad _ _ => []

end Sent

/-- The answers to a list of frames when `total` bytes have been accepted before. -/
def Replies : Nat → List Sent → List Bytes → Prop
  | _, [], [] => True
  | total, .good data :: frames, answer :: answers =>
      answer = str "OK " ++ to_string (total + data.length) ∧
        Replies (total + data.length) frames answers
  | total, .bad _ _ :: frames, answer :: answers =>
      starts_with answer (str "ERROR CRC mismatch") = true ∧ Replies total frames answers
  | _, _, _ => False

theorem hex_encode_length (data : Bytes) : (hex_encode data).length = 2 * data.length := by
  induction data with
  | nil => rfl
  | cons byte rest ih =>
      simp only [hex_encode, List.flatMap_cons, List.length_append, print_hex_length] at *
      simp only [ih, List.length_cons]
      omega

/-- The pair at position `i` is read back as byte `i`. -/
theorem decode_byte_hex_encode (first : Bytes) (byte : UInt8) (rest : Bytes) :
    decode_byte (hex_encode (first ++ byte :: rest)) first.length = byte := by
  have hDrop : (hex_encode (first ++ byte :: rest)).drop (first.length * 2) =
      print_hex false 2 byte.toNat ++ hex_encode rest := by
    have hSplit : hex_encode (first ++ byte :: rest) =
        hex_encode first ++ (print_hex false 2 byte.toNat ++ hex_encode rest) := by
      simp [hex_encode]
    rw [hSplit]
    exact List.drop_left' (by rw [hex_encode_length, Nat.mul_comm])
  rw [decode_byte, hDrop, sscanf_2x_print_hex false byte.toNat_lt]
  simp

/-- What the client encodes is what the handler decodes. -/
theorem decode_hex_encode (data : Bytes) : decode_hex (hex_encode data) = data := by
  rw [decode_hex, hex_encode_length, Nat.mul_div_cancel_left _ (by omega : 0 < 2)]
  apply List.ext_getElem
  · simp
  · intro i hi hData
    have hSplit : data = data.take i ++ data[i] :: data.drop (i + 1) := by
      rw [← List.drop_eq_getElem_cons hData, List.take_append_drop]
    have hLength : (data.take i).length = i := List.length_take_of_le (Nat.le_of_lt hData)
    have hByte := decode_byte_hex_encode (data.take i) data[i] (data.drop (i + 1))
    rw [hLength, ← hSplit] at hByte
    simpa using hByte

/-- The argument of a line that ends in a digit or a hex digit is not trimmed. -/
theorem trim_xdigits {a s : Bytes} (hNe : s ≠ []) (hDigits : ∀ c ∈ s, isxdigit c = true) :
    trim (a ++ s) = a ++ s := by
  obtain ⟨init, last, rfl⟩ := (List.eq_nil_or_concat s).resolve_left hNe
  have hLast : isxdigit last = true := hDigits last (by simp)
  rw [List.concat_eq_append, ← List.append_assoc]
  apply trim_concat
  rintro (rfl | rfl | rfl) <;> cases hLast

theorem dispatch_preupload (f d : Bytes) :
    dispatch (str "AT+PREUPLOAD=" ++ preupload_arg f d) = .ok (.PREUPLOAD (preupload_arg f d)) := by
  have hTrim : trim (preupload_arg f d) = preupload_arg f d := by
    have h := trim_xdigits (a := f ++ 44 :: (to_string d.length ++ [44]))
      (s := md5_compute d) (List.ne_nil_of_length_pos (by simp)) (md5_compute_isxdigit d)
    simpa [preupload_arg] using h
  have hCommand : action_command ((str "PREUPLOAD").map toupper) (trim (preupload_arg f d)) =
      some (.PREUPLOAD (preupload_arg f d)) := by
    rw [hTrim]
    rfl
  exact dispatch_append (by decide) (by decide) hCommand

theorem dispatch_frame (data crc16_hex : Bytes) :
    dispatch (str "AT+UPLOAD=" ++ frame_arg data crc16_hex) =
      .ok (.UPLOAD (frame_arg data crc16_hex)) := by
  have hTrim : trim (frame_arg data crc16_hex) = frame_arg data crc16_hex := by
    have h := trim_xdigits (a := hex_encode data ++ 44 :: (crc16_hex ++ [44]))
      (s := to_string data.length) (to_string_ne_nil _)
      (fun c hc => isxdigit_of_isdigit (to_string_isdigit _ c hc))
    simpa [frame_arg] using h
  have hCommand : action_command ((str "UPLOAD").map toupper) (trim (frame_arg data crc16_hex)) =
      some (.UPLOAD (frame_arg data crc16_hex)) := by
    rw [hTrim]
    rfl
  exact dispatch_append (by decide) (by decide) hCommand

theorem not_mem_to_string (n : Nat) : (44 : UInt8) ∉ to_string n :=
  comma_not_mem_xdigits fun c hc => isxdigit_of_isdigit (to_string_isdigit n c hc)

/-- An announcement is read back as it was written. -/
theorem parse_preupload_arg {f d : Bytes} (hLength : f ≠ [] ∧ f.length ≤ 255)
    (hSlash : (47 : UInt8) ∉ f) (hDots : ¬ str ".." <:+: f) (hComma : (44 : UInt8) ∉ f)
    (hData : d ≠ [] ∧ d.length < 2 ^ 64) :
    parse_preupload (preupload_arg f d) = .ok ⟨f, UInt64.ofNat d.length, md5_compute d⟩ := by
  have hForm : PreuploadForm (preupload_arg f d) f (to_string d.length) (md5_compute d) := {
    split := rfl
    first_comma := hComma
    filename_size := ⟨List.length_pos_of_ne_nil hLength.1, hLength.2⟩
    no_slash := hSlash
    no_dots := hDots
    digits := to_string_isdigit d.length
    positive := by
      rw [numeral_to_string]
      exact List.length_pos_of_ne_nil hData.1
    md5_size := md5_compute_length d
    md5_hex := md5_compute_isxdigit d }
  rw [parse_preupload_ok_iff]
  exact ⟨f, _, _, hForm, by rw [strtoull_to_string hData.2]⟩

/-- The fields of a frame are told apart whatever its CRC field says. The length is
read as a 32-bit number. -/
theorem parse_frame_fields {data crc16_hex : Bytes} (hData : data.length < 2 ^ 62)
    (hCrc : crc16_hex.length = 4) (hHex : ∀ c ∈ crc16_hex, isxdigit c = true) :
    parse_frame (frame_arg data crc16_hex) =
      if data.length = data.length % 2 ^ 32 then .ok ⟨crc16_hex, data⟩
      else .error (str "ERROR: frame_len mismatch (declared=" ++
        to_string (data.length % 2 ^ 32) ++ str " actual=" ++ to_string data.length ++
          str ")") := by
  have hHexLength := hex_encode_length data
  have hCut := parse_frame_cut (hex_encode data) (comma_not_mem_xdigits hHex)
    (not_mem_to_string data.length) (by unfold npos; omega)
  have hLen : (strtoull 10 (to_string data.length)).toUInt32.toNat = data.length % 2 ^ 32 := by
    rw [strtoull_to_string (by omega), UInt64.toNat_toUInt32, UInt64.toNat_ofNat']
    omega
  have hAllCrc : crc16_hex.all isxdigit = true := List.all_eq_true.mpr hHex
  have hAllLen : (to_string data.length).all isdigit = true :=
    List.all_eq_true.mpr (to_string_isdigit data.length)
  rw [frame_arg, hCut]
  simp only [check_fields, hCrc, hAllCrc, hAllLen, hHexLength, hLen,
    Nat.mul_div_cancel_left data.length Nat.two_pos, Nat.mul_mod_right, decode_hex_encode]
  simp

/-- A frame is read back as it was written. -/
theorem parse_frame_arg {data crc16_hex : Bytes} (hData : data.length < 2 ^ 32)
    (hCrc : crc16_hex.length = 4) (hHex : ∀ c ∈ crc16_hex, isxdigit c = true) :
    parse_frame (frame_arg data crc16_hex) = .ok ⟨crc16_hex, data⟩ := by
  rw [parse_frame_fields (by omega) hCrc hHex, if_pos (Nat.mod_eq_of_lt hData).symm]

section Steps

variable {cfg : Config} {w : Host} {t : Transfer}

/-- A frame that passes the checks and is written in full joins the transfer. -/
theorem Receiving.accepts (io : Io) {arg data : Bytes} {file : Nat} (h : Receiving cfg w t)
    (hCheck : check_frame w.upload arg = .ok (file, data))
    (hWrite : (w.fs.fwrite file data io.fwrite).1 = data.length) :
    Receiving cfg (handle_upload_frame io arg w).1 (t.push data) ∧
      (handle_upload_frame io arg w).2 = str "OK " ++ to_string (t.push data).bytes.length := by
  have hFull : ∀ other found, check_frame w.upload arg = .ok (other, found) →
      (w.fs.fwrite other found io.fwrite).1 = found.length ∨
        (w.fs.fwrite other found io.fwrite).1 = 0 := by
    intro other found hFound
    rw [hCheck] at hFound
    cases hFound
    exact Or.inl hWrite
  rcases h.upload_frame hFull with ⟨other, found, hFound, hReceiving, hAnswer⟩ | ⟨-, hError⟩
  · rw [hCheck] at hFound
    cases hFound
    exact ⟨hReceiving, hAnswer⟩
  · have hOk : ∃ count, (handle_upload_frame io arg w).2 = str "OK " ++ to_string count := by
      simp only [handle_upload_frame, hCheck, hWrite, ne_eq, not_true_eq_false, if_false]
      exact ⟨_, rfl⟩
    obtain ⟨count, hOk⟩ := hOk
    rw [hOk] at hError
    cases hError

/-- A well-formed frame for an open upload reaches the comparison of its CRC. -/
theorem check_frame_arg {u : UploadState} {data crc16_hex : Bytes} {file : Nat}
    (hActive : u.active = true) (hFile : u.file = some file) (hData : data.length < 2 ^ 32)
    (hCrc : crc16_hex.length = 4) (hHex : ∀ c ∈ crc16_hex, isxdigit c = true) :
    (numeral 16 crc16_hex = (crc16_compute data).toNat →
      check_frame u (frame_arg data crc16_hex) = .ok (file, data)) ∧
    (numeral 16 crc16_hex ≠ (crc16_compute data).toNat → ∃ count answer,
      check_frame u (frame_arg data crc16_hex) =
        .error ({ u with frame_count := count }, answer) ∧
      starts_with answer (str "ERROR CRC mismatch") = true) := by
  have hArg : frame_arg data crc16_hex ≠ [] := by simp [frame_arg]
  have hParse := parse_frame_arg hData hCrc hHex
  have hExpected : ∀ computed : UInt16, computed = Frame.expected_crc ⟨crc16_hex, data⟩ ↔
      numeral 16 crc16_hex = computed.toNat := by
    intro computed
    rw [← expected_crc_toNat hCrc hHex, UInt16.toNat_inj, eq_comm]
  constructor
  · intro hSame
    simp [check_frame, hArg, hActive, hFile, hParse, (hExpected _).mpr hSame]
  · intro hOther
    have hCompare : crc16_compute data ≠ Frame.expected_crc ⟨crc16_hex, data⟩ :=
      fun hEq => hOther ((hExpected _).mp hEq)
    simp only [check_frame, hArg, hActive, hFile, hParse, hCompare, if_false, ne_eq,
      not_false_eq_true, if_true]
    exact ⟨_, _, rfl, rfl⟩

/-- The announcement opens a transfer. -/
theorem handle_preupload_arg (cfg : Config) {f d : Bytes} (hIdle : w.upload.active = false)
    (hParse : parse_preupload (preupload_arg f d) =
      .ok ⟨f, UInt64.ofNat d.length, md5_compute d⟩) :
    Receiving cfg (handle_preupload cfg {} (preupload_arg f d) w).1
        { filename := f, expected_size := UInt64.ofNat d.length, expected_md5 := md5_compute d } ∧
      (handle_preupload cfg {} (preupload_arg f d) w).2 = str "OK READY" := by
  obtain ⟨file, fs, hOpen⟩ :=
    w.fs.fopen_succeeds (c_str (cfg.in_upload_dir (tmp_name f)))
  have hArg : preupload_arg f d ≠ [] := by simp [preupload_arg]
  have hResult : handle_preupload cfg {} (preupload_arg f d) w =
      (⟨{ active := true, filename := f, tmp_path := cfg.in_upload_dir (tmp_name f),
          expected_size := UInt64.ofNat d.length, received := 0, frame_count := 0,
          file := some file, expected_md5 := md5_compute d, md5_ctx := MD5.reset }, fs⟩,
        str "OK READY") := by
    simp [handle_preupload, hArg, hIdle, hParse, hOpen]
  rw [hResult]
  exact ⟨handle_preupload_receiving ⟨f, UInt64.ofNat d.length, md5_compute d⟩ hOpen, rfl⟩

/-- A transfer that announces the same file as another. -/
def Transfer.SameHeader (t t' : Transfer) : Prop :=
  t'.filename = t.filename ∧ t'.expected_size = t.expected_size ∧
    t'.expected_md5 = t.expected_md5

variable {d : Daemon} {call : Call}

/-- A line with a frame comes to the handler of frames. -/
theorem process_frame_arg (cfg : Config) (build : Build) (d : Daemon) {data crc16_hex : Bytes}
    (hLine : call.line = str "AT+UPLOAD=" ++ frame_arg data crc16_hex) :
    process cfg build d call =
      some ({ d with
          host := (handle_upload_frame call.around.io (frame_arg data crc16_hex) d.host).1 },
        (handle_upload_frame call.around.io (frame_arg data crc16_hex) d.host).2) := by
  have hDispatch : dispatch call.line = .ok (.UPLOAD (frame_arg data crc16_hex)) := by
    rw [hLine]
    exact dispatch_frame data crc16_hex
  rw [process_ok hDispatch]
  rfl

/-- One frame through `process`. -/
theorem process_frame (build : Build) {frame : Sent} (h : Receiving cfg d.host t)
    (hFrame : frame.WellFormed)
    (hRoom : t.bytes.length + frame.accepted.length ≤ Storage.maxFileSize)
    (hLine : call.line = frame.line) (hIo : call.around.io = {}) :
    ∃ d' answer t', process cfg build d call = some (d', answer) ∧
      Receiving cfg d'.host t' ∧ t.SameHeader t' ∧ t'.bytes = t.bytes ++ frame.accepted ∧
      Replies t.bytes.length [frame] [answer] := by
  have hProcess : ∀ data crc16_hex, frame.line = str "AT+UPLOAD=" ++ frame_arg data crc16_hex →
      process cfg build d call =
        some ({ d with host := (handle_upload_frame {} (frame_arg data crc16_hex) d.host).1 },
          (handle_upload_frame {} (frame_arg data crc16_hex) d.host).2) := by
    intro data crc16_hex hText
    rw [← hIo]
    exact process_frame_arg cfg build d (hLine.trans hText)
  cases frame with
  | good data =>
      have hCrc : (print_hex true 4 (crc16_compute data).toNat).length = 4 := print_hex_length ..
      have hHex := print_hex_isxdigit true 4 (crc16_compute data).toNat
      have hSame : numeral 16 (print_hex true 4 (crc16_compute data).toNat) =
          (crc16_compute data).toNat := numeral_print_hex true (crc16_compute data).toNat_lt
      obtain ⟨file, hFile, hWriting⟩ := h.writing
      have hCheck := (check_frame_arg h.active hFile hFrame hCrc hHex).1 hSame
      have hWrite : (d.host.fs.fwrite file data none).1 = data.length := by
        obtain ⟨next, hNext, -⟩ := hWriting.fwrite data none
        have hSpace : data.length ≤ Storage.maxFileSize - t.bytes.length := by
          simp only [Sent.accepted] at hRoom
          omega
        rw [hNext]
        simp [Storage.FileSystem.stored, hSpace]
      obtain ⟨hReceiving, hAnswer⟩ := h.accepts {} hCheck hWrite
      refine ⟨_, _, t.push data, hProcess data _ rfl, hReceiving, ⟨rfl, rfl, rfl⟩, ?_, ?_, ?_⟩
      · exact t.bytes_push data
      · rw [hAnswer, t.bytes_push, List.length_append]
      · trivial
  | bad data crc16_hex =>
      obtain ⟨hData, hCrc, hHex, hOther⟩ := hFrame
      obtain ⟨file, hFile, -⟩ := h.writing
      obtain ⟨count, answer, hCheck, hMismatch⟩ :=
        (check_frame_arg h.active hFile hData hCrc hHex).2 hOther
      have hResult : handle_upload_frame {} (frame_arg data crc16_hex) d.host =
          (⟨{ d.host.upload with frame_count := count }, d.host.fs⟩, answer) := by
        simp [handle_upload_frame, hCheck]
      refine ⟨_, _, t, hProcess data crc16_hex rfl, ?_, ⟨rfl, rfl, rfl⟩, ?_, ?_, ?_⟩
      · rw [hResult]
        exact ⟨h.toDescribes.count count, h.writing⟩
      · simp [Sent.accepted]
      · rw [hResult]
        exact hMismatch
      · trivial

/-- All frames through `process`, one after the other. -/
theorem process_frames (build : Build) {frames : List Sent} {calls : List Call}
    (h : Receiving cfg d.host t)
    (hFrames : ∀ frame ∈ frames, frame.WellFormed)
    (hRoom : t.bytes.length + (frames.flatMap Sent.accepted).length ≤ Storage.maxFileSize)
    (hLines : calls.map Call.line = frames.map Sent.line)
    (hIo : ∀ call ∈ calls, call.around.io = {}) :
    ∃ d' trace t', (process_machine cfg build).exec d calls = some (d', trace) ∧
      Receiving cfg d'.host t' ∧ t.SameHeader t' ∧
      t'.bytes = t.bytes ++ frames.flatMap Sent.accepted ∧
      Replies t.bytes.length frames (trace.map Prod.snd) := by
  induction frames generalizing d t calls with
  | nil =>
      obtain rfl : calls = [] := by simpa using hLines
      exact ⟨d, [], t, rfl, h, ⟨rfl, rfl, rfl⟩, by simp, trivial⟩
  | cons frame rest ih =>
      cases calls with
      | nil => simp at hLines
      | cons call calls =>
          obtain ⟨hLine, hLines⟩ := List.cons.inj hLines
          simp only [List.flatMap_cons, List.length_append] at hRoom
          obtain ⟨next, answer, t₁, hProcess, hNext, hHeader, hBytes, hReply⟩ :=
            process_frame build h (hFrames frame (by simp)) (by omega) hLine (hIo call (by simp))
          have hLength : t₁.bytes.length = t.bytes.length + frame.accepted.length := by
            rw [hBytes, List.length_append]
          obtain ⟨d', trace, t', hExec, hReceiving, hHeader', hBytes', hReplies⟩ :=
            ih hNext (fun frame hMem => hFrames frame (by simp [hMem])) (by omega) hLines
              (fun call hMem => hIo call (by simp [hMem]))
          refine ⟨d', (call, answer) :: trace, t', Machine.exec_cons hProcess hExec, hReceiving,
            ?_, ?_, ?_⟩
          · exact ⟨hHeader'.1.trans hHeader.1, hHeader'.2.1.trans hHeader.2.1,
              hHeader'.2.2.trans hHeader.2.2⟩
          · simp [hBytes', hBytes]
          · rw [hLength] at hReplies
            cases frame with
            | good data => exact ⟨hReply.1, hReplies⟩
            | bad data crc16_hex => exact ⟨hReply.1, by simpa [Sent.accepted] using hReplies⟩

/-- The announcement through `process`. -/
theorem process_announcement (cfg : Config) (build : Build) {f data : Bytes}
    (hIdle : d.host.upload.active = false)
    (hParse : parse_preupload (preupload_arg f data) =
      .ok ⟨f, UInt64.ofNat data.length, md5_compute data⟩)
    (hLine : call.line = str "AT+PREUPLOAD=" ++ preupload_arg f data)
    (hIo : call.around.io = {}) :
    ∃ d', process cfg build d call = some (d', str "OK READY") ∧
      Receiving cfg d'.host
        { filename := f, expected_size := UInt64.ofNat data.length,
          expected_md5 := md5_compute data } := by
  obtain ⟨hReceiving, hAnswer⟩ := handle_preupload_arg cfg hIdle hParse
  have hDispatch : dispatch call.line = .ok (.PREUPLOAD (preupload_arg f data)) := by
    rw [hLine]
    exact dispatch_preupload f data
  refine ⟨{ d with host := (handle_preupload cfg {} (preupload_arg f data) d.host).1 }, ?_,
    hReceiving⟩
  rw [process_ok hDispatch]
  simp [execute, Daemon.upload_command, perform, hIo, hAnswer]

/-- The verdict on a complete transfer through `process`. -/
theorem process_verdict (build : Build) (h : Receiving cfg d.host t) (hComplete : t.Complete)
    (hLine : call.line = str "AT+UPLOADDONE") (hIo : call.around.io = {}) :
    ∃ d', process cfg build d call = some (d', t.confirmation) ∧
      d'.host.fs.read (t.final_path cfg) = some t.bytes ∧ d'.host.upload = {} := by
  have hDispatch : dispatch call.line = .ok .UPLOADDONE := by
    rw [hLine]
    decide
  have hFlush : ({} : Io).fclose = 0 := rfl
  obtain ⟨hIff, hSaved⟩ := h.uploaddone_verdict hFlush
  obtain ⟨-, -, hReset⟩ := h.uploaddone_ends hFlush rfl
  obtain ⟨hAnswer, hRead⟩ := hSaved (hIff.mpr ⟨hComplete, rfl⟩)
  refine ⟨{ d with host := (handle_uploaddone cfg {} d.host).1 }, ?_, hRead, hReset⟩
  rw [process_ok hDispatch]
  simp [execute, Daemon.upload_command, perform, hIo, hAnswer]

end Steps

/-- **The upload round trip.** A file announced under a valid name and sent in frames,
with any number of damaged ones in between, is answered line by line as the protocol
says and is found under its name in the end. -/
theorem upload_round_trip {cfg : Config} {build : Build} {s : Daemon} {f d : Bytes}
    {frames : List Sent} {calls : List Call}
    (hLength : f ≠ [] ∧ f.length ≤ 255) (hSlash : (47 : UInt8) ∉ f)
    (hDots : ¬ str ".." <:+: f) (hComma : (44 : UInt8) ∉ f) (hNul : (0 : UInt8) ∉ f)
    (hData : d ≠ [] ∧ d.length < 2 ^ 64)
    (hFrames : ∀ frame ∈ frames, frame.WellFormed) (hCut : frames.flatMap Sent.accepted = d)
    (hIdle : s.host.upload.active = false)
    (hLines : calls.map Call.line = (str "AT+PREUPLOAD=" ++ preupload_arg f d) ::
      (frames.map Sent.line ++ [str "AT+UPLOADDONE"]))
    (hIo : ∀ call ∈ calls, call.around.io = {}) :
    ∃ s' trace replies, (process_machine cfg build).exec s calls = some (s', trace) ∧
      trace.map Prod.snd = str "OK READY" :: (replies ++
        [str "OK " ++ f ++ str " " ++ to_string d.length ++ str " " ++ md5_compute d]) ∧
      Replies 0 frames replies ∧
      s'.host.fs.read (cfg.in_upload_dir f) = some d ∧ s'.host.upload.active = false := by
  obtain ⟨announcement, rest, rfl, hFirst, hRest⟩ := List.map_eq_cons_iff.mp hLines
  obtain ⟨sent, last, rfl, hSent, hLast⟩ := List.map_eq_append_iff.mp hRest
  obtain ⟨done, tail, rfl, hDone, hTail⟩ := List.map_eq_cons_iff.mp hLast
  obtain rfl : tail = [] := by simpa using hTail
  have hParse := parse_preupload_arg hLength hSlash hDots hComma hData
  obtain ⟨s₁, hReady, hOpen⟩ :=
    process_announcement cfg build hIdle hParse hFirst (hIo _ (by simp))
  have hRoom : Transfer.bytes
      { filename := f, expected_size := UInt64.ofNat d.length, expected_md5 := md5_compute d } =
      [] := rfl
  obtain ⟨s₂, trace, t, hExec, hReceiving, hHeader, hBytes, hReplies⟩ :=
    process_frames build hOpen hFrames
      (by rw [hRoom, hCut]; unfold Storage.maxFileSize; simp; omega) hSent
      (fun call hMem => hIo call (by simp [hMem]))
  have hStored : t.bytes = d := by rw [hBytes, hRoom, hCut, List.nil_append]
  have hComplete : t.Complete := by
    constructor
    · rw [hHeader.2.1, hStored, UInt64.toNat_ofNat', Nat.mod_eq_of_lt hData.2]
    · rw [hHeader.2.2, hStored]
  obtain ⟨s', hVerdict, hRead, hEnd⟩ :=
    process_verdict build hReceiving hComplete hDone (hIo _ (by simp))
  have hTail : (process_machine cfg build).exec s₂ [done] =
      some (s', [(done, t.confirmation)]) := Machine.exec_cons hVerdict rfl
  refine ⟨s', (announcement, str "OK READY") :: (trace ++ [(done, t.confirmation)]),
    trace.map Prod.snd, Machine.exec_cons hReady (Machine.exec_append hExec hTail), ?_, hReplies,
    ?_, ?_⟩
  · simp [Transfer.confirmation, hStored, show t.filename = f from hHeader.1]
  · have hPath : t.final_path cfg = cfg.in_upload_dir f := by
      rw [Transfer.final_path, show t.filename = f from hHeader.1, cfg.c_str_in_upload_dir,
        c_str_eq_self hNul]
    rw [← hPath, hRead, hStored]
  · rw [hEnd]

/-- The bytes `ab` in two frames, with a damaged and an empty one before the second. -/
def frames_ab : List Sent :=
  [.good (str "a"), .bad (str "ab") (str "00fF"), .good [], .good (str "b")]

def calls_ab : List Call :=
  ((str "AT+PREUPLOAD=" ++ preupload_arg (str "f") (str "ab")) ::
    (frames_ab.map Sent.line ++ [str "AT+UPLOADDONE"])).map fun line => ⟨.SERIAL, line, {}⟩

theorem frames_ab_well_formed : ∀ frame ∈ frames_ab, frame.WellFormed := by
  intro frame hFrame
  simp only [frames_ab, List.mem_cons, List.not_mem_nil, or_false] at hFrame
  rcases hFrame with rfl | rfl | rfl | rfl
  · exact (by decide : (str "a").length < 2 ^ 32)
  · exact ⟨by decide, by decide, by decide +kernel, by decide +kernel⟩
  · exact (by decide : ([] : Bytes).length < 2 ^ 32)
  · exact (by decide : (str "b").length < 2 ^ 32)

/-- Two bytes in two frames, with a damaged frame and an empty one among them. -/
theorem upload_round_trip_ab :
    ∃ s' trace replies,
      (process_machine {} { date := [], time := [] }).exec { host := fresh_host } calls_ab =
        some (s', trace) ∧
      Replies 0 frames_ab replies ∧
      s'.host.fs.read (Config.in_upload_dir {} (str "f")) = some (str "ab") := by
  have hIo : ∀ call ∈ calls_ab, call.around.io = {} := by
    intro call hCall
    obtain ⟨line, -, rfl⟩ := List.mem_map.mp hCall
    rfl
  obtain ⟨s', trace, replies, hExec, -, hReplies, hRead, -⟩ :=
    @upload_round_trip {} { date := [], time := [] } { host := fresh_host } (str "f") (str "ab")
      frames_ab calls_ab (by decide) (by decide) (by decide) (by decide) (by decide) (by decide)
      frames_ab_well_formed rfl rfl rfl hIo
  exact ⟨s', trace, replies, hExec, hReplies, hRead⟩

end RkFlashd
