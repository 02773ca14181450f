import RkFlashd.Daemon.Config

/-! `http_server.cpp` and the upload handler: the state of one request, the callback of
the multipart post-processor, and how an upload is completed. -/
namespace RkFlashd

open Text

/-- A JSON value as the handlers put it into a response. -/
inductive Json where
  | null
  | bool (value : Bool)
  | number (value : Int)
  | string (value : Bytes)
  deriving DecidableEq, Repr

abbrev JsonObject := List (Bytes × Json)

/-- What `sendJson` is given: a literal text, or the `dump()` of an object. -/
inductive Body where
  | text (json : Bytes)
  | dump (resp : JsonObject)
  deriving DecidableEq, Repr

structure Response where
  status_code : Nat
  body : Body
  deriving DecidableEq, Repr

/-- The default filename validator of the server. -/
def validate_filename (name : Bytes) : Bool :=
  if name = [] ∨ 255 < name.length then false
  else if name = str "." ∨ name = str ".." then false
  else if (find name 47 0).isSome then false
  else if (find name 92 0).isSome then false
  else if (find_str name (str "..")).isSome then false
  else name.all fun c => isalnum c || c == 45 || c == 95 || c == 46

inductive RequestType where
  | NONE
  | UPLOAD
  | COMMAND
  | STATUS
  | RESET
  deriving DecidableEq, Repr

/-- `ConnectionState`. Of the post-processor only its presence matters here; the upload
directory it holds is a copy of the configured one. -/
structure ConnectionState where
  type : RequestType := .NONE
  pp : Bool := false
  upload_filename : Bytes := []
  upload_tmp_path : Bytes := []
  upload_file : Option Nat := none
  upload_size : UInt64 := 0
  cmd_body : Bytes := []
  upload_data_received : Bool := false
  upload_error : Bytes := []
  deriving DecidableEq, Repr

/-- A request and the files. -/
structure Connection where
  state : ConnectionState
  fs : FileSystem

/-- `~ConnectionState`. -/
def destroy (io : Io) (c : Connection) : FileSystem :=
  match c.state.upload_file with
  | none => c.fs
  | some file =>
      let fs := (c.fs.fclose file io.fclose).2
      if c.state.upload_size = 0 ∧ c.state.upload_tmp_path ≠ [] then
        (fs.unlink (c_str c.state.upload_tmp_path) io.unlink).2
      else fs

/-- What libmicrohttpd passes to the callback: the field name and the filename of a part,
and a piece of its content. -/
structure PartData where
  key : Option Bytes
  filename : Option Bytes
  data : Bytes
  deriving DecidableEq, Repr

/-- One invocation of the callback, with the clock it reads and how its file calls fare. -/
structure Post where
  part : PartData
  now : Int
  io : Io := {}
  deriving DecidableEq, Repr

/-- `std::to_string(ts) + "_" + filename`. -/
def upload_tmp_name (now : Int) (filename : Bytes) : Bytes :=
  int_to_string now ++ str "_" ++ filename

/-- The end of the callback: write to whatever file is open. -/
def write_part (p : Post) (c : Connection) : Connection :=
  match c.state.upload_file with
  | none => c
  | some file =>
      if p.part.data = [] then c
      else
        ⟨{ c.state with
            upload_size := c.state.upload_size + UInt64.ofNat p.part.data.length },
          (c.fs.fwrite file p.part.data p.io.fwrite).2⟩

/-- The callback of the post-processor. It returns `false` for `MHD_NO`. -/
def post_data (cfg : Config) (p : Post) (c : Connection) : Connection × Bool :=
  match p.part.key, p.part.filename with
  | some key, filename =>
      if key ≠ str "firmware" then
        (⟨{ c.state with
            upload_error :=
              str "unexpected field '" ++ key ++ str "' (expected 'firmware')" }, c.fs⟩, true)
      else
        match filename with
        | none => (write_part p c, true)
        | some filename =>
            if ¬ validate_filename filename then
              (⟨{ c.state with
                  upload_error := str "rejected filename '" ++ filename ++ str "'" }, c.fs⟩, true)
            else if c.state.upload_tmp_path = [] then
              let tmp_path := cfg.in_upload_dir (upload_tmp_name p.now filename)
              let (file, fs) := c.fs.fopen (c_str tmp_path) p.io.fopen
              let c : Connection :=
                ⟨{ c.state with
                    upload_filename := filename, upload_tmp_path := tmp_path,
                    upload_file := file }, fs⟩
              if file = none then (c, false) else (write_part p c, true)
            else (write_part p c, true)
  | none, _ => (write_part p c, true)

/-- `MHD_post_process`: the callbacks that one chunk of the body leads to, up to the first
that returns `MHD_NO`. -/
def post_process (cfg : Config) : List Post → Connection → Connection
  | [], c => c
  | p :: rest, c =>
      match post_data cfg p c with
      | (c, true) => post_process cfg rest c
      | (c, false) => c

/-- The answer to an upload that was saved. -/
def upload_ok (cfg : Config) (filename : Bytes) (size : UInt64) : Response :=
  ⟨200, .dump [(str "status", .string (str "ok")), (str "filename", .string filename),
    (str "path", .string (cfg.in_upload_dir filename)), (str "size", .number size.toNat)]⟩

/-- What `handleUpload` does with an open file once all data have come in. -/
def save_upload (cfg : Config) (io : Io) (file : Nat) (c : Connection) : Connection × Response :=
  let state := { c.state with upload_file := none }
  let fs := (c.fs.fclose file io.fclose).2
  if ¬ validate_filename state.upload_filename then
    (⟨state, (fs.unlink (c_str state.upload_tmp_path) io.unlink).2⟩,
      ⟨400, .dump [(str "status", .string (str "error")),
        (str "message", .string (str "invalid filename"))]⟩)
  else
    let final_path := cfg.in_upload_dir state.upload_filename
    if fs.exists_path (c_str state.upload_tmp_path) then
      match fs.rename (c_str state.upload_tmp_path) (c_str final_path) io.rename with
      | (false, fs) =>
          (⟨state, fs⟩,
            ⟨500, .text (str "\x7b\"status\":\"error\",\"message\":\"Failed to save file\"\x7d")⟩)
      | (true, fs) => (⟨state, fs⟩, upload_ok cfg state.upload_filename state.upload_size)
    else (⟨state, fs⟩, upload_ok cfg state.upload_filename state.upload_size)

/-- `handleUpload`: with the callbacks of a chunk, or without data. It may leave the
request unanswered. -/
def handleUpload (cfg : Config) (io : Io) (chunk : Option (List Post)) (c : Connection) :
    Connection × Option Response :=
  if ¬ c.state.pp then
    (c, some ⟨400, .text (str "\x7b\"status\":\"error\",\"message\":\"No multipart data\"\x7d")⟩)
  else
    match chunk with
    | some posts =>
        (post_process cfg posts ⟨{ c.state with upload_data_received := true }, c.fs⟩, none)
    | none =>
        if c.state.upload_size = 0 ∧ c.state.upload_file = none then
          if ¬ c.state.upload_data_received then (c, none)
          else
            (c, some ⟨400, .text (str "\x7b\"status\":\"error\",\"message\":\"Upload failed: " ++
              (if c.state.upload_error = [] then str "no firmware data"
                else c.state.upload_error) ++ str "\"\x7d")⟩)
        else
          match c.state.upload_file with
          | some file =>
              let (c, response) := save_upload cfg io file c
              (c, some response)
          | none =>
              if 0 < c.state.upload_size ∨ c.state.upload_filename ≠ [] then
                (c, some ⟨400, .text (str
                  "\x7b\"status\":\"error\",\"message\":\"filename rejected by validator\"\x7d")⟩)
              else
                (c, some ⟨400, .text
                  (str "\x7b\"status\":\"error\",\"message\":\"Upload failed\"\x7d")⟩)

end RkFlashd
