import RkFlashd.HttpServer.Multipart
import RkFlashd.Text.Json

/-! The answer to an upload for which no file has been opened: a JSON text put together from
two literals and a name the client has chosen. -/
namespace RkFlashd

open Text

/-- The name a callback complains of: that of the field, or the filename. -/
def PartData.rejected (part : PartData) : Option Bytes :=
  part.key.bind fun key =>
    if key ≠ str "firmware" then some key
    else part.filename.filter fun filename => !validate_filename filename

/-- The names of a part as libmicrohttpd passes them on: C strings, in UTF-8. -/
structure PartData.Sendable (part : PartData) : Prop where
  key : ∀ name, part.key = some name → ValidUtf8 name ∧ (0 : UInt8) ∉ name
  filename : ∀ name, part.filename = some name → ValidUtf8 name ∧ (0 : UInt8) ∉ name

/-- The callbacks that are really invoked: none behind one that returns `MHD_NO`. -/
def invoked (cfg : Config) : List Post → Connection → List Post
  | [], _ => []
  | p :: rest, c =>
      p :: if (post_data cfg p c).2 then invoked cfg rest (post_data cfg p c).1 else []

/-- Those of a whole body. -/
def callbacks (cfg : Config) : List (List Post) → Connection → List Post
  | [], _ => []
  | posts :: rest, c =>
      invoked cfg posts (received c) ++ callbacks cfg rest (post_process cfg posts (received c))

/-- The last name complained of. -/
def last_rejected (posts : List Post) : Option Bytes :=
  (posts.filterMap fun p => p.part.rejected).getLast?

/-- The message of an error: the one recorded, if any. -/
def reported (error : Bytes) : Bytes := if error = [] then str "no firmware data" else error

/-- The answer says, in JSON, that the upload has failed and why. -/
def TellsReason (error : Bytes) (response : Response) : Prop :=
  response.status_code = 400 ∧ ∃ text members, response.body = .text text ∧
    JsonText.Parses text (.object members) ∧
    JsonText.field members (str "status") = some (.string (str "error")) ∧
    JsonText.field members (str "message") =
      some (.string (str "Upload failed: " ++ reported error))

/-- What is recorded of the last complaint. -/
def Quotes (error : Bytes) : Option Bytes → Prop
  | none => error = []
  | some name => error = str "unexpected field '" ++ name ++ str "' (expected 'firmware')" ∨
      error = str "rejected filename '" ++ name ++ str "'"

section Callbacks

variable {cfg : Config} {p : Post} {posts before : List Post} {chunks : List (List Post)}
  {c : Connection}

theorem last_rejected_concat (posts : List Post) (p : Post) :
    last_rejected (posts ++ [p]) = p.part.rejected.or (last_rejected posts) := by
  unfold last_rejected
  rw [List.filterMap_append, List.getLast?_append]
  cases h : p.part.rejected <;> simp [h]

theorem written_iff_not_rejected (part : PartData) :
    part.rejected = none ↔ written part.key part.filename = true := by
  obtain ⟨key, filename, data⟩ := part
  cases key with
  | none => simp [PartData.rejected, written]
  | some key =>
      by_cases hKey : key = str "firmware"
      · cases filename with
        | none => simp [PartData.rejected, written, hKey]
        | some filename =>
            cases hValid : validate_filename filename <;>
              simp [PartData.rejected, written, hKey, hValid, Option.filter]
      · cases filename <;> simp [PartData.rejected, written, hKey]

/-- What holds of a request after these callbacks. -/
structure Complained (posts : List Post) (c : Connection) : Prop where
  pp : c.state.pp = true
  error : Quotes c.state.upload_error (last_rejected posts)
  file : c.state.upload_tmp_path = [] → c.state.upload_file = none
  size : c.state.upload_file = none → c.state.upload_size = 0

theorem post_data_rejected (cfg : Config) (c : Connection) {name : Bytes}
    (h : p.part.rejected = some name) :
    ∃ error, post_data cfg p c = (⟨{ c.state with upload_error := error }, c.fs⟩, true) ∧
      Quotes error (some name) := by
  obtain ⟨⟨key, filename, data⟩, now, io⟩ := p
  obtain ⟨key, rfl, hName⟩ := Option.bind_eq_some_iff.mp h
  by_cases hKey : key = str "firmware"
  · rw [if_neg (not_not.mpr hKey)] at hName
    obtain ⟨rfl, hInvalid⟩ := Option.filter_eq_some_iff.mp hName
    have hRejected : validate_filename name = false := by simpa using hInvalid
    exact ⟨_, by simp [RkFlashd.post_data, hKey, hRejected], Or.inr rfl⟩
  · rw [if_pos hKey] at hName
    obtain rfl := Option.some.inj hName
    exact ⟨_, by simp [RkFlashd.post_data, hKey], Or.inl rfl⟩

theorem Complained.write_part (h : Complained posts c) (p : Post) :
    Complained posts (write_part p c) := by
  obtain ⟨size, hState⟩ := write_part_state p c
  constructor
  · rw [write_part_pp, h.pp]
  · rw [hState]
    exact h.error
  · rw [write_part_tmp_path, write_part_file]
    exact h.file
  · intro hFile
    rw [write_part_file] at hFile
    have hSame : RkFlashd.write_part p c = c := by simp [RkFlashd.write_part, hFile]
    rw [hSame]
    exact h.size hFile

/-- A part that is not rejected leaves the complaint as it is. -/
theorem Complained.post_data_written (h : Complained posts c) (cfg : Config)
    (hWritten : written p.part.key p.part.filename = true) :
    Complained posts (post_data cfg p c).1 := by
  cases hAccepted : accepted p.part.key p.part.filename with
  | none =>
      rw [RkFlashd.post_data_written hWritten (Or.inl hAccepted)]
      exact h.write_part p
  | some f =>
      by_cases hPath : c.state.upload_tmp_path = []
      · cases hOpen : p.io.fopen with
        | false =>
            rw [post_data_fails hAccepted hPath hOpen]
            exact ⟨h.pp, h.error, fun _ => rfl, fun _ => h.size (h.file hPath)⟩
        | true =>
            obtain ⟨file, fs, hFile⟩ :=
              c.fs.fopen_succeeds (c_str (cfg.in_upload_dir (upload_tmp_name p.now f)))
            rw [post_data_opens hAccepted hPath (by rw [hOpen]; exact hFile)]
            have hNew : Complained posts ⟨{ c.state with
                upload_filename := f, upload_file := some file,
                upload_tmp_path := cfg.in_upload_dir (upload_tmp_name p.now f) }, fs⟩ :=
              ⟨h.pp, h.error, fun hNil => absurd hNil (cfg.in_upload_dir_ne_nil _),
                fun hNone => by cases hNone⟩
            exact hNew.write_part p
      · rw [RkFlashd.post_data_written hWritten (Or.inr hPath)]
        exact h.write_part p

/-- One callback records its complaint, or leaves the earlier one. -/
theorem Complained.post_data (h : Complained before c) (cfg : Config) (p : Post) :
    Complained (before ++ [p]) (post_data cfg p c).1 := by
  cases hName : p.part.rejected with
  | some name =>
      obtain ⟨error, hResult, hError⟩ := post_data_rejected cfg c hName
      rw [hResult]
      refine ⟨h.pp, ?_, h.file, h.size⟩
      rw [last_rejected_concat, hName]
      exact hError
  | none =>
      have hNext := h.post_data_written cfg ((written_iff_not_rejected p.part).mp hName)
      refine ⟨hNext.pp, ?_, hNext.file, hNext.size⟩
      rw [last_rejected_concat, hName, Option.none_or]
      exact hNext.error

theorem Complained.post_process (h : Complained before c) (cfg : Config) (posts : List Post) :
    Complained (before ++ invoked cfg posts c) (post_process cfg posts c) := by
  induction posts generalizing before c with
  | nil => simpa [invoked, RkFlashd.post_process] using h
  | cons p rest ih =>
      have hNext := h.post_data cfg p
      cases hResult : RkFlashd.post_data cfg p c with
      | mk next goes =>
          rw [hResult] at hNext
          cases goes with
          | true => simpa [RkFlashd.post_process, invoked, hResult] using ih hNext
          | false => simpa [RkFlashd.post_process, invoked, hResult] using hNext

/-- **The recorded error of a request** is that of the last complaint. -/
theorem Complained.feed (h : Complained before c) (cfg : Config) (chunks : List (List Post)) :
    Complained (before ++ callbacks cfg chunks c) (feed cfg chunks c) := by
  induction chunks generalizing before c with
  | nil => simpa [callbacks, RkFlashd.feed] using h
  | cons posts rest ih =>
      have hReceived : Complained before (received c) := ⟨h.pp, h.error, h.file, h.size⟩
      have hPosts := ih (hReceived.post_process cfg posts)
      rw [feed_cons posts rest h.pp, callbacks, ← List.append_assoc]
      exact hPosts

theorem invoked_subset (cfg : Config) (posts : List Post) (c : Connection) :
    ∀ p ∈ invoked cfg posts c, p ∈ posts := by
  induction posts generalizing c with
  | nil => simp [invoked]
  | cons first rest ih =>
      intro p hMem
      rw [invoked] at hMem
      rcases List.mem_cons.mp hMem with rfl | hLater
      · exact List.mem_cons_self
      · split at hLater
        · exact List.mem_cons_of_mem _ (ih _ p hLater)
        · cases hLater

theorem callbacks_subset (cfg : Config) (chunks : List (List Post)) (c : Connection) :
    ∀ p ∈ callbacks cfg chunks c, p ∈ chunks.flatten := by
  induction chunks generalizing c with
  | nil => simp [callbacks]
  | cons posts rest ih =>
      intro p hMem
      rw [callbacks] at hMem
      rw [List.flatten_cons]
      rcases List.mem_append.mp hMem with hHere | hLater
      · exact List.mem_append_left _ (invoked_subset cfg posts _ p hHere)
      · exact List.mem_append_right _ (ih _ p hLater)

theorem PartData.Sendable.rejected {part : PartData} (h : part.Sendable) {name : Bytes}
    (hName : part.rejected = some name) : ValidUtf8 name := by
  obtain ⟨key, hKey, hName⟩ := Option.bind_eq_some_iff.mp hName
  split at hName
  · obtain rfl := Option.some.inj hName
    exact (h.key key hKey).1
  · exact (h.filename name (Option.filter_eq_some_iff.mp hName).1).1

/-- The name complained of last is in UTF-8, like all of them. -/
theorem last_rejected_valid (hNames : ∀ p ∈ posts, p.part.Sendable) {name : Bytes}
    (h : last_rejected posts = some name) : ValidUtf8 name := by
  obtain ⟨p, hMem, hName⟩ := List.mem_filterMap.mp (List.mem_of_getLast? h)
  exact (hNames p hMem).rejected hName

end Callbacks

section Answer

variable {error name : Bytes} {last : Option Bytes}

/-- A complaint is a name between two harmless constants. -/
theorem Quotes.shape (h : Quotes error (some name)) :
    ∃ before after, reported error = before ++ (name ++ after) ∧
      ValidUtf8 before ∧ (∀ c ∈ before, JsonText.Plain c) ∧
      ValidUtf8 after ∧ (∀ c ∈ after, JsonText.Plain c) := by
  rcases h with rfl | rfl
  · refine ⟨str "unexpected field '", str "' (expected 'firmware')", ?_, valid_str _,
      forall_mem_str (by decide +kernel), valid_str _, forall_mem_str (by decide +kernel)⟩
    have hNe : str "unexpected field '" ≠ [] := by decide
    simp [reported, hNe]
  · refine ⟨str "rejected filename '", str "'", ?_, valid_str _,
      forall_mem_str (by decide +kernel), valid_str _, forall_mem_str (by decide +kernel)⟩
    have hNe : str "rejected filename '" ≠ [] := by decide
    simp [reported, hNe]

theorem Quotes.reported_valid (h : Quotes error last)
    (hValid : ∀ name, last = some name → ValidUtf8 name) : ValidUtf8 (reported error) := by
  cases last with
  | none =>
      obtain rfl : error = [] := h
      exact valid_str _
  | some name =>
      obtain ⟨before, after, hEq, hBefore, -, hAfter, -⟩ := h.shape
      rw [hEq]
      exact hBefore.append ((hValid name rfl).append hAfter)

/-- The message is harmless when the name is. -/
theorem Quotes.reported_plain (h : Quotes error last) :
    (∀ c ∈ reported error, JsonText.Plain c) ↔
      ∀ name, last = some name → ∀ c ∈ name, JsonText.Plain c := by
  cases last with
  | none =>
      obtain rfl : error = [] := h
      exact iff_of_true (forall_mem_str (by decide +kernel)) (by simp)
  | some name =>
      obtain ⟨before, after, hEq, -, hBefore, -, hAfter⟩ := h.shape
      rw [hEq]
      constructor
      · rintro hAll found hFound
        cases hFound
        exact fun c hc => hAll c (by simp [hc])
      · intro hName c hc
        rcases List.mem_append.mp hc with hc | hc
        · exact hBefore c hc
        · rcases List.mem_append.mp hc with hc | hc
          · exact hName name rfl c hc
          · exact hAfter c hc

/-- The text of the answer. -/
theorem answer_text (m : Bytes) :
    str "\x7b\"status\":\"error\",\"message\":\"Upload failed: " ++ m ++ str "\"\x7d" =
      JsonText.spliced (str "status") (str "error") (str "message")
        (str "Upload failed: " ++ m) := by
  have hOpen : str "\x7b\"status\":\"error\",\"message\":\"Upload failed: " =
      123 :: 34 :: (str "status" ++ 34 :: 58 :: 34 :: (str "error" ++ 34 :: 44 :: 34 ::
        (str "message" ++ 34 :: 58 :: 34 :: str "Upload failed: "))) := by rfl
  have hClose : str "\"\x7d" = [34, 125] := by rfl
  rw [hOpen, hClose, JsonText.spliced]
  simp

theorem valid_spliced {m : Bytes} (h : ValidUtf8 m) :
    ValidUtf8 (JsonText.spliced (str "status") (str "error") (str "message")
      (str "Upload failed: " ++ m)) := by
  rw [← answer_text, List.append_assoc]
  exact (valid_str _).append (h.append (valid_str _))

/-- The response gives the reason if its text is the JSON that says so. -/
theorem tells_reason_iff {text : Bytes} :
    TellsReason error ⟨400, .text text⟩ ↔
      JsonText.Says (str "status") (str "error") (str "message")
        (str "Upload failed: " ++ reported error) text := by
  constructor
  · rintro ⟨-, found, members, hText, hSays⟩
    cases hText
    exact ⟨members, hSays⟩
  · rintro ⟨members, hSays⟩
    exact ⟨rfl, text, members, rfl, hSays⟩

theorem no_file_response {cfg : Config} {io : Io} {c : Connection} {response : Response}
    (hPp : c.state.pp = true) (hFile : c.state.upload_file = none) (hSize : c.state.upload_size = 0)
    (h : (handleUpload cfg io none c).2 = some response) :
    response = ⟨400, .text (str "\x7b\"status\":\"error\",\"message\":\"Upload failed: " ++
      reported c.state.upload_error ++ str "\"\x7d")⟩ := by
  simp only [handleUpload, hPp, hFile, hSize, not_true_eq_false, if_false, and_self, if_true] at h
  split at h
  · cases h
  · exact (Option.some.inj h).symm

/-- The answer is the JSON it is meant to be exactly when the quoted name is harmless. -/
theorem Quotes.answer_iff (h : Quotes error last)
    (hValid : ∀ name, last = some name → ValidUtf8 name) :
    TellsReason error ⟨400, .text
        (str "\x7b\"status\":\"error\",\"message\":\"Upload failed: " ++ reported error ++
          str "\"\x7d")⟩ ↔
      ∀ name, last = some name → ∀ c ∈ name, JsonText.Plain c := by
  have hPlain : ∀ c ∈ str "Upload failed: ", JsonText.Plain c := forall_mem_str (by decide +kernel)
  have hUtf8 := valid_spliced (h.reported_valid hValid)
  rw [answer_text, tells_reason_iff, ← h.reported_plain,
    JsonText.spliced_iff (forall_mem_str (by decide +kernel)) (forall_mem_str (by decide +kernel))
      (forall_mem_str (by decide +kernel)) (by decide) hUtf8]
  constructor
  · exact fun hAll c hc => hAll c (List.mem_append_right _ hc)
  · intro hAll c hc
    rcases List.mem_append.mp hc with hc | hc
    · exact hPlain c hc
    · exact hAll c hc

/-- **The answer to an upload without a file.** It tells the recorded reason in JSON exactly
when the name complained of last holds no quote, backslash or control character. -/
theorem upload_error_well_formed_iff {cfg : Config} {io : Io} {chunks : List (List Post)}
    {fs : FileSystem} {response : Response} (hNames : ∀ p ∈ chunks.flatten, p.part.Sendable)
    (hFile : (feed cfg chunks (upload_request fs)).state.upload_file = none)
    (hAnswer : (handle_request cfg io chunks (upload_request fs)).2 = some response) :
    TellsReason (feed cfg chunks (upload_request fs)).state.upload_error response ↔
      ∀ name, last_rejected (callbacks cfg chunks (upload_request fs)) = some name →
        ∀ c ∈ name, JsonText.Plain c := by
  have hStart : Complained [] (upload_request fs) := ⟨rfl, rfl, fun _ => rfl, fun _ => rfl⟩
  have hEnd := hStart.feed cfg chunks
  rw [List.nil_append] at hEnd
  obtain rfl := no_file_response hEnd.pp hFile (hEnd.size hFile) hAnswer
  apply hEnd.error.answer_iff
  intro name hName
  apply last_rejected_valid _ hName
  exact fun p hMem => hNames p (callbacks_subset _ _ _ p hMem)

end Answer

/-- The call for a part whose field is not the expected one. -/
def other_field (key : Bytes) : Post := ⟨⟨some key, none, str "x"⟩, 0, {}⟩

theorem other_field_sendable {key : String} (h : (0 : UInt8) ∉ str key) :
    ∀ p ∈ [[other_field (str key)]].flatten, p.part.Sendable := by
  intro p hMem
  obtain rfl : p = other_field (str key) := by simpa using hMem
  constructor
  · intro name hName
    obtain rfl := Option.some.inj hName
    exact ⟨valid_str key, h⟩
  · intro name hName
    cases hName

/-- A field named `note`, and the answer that names it. -/
theorem other_field_note :
    TellsReason (feed {} [[other_field (str "note")]]
        (upload_request Storage.FileSystem.empty)).state.upload_error
      ⟨400, .text (str "\x7b\"status\":\"error\",\"message\":\"Upload failed: " ++
        str "unexpected field 'note' (expected 'firmware')\"\x7d")⟩ := by
  apply (@upload_error_well_formed_iff {} {} _ _ _ (other_field_sendable (by decide))
    (by rfl) (by rfl)).mpr
  have hLast : last_rejected (callbacks {} [[other_field (str "note")]]
      (upload_request Storage.FileSystem.empty)) = some (str "note") := by rfl
  rw [hLast]
  intro name hName
  obtain rfl := Option.some.inj hName
  exact forall_mem_str (by decide +kernel)

/-- A field whose name holds a quote. -/
theorem quote_in_field_name :
    (∀ p ∈ [[other_field (str "a\"b")]].flatten, p.part.Sendable) ∧
      (feed {} [[other_field (str "a\"b")]]
        (upload_request Storage.FileSystem.empty)).state.upload_file = none ∧
      ∃ response, (handle_request {} {} [[other_field (str "a\"b")]]
          (upload_request Storage.FileSystem.empty)).2 = some response ∧
        ¬ TellsReason (feed {} [[other_field (str "a\"b")]]
          (upload_request Storage.FileSystem.empty)).state.upload_error response := by
  have hError : (feed {} [[other_field (str "a\"b")]]
      (upload_request Storage.FileSystem.empty)).state.upload_error =
        str "unexpected field '" ++ str "a\"b" ++ str "' (expected 'firmware')" := by rfl
  have hQuotes : Quotes (str "unexpected field '" ++ str "a\"b" ++ str "' (expected 'firmware')")
      (some (str "a\"b")) := Or.inl rfl
  rw [hError]
  refine ⟨other_field_sendable (by decide), by rfl, _,
    (by rfl : _ = some (Response.mk 400 (.text
      (str "\x7b\"status\":\"error\",\"message\":\"Upload failed: " ++
        reported (str "unexpected field '" ++ str "a\"b" ++ str "' (expected 'firmware')") ++
          str "\"\x7d")))), ?_⟩
  intro hTells
  have hPlain :=
    (hQuotes.answer_iff fun name hName => Option.some.inj hName ▸ valid_str _).mp hTells
  exact absurd (hPlain _ rfl 34 (by decide)) JsonText.not_plain_quote

end RkFlashd
