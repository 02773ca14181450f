import RkFlashd.AtHandler.PreuploadGrammar
import RkFlashd.AtHandler.Transfer

/-! The arguments that `AT+UPLOAD` takes, and what the others are answered. The fields are
found by searching backwards for two commas. -/
namespace RkFlashd

open Text Checksum

/-- The checks on the three texts of a frame, once they are cut out. -/
def check_fields (hex_data crc16_hex len_str : Bytes) : Except Bytes Frame :=
  let frame_len := (strtoull 10 len_str).toUInt32
  let bin_len := hex_data.length / 2
  if crc16_hex.length ≠ 4 then .error (str "ERROR: crc16 must be 4 hex chars")
  else if ¬ crc16_hex.all isxdigit then .error (str "ERROR: invalid crc16 hex")
  else if ¬ len_str.all isdigit then .error (str "ERROR: invalid frame length")
  else if hex_data.length % 2 ≠ 0 then .error (str "ERROR: hex data must have even length")
  else if bin_len ≠ frame_len.toNat then
    .error (str "ERROR: frame_len mismatch (declared=" ++ to_string frame_len.toNat ++
      str " actual=" ++ to_string bin_len ++ str ")")
  else .ok ⟨crc16_hex, decode_hex hex_data⟩

/-- What the checks leave of `H,C,L`. -/
structure FrameForm (H C L : Bytes) : Prop where
  crc_size : C.length = 4
  crc_hex : ∀ c ∈ C, isxdigit c = true
  digits : ∀ c ∈ L, isdigit c = true
  even : H.length % 2 = 0
  declared : H.length / 2 = (strtoull 10 L).toUInt32.toNat

/-- Three fields are accepted if they are in the form of a frame. -/
theorem check_fields_ok_iff {H C L : Bytes} {frame : Frame} :
    check_fields H C L = .ok frame ↔ FrameForm H C L ∧ frame = ⟨C, decode_hex H⟩ := by
  simp only [check_fields, List.all_eq_true]
  constructor
  · intro h
    split_ifs at h with hSize hHex hDigits hEven hLength
    cases h
    exact ⟨⟨not_not.mp hSize, hHex, hDigits, not_not.mp hEven, not_not.mp hLength⟩, rfl⟩
  · rintro ⟨hForm, rfl⟩
    rw [if_neg (not_not.mpr hForm.crc_size), if_neg (not_not.mpr hForm.crc_hex),
      if_neg (not_not.mpr hForm.digits), if_neg (not_not.mpr hForm.even),
      if_neg (not_not.mpr hForm.declared)]

theorem comma_not_mem_xdigits {C : Bytes} (h : ∀ c ∈ C, isxdigit c = true) : (44 : UInt8) ∉ C :=
  fun hMem => absurd (h 44 hMem) (by decide)

theorem expected_crc_toNat {data crc16_hex : Bytes} (hCrc : crc16_hex.length = 4)
    (hHex : ∀ c ∈ crc16_hex, isxdigit c = true) :
    (Frame.expected_crc ⟨crc16_hex, data⟩).toNat = numeral 16 crc16_hex := by
  have hBound : numeral 16 crc16_hex < 16 ^ 4 := by
    rw [← hCrc]
    exact numeral_lt fun c hc => (digit_value_lt_sixteen_iff c).mpr (hHex c hc)
  rw [Frame.expected_crc, strtoull_xdigits hHex, Nat.min_eq_left (by omega),
    UInt64.toNat_toUInt16, UInt64.toNat_ofNat']
  omega

/-- The texts before, between and behind the two commas found are the ones checked. -/
theorem parse_frame_of_commas {H C L : Bytes}
    (hLast : rfind (H ++ 44 :: (C ++ 44 :: L)) 44 npos = some (H.length + C.length + 1))
    (hPrev : rfind (H ++ 44 :: (C ++ 44 :: L)) 44 (H.length + C.length) = some H.length) :
    parse_frame (H ++ 44 :: (C ++ 44 :: L)) = check_fields H C L := by
  have hStart : size_sub (H.length + C.length + 1) 1 = H.length + C.length := by
    rw [size_sub_of_le (by omega), Nat.add_sub_cancel]
  have hCount : size_sub (size_sub (H.length + C.length + 1) H.length) 1 = C.length := by
    have hInner : size_sub (H.length + C.length + 1) H.length = C.length + 1 := by
      rw [size_sub_of_le (by omega)]
      omega
    rw [hInner, size_sub_of_le (by omega), Nat.add_sub_cancel]
  have hHexText : substr (H ++ 44 :: (C ++ 44 :: L)) 0 H.length = H :=
    @substr_field [] H _ 0 _ rfl rfl
  have hCrcText : substr (H ++ 44 :: (C ++ 44 :: L)) (H.length + 1) C.length = C := by
    have h := @substr_field (H ++ [44]) C (44 :: L) (H.length + 1) C.length (by simp) rfl
    simpa using h
  have hLenText : substr_from (H ++ 44 :: (C ++ 44 :: L)) (H.length + C.length + 1 + 1) = L := by
    have h := @substr_from_field (H ++ 44 :: (C ++ [44])) L (H.length + C.length + 1 + 1)
      (by simp; omega)
    simpa using h
  simp only [parse_frame, hLast, hStart, hPrev, hCount, hHexText, hCrcText, hLenText]
  rfl

/-- The last two commas cut the argument. -/
theorem parse_frame_cut (H : Bytes) {C L : Bytes} (hC : (44 : UInt8) ∉ C) (hL : (44 : UInt8) ∉ L)
    (hFits : H.length + C.length < npos) :
    parse_frame (H ++ 44 :: (C ++ 44 :: L)) = check_fields H C L := by
  apply parse_frame_of_commas
  · exact rfind_eq_some_iff.mpr ⟨H ++ 44 :: C, L, by simp, by simp; omega, hFits,
      fun h => hL (List.mem_of_mem_take h)⟩
  · refine rfind_eq_some_iff.mpr ⟨H, C ++ 44 :: L, rfl, rfl, by omega, ?_⟩
    rwa [Nat.add_sub_cancel_left, List.take_left]

/-- With its only comma in front, the text behind it is taken both for the CRC and for
the length. -/
theorem parse_frame_leading_comma {rest : Bytes} (hRest : (44 : UInt8) ∉ rest.take npos) :
    parse_frame (44 :: rest) = check_fields [] (rest.take npos) rest := by
  have hComma : rfind (44 :: rest) 44 npos = some 0 :=
    rfind_eq_some_iff.mpr ⟨[], rest, rfl, rfl, Nat.zero_le _, hRest⟩
  have hWraps : size_sub 0 1 = npos := rfl
  have hCount : size_sub (size_sub 0 0) 1 = npos := rfl
  simp only [parse_frame, hComma, hWraps, hCount]
  rfl

/-- The declared length is narrowed to 32 bits after `strtoul` has saturated it. -/
theorem strtoull_toUInt32 {L : Bytes} (h : ∀ c ∈ L, isdigit c = true) :
    (strtoull 10 L).toUInt32.toNat = min (numeral 10 L) (2 ^ 64 - 1) % 2 ^ 32 := by
  rw [UInt64.toNat_toUInt32, strtoull_digits_toNat h]

theorem digit_eq_zero {c : UInt8} : isdigit c = true → digit_value c = 0 → c = 48 := by
  intro hDigit hZero
  apply UInt8.toNat_inj.mp
  grind [isdigit, digit_value, UInt8.le_iff_toNat_le]

/-- Digits that are worth nothing are zeros. -/
theorem eq_zeros_of_numeral {s : Bytes} (hDigits : ∀ c ∈ s, isdigit c = true)
    (hZero : numeral 10 s = 0) : ∀ c ∈ s, c = 48 := by
  induction s using List.reverseRecOn with
  | nil => simp
  | append_singleton init d ih =>
      rw [numeral_append_singleton] at hZero
      intro c hc
      rcases List.mem_append.mp hc with hInit | hLast
      · exact ih (fun x hx => hDigits x (by simp [hx])) (by omega) c hInit
      · obtain rfl := List.mem_singleton.mp hLast
        exact digit_eq_zero (hDigits c (by simp)) (by omega)

/-- The search backwards finds two commas, or one comma twice. -/
theorem parse_frame_ok {arg : Bytes} {frame : Frame} (h : parse_frame arg = .ok frame) :
    (∃ H C L, arg = H ++ 44 :: (C ++ 44 :: L) ∧ check_fields H C L = .ok frame) ∨
      ∃ rest, arg = 44 :: rest ∧ check_fields [] (rest.take npos) rest = .ok frame := by
  cases hLast : rfind arg 44 npos with
  | none =>
      rw [parse_frame, hLast] at h
      cases h
  | some last_comma =>
      obtain ⟨before, L, rfl, rfl, -, hNone⟩ := rfind_eq_some_iff.mp hLast
      cases hPrev : rfind (before ++ 44 :: L) 44 (size_sub before.length 1) with
      | none =>
          simp only [parse_frame, hLast, hPrev] at h
          cases h
      | some prev_comma =>
          cases before with
          | nil => exact Or.inr ⟨L, rfl, (parse_frame_leading_comma hNone).symm.trans h⟩
          | cons x xs =>
              rw [size_sub_of_le (by simp)] at hPrev
              obtain ⟨H, b, hCut, rfl, hBefore, -⟩ := rfind_eq_some_iff.mp hPrev
              obtain ⟨C, hField⟩ := cut_before hCut (by simp at hBefore ⊢; omega)
              rw [hField, List.append_assoc, List.cons_append] at h hLast hPrev ⊢
              have hLength : (H ++ 44 :: C).length = H.length + C.length + 1 := by simp; omega
              rw [hLength] at hLast hPrev
              refine Or.inl ⟨H, C, L, rfl, ?_⟩
              rw [← h, parse_frame_of_commas hLast hPrev]

/-- What is told apart has two commas, save for one argument. -/
theorem parse_frame_ok_iff {arg : Bytes} {frame : Frame} :
    parse_frame arg = .ok frame ↔
      (∃ H C L, arg = H ++ 44 :: (C ++ 44 :: L) ∧ FrameForm H C L ∧ frame = ⟨C, decode_hex H⟩) ∨
        arg = str ",0000" ∧ frame = ⟨str "0000", []⟩ := by
  constructor
  · intro h
    rcases parse_frame_ok h with ⟨H, C, L, hArg, hFields⟩ | ⟨rest, rfl, hFields⟩
    · exact Or.inl ⟨H, C, L, hArg, check_fields_ok_iff.mp hFields⟩
    · obtain ⟨hForm, rfl⟩ := check_fields_ok_iff.mp hFields
      have hSize : rest.length = 4 := by
        have hTake := hForm.crc_size
        rw [List.length_take] at hTake
        unfold npos at hTake
        omega
      have hWhole : rest.take npos = rest := List.take_of_length_le (by unfold npos; omega)
      have hBound := numeral_lt fun c hc => digit_value_lt_ten c (hForm.digits c hc)
      have hDeclared := hForm.declared
      rw [hSize] at hBound
      rw [strtoull_toUInt32 hForm.digits] at hDeclared
      have hZeros := List.eq_replicate_of_mem
        (eq_zeros_of_numeral hForm.digits (by simp at hDeclared; omega))
      rw [hSize] at hZeros
      subst hZeros
      exact Or.inr ⟨rfl, rfl⟩
  · rintro (⟨H, C, L, rfl, hForm, rfl⟩ | ⟨rfl, rfl⟩)
    · have hLength := hForm.declared
      have hBound := (strtoull 10 L).toUInt32.toNat_lt
      have hEven := hForm.even
      have hSize := hForm.crc_size
      rw [parse_frame_cut H (comma_not_mem_xdigits hForm.crc_hex)
        (comma_not_mem_digits hForm.digits) (by unfold npos; omega)]
      exact check_fields_ok_iff.mpr ⟨hForm, rfl⟩
    · rfl

/-- Fewer than two commas, unless the only one is in front, are noticed as such. -/
theorem parse_frame_few_commas {arg : Bytes} (hFew : arg.count 44 < 2)
    (hLead : ∀ rest, arg = 44 :: rest → (44 : UInt8) ∈ rest) :
    ∃ message, parse_frame arg = .error message ∧
      starts_with message (str "ERROR: missing ") = true := by
  by_cases hComma : (44 : UInt8) ∈ arg
  · obtain ⟨before, rest, rfl, hBefore⟩ := List.eq_append_cons_of_mem hComma
    have hRest : (44 : UInt8) ∉ rest := by
      rw [List.count_append, List.count_cons_self, List.count_eq_zero_of_not_mem hBefore] at hFew
      exact List.count_eq_zero.mp (by omega)
    have hSome : before ≠ [] := by
      rintro rfl
      exact hRest (hLead rest rfl)
    have hPositive := List.length_pos_of_ne_nil hSome
    by_cases hFits : before.length ≤ npos
    · have hLast : rfind (before ++ 44 :: rest) 44 npos = some before.length :=
        rfind_eq_some_iff.mpr ⟨before, rest, rfl, rfl, hFits,
          fun h => hRest (List.mem_of_mem_take h)⟩
      have hPrev : rfind (before ++ 44 :: rest) 44 (size_sub before.length 1) = none := by
        rw [size_sub_of_le hPositive, rfind_eq_none_iff, Nat.sub_add_cancel hPositive,
          List.take_left]
        exact hBefore
      exact ⟨str "ERROR: missing hex_data", by simp only [parse_frame, hLast, hPrev], rfl⟩
    · have hLast : rfind (before ++ 44 :: rest) 44 npos = none := by
        rw [rfind_eq_none_iff, List.take_append_of_le_length (by omega)]
        exact fun h => hBefore (List.mem_of_mem_take h)
      exact ⟨_, by rw [parse_frame, hLast], rfl⟩
  · have hLast : rfind arg 44 npos = none :=
      rfind_eq_none_iff.mpr fun h => hComma (List.mem_of_mem_take h)
    exact ⟨_, by rw [parse_frame, hLast], rfl⟩

/-- What is wrong with a field is not that it is missing. -/
theorem check_fields_error {H C L message : Bytes} (h : check_fields H C L = .error message) :
    starts_with message (str "ERROR: missing ") = false ∧
      message ≠ str "ERROR: AT+UPLOAD requires arguments" := by
  have hOther : ∀ text, starts_with text (str "ERROR: AT+") = false →
      text ≠ str "ERROR: AT+UPLOAD requires arguments" := by
    rintro text hText rfl
    cases hText
  simp only [check_fields] at h
  split_ifs at h <;> cases h <;> exact ⟨rfl, hOther _ rfl⟩

/-- The answer to a frame that is not parsed says nothing of a CRC mismatch. -/
theorem parse_frame_message {arg message : Bytes} (h : parse_frame arg = .error message) :
    starts_with message (str "ERROR CRC mismatch") = false := by
  unfold parse_frame at h
  split at h
  · cases h
    rfl
  · split at h
    · cases h
      rfl
    · simp only at h
      split_ifs at h <;> cases h <;> rfl

section Handler
variable {io : Io} {arg : Bytes} {w : Host}

/-- An upload is active: the handler tests the flag and the file. -/
def UploadState.Open (u : UploadState) : Prop := u.active = true ∧ u.file.isSome = true

instance (u : UploadState) : Decidable u.Open := inferInstanceAs (Decidable (_ ∧ _))

/-- A write that is attempted succeeds in full. -/
def WritesInFull (io : Io) (arg : Bytes) (w : Host) : Prop :=
  ∀ file data, check_frame w.upload arg = .ok (file, data) →
    (w.fs.fwrite file data io.fwrite).1 = data.length

theorem check_frame_open {u : UploadState} (hOpen : u.Open) (hSome : arg ≠ []) {message : Bytes}
    (hParse : parse_frame arg = .error message) : check_frame u arg = .error (u, message) := by
  obtain ⟨file, hFile⟩ := Option.isSome_iff_exists.mp hOpen.2
  simp [check_frame, hSome, hOpen.1, hFile, hParse]

/-- A frame is counted, or its CRC compared, only if it could be parsed. -/
theorem check_frame_counted {u next : UploadState} {answer : Bytes}
    (h : check_frame u arg = .error (next, answer))
    (hCounted : next.frame_count ≠ u.frame_count ∨
      starts_with answer (str "ERROR CRC mismatch") = true) :
    u.Open ∧ ∃ frame, parse_frame arg = .ok frame := by
  unfold check_frame at h
  split at h
  · cases h
    rcases hCounted with hCount | hCrc
    · exact absurd rfl hCount
    · cases hCrc
  · split at h
    · rename_i file hActive hFile
      split at h
      · rename_i message hParse
        cases h
        rcases hCounted with hCount | hCrc
        · exact absurd rfl hCount
        · rw [parse_frame_message hParse] at hCrc
          cases hCrc
      · rename_i frame hParse
        exact ⟨⟨hActive, by rw [hFile]; rfl⟩, frame, hParse⟩
    · cases h
      rcases hCounted with hCount | hCrc
      · exact absurd rfl hCount
      · cases hCrc

/-- What a frame that is not accepted may and may not do. -/
structure MalformedFrameHarmless (io : Io) (arg : Bytes) (w : Host) : Prop where
  unchanged : starts_with (handle_upload_frame io arg w).2 (str "OK") = false →
    ∃ count, (handle_upload_frame io arg w).1 =
      ⟨{ w.upload with frame_count := count }, w.fs⟩
  counted : (handle_upload_frame io arg w).1.upload.frame_count ≠ w.upload.frame_count ∨
      starts_with (handle_upload_frame io arg w).2 (str "ERROR CRC mismatch") = true →
    2 ≤ arg.count 44
  missing : w.upload.Open → arg.count 44 < 2 →
    (handle_upload_frame io arg w).1 = w ∧
      (starts_with (handle_upload_frame io arg w).2 (str "ERROR: missing ") = true ∨
        (handle_upload_frame io arg w).2 = str "ERROR: AT+UPLOAD requires arguments")

/-- The only comma of the argument comes first. -/
def LeadingComma (arg : Bytes) : Prop := ∃ rest, arg = 44 :: rest ∧ (44 : UInt8) ∉ rest

theorem handle_upload_frame_early {u : UploadState} {answer : Bytes}
    (h : check_frame w.upload arg = .error (u, answer)) :
    handle_upload_frame io arg w = (⟨u, w.fs⟩, answer) := by
  simp [handle_upload_frame, h]

/-- A frame that is counted, or whose CRC is compared, has been parsed. -/
theorem handle_upload_frame_parsed
    (hCounted : (handle_upload_frame io arg w).1.upload.frame_count ≠ w.upload.frame_count ∨
      starts_with (handle_upload_frame io arg w).2 (str "ERROR CRC mismatch") = true) :
    w.upload.Open ∧ ∃ frame, parse_frame arg = .ok frame := by
  cases hCheck : check_frame w.upload arg with
  | error result =>
      rw [handle_upload_frame_early hCheck] at hCounted
      exact check_frame_counted hCheck hCounted
  | ok result =>
      obtain ⟨hActive, hFile, frame, hParse, -⟩ := check_frame_ok hCheck
      exact ⟨⟨hActive, by rw [hFile]; rfl⟩, frame, hParse⟩

/-- An argument that starts with its only comma gets an error about its fields, or its
CRC field is compared with the checksum of no data. -/
theorem leading_comma_reported (io : Io) (hOpen : w.upload.Open) (hLead : LeadingComma arg) :
    ¬ MalformedFrameHarmless io arg w := by
  intro hHarmless
  obtain ⟨rest, rfl, hRest⟩ := hLead
  have hFew : (44 :: rest).count 44 < 2 := by
    rw [List.count_cons_self, List.count_eq_zero_of_not_mem hRest]
    omega
  obtain ⟨-, hAnswer⟩ := hHarmless.missing hOpen hFew
  have hParse := parse_frame_leading_comma fun h => hRest (List.mem_of_mem_take h)
  cases hFields : check_fields [] (rest.take npos) rest with
  | error message =>
      rw [hFields] at hParse
      rw [handle_upload_frame_early (check_frame_open hOpen (by simp) hParse)] at hAnswer
      obtain ⟨hMissing, hRequires⟩ := check_fields_error hFields
      rcases hAnswer with hStarts | hEq
      · rw [hMissing] at hStarts
        cases hStarts
      · exact hRequires hEq
  | ok frame =>
      rw [hFields] at hParse
      rcases parse_frame_ok_iff.mp hParse with ⟨H, C, L, hArg, -⟩ | ⟨hArg, rfl⟩
      · have hCount := congrArg (List.count 44) hArg
        simp only [List.count_append, List.count_cons_self] at hCount hFew
        omega
      · obtain ⟨file, hFile⟩ := Option.isSome_iff_exists.mp hOpen.2
        have hMismatch : ¬ crc16_compute [] = Frame.expected_crc ⟨str "0000", []⟩ := by
          decide +kernel
        have hCheck : ∃ u rest', check_frame w.upload (44 :: rest) =
            .error (u, str "ERROR CRC mismatch frame " ++ rest') := by
          simp [check_frame, hOpen.1, hFile, hParse, hMismatch]
        obtain ⟨u, more, hCheck⟩ := hCheck
        have hCrc : starts_with (str "ERROR CRC mismatch frame " ++ more) (str "ERROR C") = true :=
          rfl
        rw [handle_upload_frame_early hCheck] at hAnswer
        rcases hAnswer with hStarts | hEq
        · cases hStarts
        · rw [show str "ERROR CRC mismatch frame " ++ more = _ from hEq] at hCrc
          cases hCrc

/-- A frame that is not accepted does no harm and too few commas are reported as such, but
for an argument whose only comma comes first: the second search wraps around. -/
theorem malformed_frame_harmless_iff (hWrites : WritesInFull io arg w) :
    MalformedFrameHarmless io arg w ↔ ¬ (w.upload.Open ∧ LeadingComma arg) := by
  constructor
  · rintro hHarmless ⟨hOpen, hLead⟩
    exact leading_comma_reported io hOpen hLead hHarmless
  · intro hNot
    constructor
    case unchanged =>
      intro hFails
      rcases handle_upload_frame_cases io arg w with
        ⟨count, answer, hResult, -⟩ | ⟨file, data, written, fs, hCheck, hWrite, hShort, -⟩ |
        ⟨file, data, fs, -, -, hResult⟩
      · rw [hResult]
        exact ⟨count, rfl⟩
      · have hFull := hWrites file data hCheck
        rw [hWrite] at hFull
        exact absurd hFull hShort
      · rw [hResult] at hFails
        cases hFails
    case counted =>
      intro hCounted
      obtain ⟨hOpen, frame, hParse⟩ := handle_upload_frame_parsed hCounted
      rcases parse_frame_ok_iff.mp hParse with ⟨H, C, L, rfl, -⟩ | ⟨rfl, -⟩
      · simp only [List.count_append, List.count_cons_self]
        omega
      · exact absurd ⟨hOpen, str "0000", rfl, by decide⟩ hNot
    case missing =>
      intro hOpen hFew
      by_cases hSome : arg = []
      · subst hSome
        exact ⟨rfl, Or.inr rfl⟩
      · have hLead : ∀ rest, arg = 44 :: rest → (44 : UInt8) ∈ rest := by
          intro rest hArg
          by_contra hRest
          exact hNot ⟨hOpen, rest, hArg, hRest⟩
        obtain ⟨message, hParse, hMissing⟩ := parse_frame_few_commas hFew hLead
        rw [handle_upload_frame_early (check_frame_open hOpen hSome hParse)]
        exact ⟨rfl, Or.inl hMissing⟩

end Handler

/-- A host on which `a` has been announced with three bytes. -/
def announced_host : Host :=
  (handle_preupload {} {} (announced "3") ⟨{}, Storage.FileSystem.empty⟩).1

theorem announced_host_writes : WritesInFull {} (str "00,E1F0,1") announced_host := by
  have hCheck : check_frame announced_host.upload (str "00,E1F0,1") = .ok (0, [0]) := by
    rfl
  intro file data hOther
  rw [hCheck] at hOther
  cases hOther
  rfl

/-- The frame of the byte zero is well formed, so that nothing is asked of it. -/
theorem malformed_frame_harmless_zero :
    MalformedFrameHarmless {} (str "00,E1F0,1") announced_host := by
  have hIff := malformed_frame_harmless_iff announced_host_writes
  rw [hIff]
  rintro ⟨-, rest, hArg, -⟩
  cases hArg

/-- One comma in front is taken for both: the frame is counted and its CRC compared. -/
theorem leading_comma_counted : ¬ MalformedFrameHarmless {} (str ",0000") announced_host := by
  intro hHarmless
  have hCommas := hHarmless.counted (by decide +kernel)
  revert hCommas
  decide

end RkFlashd
