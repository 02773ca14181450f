import RkFlashd.AtHandler.FrameGrammar

/-! The frames that are answered `OK`, against the grammar of the protocol. The two part
where `sscanf` meets what is no pair of hex digits, and where the length wraps. -/
namespace RkFlashd

open Text Checksum

/-- The bytes that a string of hex digits denotes. -/
def hex_value : Bytes → Bytes
  | high :: low :: rest =>
      UInt8.ofNat (digit_value high * 16 + digit_value low) :: hex_value rest
  | _ => []

/-- On hex digits, what `sscanf` makes of the pairs is what they denote. -/
theorem decode_hex_xdigits {H : Bytes} (hHex : ∀ c ∈ H, isxdigit c = true) :
    decode_hex H = hex_value H := by
  induction H using hex_value.induct with
  | case1 high low rest ih =>
      have hFirst := sscanf_2x_xdigits (hHex high (by simp)) (hHex low (by simp)) rest
      have hLength : (high :: low :: rest).length / 2 = rest.length / 2 + 1 := by
        simp
        omega
      have hLater : ∀ i, decode_byte (high :: low :: rest) (i + 1) = decode_byte rest i := by
        intro i
        rw [decode_byte, decode_byte, Nat.succ_mul]
        rfl
      rw [decode_hex, hLength, List.range_succ_eq_map, List.map_cons, List.map_map, hex_value,
        ← ih (fun c hc => hHex c (by simp [hc]))]
      congr 1
      · rw [decode_byte, Nat.zero_mul, List.drop_zero, hFirst]
        simp
      · exact List.map_congr_left fun i _ => hLater i
  | case2 H hShort =>
      match H with
      | [] => rfl
      | [_] => simp [decode_hex, hex_value]
      | high :: low :: rest => exact absurd rfl (hShort high low rest)

/-- `arg` is a frame of the protocol: hex digits, two a byte, their CRC, their number. -/
structure FrameLine (arg H C L : Bytes) : Prop where
  split : arg = H ++ 44 :: (C ++ 44 :: L)
  hex : ∀ c ∈ H, isxdigit c = true
  even : H.length % 2 = 0
  crc_size : C.length = 4
  crc_hex : ∀ c ∈ C, isxdigit c = true
  len_some : L ≠ []
  digits : ∀ c ∈ L, isdigit c = true
  declared : numeral 10 L = H.length / 2
  crc : numeral 16 C = (crc16_compute (hex_value H)).toNat

/-- The handler takes `arg` for a frame: its fields pass the checks, and the CRC is that of
what `sscanf` made of the data. -/
structure FrameTaken (arg H C L : Bytes) : Prop extends FrameForm H C L where
  split : arg = H ++ 44 :: (C ++ 44 :: L)
  crc : numeral 16 C = (crc16_compute (decode_hex H)).toNat

/-- The arguments on which the handler and the grammar part. -/
inductive FrameMisread (arg : Bytes) : Prop where
  /-- Some of the data are no hex digits, and the CRC is that of what they were read as. -/
  | not_hex {H C L : Bytes} (taken : FrameTaken arg H C L) (c : UInt8) (hMem : c ∈ H)
      (hNot : isxdigit c = false)
  /-- No data and no length either. -/
  | no_length {C : Bytes} (split : arg = 44 :: (C ++ [44])) (crc_size : C.length = 4)
      (crc_hex : ∀ c ∈ C, isxdigit c = true) (crc : numeral 16 C = 0xFFFF)
  /-- A length that comes out right only once it is saturated and cut to 32 bits. -/
  | wraps {H C L : Bytes} (split : arg = H ++ 44 :: (C ++ 44 :: L))
      (hex : ∀ c ∈ H, isxdigit c = true) (even : H.length % 2 = 0) (crc_size : C.length = 4)
      (crc_hex : ∀ c ∈ C, isxdigit c = true) (digits : ∀ c ∈ L, isdigit c = true)
      (crc : numeral 16 C = (crc16_compute (hex_value H)).toNat)
      (differs : numeral 10 L ≠ H.length / 2)
      (declared : min (numeral 10 L) (2 ^ 64 - 1) % 2 ^ 32 = H.length / 2)
  /-- A frame of the protocol with more data than 32 bits can count. -/
  | too_long {H C L : Bytes} (line : FrameLine arg H C L) (long : 2 ^ 32 ≤ H.length / 2)

section Handler
variable {io : Io} {arg : Bytes} {w : Host}

/-- A frame that is taken reaches the write. -/
theorem FrameTaken.check {u : UploadState} {H C L : Bytes} {file : Nat} (h : FrameTaken arg H C L)
    (hActive : u.active = true) (hFile : u.file = some file) :
    check_frame u arg = .ok (file, decode_hex H) := by
  have hParse : parse_frame arg = .ok ⟨C, decode_hex H⟩ :=
    parse_frame_ok_iff.mpr (Or.inl ⟨H, C, L, h.split, h.toFrameForm, rfl⟩)
  have hSome : arg ≠ [] := by
    rw [h.split]
    simp
  have hCrc : crc16_compute (decode_hex H) = Frame.expected_crc ⟨C, decode_hex H⟩ := by
    rw [← UInt16.toNat_inj, expected_crc_toNat h.crc_size h.crc_hex, h.crc]
  simp [check_frame, hSome, hActive, hFile, hParse, hCrc]

/-- What reaches the write has been taken. -/
theorem check_frame_taken {u : UploadState} {file : Nat} {data : Bytes}
    (h : check_frame u arg = .ok (file, data)) :
    ∃ H C L, FrameTaken arg H C L ∧ data = decode_hex H := by
  obtain ⟨-, -, frame, hParse, rfl, hCrc⟩ := check_frame_ok h
  rcases parse_frame_ok_iff.mp hParse with ⟨H, C, L, hArg, hForm, rfl⟩ | ⟨-, rfl⟩
  · have hValue := congrArg UInt16.toNat hCrc
    rw [expected_crc_toNat hForm.crc_size hForm.crc_hex] at hValue
    exact ⟨H, C, L, ⟨hForm, hArg, hValue.symm⟩, rfl⟩
  · have hDiffer : ¬ crc16_compute [] = Frame.expected_crc ⟨str "0000", []⟩ := by decide +kernel
    exact absurd hCrc hDiffer

/-- With an upload active and writes that succeed, `OK` is the answer to what is taken. -/
theorem handle_upload_frame_ok_iff (hOpen : w.upload.Open) (hWrites : WritesInFull io arg w) :
    starts_with (handle_upload_frame io arg w).2 (str "OK") = true ↔
      ∃ H C L, FrameTaken arg H C L := by
  constructor
  · intro hOk
    rcases handle_upload_frame_cases io arg w with
      ⟨count, answer, hResult, hError⟩ | ⟨file, data, written, fs, hCheck, hWrite, hShort, -⟩ |
      ⟨file, data, fs, hCheck, -, -⟩
    · rw [hResult, not_ok_of_error hError] at hOk
      cases hOk
    · have hFull := hWrites file data hCheck
      rw [hWrite] at hFull
      exact absurd hFull hShort
    · obtain ⟨H, C, L, hTaken, -⟩ := check_frame_taken hCheck
      exact ⟨H, C, L, hTaken⟩
  · rintro ⟨H, C, L, hTaken⟩
    obtain ⟨file, hFile⟩ := Option.isSome_iff_exists.mp hOpen.2
    have hCheck := hTaken.check hOpen.1 hFile
    have hFull := hWrites file _ hCheck
    simp only [handle_upload_frame, hCheck, hFull, ne_eq, not_true_eq_false, if_false]
    rfl

/-- What the grammar of the protocol promises about a frame. -/
structure FrameContract (io : Io) (arg : Bytes) (w : Host) (file : Nat) (path content : Bytes) :
    Prop where
  ok_iff : starts_with (handle_upload_frame io arg w).2 (str "OK") = true ↔
    ∃ H C L, FrameLine arg H C L
  stored : ∀ H C L, FrameLine arg H C L →
    starts_with (handle_upload_frame io arg w).2 (str "OK") = true →
    (handle_upload_frame io arg w).1.fs.Writing file path (content ++ hex_value H) ∧
      (handle_upload_frame io arg w).1.upload.md5_ctx = w.upload.md5_ctx.update (hex_value H)

/-- A frame that is taken is stored as it was read. -/
theorem FrameTaken.stored {file : Nat} {path content H C L : Bytes} (h : FrameTaken arg H C L)
    (hActive : w.upload.active = true) (hFile : w.upload.file = some file)
    (hWriting : w.fs.Writing file path content) (hWrites : WritesInFull io arg w) :
    (handle_upload_frame io arg w).1.fs.Writing file path (content ++ decode_hex H) ∧
      (handle_upload_frame io arg w).1.upload.md5_ctx =
        w.upload.md5_ctx.update (decode_hex H) := by
  have hCheck := h.check hActive hFile
  have hFull := hWrites file _ hCheck
  obtain ⟨next, hNext, hMore⟩ := hWriting.fwrite (decode_hex H) io.fwrite
  rw [hNext] at hFull
  dsimp only at hFull
  rw [hFull, List.take_length] at hMore
  simp only [handle_upload_frame, hCheck, hNext, hFull, ne_eq, not_true_eq_false, if_false]
  exact ⟨hMore, trivial⟩

/-- A frame of the protocol that 32 bits can count is taken. -/
theorem FrameLine.taken {H C L : Bytes} (h : FrameLine arg H C L) (hShort : H.length / 2 < 2 ^ 32) :
    FrameTaken arg H C L where
  crc_size := h.crc_size
  crc_hex := h.crc_hex
  digits := h.digits
  even := h.even
  declared := by
    rw [strtoull_toUInt32 h.digits, h.declared]
    omega
  split := h.split
  crc := by rw [decode_hex_xdigits h.hex, h.crc]

/-- What is taken without being misread is a frame of the protocol. -/
theorem FrameTaken.line {H C L : Bytes} (h : FrameTaken arg H C L) (hRead : ¬ FrameMisread arg) :
    FrameLine arg H C L := by
  have hHex : ∀ c ∈ H, isxdigit c = true := by
    intro c hc
    by_contra hNot
    exact hRead (.not_hex h c hc (by simpa using hNot))
  have hCrc := h.crc
  rw [decode_hex_xdigits hHex] at hCrc
  have hDeclared := h.declared
  rw [strtoull_toUInt32 h.digits] at hDeclared
  have hLength : numeral 10 L = H.length / 2 := by
    by_contra hDiffers
    exact hRead (.wraps h.split hHex h.even h.crc_size h.crc_hex h.digits hCrc hDiffers
      hDeclared.symm)
  refine ⟨h.split, hHex, h.even, h.crc_size, h.crc_hex, ?_, h.digits, hLength, hCrc⟩
  rintro rfl
  obtain rfl : H = [] := by
    have hEven := h.even
    have hZero : H.length / 2 = 0 := hLength.symm
    exact List.eq_nil_of_length_eq_zero (by omega)
  exact hRead (.no_length h.split h.crc_size h.crc_hex hCrc)

/-- An argument is cut into fields in one way only. -/
theorem FrameTaken.unique {H C L H' C' L' : Bytes} (h : FrameTaken arg H C L)
    (h' : FrameLine arg H' C' L') : H = H' ∧ C = C' ∧ L = L' := by
  have hSplit : (H ++ 44 :: C) ++ 44 :: L = (H' ++ 44 :: C') ++ 44 :: L' := by
    have hSame := h.split.symm.trans h'.split
    simpa using hSame
  obtain ⟨hBefore, hLen⟩ := cut_last_unique hSplit (comma_not_mem_digits h.digits)
    (comma_not_mem_digits h'.digits)
  obtain ⟨hData, hCrc⟩ := cut_last_unique hBefore (comma_not_mem_xdigits h.crc_hex)
    (comma_not_mem_xdigits h'.crc_hex)
  exact ⟨hData, hCrc, hLen⟩

/-- A misread argument is taken and no frame, or a frame and not taken. -/
theorem FrameMisread.not_line (h : FrameMisread arg) :
    ¬ ((∃ H C L, FrameTaken arg H C L) ↔ ∃ H C L, FrameLine arg H C L) := by
  intro hSame
  cases h with
  | not_hex hTaken c hMem hNot =>
      obtain ⟨H', C', L', hLine⟩ := hSame.mp ⟨_, _, _, hTaken⟩
      obtain ⟨rfl, -, -⟩ := hTaken.unique hLine
      rw [hLine.hex c hMem] at hNot
      cases hNot
  | no_length hSplit hSize hHex hCrc =>
      have hTaken : FrameTaken arg [] _ [] := ⟨⟨hSize, hHex, by simp, rfl, rfl⟩, hSplit, hCrc⟩
      obtain ⟨H', C', L', hLine⟩ := hSame.mp ⟨_, _, _, hTaken⟩
      obtain ⟨-, -, rfl⟩ := hTaken.unique hLine
      exact hLine.len_some rfl
  | wraps hSplit hHex hEven hSize hCrcHex hDigits hCrc hDiffers hDeclared =>
      have hForm : FrameForm _ _ _ := ⟨hSize, hCrcHex, hDigits, hEven,
        by rw [strtoull_toUInt32 hDigits, hDeclared]⟩
      have hTaken : FrameTaken arg _ _ _ := ⟨hForm, hSplit, by rw [decode_hex_xdigits hHex, hCrc]⟩
      obtain ⟨H', C', L', hLine⟩ := hSame.mp ⟨_, _, _, hTaken⟩
      obtain ⟨rfl, -, rfl⟩ := hTaken.unique hLine
      exact hDiffers hLine.declared
  | too_long hLine hLong =>
      obtain ⟨H', C', L', hTaken⟩ := hSame.mpr ⟨_, _, _, hLine⟩
      obtain ⟨rfl, -, -⟩ := hTaken.unique hLine
      have hBound := (strtoull 10 L').toUInt32.toNat_lt
      have hDeclared := hTaken.declared
      omega

/-- A frame of the protocol that 32 bits can count is not misread. -/
theorem FrameLine.read {H C L : Bytes} (h : FrameLine arg H C L) (hShort : H.length / 2 < 2 ^ 32) :
    ¬ FrameMisread arg :=
  fun hMisread => hMisread.not_line ⟨fun _ => ⟨H, C, L, h⟩, fun _ => ⟨H, C, L, h.taken hShort⟩⟩

/-- On every argument that is not misread the handler keeps to the grammar, and on the
others it does not. -/
theorem frame_contract_iff {file : Nat} {path content : Bytes} (hActive : w.upload.active = true)
    (hFile : w.upload.file = some file) (hWriting : w.fs.Writing file path content)
    (hWrites : WritesInFull io arg w) :
    FrameContract io arg w file path content ↔ ¬ FrameMisread arg := by
  have hOk := handle_upload_frame_ok_iff ⟨hActive, by rw [hFile]; rfl⟩ hWrites
  constructor
  · intro hContract hMisread
    exact hMisread.not_line (hOk.symm.trans hContract.ok_iff)
  · intro hRead
    constructor
    case ok_iff =>
      rw [hOk]
      constructor
      · rintro ⟨H, C, L, hTaken⟩
        exact ⟨H, C, L, hTaken.line hRead⟩
      · rintro ⟨H, C, L, hLine⟩
        exact ⟨H, C, L, hLine.taken (not_le.mp fun hLong => hRead (.too_long hLine hLong))⟩
    case stored =>
      intro H C L hLine hAnswer
      have hTaken := hLine.taken (not_le.mp fun hLong => hRead (.too_long hLine hLong))
      rw [← decode_hex_xdigits hLine.hex]
      exact hTaken.stored hActive hFile hWriting hWrites

end Handler

/-- The announced file is open and empty. -/
theorem announced_host_writing :
    announced_host.upload.active = true ∧ ∃ file path, announced_host.upload.file = some file ∧
      announced_host.fs.Writing file path [] := by
  rcases handle_preupload_cases {} {} (announced "3") ⟨{}, Storage.FileSystem.empty⟩ with
    ⟨answer, hResult, hError⟩ | ⟨args, file, fs, -, -, hOpen, hResult⟩
  · have hReady : (handle_preupload {} {} (announced "3") ⟨{}, Storage.FileSystem.empty⟩).2 =
        str "OK READY" := by rfl
    rw [hResult] at hReady
    subst hReady
    cases hError
  · rw [announced_host, hResult]
    exact ⟨rfl, file, _, rfl, Storage.FileSystem.Writing.of_fopen hOpen⟩

/-- The frame of the byte zero is stored as it says. -/
theorem frame_contract_zero :
    ∃ file path, FrameContract {} (str "00,E1F0,1") announced_host file path [] := by
  obtain ⟨hActive, file, path, hFile, hWriting⟩ := announced_host_writing
  have hIff := frame_contract_iff hActive hFile hWriting announced_host_writes
  have hLine : FrameLine (str "00,E1F0,1") (str "00") (str "E1F0") (str "1") := by
    constructor <;> decide +kernel
  refine ⟨file, path, ?_⟩
  rw [hIff]
  exact hLine.read (by decide)

/-- `zz` is no byte, and is stored as a zero. -/
theorem not_hex_accepted :
    ∃ w file path, w.upload.active = true ∧ w.upload.file = some file ∧
      w.fs.Writing file path [] ∧ WritesInFull {} (str "zz,E1F0,1") w ∧
      ¬ FrameContract {} (str "zz,E1F0,1") w file path [] := by
  obtain ⟨hActive, file, path, hFile, hWriting⟩ := announced_host_writing
  refine ⟨announced_host, file, path, hActive, hFile, hWriting, ?_, ?_⟩
  · have hCheck : check_frame announced_host.upload (str "zz,E1F0,1") = .ok (0, [0]) := by
      rfl
    intro other data hOther
    rw [hCheck] at hOther
    cases hOther
    rfl
  · intro hContract
    obtain ⟨H, C, L, hLine⟩ := hContract.ok_iff.mp (by rfl)
    have hMem : (122 : UInt8) ∈ H ++ 44 :: (C ++ 44 :: L) := by
      rw [← hLine.split]
      decide
    have hDigit : isxdigit 122 = true := by
      simp only [List.mem_append, List.mem_cons] at hMem
      rcases hMem with hData | hComma | hCrc | hComma | hLength
      · exact hLine.hex 122 hData
      · cases hComma
      · exact hLine.crc_hex 122 hCrc
      · cases hComma
      · exact isxdigit_of_isdigit (hLine.digits 122 hLength)
    cases hDigit

end RkFlashd
