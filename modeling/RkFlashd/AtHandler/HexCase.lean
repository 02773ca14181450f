import RkFlashd.AtHandler.FrameGrammar
import RkFlashd.AtHandler.UploadIntegrity
import RkFlashd.Machine.Lockstep
import RkFlashd.Text.HexCase

/-! Two uploads that are spelled in different letter case, side by side. The data and the
CRC are read as numbers, but the digest is compared as a text, and in lower case. -/
namespace RkFlashd

open Text Checksum Transition

/-- The same announcement, up to the case of the hex digits of its last field. -/
inductive SamePreupload : Bytes → Bytes → Prop where
  | same (arg : Bytes) : SamePreupload arg arg
  | md5 {f n m m' : Bytes} (hFirst : (44 : UInt8) ∉ f) (hSecond : (44 : UInt8) ∉ n)
      (hDigest : SameHex m m') :
      SamePreupload (f ++ 44 :: (n ++ 44 :: m)) (f ++ 44 :: (n ++ 44 :: m'))

/-- The same command, up to the case of the hex digits of a digest, a CRC or data. -/
inductive SameCommand : UploadCommand → UploadCommand → Prop where
  | PREUPLOAD {arg arg' : Bytes} (h : SamePreupload arg arg') :
      SameCommand (.PREUPLOAD arg) (.PREUPLOAD arg')
  | UPLOAD {arg arg' : Bytes} (h : SameHex arg arg') : SameCommand (.UPLOAD arg) (.UPLOAD arg')
  | UPLOADDONE : SameCommand .UPLOADDONE .UPLOADDONE
  | UPLOADCANCEL : SameCommand .UPLOADCANCEL .UPLOADCANCEL

def SameRequest (r r' : Request) : Prop := SameCommand r.command r'.command ∧ r.io = r'.io

def Frame.upper (frame : Frame) : Frame := ⟨upper_hex frame.crc16_hex, frame.bin_data⟩

def PreuploadArgs.upper (args : PreuploadArgs) : PreuploadArgs :=
  { args with md5_hex := upper_hex args.md5_hex }

theorem decode_hex_upper_hex (s : Bytes) : decode_hex (upper_hex s) = decode_hex s := by
  simp only [decode_hex, length_upper_hex]
  apply List.map_congr_left
  intro i hi
  rw [decode_byte, decode_byte, drop_upper_hex, sscanf_2x_upper_hex]

/-- In upper case a frame is parsed to the same bytes, with its CRC in upper case. -/
theorem parse_frame_upper_hex (arg : Bytes) :
    parse_frame (upper_hex arg) = (parse_frame arg).map Frame.upper := by
  have hSubstr : ∀ pos n, substr (upper_hex arg) pos n = upper_hex (substr arg pos n) := by
    intro pos n
    rw [substr, substr, drop_upper_hex, take_upper_hex]
  have hRest : ∀ pos, substr_from (upper_hex arg) pos = upper_hex (substr_from arg pos) :=
    fun pos => drop_upper_hex pos arg
  have hComma : ∀ pos, rfind (upper_hex arg) 44 pos = rfind arg 44 pos :=
    rfind_upper_hex arg rfl
  simp only [parse_frame, hComma]
  cases rfind arg 44 npos with
  | none => rfl
  | some last_comma =>
      dsimp only
      cases rfind arg 44 (size_sub last_comma 1) with
      | none => rfl
      | some prev_comma =>
          simp only [hSubstr, hRest, length_upper_hex, all_isxdigit_upper_hex,
            all_isdigit_upper_hex, strtoull_upper_hex, decode_hex_upper_hex]
          split_ifs <;> rfl

/-- In upper case an announcement is taken for the same upload, with its digest in upper case. -/
theorem check_announcement_upper_hex (f n m : Bytes) :
    check_announcement f n (upper_hex m) = (check_announcement f n m).map PreuploadArgs.upper := by
  simp only [check_announcement, length_upper_hex, all_isxdigit_upper_hex]
  split_ifs <;> rfl

/-- Results that agree once written in upper case. -/
theorem except_map_eq {α : Type} {f : α → α} {x y : Except Bytes α} (h : x.map f = y.map f) :
    (∃ message, x = .error message ∧ y = .error message) ∨
      ∃ a b, x = .ok a ∧ y = .ok b ∧ f a = f b := by
  cases x <;> cases y <;> simp_all [Except.map]

/-- The announced digest spelled another way, and nothing else. -/
def Host.spell (w : Host) (md5 : Bytes) : Host :=
  ⟨{ w.upload with expected_md5 := md5 }, w.fs⟩

/-- Two hosts that differ at most in how the announced digest is spelled. -/
def Respelled (w w' : Host) : Prop :=
  ∃ md5, SameHex w.upload.expected_md5 md5 ∧ w' = w.spell md5

theorem Respelled.refl (w : Host) : Respelled w w := ⟨w.upload.expected_md5, rfl, rfl⟩

variable {cfg : Config} {io : Io} {w w' : Host} {arg arg' : Bytes}

theorem parse_preupload_same (h : SamePreupload arg arg') :
    (∃ message, parse_preupload arg = .error message ∧ parse_preupload arg' = .error message) ∨
      ∃ args args', parse_preupload arg = .ok args ∧ parse_preupload arg' = .ok args' ∧
        args.upper = args'.upper := by
  cases h with
  | same => 
      cases parse_preupload arg with
      | error message => exact Or.inl ⟨message, rfl, rfl⟩
      | ok args => exact Or.inr ⟨args, args, rfl, rfl, rfl⟩
  | @md5 f n m m' hFirst hSecond hDigest =>
      rw [parse_preupload_cut m hFirst hSecond, parse_preupload_cut m' hFirst hSecond]
      apply except_map_eq
      rw [← check_announcement_upper_hex, ← check_announcement_upper_hex, hDigest]

theorem SamePreupload.eq_nil_iff (h : SamePreupload arg arg') : arg = [] ↔ arg' = [] := by
  cases h with
  | same => rfl
  | md5 => simp

/-- Two announcements that differ in letter case only open the same upload. -/
theorem Respelled.preupload (h : Respelled w w') (hArg : SamePreupload arg arg') :
    Respelled (handle_preupload cfg io arg w).1 (handle_preupload cfg io arg' w').1 ∧
      SameHex (handle_preupload cfg io arg w).2 (handle_preupload cfg io arg' w').2 := by
  obtain ⟨md5, hMd5, rfl⟩ := h
  have hKept : Respelled w (w.spell md5) := ⟨md5, hMd5, rfl⟩
  have hActive : (w.spell md5).upload.active = w.upload.active := rfl
  unfold handle_preupload
  rw [hActive]
  by_cases hNil : arg = []
  · rw [if_pos hNil, if_pos (hArg.eq_nil_iff.mp hNil)]
    exact ⟨hKept, SameHex.refl _⟩
  · rw [if_neg hNil, if_neg (mt hArg.eq_nil_iff.mpr hNil)]
    by_cases hBusy : w.upload.active = true
    · rw [if_pos hBusy, if_pos hBusy]
      exact ⟨hKept, SameHex.refl _⟩
    · rw [if_neg hBusy, if_neg hBusy]
      rcases parse_preupload_same hArg with
        ⟨message, hParse, hParse'⟩ | ⟨⟨f, size, m⟩, ⟨f', size', m'⟩, hParse, hParse', hUpper⟩
      · rw [hParse, hParse']
        exact ⟨hKept, SameHex.refl _⟩
      · obtain ⟨rfl, rfl, hDigest⟩ : f = f' ∧ size = size' ∧ SameHex m m' := by
          simpa [PreuploadArgs.upper, SameHex] using hUpper
        rw [hParse, hParse']
        have hFs : (w.spell md5).fs = w.fs := rfl
        dsimp only
        rw [hFs]
        cases w.fs.fopen (c_str (cfg.in_upload_dir (tmp_name f))) io.fopen with
        | mk opened fs =>
            cases opened with
            | none => exact ⟨⟨md5, hMd5, rfl⟩, SameHex.refl _⟩
            | some file => exact ⟨⟨m', hDigest, rfl⟩, SameHex.refl _⟩

/-- Frames that differ in case are both turned down, or both written with the same bytes. -/
theorem check_frame_spell (u : UploadState) (md5 : Bytes) (hArg : SameHex arg arg') :
    (∃ count answer answer', check_frame u arg = .error ({ u with frame_count := count }, answer) ∧
      check_frame { u with expected_md5 := md5 } arg' =
        .error ({ u with frame_count := count, expected_md5 := md5 }, answer') ∧
      SameHex answer answer') ∨
    ∃ file data, check_frame u arg = .ok (file, data) ∧
      check_frame { u with expected_md5 := md5 } arg' = .ok (file, data) := by
  have hNil : arg = [] ↔ arg' = [] := by
    rw [← List.length_eq_zero_iff, ← List.length_eq_zero_iff, hArg.length_eq]
  have hParse : (parse_frame arg).map Frame.upper = (parse_frame arg').map Frame.upper := by
    rw [← parse_frame_upper_hex, ← parse_frame_upper_hex, hArg]
  unfold check_frame
  by_cases hSome : arg = []
  · rw [if_pos hSome, if_pos (hNil.mp hSome)]
    exact Or.inl ⟨u.frame_count, _, _, rfl, rfl, SameHex.refl _⟩
  · rw [if_neg hSome, if_neg (mt hNil.mpr hSome)]
    dsimp only
    split
    · rename_i file hActive hFile
      rcases except_map_eq hParse with
        ⟨message, hError, hError'⟩ | ⟨⟨crc, data⟩, ⟨crc', data'⟩, hOk, hOk', hUpper⟩
      · rw [hError, hError']
        exact Or.inl ⟨u.frame_count, _, _, rfl, rfl, SameHex.refl _⟩
      · obtain ⟨hCrc, rfl⟩ : SameHex crc crc' ∧ data = data' := by
          simpa [Frame.upper, SameHex] using hUpper
        have hExpected : Frame.expected_crc ⟨crc, data⟩ = Frame.expected_crc ⟨crc', data⟩ := by
          simp only [Frame.expected_crc]
          rw [← strtoull_upper_hex 16 crc, ← strtoull_upper_hex 16 crc', hCrc]
        rw [hOk, hOk']
        dsimp only
        rw [← hExpected]
        split_ifs
        · refine Or.inl ⟨_, _, _, rfl, rfl, ?_⟩
          exact SameHex.append (SameHex.append (SameHex.append (SameHex.refl _) hCrc)
            (SameHex.refl _)) (SameHex.refl _)
        · exact Or.inr ⟨file, data, rfl, rfl⟩
    · exact Or.inl ⟨u.frame_count, _, _, rfl, rfl, SameHex.refl _⟩

/-- Two frames that differ in letter case only do the same. -/
theorem Respelled.upload_frame (h : Respelled w w') (hArg : SameHex arg arg') :
    Respelled (handle_upload_frame io arg w).1 (handle_upload_frame io arg' w').1 ∧
      SameHex (handle_upload_frame io arg w).2 (handle_upload_frame io arg' w').2 := by
  obtain ⟨md5, hMd5, rfl⟩ := h
  have hFs : (w.spell md5).fs = w.fs := rfl
  rcases check_frame_spell w.upload md5 hArg with
    ⟨count, answer, answer', hCheck, hCheck', hAnswer⟩ | ⟨file, data, hCheck, hCheck'⟩
  · rw [handle_upload_frame_early hCheck, handle_upload_frame_early hCheck']
    exact ⟨⟨md5, hMd5, rfl⟩, hAnswer⟩
  · have hCheck' : check_frame (w.spell md5).upload arg' = .ok (file, data) := hCheck'
    unfold handle_upload_frame
    rw [hCheck, hCheck', hFs]
    dsimp only
    cases w.fs.fwrite file data io.fwrite with
    | mk written fs =>
        dsimp only
        split_ifs
        · exact ⟨⟨md5, hMd5, rfl⟩, SameHex.refl _⟩
        · exact ⟨⟨md5, hMd5, rfl⟩, SameHex.refl _⟩

theorem Respelled.close (h : Respelled w w') : Respelled (close_file io w) (close_file io w') := by
  obtain ⟨md5, hMd5, rfl⟩ := h
  have hFile : (w.spell md5).upload.file = w.upload.file := rfl
  unfold close_file
  rw [hFile]
  split
  · exact ⟨md5, hMd5, rfl⟩
  · exact ⟨md5, hMd5, rfl⟩

theorem discard_spell (io : Io) (w : Host) (md5 : Bytes) :
    discard io (w.spell md5) = discard io w := by
  simp [discard, Host.spell, UploadState.reset]

/-- A cancelled upload leaves nothing of its spelling. -/
theorem Respelled.uploadcancel (h : Respelled w w') :
    Respelled (handle_uploadcancel io w).1 (handle_uploadcancel io w').1 ∧
      SameHex (handle_uploadcancel io w).2 (handle_uploadcancel io w').2 := by
  obtain ⟨md5, hClosedMd5, hClosed⟩ := @Respelled.close io w w' h
  obtain ⟨other, hMd5, rfl⟩ := h
  have hActive : (w.spell other).upload.active = w.upload.active := rfl
  unfold handle_uploadcancel
  rw [hActive, hClosed, discard_spell]
  split_ifs
  · exact ⟨Respelled.refl _, SameHex.refl _⟩
  · exact ⟨⟨other, hMd5, rfl⟩, SameHex.refl _⟩

theorem print_hex_lower (width n : Nat) : LowerHex (print_hex false width n) := by
  induction width with
  | zero => simp [print_hex, LowerHex]
  | succ width ih =>
      have hDigit : ∀ d < 16, ¬ (65 ≤ hex_digit false d ∧ hex_digit false d ≤ 70) := by decide
      intro c hc
      rcases List.mem_cons.mp hc with rfl | hc
      · exact hDigit _ (Nat.mod_lt _ (by omega))
      · exact ih c hc

theorem md5_hex_lower (m : MD5) : LowerHex m.hex.2 := by
  intro c hc
  obtain ⟨byte, -, hc⟩ := List.mem_flatMap.mp hc
  exact print_hex_lower 2 byte.toNat c hc

/-- All announced bytes are there, and their digest is the announced one in some spelling. -/
structure Announced (w : Host) : Prop where
  opened : w.upload.Open
  size : w.upload.received = w.upload.expected_size
  digest : SameHex w.upload.md5_ctx.hex.2 w.upload.expected_md5

/-- The upload is saved, or it was the renaming that failed. -/
def DigestAccepted (answer : Bytes) : Prop :=
  starts_with answer (str "OK ") = true ∨ answer = str "ERROR: failed to save firmware file"

instance (w : Host) : Decidable (Announced w) :=
  decidable_of_iff (w.upload.Open ∧ w.upload.received = w.upload.expected_size ∧
      SameHex w.upload.md5_ctx.hex.2 w.upload.expected_md5)
    ⟨fun h => ⟨h.1, h.2.1, h.2.2⟩, fun h => ⟨h.opened, h.size, h.digest⟩⟩

/-- The announced digest matches, but some of its letters are in upper case. -/
def UpperSpelled (w : Host) : Prop := Announced w ∧ ¬ LowerHex w.upload.expected_md5

instance (w : Host) : Decidable (UpperSpelled w) := inferInstanceAs (Decidable (_ ∧ _))

/-- The digest of an upload is that announced for it only if the latter is in lower case. -/
theorem Announced.digest_iff (h : Announced w) :
    w.upload.md5_ctx.hex.2 = w.upload.expected_md5 ↔ LowerHex w.upload.expected_md5 := by
  constructor
  · intro hEq
    rw [← hEq]
    exact md5_hex_lower _
  · exact h.digest.eq_of_lower (md5_hex_lower _)

theorem uploaddone_open (cfg : Config) (io : Io) (h : w.upload.Open) :
    ∃ fs, handle_uploaddone cfg io w =
      finish_upload cfg io ⟨{ w.upload with file := none }, fs⟩ := by
  obtain ⟨file, hFile⟩ := Option.isSome_iff_exists.mp h.2
  refine ⟨(w.fs.fclose file io.fclose).2, ?_⟩
  rw [uploaddone_halves cfg io h.1 h.2, close_file, hFile]

/-- The digest check passes for the one spelling that `MD5::hex` has. -/
theorem Announced.accepted_iff (h : Announced w) (cfg : Config) (io : Io) :
    DigestAccepted (handle_uploaddone cfg io w).2 ↔ LowerHex w.upload.expected_md5 := by
  obtain ⟨fs, hDone⟩ := uploaddone_open cfg io h.opened
  have hSize : ¬ w.upload.received ≠ w.upload.expected_size := not_not.mpr h.size
  rw [hDone, ← h.digest_iff]
  unfold finish_upload
  dsimp only
  rw [if_neg hSize]
  by_cases hDigest : w.upload.md5_ctx.hex.2 = w.upload.expected_md5
  · rw [if_neg (not_not.mpr hDigest)]
    refine ⟨fun _ => hDigest, fun _ => ?_⟩
    split
    · exact Or.inr rfl
    · exact Or.inl rfl
  · rw [if_pos hDigest]
    refine ⟨?_, fun hEq => absurd hEq hDigest⟩
    rintro (hStarts | hEq)
    · cases hStarts
    · have hMismatch : starts_with (str "ERROR: failed to save firmware file") (str "ERROR M") =
          true := by
        rw [← hEq]
        rfl
      cases hMismatch

/-- The verdict is the same when either spelling is the one compared with, or neither. -/
theorem finish_upload_spell (cfg : Config) (io : Io) (w : Host) {md5 : Bytes}
    (hMd5 : SameHex w.upload.expected_md5 md5)
    (hEqual : w.upload.received = w.upload.expected_size →
      (w.upload.md5_ctx.hex.2 = w.upload.expected_md5 ↔ w.upload.md5_ctx.hex.2 = md5)) :
    (finish_upload cfg io w).1 = (finish_upload cfg io (w.spell md5)).1 ∧
      SameHex (finish_upload cfg io w).2 (finish_upload cfg io (w.spell md5)).2 := by
  obtain ⟨u, fs⟩ := w
  unfold finish_upload
  dsimp only [Host.spell] at hMd5 hEqual ⊢
  by_cases hSize : u.received = u.expected_size
  · have hSame := hEqual hSize
    rw [if_neg (not_not.mpr hSize), if_neg (not_not.mpr hSize)]
    by_cases hDigest : u.md5_ctx.hex.2 = u.expected_md5
    · rw [if_neg (not_not.mpr hDigest), if_neg (not_not.mpr (hSame.mp hDigest))]
      split <;> exact ⟨rfl, SameHex.refl _⟩
    · rw [if_pos hDigest, if_pos (mt hSame.mpr hDigest)]
      refine ⟨rfl, ?_⟩
      exact ((((SameHex.refl _).append hMd5).append (SameHex.refl _)).append (SameHex.refl _))
  · rw [if_pos hSize, if_pos hSize]
    exact ⟨rfl, SameHex.refl _⟩

/-- Unless an announced digest is in upper case, the two uploads end alike. -/
theorem Respelled.uploaddone (cfg : Config) (io : Io) (h : Respelled w w')
    (hLower : ¬ UpperSpelled w) (hLower' : ¬ UpperSpelled w') :
    Respelled (handle_uploaddone cfg io w).1 (handle_uploaddone cfg io w').1 ∧
      SameHex (handle_uploaddone cfg io w).2 (handle_uploaddone cfg io w').2 := by
  obtain ⟨md5, hMd5, rfl⟩ := h
  by_cases hOpen : w.upload.Open
  · obtain ⟨file, hFile⟩ := Option.isSome_iff_exists.mp hOpen.2
    have hFile' : (w.spell md5).upload.file = some file := hFile
    have hClosed : close_file io (w.spell md5) = (close_file io w).spell md5 := by
      rw [close_file, close_file, hFile, hFile']
      rfl
    have hDigest : (close_file io w).upload.md5_ctx = w.upload.md5_ctx ∧
        (close_file io w).upload.expected_md5 = w.upload.expected_md5 ∧
        (close_file io w).upload.received = w.upload.received ∧
        (close_file io w).upload.expected_size = w.upload.expected_size := by
      rw [close_file, hFile]
      exact ⟨rfl, rfl, rfl, rfl⟩
    obtain ⟨hCtx, hExpected, hReceived, hSize⟩ := hDigest
    rw [uploaddone_halves cfg io hOpen.1 hOpen.2,
      @uploaddone_halves cfg io (w.spell md5) hOpen.1 hOpen.2, hClosed]
    have hSame := @finish_upload_spell cfg io (close_file io w) md5 (by rwa [hExpected]) ?_
    · rw [← hSame.1]
      exact ⟨Respelled.refl _, hSame.2⟩
    · rw [hCtx, hExpected, hReceived, hSize]
      intro hComplete
      constructor
      · intro hEq
        have hDigest : SameHex w.upload.md5_ctx.hex.2 md5 := by rwa [hEq]
        have hSpelled : Announced (w.spell md5) := ⟨hOpen, hComplete, hDigest⟩
        exact hSpelled.digest_iff.mpr (not_not.mp fun hUpper => hLower' ⟨hSpelled, hUpper⟩)
      · intro hEq
        have hDigest : SameHex w.upload.md5_ctx.hex.2 w.upload.expected_md5 := by
          rw [hEq]
          exact hMd5.symm
        have hSpelled : Announced w := ⟨hOpen, hComplete, hDigest⟩
        exact hSpelled.digest_iff.mpr (not_not.mp fun hUpper => hLower ⟨hSpelled, hUpper⟩)
  · have hIdle : ∀ v : Host, ¬ v.upload.Open →
        handle_uploaddone cfg io v = (v, str "ERROR: no active upload") := by
      intro v hv
      unfold handle_uploaddone
      split
      · rename_i file hActive hFile
        exact absurd ⟨hActive, by rw [hFile]; rfl⟩ hv
      · rfl
    rw [hIdle w hOpen, hIdle (w.spell md5) hOpen]
    exact ⟨⟨md5, hMd5, rfl⟩, SameHex.refl _⟩

/-- One command on either side. -/
theorem Respelled.step {r r' : Request} (h : Respelled w w') (hSame : SameRequest r r')
    (hLower : r.command = .UPLOADDONE → ¬ UpperSpelled w ∧ ¬ UpperSpelled w') :
    Respelled (perform cfg w r).1 (perform cfg w' r').1 ∧
      SameHex (perform cfg w r).2 (perform cfg w' r').2 := by
  obtain ⟨caller, command, io⟩ := r
  obtain ⟨caller', command', io'⟩ := r'
  obtain ⟨hCommand, rfl⟩ := hSame
  cases hCommand with
  | PREUPLOAD hArg => exact h.preupload hArg
  | UPLOAD hArg => exact h.upload_frame hArg
  | UPLOADDONE => exact h.uploaddone cfg io (hLower rfl).1 (hLower rfl).2
  | UPLOADCANCEL => exact h.uploadcancel

/-- The two answers say the same, and neither faults a digest for its spelling. -/
structure SameOutcome (s : Host × Host) (label : (Request × Request) × (Bytes × Bytes)) : Prop where
  answers : SameHex label.2.1 label.2.2
  first : label.1.1.command = .UPLOADDONE → Announced s.1 → DigestAccepted label.2.1
  second : label.1.2.command = .UPLOADDONE → Announced s.2 → DigestAccepted label.2.2

/-- No upload is finished whose digest was announced with letters in upper case. -/
def LowerSpelled (s : Host × Host) (label : (Request × Request) × (Bytes × Bytes)) : Prop :=
  label.1.1.command = .UPLOADDONE → ¬ UpperSpelled s.1 ∧ ¬ UpperSpelled s.2

instance (s : Host × Host) (label : (Request × Request) × (Bytes × Bytes)) :
    Decidable (LowerSpelled s label) :=
  inferInstanceAs (Decidable (_ → _))

theorem twin_step_eq {s t : Host × Host} {label : (Request × Request) × (Bytes × Bytes)}
    (h : (upload_machine cfg).twin.Step s label t) :
    perform cfg s.1 label.1.1 = (t.1, label.2.1) ∧
      perform cfg s.2 label.1.2 = (t.2, label.2.2) := by
  obtain ⟨hFirst, hSecond⟩ := Machine.twin_step.mp h
  exact ⟨Option.some.inj hFirst, Option.some.inj hSecond⟩

/-- A verdict that does not fault the spelling was given on a spelling in lower case. -/
theorem SameOutcome.lower {s t : Host × Host} {label : (Request × Request) × (Bytes × Bytes)}
    (h : SameOutcome s label) (hStep : (upload_machine cfg).twin.Step s label t)
    (hSame : SameRequest label.1.1 label.1.2) : LowerSpelled s label := by
  obtain ⟨⟨⟨caller, command, io⟩, ⟨caller', command', io'⟩⟩, answer, answer'⟩ := label
  obtain ⟨hFirst, hSecond⟩ := twin_step_eq hStep
  rintro (rfl : command = _)
  obtain rfl : command' = .UPLOADDONE := by cases hSame.1; rfl
  have hAnswer : (handle_uploaddone cfg io s.1).2 = answer := congrArg Prod.snd hFirst
  have hAnswer' : (handle_uploaddone cfg io' s.2).2 = answer' := congrArg Prod.snd hSecond
  constructor
  · rintro ⟨hAnnounced, hUpper⟩
    have hAccepted := h.first rfl hAnnounced
    rw [← hAnswer] at hAccepted
    exact hUpper ((hAnnounced.accepted_iff cfg io).mp hAccepted)
  · rintro ⟨hAnnounced, hUpper⟩
    have hAccepted := h.second rfl hAnnounced
    rw [← hAnswer'] at hAccepted
    exact hUpper ((hAnnounced.accepted_iff cfg io').mp hAccepted)

/-- On spellings in lower case both commands fare alike. -/
theorem LowerSpelled.outcome {s t : Host × Host} {label : (Request × Request) × (Bytes × Bytes)}
    (h : LowerSpelled s label) (hRelated : Respelled s.1 s.2)
    (hStep : (upload_machine cfg).twin.Step s label t)
    (hSame : SameRequest label.1.1 label.1.2) : Respelled t.1 t.2 ∧ SameOutcome s label := by
  obtain ⟨⟨⟨caller, command, io⟩, ⟨caller', command', io'⟩⟩, answer, answer'⟩ := label
  obtain ⟨hFirst, hSecond⟩ := twin_step_eq hStep
  have hBoth := @Respelled.step cfg _ _ _ _ hRelated hSame h
  dsimp only at hFirst hSecond hBoth
  rw [hFirst, hSecond] at hBoth
  refine ⟨hBoth.1, hBoth.2, ?_, ?_⟩
  · rintro (rfl : command = _) hAnnounced
    have hAnswer : (handle_uploaddone cfg io s.1).2 = answer := congrArg Prod.snd hFirst
    rw [← hAnswer, hAnnounced.accepted_iff cfg io]
    exact not_not.mp fun hUpper => (h rfl).1 ⟨hAnnounced, hUpper⟩
  · rintro (rfl : command' = _) hAnnounced
    obtain rfl : command = .UPLOADDONE := by cases hSame.1; rfl
    have hAnswer : (handle_uploaddone cfg io' s.2).2 = answer' := congrArg Prod.snd hSecond
    rw [← hAnswer, hAnnounced.accepted_iff cfg io']
    exact not_not.mp fun hUpper => (h rfl).2 ⟨hAnnounced, hUpper⟩

/-- Two runs that differ only in the case of hex digits are answered alike and leave the
same files if and only if no upload with the right digest is finished under a spelling
that has upper-case letters. -/
theorem hex_case_iff {w₀ w w' : Host} {trace : List ((Request × Request) × (Bytes × Bytes))}
    (run : Runs (upload_machine cfg).Step w₀ (trace.map first_label) w)
    (run' : Runs (upload_machine cfg).Step w₀ (trace.map second_label) w')
    (hSame : ∀ label ∈ trace, SameRequest label.1.1 label.1.2) :
    ((upload_machine cfg).twin.Along SameOutcome (w₀, w₀) trace ∧ w.fs = w'.fs) ↔
      (upload_machine cfg).twin.Along LowerSpelled (w₀, w₀) trace := by
  have hTwin : Runs (upload_machine cfg).twin.Step (w₀, w₀) trace (w, w') :=
    Machine.runs_twin_iff.mpr ⟨run, run'⟩
  rw [Machine.along_iff hTwin, Machine.along_iff hTwin]
  constructor
  · rintro ⟨hOutcome, -⟩
    exact (hOutcome.guard_labels hSame).mono fun s label t h =>
      ⟨h.1.1, h.1.2.lower h.1.1 h.2⟩
  · intro hLower
    have hStep : ∀ s label t, Respelled s.1 s.2 →
        Guarded (upload_machine cfg).twin.Step LowerSpelled s label t →
        SameRequest label.1.1 label.1.2 → Respelled t.1 t.2 ∧ SameOutcome s label :=
      fun s label t hRelated hStep hSame => hStep.2.outcome hRelated hStep.1 hSame
    obtain ⟨hOutcome, hRelated⟩ :=
      (hLower.guard_labels hSame).guard_of_invariant hStep (Respelled.refl w₀)
    obtain ⟨md5, -, hEq⟩ : Respelled w w' := hRelated
    refine ⟨hOutcome.mono fun s label t h => ⟨h.1.1, h.2⟩, ?_⟩
    rw [hEq]
    rfl

/-- `jkl` is announced, sent in one frame and finished. -/
def upload_jkl (md5 data crc : String) : List Request :=
  [⟨.HTTP, .PREUPLOAD (str "f,3," ++ str md5), {}⟩,
    ⟨.HTTP, .UPLOAD (str data ++ str "," ++ str crc ++ str ",3"), {}⟩,
    ⟨.HTTP, .UPLOADDONE, {}⟩]

/-- Two such uploads, the second spelled another way. -/
def upload_twice (md5 md5' data data' crc crc' : String) : List (Request × Request) :=
  (upload_jkl md5 data crc).zip (upload_jkl md5' data' crc')

theorem upload_twice_same {md5 md5' data data' crc crc' : String}
    (hMd5 : SameHex (str md5) (str md5')) (hData : SameHex (str data) (str data'))
    (hCrc : SameHex (str crc) (str crc')) :
    ∀ pair ∈ upload_twice md5 md5' data data' crc crc', SameRequest pair.1 pair.2 := by
  intro pair hPair
  simp only [upload_twice, upload_jkl, List.zip_cons_cons, List.zip_nil_right, List.mem_cons,
    List.not_mem_nil, or_false] at hPair
  rcases hPair with rfl | rfl | rfl
  · have hSplit : ∀ m, str "f,3," ++ m = str "f" ++ 44 :: (str "3" ++ 44 :: m) := fun _ => rfl
    rw [hSplit, hSplit]
    exact ⟨.PREUPLOAD (.md5 (by decide) (by decide) hMd5), rfl⟩
  · exact ⟨.UPLOAD (((hData.append (SameHex.refl _)).append hCrc).append (SameHex.refl _)), rfl⟩
  · exact ⟨.UPLOADDONE, rfl⟩

theorem same_of_actions {pairs : List (Request × Request)}
    {trace : List ((Request × Request) × (Bytes × Bytes))} (hActions : trace.map Prod.fst = pairs)
    (h : ∀ pair ∈ pairs, SameRequest pair.1 pair.2) :
    ∀ label ∈ trace, SameRequest label.1.1 label.1.2 := by
  intro label hMem
  apply h
  rw [← hActions]
  exact List.mem_map_of_mem hMem

/-- The second time the data and their CRC are in upper case, but not the digest. -/
theorem hex_case_jkl : ∃ trace w w',
    ((upload_machine {}).twin.guard LowerSpelled).exec (fresh_host, fresh_host)
      (upload_twice "699a474e923b8da5d7aefbfc54a8a2bd" "699a474e923b8da5d7aefbfc54a8a2bd"
        "6a6b6c" "6A6B6C" "eacc" "EACC") = some ((w, w'), trace) ∧
    (upload_machine {}).twin.Along SameOutcome (fresh_host, fresh_host) trace ∧ w.fs = w'.fs := by
  obtain ⟨⟨⟨w, w'⟩, trace⟩, hExec⟩ := Option.isSome_iff_exists.mp
    (by decide +kernel : (((upload_machine {}).twin.guard LowerSpelled).exec
      (fresh_host, fresh_host)
      (upload_twice "699a474e923b8da5d7aefbfc54a8a2bd" "699a474e923b8da5d7aefbfc54a8a2bd"
        "6a6b6c" "6A6B6C" "eacc" "EACC")).isSome = true)
  have hGuarded := Machine.runs_of_guard_exec hExec
  obtain ⟨run, run'⟩ := Machine.runs_twin_iff.mp hGuarded.unguard
  have hSame := same_of_actions (Machine.exec_actions hExec)
    (upload_twice_same (by decide) (by decide) (by decide))
  have hIff := hex_case_iff run run' hSame
  exact ⟨trace, w, w', hExec, hIff.mpr ((Machine.along_iff hGuarded.unguard).mpr hGuarded)⟩

/-- The digest of `jkl`, announced in upper case, is not taken for the digest of `jkl`. -/
theorem upper_case_md5_rejected : ∃ trace w w',
    (upload_machine {}).twin.exec (fresh_host, fresh_host)
      (upload_twice "699a474e923b8da5d7aefbfc54a8a2bd" "699A474E923B8DA5D7AEFBFC54A8A2BD"
        "6a6b6c" "6a6b6c" "eacc" "eacc") = some ((w, w'), trace) ∧
    (∀ label ∈ trace, SameRequest label.1.1 label.1.2) ∧
    ¬ ((upload_machine {}).twin.Along SameOutcome (fresh_host, fresh_host) trace ∧
      w.fs = w'.fs) := by
  obtain ⟨⟨⟨w, w'⟩, trace⟩, hExec, hFiles⟩ := Option.map_eq_some_iff.mp
    (by decide +kernel : ((upload_machine {}).twin.exec (fresh_host, fresh_host)
      (upload_twice "699a474e923b8da5d7aefbfc54a8a2bd" "699A474E923B8DA5D7AEFBFC54A8A2BD"
        "6a6b6c" "6a6b6c" "eacc" "eacc")).map (fun result =>
          (result.1.1.fs.read (c_str (Config.in_upload_dir {} (str "f"))),
            result.1.2.fs.read (c_str (Config.in_upload_dir {} (str "f"))))) =
      some (some (str "jkl"), none))
  have hSame := same_of_actions (Machine.exec_actions hExec)
    (upload_twice_same (by decide +kernel) (by decide) (by decide))
  refine ⟨trace, w, w', hExec, hSame, ?_⟩
  rintro ⟨-, hFs⟩
  rw [Prod.mk.injEq] at hFiles
  rw [hFs, hFiles.2] at hFiles
  cases hFiles.1

end RkFlashd
