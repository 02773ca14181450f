import RkFlashd.AtHandler.Upload
import RkFlashd.Text.Fields

/-! The arguments that `AT+PREUPLOAD` takes. `strtoull` saturates and nobody looks at
`errno`, so a size that no 64-bit number holds is taken for the largest one. -/
namespace RkFlashd

open Text

/-- `arg` is `f,n,m`, split at its first two commas, and each field has its form. No bound
is put on the size here. -/
structure PreuploadForm (arg f n m : Bytes) : Prop where
  split : arg = f ++ 44 :: (n ++ 44 :: m)
  first_comma : (44 : UInt8) ∉ f
  filename_size : 0 < f.length ∧ f.length ≤ 255
  no_slash : (47 : UInt8) ∉ f
  no_dots : ¬ str ".." <:+: f
  digits : ∀ c ∈ n, isdigit c = true
  positive : 0 < numeral 10 n
  md5_size : m.length = 32
  md5_hex : ∀ c ∈ m, isxdigit c = true

theorem comma_not_mem_digits {n : Bytes} (h : ∀ c ∈ n, isdigit c = true) : (44 : UInt8) ∉ n :=
  fun hMem => absurd (h 44 hMem) (by decide)

/-- The form determines the fields. -/
theorem PreuploadForm.unique {arg f n m f' n' m' : Bytes} (h : PreuploadForm arg f n m)
    (h' : PreuploadForm arg f' n' m') : f = f' ∧ n = n' ∧ m = m' := by
  obtain ⟨hName, hRest⟩ := cut_unique (h.split.symm.trans h'.split) h.first_comma h'.first_comma
  obtain ⟨hSize, hDigest⟩ := cut_unique hRest (comma_not_mem_digits h.digits)
    (comma_not_mem_digits h'.digits)
  exact ⟨hName, hSize, hDigest⟩

/-- Digits that denote more than zero are read as more than zero, saturated or not. -/
theorem strtoull_digits_eq_zero_iff {n : Bytes} (h : ∀ c ∈ n, isdigit c = true) :
    strtoull 10 n = 0 ↔ numeral 10 n = 0 := by
  rw [strtoull_digits h, ← UInt64.toNat_inj, UInt64.toNat_ofNat', Nat.mod_eq_of_lt (by omega)]
  simp

theorem strtoull_digits_toNat {n : Bytes} (h : ∀ c ∈ n, isdigit c = true) :
    (strtoull 10 n).toNat = min (numeral 10 n) (2 ^ 64 - 1) := by
  rw [strtoull_digits h, UInt64.toNat_ofNat', Nat.mod_eq_of_lt (by omega)]

/-- The checks on the three fields, once they are cut out. -/
def check_announcement (filename size_str md5_hex : Bytes) : Except Bytes PreuploadArgs :=
  let total_size := strtoull 10 size_str
  if ¬ size_str.all isdigit then .error (str "ERROR: invalid size")
  else if total_size = 0 then .error (str "ERROR: size must be > 0")
  else if md5_hex.length ≠ 32 then .error (str "ERROR: md5 must be 32 hex chars")
  else if ¬ md5_hex.all isxdigit then .error (str "ERROR: invalid md5 hex")
  else if filename = [] ∨ 255 < filename.length then .error (str "ERROR: invalid filename")
  else if (find filename 47 0).isSome then .error (str "ERROR: filename contains /")
  else if (find_str filename (str "..")).isSome then .error (str "ERROR: invalid filename")
  else .ok ⟨filename, total_size, md5_hex⟩

/-- The first two commas cut the argument. -/
theorem parse_preupload_cut {f n : Bytes} (m : Bytes) (hFirst : (44 : UInt8) ∉ f)
    (hSecond : (44 : UInt8) ∉ n) :
    parse_preupload (f ++ 44 :: (n ++ 44 :: m)) = check_announcement f n m := by
  have hComma1 : find (f ++ 44 :: (n ++ 44 :: m)) 44 0 = some f.length :=
    find_eq_some_iff.mpr ⟨f, _, rfl, rfl, hFirst⟩
  have hComma2 : find (f ++ 44 :: (n ++ 44 :: m)) 44 (f.length + 1) =
      some (n.length + (f.length + 1)) := by
    rw [find_behind, find_eq_some_iff.mpr ⟨n, m, rfl, rfl, hSecond⟩, Option.map_some]
  have hFilename : substr (f ++ 44 :: (n ++ 44 :: m)) 0 f.length = f :=
    @substr_field [] f _ 0 _ rfl rfl
  have hSize : substr (f ++ 44 :: (n ++ 44 :: m)) (f.length + 1)
      (n.length + (f.length + 1) - f.length - 1) = n := by
    have h := @substr_field (f ++ [44]) n (44 :: m) (f.length + 1)
      (n.length + (f.length + 1) - f.length - 1) (by simp) (by omega)
    simpa using h
  have hMd5 : substr_from (f ++ 44 :: (n ++ 44 :: m)) (n.length + (f.length + 1) + 1) = m := by
    have h := @substr_from_field (f ++ 44 :: (n ++ [44])) m (n.length + (f.length + 1) + 1)
      (by simp; omega)
    simpa using h
  simp only [parse_preupload, hComma1, hComma2, hFilename, hSize, hMd5]
  rfl

/-- The fields of an argument of the form pass the checks, and no others do. -/
theorem check_announcement_ok_iff {f n m : Bytes} (hFirst : (44 : UInt8) ∉ f)
    {args : PreuploadArgs} :
    check_announcement f n m = .ok args ↔
      PreuploadForm (f ++ 44 :: (n ++ 44 :: m)) f n m ∧ args = ⟨f, strtoull 10 n, m⟩ := by
  simp only [check_announcement, List.all_eq_true]
  constructor
  · intro h
    split_ifs at h with hDigits hZero hLength hHex hName hSlash hDots
    cases h
    exact ⟨{
      split := rfl
      first_comma := hFirst
      filename_size := ⟨List.length_pos_of_ne_nil fun he => hName (Or.inl he),
        not_lt.mp fun hLong => hName (Or.inr hLong)⟩
      no_slash := find_eq_none_iff.mp (Option.not_isSome_iff_eq_none.mp hSlash)
      no_dots := find_str_eq_none_iff.mp (Option.not_isSome_iff_eq_none.mp hDots)
      digits := hDigits
      positive := Nat.pos_of_ne_zero (mt (strtoull_digits_eq_zero_iff hDigits).mpr hZero)
      md5_size := not_not.mp hLength
      md5_hex := hHex }, rfl⟩
  · rintro ⟨hForm, rfl⟩
    have hZero : strtoull 10 n ≠ 0 := by
      have hPositive := hForm.positive
      rw [Ne, strtoull_digits_eq_zero_iff hForm.digits]
      omega
    have hName : ¬ (f = [] ∨ 255 < f.length) := by
      have hSize := hForm.filename_size
      rintro (rfl | hLong)
      · simp at hSize
      · omega
    have hSlash : find f 47 0 = none := find_none hForm.no_slash
    have hDots : find_str f (str "..") = none := find_str_eq_none_iff.mpr hForm.no_dots
    rw [if_neg (not_not.mpr hForm.digits), if_neg hZero, if_neg (not_not.mpr hForm.md5_size),
      if_neg (not_not.mpr hForm.md5_hex), if_neg hName, hSlash, hDots]
    simp

/-- What is accepted has the form, and what has the form is accepted. -/
theorem parse_preupload_ok_iff {arg : Bytes} {args : PreuploadArgs} :
    parse_preupload arg = .ok args ↔
      ∃ f n m, PreuploadForm arg f n m ∧ args = ⟨f, strtoull 10 n, m⟩ := by
  constructor
  · intro h
    cases hComma1 : find arg 44 0 with
    | none =>
        rw [parse_preupload, hComma1] at h
        cases h
    | some comma1 =>
        obtain ⟨f, rest, rfl, rfl, hFirst⟩ := find_eq_some_iff.mp hComma1
        cases hComma2 : find rest 44 0 with
        | none =>
            simp only [parse_preupload, hComma1, find_behind, hComma2, Option.map_none] at h
            cases h
        | some comma2 =>
            obtain ⟨n, m, rfl, rfl, hSecond⟩ := find_eq_some_iff.mp hComma2
            rw [parse_preupload_cut m hFirst hSecond] at h
            obtain ⟨hForm, hArgs⟩ := (check_announcement_ok_iff hFirst).mp h
            exact ⟨f, n, m, hForm, hArgs⟩
  · rintro ⟨f, n, m, hForm, rfl⟩
    have hSecond := comma_not_mem_digits hForm.digits
    obtain rfl := hForm.split
    rw [parse_preupload_cut m hForm.first_comma hSecond]
    exact (check_announcement_ok_iff hForm.first_comma).mpr ⟨hForm, rfl⟩

variable {cfg : Config} {io : Io} {arg : Bytes} {w : Host}

/-- An argument of the form starts an upload when none is active and the file opens. -/
theorem handle_preupload_accepts (cfg : Config) (hOpens : io.fopen = true)
    (hIdle : w.upload.active = false) {f n m : Bytes} (hForm : PreuploadForm arg f n m) :
    (handle_preupload cfg io arg w).2 = str "OK READY" ∧
      (handle_preupload cfg io arg w).1.upload.expected_size = strtoull 10 n := by
  have hParse := parse_preupload_ok_iff.mpr ⟨f, n, m, hForm, rfl⟩
  have hSome : arg ≠ [] := by
    rw [hForm.split]
    simp
  obtain ⟨file, fs, hOpen⟩ := w.fs.fopen_succeeds (c_str (cfg.in_upload_dir (tmp_name f)))
  have hResult : handle_preupload cfg io arg w =
      (⟨{ active := true, filename := f, tmp_path := cfg.in_upload_dir (tmp_name f),
          expected_size := strtoull 10 n, received := 0, frame_count := 0,
          file := some file, expected_md5 := m, md5_ctx := Checksum.MD5.reset }, fs⟩,
        str "OK READY") := by
    simp only [handle_preupload, if_neg hSome, hIdle, Bool.false_eq_true, if_false, hParse, hOpens,
      hOpen]
  rw [hResult]
  exact ⟨rfl, rfl⟩

/-- Whatever is not answered `OK READY` changes nothing, and only the form is. -/
theorem handle_preupload_refuses (cfg : Config) (io : Io) (arg : Bytes) (w : Host) :
    (handle_preupload cfg io arg w).2 ≠ str "OK READY" ∧ (handle_preupload cfg io arg w).1 = w ∨
      (handle_preupload cfg io arg w).2 = str "OK READY" ∧ w.upload.active = false ∧
        ∃ f n m, PreuploadForm arg f n m := by
  rcases handle_preupload_cases cfg io arg w with
    ⟨answer, hResult, hError⟩ | ⟨args, file, fs, hIdle, hParse, -, hResult⟩
  · rw [hResult]
    refine Or.inl ⟨?_, rfl⟩
    rintro rfl
    cases hError
  · rw [hResult]
    obtain ⟨f, n, m, hForm, -⟩ := parse_preupload_ok_iff.mp hParse
    exact Or.inr ⟨rfl, hIdle, f, n, m, hForm⟩

/-- What `AT+PREUPLOAD` promises: it takes the sizes that a 64-bit number holds. -/
structure PreuploadContract (cfg : Config) (io : Io) (arg : Bytes) (w : Host) : Prop where
  ready : (handle_preupload cfg io arg w).2 = str "OK READY" ↔
    w.upload.active = false ∧ ∃ f n m, PreuploadForm arg f n m ∧ numeral 10 n < 2 ^ 64
  size : ∀ f n m, (handle_preupload cfg io arg w).2 = str "OK READY" →
    PreuploadForm arg f n m →
    (handle_preupload cfg io arg w).1.upload.expected_size.toNat = numeral 10 n
  unchanged : (handle_preupload cfg io arg w).2 ≠ str "OK READY" →
    (handle_preupload cfg io arg w).1 = w

/-- With a temporary file that opens, the promise is kept except for the sizes from `2^64`
on, which an idle state takes as `2^64 - 1`. -/
theorem preupload_contract_iff (hOpens : io.fopen = true) :
    PreuploadContract cfg io arg w ↔
      ¬ (w.upload.active = false ∧
        ∃ f n m, PreuploadForm arg f n m ∧ 2 ^ 64 ≤ numeral 10 n) := by
  constructor
  · rintro hContract ⟨hIdle, f, n, m, hForm, hLarge⟩
    obtain ⟨hReady, hSize⟩ := handle_preupload_accepts cfg hOpens hIdle hForm
    have hValue := hContract.size f n m hReady hForm
    have hSmall := (handle_preupload cfg io arg w).1.upload.expected_size.toNat_lt
    omega
  · intro hFits
    refine ⟨⟨?_, ?_⟩, ?_, ?_⟩
    · intro hReady
      rcases handle_preupload_refuses cfg io arg w with ⟨hNot, -⟩ | ⟨-, hIdle, f, n, m, hForm⟩
      · exact absurd hReady hNot
      · exact ⟨hIdle, f, n, m, hForm, not_le.mp fun hLarge => hFits ⟨hIdle, f, n, m, hForm, hLarge⟩⟩
    · rintro ⟨hIdle, f, n, m, hForm, -⟩
      exact (handle_preupload_accepts cfg hOpens hIdle hForm).1
    · intro f n m hReady hForm
      rcases handle_preupload_refuses cfg io arg w with ⟨hNot, -⟩ | ⟨-, hIdle, -⟩
      · exact absurd hReady hNot
      · have hSmall : numeral 10 n < 2 ^ 64 :=
          not_le.mp fun hLarge => hFits ⟨hIdle, f, n, m, hForm, hLarge⟩
        rw [(handle_preupload_accepts cfg hOpens hIdle hForm).2, strtoull_digits_toNat hForm.digits]
        omega
    · intro hNot
      rcases handle_preupload_refuses cfg io arg w with ⟨-, hSame⟩ | ⟨hReady, -⟩
      · exact hSame
      · exact absurd hReady hNot

/-- An announcement of `a` with this size. -/
def announced (size : String) : Bytes :=
  str "a," ++ (str size ++ str ",900150983cd24fb0d6963f7d28e17f72")

theorem announced_form {size : String} (hDigits : ∀ c ∈ str size, isdigit c = true)
    (hPositive : 0 < numeral 10 (str size)) :
    PreuploadForm (announced size) (str "a") (str size)
      (str "900150983cd24fb0d6963f7d28e17f72") where
  split := rfl
  first_comma := by decide
  filename_size := by decide
  no_slash := by decide
  no_dots := by decide
  digits := hDigits
  positive := hPositive
  md5_size := by decide
  md5_hex := forall_mem_str (by decide +kernel)

/-- The largest size that 64 bits hold. -/
theorem preupload_contract_largest :
    PreuploadContract {} {} (announced "18446744073709551615") ⟨{}, Storage.FileSystem.empty⟩ := by
  have hIff := @preupload_contract_iff {} {} (announced "18446744073709551615")
    ⟨{}, Storage.FileSystem.empty⟩ rfl
  rw [hIff]
  rintro ⟨-, f, n, m, hForm, hLarge⟩
  obtain ⟨-, rfl, -⟩ :=
    hForm.unique (announced_form (forall_mem_str (by decide +kernel)) (by decide +kernel))
  revert hLarge
  decide +kernel

/-- One more than the largest size is taken for the largest. -/
theorem preupload_saturates :
    ¬ PreuploadContract {} {} (announced "18446744073709551616")
      ⟨{}, Storage.FileSystem.empty⟩ := by
  intro hContract
  have hSize := hContract.size _ _ _ (by rfl)
    (announced_form (forall_mem_str (by decide +kernel)) (by decide +kernel))
  revert hSize
  decide +kernel

end RkFlashd
