import RkFlashd.Daemon.Options

/-! The command line as a format: every list of settings can be written as arguments and is read
back, and whatever is accepted is the reading of such a list. -/
namespace RkFlashd

open Text

/-- One option with a value that it accepts. -/
inductive Setting where
  | port (port : {p : UInt16 // p ≠ 0})
  | serial_device (path : CString)
  | baud_rate (rate : {r : Int32 // 0 < r})
  | upload_dir (path : CString)
  | scripts_dir (path : CString)
  | log_file (path : CString)
  | pid_file (path : CString)
  | foreground

def Setting.apply (cfg : Config) : Setting → Config
  | .port p => { cfg with port := p.val }
  | .serial_device path => { cfg with serial_device := path }
  | .baud_rate rate => { cfg with baud_rate := rate.val }
  | .upload_dir path => { cfg with upload_dir := path }
  | .scripts_dir path => { cfg with scripts_dir := path }
  | .log_file path => { cfg with log_file := path }
  | .pid_file path => { cfg with pid_file := path }
  | .foreground => { cfg with foreground := true }

/-- A number as an argument. -/
def numeral_arg (n : Nat) : CString :=
  ⟨to_string n, fun hMem => absurd (to_string_isdigit n 0 hMem) (by decide)⟩

/-- The name of an option as an argument. -/
def option_arg (name : String) (h : (0 : UInt8) ∉ str name := by decide) : CString := ⟨str name, h⟩

/-- The arguments that write a setting. -/
def Setting.words : Setting → List CString
  | .port p => [option_arg "--port", numeral_arg p.val.toNat]
  | .serial_device path => [option_arg "--serial-device", path]
  | .baud_rate rate => [option_arg "--baud-rate", numeral_arg rate.val.toInt.toNat]
  | .upload_dir path => [option_arg "--upload-dir", path]
  | .scripts_dir path => [option_arg "--scripts-dir", path]
  | .log_file path => [option_arg "--log-file", path]
  | .pid_file path => [option_arg "--pid-file", path]
  | .foreground => [option_arg "--foreground"]

variable {arg value : CString} {rest : List CString} {cfg cfg' : Config}

theorem port_of_to_string (p : UInt16) (h : p ≠ 0) : port_of (to_string p.toNat) = p := by
  have hPositive : 0 < p.toNat := by
    refine Nat.pos_of_ne_zero fun hZero => h ?_
    exact UInt16.toNat_inj.mp hZero
  have hBound := p.toNat_lt
  have hNumeral : NumeralUpTo 65535 (to_string p.toNat) :=
    ⟨to_string_isdigit _, by rwa [numeral_to_string], by rw [numeral_to_string]; omega⟩
  apply UInt16.toNat_inj.mp
  rw [port_of_numeral hNumeral, numeral_to_string]

theorem atoi_to_string (r : Int32) (h : 0 < r) : atoi (to_string r.toInt.toNat) = r := by
  have hPositive : 0 < r.toInt := by simpa [Int32.lt_iff_toInt_lt] using h
  have hBound := r.toInt_lt
  have hNumeral : NumeralUpTo (2 ^ 31 - 1) (to_string r.toInt.toNat) :=
    ⟨to_string_isdigit _, by rw [numeral_to_string]; omega, by rw [numeral_to_string]; omega⟩
  apply Int32.toInt_inj.mp
  rw [atoi_numeral hNumeral, numeral_to_string]
  omega

/-- An option that takes its value. -/
theorem parse_options_take {next : Config} (hHelp : arg.val ≠ str "--help")
    (hForeground : arg.val ≠ str "--foreground")
    (hTake : take_value arg value cfg = (next, .ok ())) (rest : List CString) :
    parse_options (arg :: value :: rest) cfg = parse_options rest next := by
  simp only [parse_options, if_neg hHelp, if_neg hForeground, hTake]

/-- The arguments of a setting are read, and do what the setting does. -/
theorem parse_setting (setting : Setting) (rest : List CString) (cfg : Config) :
    parse_options (setting.words ++ rest) cfg = parse_options rest (setting.apply cfg) := by
  cases setting with
  | port p =>
      refine parse_options_take (by decide) (by decide) ?_ rest
      have hPort : port_of (numeral_arg p.val.toNat).val = p.val :=
        port_of_to_string p.val p.property
      rw [take_value_port rfl, hPort, if_neg p.property]
      rfl
  | baud_rate rate =>
      refine parse_options_take (by decide) (by decide) ?_ rest
      have hRate : atoi (numeral_arg rate.val.toInt.toNat).val = rate.val :=
        atoi_to_string rate.val rate.property
      have hPositive : ¬ rate.val ≤ 0 := Int32.not_le.mpr rate.property
      rw [take_value_baud_rate rfl, hRate, if_neg hPositive]
      rfl
  | foreground => exact parse_options_foreground (by decide) rfl rest cfg
  | serial_device path | upload_dir path | scripts_dir path | log_file path | pid_file path =>
      exact parse_options_take (by decide) (by decide) (by rfl) rest

/-- A value that is taken is that of a setting. -/
theorem take_value_setting (h : take_value arg value cfg = (cfg', .ok ())) :
    ∃ setting : Setting, cfg' = setting.apply cfg ∧ setting.words.length = 2 := by
  by_cases hPort : arg.val = str "--port"
  · rw [take_value_port hPort] at h
    by_cases hZero : port_of value.val = 0
    · rw [if_pos hZero] at h
      cases h
    · rw [if_neg hZero] at h
      cases h
      exact ⟨.port ⟨_, hZero⟩, rfl, rfl⟩
  by_cases hBaud : arg.val = str "--baud-rate"
  · rw [take_value_baud_rate hBaud] at h
    by_cases hNegative : atoi value.val ≤ 0
    · rw [if_pos hNegative] at h
      cases h
    · rw [if_neg hNegative] at h
      cases h
      exact ⟨.baud_rate ⟨_, Int32.not_le.mp hNegative⟩, rfl, rfl⟩
  unfold take_value at h
  rw [if_neg hPort] at h
  split_ifs at h
  · cases h
    exact ⟨.serial_device value, rfl, rfl⟩
  · cases h
    exact ⟨.upload_dir value, rfl, rfl⟩
  · cases h
    exact ⟨.scripts_dir value, rfl, rfl⟩
  · cases h
    exact ⟨.log_file value, rfl, rfl⟩
  · cases h
    exact ⟨.pid_file value, rfl, rfl⟩
  · cases h

/-- What is read to its end is what a list of settings does. -/
theorem parse_options_settings {args : List CString}
    (h : parse_options args cfg = (cfg', .ok ())) (hHelp : cfg'.help = false) :
    ∃ settings : List Setting, cfg' = settings.foldl Setting.apply cfg ∧
      (settings.flatMap Setting.words).length = args.length := by
  fun_induction parse_options args cfg with
  | case1 cfg =>
      cases h
      exact ⟨[], rfl, rfl⟩
  | case2 cfg arg rest hIs =>
      cases h
      cases hHelp
  | case3 cfg arg rest hNot hIs ih =>
      obtain ⟨settings, rfl, hLength⟩ := ih h
      exact ⟨.foreground :: settings, rfl, by simpa [Setting.words] using hLength⟩
  | case4 cfg arg hNot hNot' => cases h
  | case5 cfg arg hNot hNot' value rest next message hTake => cases h
  | case6 cfg arg hNot hNot' value rest next hTake ih =>
      obtain ⟨settings, rfl, hLength⟩ := ih h
      obtain ⟨setting, rfl, hTwo⟩ := take_value_setting hTake
      exact ⟨setting :: settings, rfl, by simp [hTwo, hLength]; omega⟩

/-- **The command line as a format.** Every list of settings can be written as arguments, in any
order and with repetitions, and is read back one by one. Every command line that is accepted
without `--help` does what some list of settings does that takes as many arguments. -/
theorem parse_args_round_trip (program : CString) :
    (∀ (settings : List Setting) cfg, parse_args (program :: settings.flatMap Setting.words) cfg =
      (settings.foldl Setting.apply cfg, .ok ())) ∧
    ∀ args cfg cfg', parse_args (program :: args) cfg = (cfg', .ok ()) → cfg'.help = false →
      ∃ settings : List Setting,
        (settings.flatMap Setting.words).length = args.length ∧
        cfg' = settings.foldl Setting.apply cfg ∧
        parse_args (program :: settings.flatMap Setting.words) cfg = (cfg', .ok ()) := by
  have hRead : ∀ (settings : List Setting) cfg,
      parse_args (program :: settings.flatMap Setting.words) cfg =
        (settings.foldl Setting.apply cfg, .ok ()) := by
    intro settings
    induction settings with
    | nil => exact fun _ => rfl
    | cons setting rest ih =>
        intro cfg
        have hRest : parse_options (rest.flatMap Setting.words) (setting.apply cfg) =
            (rest.foldl Setting.apply (setting.apply cfg), .ok ()) := ih (setting.apply cfg)
        rw [List.flatMap_cons, List.foldl_cons, parse_args, List.tail_cons, parse_setting]
        exact hRest
  refine ⟨hRead, fun args cfg cfg' hAccepted hHelp => ?_⟩
  obtain ⟨settings, rfl, hLength⟩ := parse_options_settings hAccepted hHelp
  exact ⟨settings, hLength, rfl, hRead settings cfg⟩

end RkFlashd
