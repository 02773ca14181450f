import RkFlashd.Daemon.Config

/-! `config.cpp`: the command line, option by option, and what its numbers mean. -/
namespace RkFlashd

open Text

/-- The value options of `parse_args`: what each does to the configuration, or the line it
prints. The port is narrowed to 16 bits before it is looked at. -/
def take_value (arg value : CString) (cfg : Config) : Config × Except Bytes Unit :=
  if arg.val = str "--port" then
    let cfg := { cfg with port := (atoi value.val).toUInt32.toUInt16 }
    if cfg.port = 0 then (cfg, .error (str "Error: invalid port " ++ value.val))
    else (cfg, .ok ())
  else if arg.val = str "--serial-device" then ({ cfg with serial_device := value }, .ok ())
  else if arg.val = str "--baud-rate" then
    let cfg := { cfg with baud_rate := atoi value.val }
    if cfg.baud_rate ≤ 0 then (cfg, .error (str "Error: invalid baud rate " ++ value.val))
    else (cfg, .ok ())
  else if arg.val = str "--upload-dir" then ({ cfg with upload_dir := value }, .ok ())
  else if arg.val = str "--scripts-dir" then ({ cfg with scripts_dir := value }, .ok ())
  else if arg.val = str "--log-file" then ({ cfg with log_file := value }, .ok ())
  else if arg.val = str "--pid-file" then ({ cfg with pid_file := value }, .ok ())
  else (cfg, .error (str "Error: unknown option '" ++ arg.val ++ str "'"))

/-- The loop of `parse_args` over the arguments that are left. -/
def parse_options : List CString → Config → Config × Except Bytes Unit
  | [], cfg => (cfg, .ok ())
  | arg :: rest, cfg =>
      if arg.val = str "--help" then ({ cfg with help := true }, .ok ())
      else if arg.val = str "--foreground" then parse_options rest { cfg with foreground := true }
      else
        match rest with
        | [] => (cfg, .error (str "Error: option '" ++ arg.val ++ str "' requires a value"))
        | value :: rest =>
            match take_value arg value cfg with
            | (cfg, .error message) => (cfg, .error message)
            | (cfg, .ok ()) => parse_options rest cfg

/-- `parse_args`. An error is printed, and the function returns `false`. -/
def parse_args (argv : List CString) (cfg : Config) : Config × Except Bytes Unit :=
  parse_options argv.tail cfg

/-- How the arguments come to an end: all are read, `--help` stops the loop, or one of them
is unknown or lacks its value. -/
inductive ScanEnd where
  | done
  | help
  | faulty
  deriving DecidableEq, Repr

def valued_options : List Bytes :=
  [str "--port", str "--serial-device", str "--baud-rate", str "--upload-dir", str "--scripts-dir",
    str "--log-file", str "--pid-file"]

/-- The options that are paired with a value, whatever the value is. -/
def scan : List CString → List (Bytes × Bytes) × ScanEnd
  | [] => ([], .done)
  | arg :: rest =>
      if arg.val = str "--help" then ([], .help)
      else if arg.val = str "--foreground" then scan rest
      else
        match rest with
        | [] => ([], .faulty)
        | value :: rest =>
            if arg.val ∈ valued_options then ((arg.val, value.val) :: (scan rest).1, (scan rest).2)
            else ([], .faulty)

/-- The values that an option is given, first to last. -/
def values_of (name : Bytes) (options : List (Bytes × Bytes)) : List Bytes :=
  (options.filter fun option => option.1 = name).map Prod.snd

/-- A decimal numeral of a number from 1 to `most`. -/
structure NumeralUpTo (most : Nat) (v : Bytes) : Prop where
  digits : ∀ c ∈ v, isdigit c = true
  positive : 0 < numeral 10 v
  bound : numeral 10 v ≤ most

/-- The port that is stored for a value. -/
def port_of (v : Bytes) : UInt16 := (atoi v).toUInt32.toUInt16

/-- A value that is refused when its turn comes. -/
def Refused (option : Bytes × Bytes) : Prop :=
  option.1 = str "--port" ∧ port_of option.2 = 0 ∨
    option.1 = str "--baud-rate" ∧ atoi option.2 ≤ 0

variable {arg value : CString} {args argv : List CString} {cfg next : Config} {v : Bytes}

theorem take_value_port (hPort : arg.val = str "--port") (cfg : Config) :
    take_value arg value cfg =
      ({ cfg with port := port_of value.val },
        if port_of value.val = 0 then .error (str "Error: invalid port " ++ value.val)
        else .ok ()) := by
  unfold take_value
  rw [if_pos hPort]
  show (if port_of value.val = 0 then _ else _) = _
  by_cases hZero : port_of value.val = 0
  · simp only [if_pos hZero]
    rfl
  · simp only [if_neg hZero]
    rfl

theorem take_value_baud_rate (hBaud : arg.val = str "--baud-rate") (cfg : Config) :
    take_value arg value cfg =
      ({ cfg with baud_rate := atoi value.val },
        if atoi value.val ≤ 0 then .error (str "Error: invalid baud rate " ++ value.val)
        else .ok ()) := by
  have hPort : arg.val ≠ str "--port" := by
    rw [hBaud]
    decide
  have hDevice : arg.val ≠ str "--serial-device" := by
    rw [hBaud]
    decide
  unfold take_value
  rw [if_neg hPort, if_neg hDevice, if_pos hBaud]
  show (if atoi value.val ≤ 0 then _ else _) = _
  by_cases hNegative : atoi value.val ≤ 0
  · simp only [if_pos hNegative]
  · simp only [if_neg hNegative]

/-- Every other option leaves the numbers alone. It is accepted if it is known. -/
theorem take_value_other (hPort : arg.val ≠ str "--port") (hBaud : arg.val ≠ str "--baud-rate")
    (value : CString) (cfg : Config) :
    (arg.val ∈ valued_options ∧ ∃ next, take_value arg value cfg = (next, .ok ()) ∧
      next.port = cfg.port ∧ next.baud_rate = cfg.baud_rate ∧ next.help = cfg.help) ∨
    (arg.val ∉ valued_options ∧ ∃ message, take_value arg value cfg = (cfg, .error message)) := by
  unfold take_value
  rw [if_neg hPort]
  split_ifs with hDevice hUpload hScripts hLog hPid
  · exact Or.inl ⟨by simp [valued_options, hDevice], _, rfl, rfl, rfl, rfl⟩
  · exact Or.inl ⟨by simp [valued_options, hUpload], _, rfl, rfl, rfl, rfl⟩
  · exact Or.inl ⟨by simp [valued_options, hScripts], _, rfl, rfl, rfl, rfl⟩
  · exact Or.inl ⟨by simp [valued_options, hLog], _, rfl, rfl, rfl, rfl⟩
  · exact Or.inl ⟨by simp [valued_options, hPid], _, rfl, rfl, rfl, rfl⟩
  · refine Or.inr ⟨?_, _, rfl⟩
    simp [valued_options, hPort, hDevice, hBaud, hUpload, hScripts, hLog, hPid]

/-- What one accepted option does to the numbers. -/
structure Taken (option : Bytes × Bytes) (cfg next : Config) : Prop where
  port : next.port = if option.1 = str "--port" then port_of option.2 else cfg.port
  baud_rate : next.baud_rate =
    if option.1 = str "--baud-rate" then atoi option.2 else cfg.baud_rate
  help : next.help = cfg.help

/-- A value is accepted exactly when its option is known and it is not refused. -/
theorem take_value_cases (arg value : CString) (cfg : Config) :
    (arg.val ∈ valued_options ∧ ¬ Refused (arg.val, value.val) ∧
      ∃ next, take_value arg value cfg = (next, .ok ()) ∧ Taken (arg.val, value.val) cfg next) ∨
    ((arg.val ∉ valued_options ∨ Refused (arg.val, value.val)) ∧
      ∃ next message, take_value arg value cfg = (next, .error message)) := by
  have hApart : str "--port" ≠ str "--baud-rate" := by decide
  by_cases hPort : arg.val = str "--port"
  · have hBaud : arg.val ≠ str "--baud-rate" := hPort ▸ hApart
    rw [take_value_port hPort]
    by_cases hZero : port_of value.val = 0
    · exact Or.inr ⟨Or.inr (Or.inl ⟨hPort, hZero⟩), _, _, by rw [if_pos hZero]⟩
    · refine Or.inl ⟨by simp [valued_options, hPort], ?_, { cfg with port := port_of value.val },
        by rw [if_neg hZero], ?_, ?_, rfl⟩
      · rintro (⟨-, hRefused⟩ | ⟨hOther, -⟩)
        · exact hZero hRefused
        · exact hBaud hOther
      · rw [if_pos hPort]
      · rw [if_neg hBaud]
  · by_cases hBaud : arg.val = str "--baud-rate"
    · rw [take_value_baud_rate hBaud]
      by_cases hNegative : atoi value.val ≤ 0
      · exact Or.inr ⟨Or.inr (Or.inr ⟨hBaud, hNegative⟩), _, _, by rw [if_pos hNegative]⟩
      · refine Or.inl ⟨by simp [valued_options, hBaud], ?_,
          { cfg with baud_rate := atoi value.val }, by rw [if_neg hNegative], ?_, ?_, rfl⟩
        · rintro (⟨hOther, -⟩ | ⟨-, hRefused⟩)
          · exact hPort hOther
          · exact hNegative hRefused
        · rw [if_neg hPort]
        · rw [if_pos hBaud]
    · have hNot : ¬ Refused (arg.val, value.val) := by
        rintro (⟨hOther, -⟩ | ⟨hOther, -⟩)
        · exact hPort hOther
        · exact hBaud hOther
      rcases take_value_other hPort hBaud value cfg with
        ⟨hKnown, next, hResult, hSamePort, hSameRate, hSameHelp⟩ | ⟨hUnknown, message, hResult⟩
      · exact Or.inl ⟨hKnown, hNot, next, hResult, by rw [if_neg hPort, hSamePort],
          by rw [if_neg hBaud, hSameRate], hSameHelp⟩
      · exact Or.inr ⟨Or.inl hUnknown, cfg, message, hResult⟩

/-- The number that is stored for an option once its values have been read in order. -/
def last_or {α : Type} (read : Bytes → α) (default : α) : List Bytes → α
  | [] => default
  | v :: rest => last_or read (read v) rest

theorem last_or_eq {α : Type} (read : Bytes → α) (default : α) {values : List Bytes}
    (h : values.getLast? = some v) : last_or read default values = read v := by
  induction values generalizing default with
  | nil => cases h
  | cons first rest ih =>
      cases hRest : rest.getLast? with
      | none =>
          obtain rfl := List.getLast?_eq_none_iff.mp hRest
          obtain rfl : first = v := by simpa using h
          rfl
      | some last =>
          obtain rfl : last = v := by simpa [List.getLast?_cons, hRest] using h
          exact ih (read first) hRest

theorem values_of_cons (name : Bytes) (option : Bytes × Bytes) (options : List (Bytes × Bytes)) :
    values_of name (option :: options) =
      if option.1 = name then option.2 :: values_of name options else values_of name options := by
  unfold values_of
  by_cases hName : option.1 = name
  · simp [hName]
  · simp [hName]

theorem parse_options_help (hHelp : arg.val = str "--help") (args : List CString) (cfg : Config) :
    parse_options (arg :: args) cfg = ({ cfg with help := true }, .ok ()) := by
  unfold parse_options
  rw [if_pos hHelp]

theorem parse_options_foreground (hHelp : arg.val ≠ str "--help")
    (hForeground : arg.val = str "--foreground") (args : List CString) (cfg : Config) :
    parse_options (arg :: args) cfg = parse_options args { cfg with foreground := true } := by
  conv => lhs; unfold parse_options
  rw [if_neg hHelp, if_pos hForeground]

/-- **The loop against the syntax.** The arguments are accepted exactly when they end well
and no value is refused; the last value of an option is the one that counts. -/
theorem parse_options_spec (args : List CString) (cfg : Config) :
    ((parse_options args cfg).2 = .ok () ↔
      (scan args).2 ≠ .faulty ∧ ∀ option ∈ (scan args).1, ¬ Refused option) ∧
    ((parse_options args cfg).2 = .ok () →
      (parse_options args cfg).1.port =
        last_or port_of cfg.port (values_of (str "--port") (scan args).1) ∧
      (parse_options args cfg).1.baud_rate =
        last_or atoi cfg.baud_rate (values_of (str "--baud-rate") (scan args).1)) := by
  fun_induction scan args generalizing cfg with
  | case1 => simp [parse_options, values_of, last_or]
  | case2 arg rest hHelp =>
      rw [parse_options_help hHelp]
      simp [values_of, last_or]
  | case3 arg rest hHelp hForeground ih =>
      rw [parse_options_foreground hHelp hForeground]
      exact ih { cfg with foreground := true }
  | case4 arg hHelp hForeground => simp [parse_options, hHelp, hForeground]
  | case5 arg hHelp hForeground value rest hKnown ih =>
      rcases take_value_cases arg value cfg with
        ⟨-, hAccepted, next, hResult, hTaken⟩ | ⟨hRefused, next, message, hResult⟩
      · obtain ⟨hOk, hNumbers⟩ := ih next
        have hLoop : parse_options (arg :: value :: rest) cfg = parse_options rest next := by
          simp only [parse_options, if_neg hHelp, if_neg hForeground, hResult]
        rw [hLoop]
        refine ⟨?_, fun hEnd => ?_⟩
        · rw [hOk]
          simp [hAccepted]
        · obtain ⟨hPort, hRate⟩ := hNumbers hEnd
          rw [hPort, hRate, hTaken.port, hTaken.baud_rate, values_of_cons, values_of_cons]
          constructor
          · split <;> rfl
          · split <;> rfl
      · have hLoop : parse_options (arg :: value :: rest) cfg = (next, .error message) := by
          simp only [parse_options, if_neg hHelp, if_neg hForeground, hResult]
        have hNow := hRefused.resolve_left fun hUnknown => hUnknown hKnown
        rw [hLoop]
        simp [hNow]
  | case6 arg hHelp hForeground value rest hUnknown =>
      rcases take_value_cases arg value cfg with
        ⟨hKnown, -⟩ | ⟨-, next, message, hResult⟩
      · exact absurd hKnown hUnknown
      · have hLoop : parse_options (arg :: value :: rest) cfg = (next, .error message) := by
          simp only [parse_options, if_neg hHelp, if_neg hForeground, hResult]
        rw [hLoop]
        simp

/-- What the numeric options promise: the last value given is the numeral of a number in
range, which is stored, and any other value makes `parse_args` fail. -/
structure NumbersKept (argv : List CString) (cfg : Config) : Prop where
  port : (parse_args argv cfg).2 = .ok () → (parse_args argv cfg).1.help = false →
    ∀ v, (values_of (str "--port") (scan argv.tail).1).getLast? = some v →
      NumeralUpTo 65535 v ∧ (parse_args argv cfg).1.port.toNat = numeral 10 v
  other_port : ∀ v ∈ values_of (str "--port") (scan argv.tail).1, ¬ NumeralUpTo 65535 v →
    (parse_args argv cfg).2 ≠ .ok ()
  baud_rate : (parse_args argv cfg).2 = .ok () → (parse_args argv cfg).1.help = false →
    ∀ v, (values_of (str "--baud-rate") (scan argv.tail).1).getLast? = some v →
      NumeralUpTo (2 ^ 31 - 1) v ∧ (parse_args argv cfg).1.baud_rate.toInt = numeral 10 v
  other_baud_rate : ∀ v ∈ values_of (str "--baud-rate") (scan argv.tail).1,
    ¬ NumeralUpTo (2 ^ 31 - 1) v → (parse_args argv cfg).2 ≠ .ok ()

/-- The command line is at fault elsewhere, or one of its values is refused, or all its
numbers are numerals in range. -/
def NumbersInRange (argv : List CString) : Prop :=
  (scan argv.tail).2 = .faulty ∨ (∃ option ∈ (scan argv.tail).1, Refused option) ∨
    (∀ v ∈ values_of (str "--port") (scan argv.tail).1, NumeralUpTo 65535 v) ∧
      ∀ v ∈ values_of (str "--baud-rate") (scan argv.tail).1, NumeralUpTo (2 ^ 31 - 1) v

theorem port_of_numeral (h : NumeralUpTo 65535 v) : (port_of v).toNat = numeral 10 v := by
  have hBound := h.bound
  rw [port_of, atoi_digits h.digits (by omega), Int32.toUInt32_ofNat', UInt32.toNat_toUInt16,
    UInt32.toNat_ofNat', Nat.mod_mod_of_dvd _ (by decide)]
  exact Nat.mod_eq_of_lt (by omega)

theorem atoi_numeral (h : NumeralUpTo (2 ^ 31 - 1) v) : (atoi v).toInt = numeral 10 v := by
  have hBound := h.bound
  rw [atoi_digits h.digits (by omega)]
  exact Int32.toInt_ofNat_of_lt (by omega)

/-- **The numeric options.** They mean what they say exactly for the command lines that are
at fault anyway and for those whose numbers are all numerals in range. -/
theorem numbers_kept_iff (argv : List CString) (cfg : Config) :
    NumbersKept argv cfg ↔ NumbersInRange argv := by
  obtain ⟨hOk, hNumbers⟩ := parse_options_spec argv.tail cfg
  constructor
  · intro hKept
    by_cases hAccepted : (parse_args argv cfg).2 = .ok ()
    · refine Or.inr (Or.inr ⟨fun v hv => ?_, fun v hv => ?_⟩)
      · by_contra hNot
        exact hKept.other_port v hv hNot hAccepted
      · by_contra hNot
        exact hKept.other_baud_rate v hv hNot hAccepted
    · by_cases hFaulty : (scan argv.tail).2 = .faulty
      · exact Or.inl hFaulty
      · right
        left
        by_contra hNone
        apply hAccepted
        exact hOk.mpr ⟨hFaulty, fun option hMem hRefused => hNone ⟨option, hMem, hRefused⟩⟩
  · intro hRange
    have hAll : (parse_args argv cfg).2 = .ok () →
        (∀ v ∈ values_of (str "--port") (scan argv.tail).1, NumeralUpTo 65535 v) ∧
          ∀ v ∈ values_of (str "--baud-rate") (scan argv.tail).1, NumeralUpTo (2 ^ 31 - 1) v := by
      intro hAccepted
      obtain ⟨hNotFaulty, hNotRefused⟩ := hOk.mp hAccepted
      rcases hRange with hFaulty | ⟨option, hMem, hRefused⟩ | hNumerals
      · exact absurd hFaulty hNotFaulty
      · exact absurd hRefused (hNotRefused option hMem)
      · exact hNumerals
    refine ⟨?_, ?_, ?_, ?_⟩
    · intro hAccepted _ v hLast
      have hNumeral := (hAll hAccepted).1 v (List.mem_of_getLast? hLast)
      refine ⟨hNumeral, ?_⟩
      rw [parse_args, (hNumbers hAccepted).1, last_or_eq port_of cfg.port hLast]
      exact port_of_numeral hNumeral
    · intro v hMem hNot hAccepted
      exact hNot ((hAll hAccepted).1 v hMem)
    · intro hAccepted _ v hLast
      have hNumeral := (hAll hAccepted).2 v (List.mem_of_getLast? hLast)
      refine ⟨hNumeral, ?_⟩
      rw [parse_args, (hNumbers hAccepted).2, last_or_eq atoi cfg.baud_rate hLast]
      exact atoi_numeral hNumeral
    · intro v hMem hNot hAccepted
      exact hNot ((hAll hAccepted).2 v hMem)

/-- `--port 70000` starts the server on port 4464. -/
theorem port_wraps_around : ∃ argv : List CString,
    argv.map Subtype.val = [str "rk_firmware_flashd", str "--port", str "70000"] ∧
    (parse_args argv {}).2 = .ok () ∧ (parse_args argv {}).1.port = 4464 ∧
    ¬ NumbersKept argv {} := by
  let argv : List CString :=
    [⟨str "rk_firmware_flashd", by decide⟩, ⟨str "--port", by decide⟩, ⟨str "70000", by decide⟩]
  have hAccepted : (parse_args argv {}).2.isOk = true ∧ (parse_args argv {}).1.port = 4464 := by
    decide +kernel
  have hOk : (parse_args argv {}).2 = .ok () := by
    revert hAccepted
    cases (parse_args argv {}).2 with
    | error message => simp [Except.isOk, Except.toBool]
    | ok value => simp
  refine ⟨argv, rfl, hOk, hAccepted.2, ?_⟩
  intro hKept
  apply hKept.other_port (str "70000") (by decide +kernel) _ hOk
  intro hNumeral
  exact absurd hNumeral.bound (by decide +kernel)

end RkFlashd
