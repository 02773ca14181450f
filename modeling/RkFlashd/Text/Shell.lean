import RkFlashd.Text.Numeral

/-! How a POSIX shell reads a line: token recognition, the simple command, and the fields
that its words come to. Where an expansion, an open quotation or a here-document begins, a
line has no reading here. -/
namespace Shell

open Text

/-- A character of a word. -/
structure Letter where
  byte : UInt8
  quoted : Bool
  deriving DecidableEq

abbrev Word := List Letter

inductive Token where
  | word (w : Word)
  | operator (op : Bytes)
  deriving DecidableEq

/-- The operators, a newline among them, and without the here-documents. -/
def operators : List Bytes :=
  [[38], [38, 38], [40], [41], [59], [59, 59], [124], [124, 124], [10],
   [60], [60, 38], [60, 62], [62], [62, 62], [62, 38], [62, 124]]

/-- What a character is outside of quotations. -/
inductive Role where
  | escape
  | single
  | double
  | expansion
  | operator
  | blank
  | hash
  | ordinary
  deriving DecidableEq

def role (c : UInt8) : Role :=
  if c = 92 then .escape
  else if c = 39 then .single
  else if c = 34 then .double
  else if c = 36 ∨ c = 96 then .expansion
  else if operators.contains [c] then .operator
  else if c = 32 ∨ c = 9 then .blank
  else if c = 35 then .hash
  else .ordinary

/-- The quotation that a character stands in. -/
inductive Mode where
  | unquoted
  | escape
  | single
  | double
  | double_escape
  | comment
  deriving DecidableEq

/-- The token that the previous character belongs to. -/
inductive Pending where
  | none
  | word (w : Word)
  | operator (op : Bytes)
  deriving DecidableEq

def Pending.tokens : Pending → List Token
  | .none => []
  | .word w => [.word w]
  | .operator op => [.operator op]

/-- Between two characters of a line. -/
structure Lexer where
  mode : Mode := .unquoted
  tokens : List Token := []
  pending : Pending := .none
  deriving DecidableEq

/-- The token ends. -/
def Lexer.delimit (s : Lexer) : Lexer :=
  { s with tokens := s.tokens ++ s.pending.tokens, pending := .none }

/-- A quotation belongs to a word, and begins one if there is none. -/
def Lexer.quote (s : Lexer) (mode : Mode) : Lexer :=
  match s.pending with
  | .word _ => { s with mode := mode }
  | _ => { s.delimit with mode := mode, pending := .word [] }

/-- One more letter of the word. -/
def Lexer.add (s : Lexer) (l : Letter) : Lexer :=
  match s.pending with
  | .word w => { s with pending := .word (w ++ [l]) }
  | _ => { s.delimit with pending := .word [l] }

/-- A character of an operator, the one before as long as the two make one. -/
def Lexer.operate (s : Lexer) (c : UInt8) : Option Lexer :=
  match s.pending with
  | .operator op =>
      if op = [60] ∧ c = 60 then none
      else if operators.contains (op ++ [c]) then some { s with pending := .operator (op ++ [c]) }
      else some { s.delimit with pending := .operator [c] }
  | _ => some { s.delimit with pending := .operator [c] }

/-- A character outside of quotations. -/
def Lexer.read (s : Lexer) (c : UInt8) : Option Lexer :=
  match role c with
  | .escape => some { s with mode := .escape }
  | .single => some (s.quote .single)
  | .double => some (s.quote .double)
  | .expansion => none
  | .operator => s.operate c
  | .blank => some s.delimit
  | .hash =>
      match s.pending with
      | .word _ => some (s.add ⟨c, false⟩)
      | _ => some { s.delimit with mode := .comment }
  | .ordinary => some (s.add ⟨c, false⟩)

def Lexer.next (s : Lexer) (c : UInt8) : Option Lexer :=
  match s.mode with
  | .unquoted => s.read c
  -- an escaped newline is not there at all
  | .escape =>
      if c = 10 then some { s with mode := .unquoted }
      else some ({ s with mode := .unquoted }.add ⟨c, true⟩)
  | .single => if c = 39 then some { s with mode := .unquoted } else some (s.add ⟨c, true⟩)
  | .double =>
      if c = 34 then some { s with mode := .unquoted }
      else if c = 36 ∨ c = 96 then none
      else if c = 92 then some { s with mode := .double_escape }
      else some (s.add ⟨c, true⟩)
  -- before any other character the backslash is a letter itself
  | .double_escape =>
      if c = 10 then some { s with mode := .double }
      else if c = 36 ∨ c = 96 ∨ c = 34 ∨ c = 92 then
        some ({ s with mode := .double }.add ⟨c, true⟩)
      else some (({ s with mode := .double }.add ⟨92, true⟩).add ⟨c, true⟩)
  | .comment => if c = 10 then { s with mode := .unquoted }.operate c else some s

/-- The tokens of a line. -/
def Lexer.finish (s : Lexer) : Option (List Token) :=
  if s.mode = .unquoted ∨ s.mode = .comment then some s.delimit.tokens else none

def tokens (line : Bytes) : Option (List Token) :=
  (line.foldlM Lexer.next {}).bind Lexer.finish

def unquoted (s : Bytes) : Word := s.map fun c => ⟨c, false⟩

def reserved_words : List Bytes :=
  [str "!", str "\x7b", str "\x7d", str "case", str "do", str "done", str "elif", str "else",
   str "esac", str "fi", str "for", str "if", str "in", str "then", str "until", str "while"]

/-- A letter of a name: unquoted, and alphanumeric or an underscore. -/
def is_name (l : Letter) : Bool :=
  !l.quoted && (isdigit l.byte || (65 ≤ toupper l.byte && toupper l.byte ≤ 90) || l.byte == 95)

/-- A name in front of an equals sign. -/
def assigns (w : Word) : Bool :=
  let name := w.takeWhile (· ≠ ⟨61, false⟩)
  name.length < w.length && name.all is_name && (name.head?.any fun l => !isdigit l.byte)

/-- The first word is the name of a command. -/
def is_command (words : List Word) : Bool :=
  words.head?.any fun w => !assigns w && w ∉ reserved_words.map unquoted

def Token.word? : Token → Option Word
  | .word w => some w
  | .operator _ => none

def newline : Token := .operator [10]

/-- The words of a line that is one simple command, without redirections. -/
def simple_command (line : Bytes) : Option (List Word) :=
  ((tokens line).bind fun ts =>
    ((ts.dropWhile (· = newline)).rdropWhile (· = newline)).mapM Token.word?).filter is_command

/-- A tilde-prefix. -/
def has_tilde (w : Word) : Bool :=
  w.head? = some ⟨126, false⟩ && (w.takeWhile (· ≠ ⟨47, false⟩)).all fun l => !l.quoted

/-- What follows an open bracket makes it a bracket expression: a bracket closes, behind one
character at least and before the next slash. -/
def closes (rest : Word) : Bool :=
  let members := if rest.head? = some ⟨33, false⟩ then rest.tail else rest
  (members.takeWhile fun l => l.byte ≠ 47).tail.any (· = ⟨93, false⟩)

def has_bracket : Word → Bool
  | [] => false
  | l :: rest => l = ⟨91, false⟩ && closes rest || has_bracket rest

/-- A word that is expanded to the names of files. -/
def is_pattern (w : Word) : Bool :=
  w.any (fun l => l = ⟨42, false⟩ ∨ l = ⟨63, false⟩) || has_bracket w

/-- The field a word comes to when nothing in it is expanded. -/
def field (w : Word) : Option Bytes :=
  if has_tilde w || is_pattern w then none else some (w.map Letter.byte)

/-- A line that is one simple command, read as its fields. -/
def fields (line : Bytes) : Option (List Bytes) := (simple_command line).bind (List.mapM field)

/-- A character that is a letter of the word it stands in. -/
def Ordinary (c : UInt8) : Prop := role c = .ordinary ∨ role c = .hash

/-- A text that the shell takes for itself: a word without quotations, not the beginning of
a comment or a home directory, and not a pattern. -/
structure Bare (s : Bytes) : Prop where
  nonempty : s ≠ []
  letters : ∀ c ∈ s, Ordinary c
  comment : s.head? ≠ some 35
  tilde : s.head? ≠ some 126
  pattern : is_pattern (unquoted s) = false

variable {s t : Lexer} {c : UInt8} {line : Bytes} {w : Word}

@[simp] theorem unquoted_byte (s : Bytes) : (unquoted s).map Letter.byte = s := by
  simp [unquoted, Function.comp_def]

/-! Reading letters. -/

theorem Lexer.next_ordinary (hMode : s.mode = .unquoted) (hPending : s.pending = .word w)
    (h : Ordinary c) : s.next c = some { s with pending := .word (w ++ [⟨c, false⟩]) } := by
  rcases h with h | h <;> simp [next, read, add, hMode, hPending, h]

theorem Lexer.run_ordinary (hMode : s.mode = .unquoted) (hPending : s.pending = .word w)
    (h : ∀ c ∈ line, Ordinary c) :
    line.foldlM Lexer.next s = some { s with pending := .word (w ++ unquoted line) } := by
  induction line generalizing s w with
  | nil =>
      have hSame : s = { s with pending := .word w } := by rw [← hPending]
      simpa [unquoted] using hSame
  | cons c rest ih =>
      rw [List.foldlM_cons, next_ordinary hMode hPending (h c List.mem_cons_self)]
      have hRest := ih (s := { s with pending := .word (w ++ [⟨c, false⟩]) }) hMode rfl
        fun d hd => h d (List.mem_cons_of_mem _ hd)
      simpa [unquoted] using hRest

/-- The characters of a word from its beginning. -/
theorem Lexer.run_word (hMode : s.mode = .unquoted) (hPending : s.pending = .none)
    (hNonempty : line ≠ []) (h : ∀ c ∈ line, Ordinary c) (hComment : line.head? ≠ some 35) :
    line.foldlM Lexer.next s = some { s with pending := .word (unquoted line) } := by
  obtain ⟨c, rest, rfl⟩ := List.exists_cons_of_ne_nil hNonempty
  have hFirst : role c = .ordinary := by
    refine (h c List.mem_cons_self).resolve_right fun hHash => hComment ?_
    have hc : c = 35 := by
      simp only [role] at hHash
      split_ifs at hHash
      assumption
    simp [hc]
  have hNext : s.next c = some { s with pending := .word [⟨c, false⟩] } := by
    simp [next, read, add, delimit, Pending.tokens, hMode, hPending, hFirst]
  rw [List.foldlM_cons, hNext]
  have hRest := run_ordinary (s := { s with pending := .word [⟨c, false⟩] }) hMode rfl
    fun d hd => h d (List.mem_cons_of_mem _ hd)
  simpa [unquoted] using hRest

/-! Counting letters. Every character gives one at most, and gives none where it is not a
letter itself. -/

def Token.size : Token → Nat
  | .word w => w.length
  | .operator _ => 0

def sizes (ts : List Token) : Nat := (ts.map Token.size).sum

def Lexer.letters (s : Lexer) : Nat := sizes (s.tokens ++ s.pending.tokens)

/-- The backslash that is a letter if no escape follows. -/
def Mode.due : Mode → Nat
  | .double_escape => 1
  | _ => 0

theorem Lexer.letters_mode (s : Lexer) (mode : Mode) :
    ({ s with mode := mode } : Lexer).letters = s.letters := rfl

@[simp] theorem Lexer.add_mode (s : Lexer) (l : Letter) : (s.add l).mode = s.mode := by
  unfold Lexer.add
  split <;> rfl

theorem Lexer.delimit_letters : s.delimit.letters = s.letters := by
  simp [delimit, letters, Pending.tokens]

theorem Lexer.quote_letters (mode : Mode) : (s.quote mode).letters = s.letters := by
  unfold Lexer.quote
  split
  · rfl
  · simp [letters, delimit, Pending.tokens, sizes, Token.size]

theorem Lexer.add_letters (l : Letter) : (s.add l).letters = s.letters + 1 := by
  unfold Lexer.add
  split
  · rename_i hPending
    simp [letters, hPending, Pending.tokens, sizes, Token.size]
    omega
  · simp [letters, delimit, Pending.tokens, sizes, Token.size]
    omega

theorem Lexer.operate_letters (h : s.operate c = some t) :
    t.letters = s.letters ∧ t.mode = s.mode := by
  unfold operate at h
  split at h
  · rename_i op hPending
    split_ifs at h <;> cases h <;>
      simp [letters, delimit, hPending, Pending.tokens, sizes, Token.size]
  · cases h
    simp [letters, delimit, Pending.tokens, sizes, Token.size]

/-- A character outside of quotations is a letter, or gives none. -/
theorem Lexer.read_cases (h : s.read c = some t) :
    (Ordinary c ∧ t = s.add ⟨c, false⟩ ∧ (role c = .hash → ∃ w, s.pending = .word w)) ∨
      (t.letters = s.letters ∧ t.mode.due ≤ s.mode.due) := by
  unfold Lexer.read at h
  split at h
  · cases h
    exact Or.inr ⟨rfl, Nat.zero_le _⟩
  · cases h
    refine Or.inr ⟨quote_letters _, ?_⟩
    unfold Lexer.quote
    split <;> exact Nat.zero_le _
  · cases h
    refine Or.inr ⟨quote_letters _, ?_⟩
    unfold Lexer.quote
    split <;> exact Nat.zero_le _
  · cases h
  · obtain ⟨hLetters, hMode⟩ := operate_letters h
    exact Or.inr ⟨hLetters, by rw [hMode]⟩
  · cases h
    exact Or.inr ⟨delimit_letters, le_refl s.mode.due⟩
  · rename_i hHash
    split at h
    · rename_i w hPending
      cases h
      exact Or.inl ⟨Or.inr hHash, rfl, fun _ => ⟨w, hPending⟩⟩
    · cases h
      exact Or.inr ⟨delimit_letters, Nat.zero_le _⟩
  · rename_i hOrdinary
    cases h
    exact Or.inl ⟨Or.inl hOrdinary, rfl, fun hHash => by simp [hOrdinary] at hHash⟩

theorem Lexer.next_letters (h : s.next c = some t) :
    t.letters + t.mode.due ≤ s.letters + s.mode.due + 1 := by
  unfold Lexer.next at h
  split at h
  · rcases read_cases h with ⟨-, rfl, -⟩ | ⟨hLetters, hDue⟩
    · rw [add_letters, add_mode]
      omega
    · omega
  · split at h <;> cases h <;> simp [add_letters, letters_mode, Mode.due]
    omega
  · split at h <;> cases h <;> simp [add_letters, letters_mode, Mode.due] <;> omega
  · split_ifs at h <;> cases h <;> simp [add_letters, letters_mode, Mode.due] <;> omega
  · rename_i hMode
    split_ifs at h <;> cases h <;> simp [add_letters, letters_mode, Mode.due, hMode]
    omega
  · rename_i hMode
    split_ifs at h
    · obtain ⟨hLetters, hDue⟩ := operate_letters h
      simp [hLetters, hDue, letters_mode, Mode.due]
      omega
    · cases h
      exact Nat.le_add_right _ 1

theorem Lexer.run_letters (h : line.foldlM Lexer.next s = some t) :
    t.letters + t.mode.due ≤ s.letters + s.mode.due + line.length := by
  induction line generalizing s with
  | nil =>
      obtain rfl : s = t := by simpa using h
      exact Nat.le_add_right _ _
  | cons c rest ih =>
      rw [List.foldlM_cons] at h
      obtain ⟨u, hNext, hRest⟩ := Option.bind_eq_some_iff.mp h
      have hFirst := next_letters hNext
      have hTail := ih hRest
      rw [List.length_cons]
      omega

/-- A line that gives as many letters as it has characters consists of letters. -/
theorem Lexer.run_full (h : line.foldlM Lexer.next s = some t) (hMode : s.mode = .unquoted)
    (hFull : s.letters + line.length ≤ t.letters) :
    (∀ c ∈ line, Ordinary c) ∧ ((∀ w, s.pending ≠ .word w) → line.head? ≠ some 35) := by
  induction line generalizing s with
  | nil => simp
  | cons c rest ih =>
      rw [List.foldlM_cons] at h
      obtain ⟨u, hNext, hRest⟩ := Option.bind_eq_some_iff.mp h
      have hRead : s.read c = some u := by simpa [Lexer.next, hMode] using hNext
      have hTail := run_letters hRest
      have hDue : s.mode.due = 0 := by rw [hMode]; rfl
      rw [List.length_cons] at hFull
      rcases read_cases hRead with ⟨hOrdinary, rfl, hHash⟩ | ⟨hLetters, hSame⟩
      · have hAdd := s.add_letters ⟨c, false⟩
        have hLetters := (ih hRest ((s.add_mode _).trans hMode) (by omega)).1
        refine ⟨List.forall_mem_cons.mpr ⟨hOrdinary, hLetters⟩, fun hNone hHead => ?_⟩
        obtain rfl : c = 35 := by simpa using hHead
        obtain ⟨w, hWord⟩ := hHash (by decide)
        exact hNone w hWord
      · omega

theorem Lexer.finish_sizes {ts : List Token} (h : s.finish = some ts) : sizes ts = s.letters := by
  unfold Lexer.finish at h
  split at h <;> cases h
  rw [← delimit_letters]
  simp [letters, delimit, Pending.tokens]

/-- The words of some tokens have no more letters than these. -/
theorem words_sizes {ts : List Token} {words : List Word}
    (h : ts.mapM Token.word? = some words) : (words.map List.length).sum = sizes ts := by
  induction ts generalizing words with
  | nil =>
      obtain rfl : words = [] := by simpa using h.symm
      rfl
  | cons token rest ih =>
      cases token with
      | operator op => simp [Token.word?] at h
      | word w =>
          simp only [List.mapM_cons, Token.word?, Option.bind_eq_bind, Option.bind_some,
            Option.bind_eq_some_iff] at h
          obtain ⟨tail, hTail, hWords⟩ := h
          obtain rfl := Option.some.inj hWords
          simp [sizes, Token.size, ih hTail]

theorem sizes_sublist {ts us : List Token} (h : ts.Sublist us) : sizes ts ≤ sizes us :=
  (h.map Token.size).sum_le_sum fun _ _ => Nat.zero_le _

theorem simple_command_sizes {words : List Word} (h : simple_command line = some words) :
    ∃ ts, tokens line = some ts ∧ (words.map List.length).sum ≤ sizes ts := by
  obtain ⟨hWords, -⟩ := Option.filter_eq_some_iff.mp h
  obtain ⟨ts, hTokens, hMap⟩ := Option.bind_eq_some_iff.mp hWords
  refine ⟨ts, hTokens, ?_⟩
  rw [words_sizes hMap]
  exact sizes_sublist ((List.rdropWhile_prefix _ _).sublist.trans (List.dropWhile_sublist _))

theorem field_eq_some {value : Bytes} (h : field w = some value) :
    w.map Letter.byte = value ∧ has_tilde w = false ∧ is_pattern w = false := by
  unfold field at h
  split at h
  · cases h
  · rename_i hPlain
    simp only [Bool.or_eq_true, not_or, Bool.not_eq_true] at hPlain
    exact ⟨Option.some.inj h, hPlain.1, hPlain.2⟩

theorem has_tilde_unquoted (s : Bytes) : has_tilde (unquoted s) = decide (s.head? = some 126) := by
  have hAll : ∀ w' : Word, w' <+: unquoted s → (w'.all fun l => !l.quoted) = true := by
    intro w' hPrefix
    rw [List.all_eq_true]
    intro l hl
    obtain ⟨c, -, rfl⟩ := List.mem_map.mp (hPrefix.subset hl)
    rfl
  rw [has_tilde, hAll _ (List.takeWhile_prefix _), Bool.and_true]
  cases s <;> simp [unquoted]

theorem Bare.field {s : Bytes} (h : Bare s) : field (unquoted s) = some s := by
  simp [Shell.field, has_tilde_unquoted, h.tilde, h.pattern]

theorem mapM_pair {words : List Word} {a b : Bytes} (h : words.mapM field = some [a, b]) :
    ∃ v w, words = [v, w] ∧ field v = some a ∧ field w = some b := by
  rcases words with _ | ⟨v, _ | ⟨w, _ | ⟨u, rest⟩⟩⟩ <;>
    simp [Option.bind_eq_some_iff] at h
  exact ⟨v, w, rfl, h⟩

/-- The characters that a text has to have quoted, somewhere at least, to stand for itself:
operators and blanks, quotations and expansions, patterns, and `#`, `~`, `=` and `%`. -/
def special : Bytes :=
  [124, 38, 59, 60, 62, 40, 41, 36, 96, 92, 34, 39, 32, 9, 10, 42, 63, 91, 35, 126, 61, 37]

/-- None of them is in the text. -/
def plain (s : Bytes) : Bool := s.all fun c => !special.contains c

theorem not_mem_of_plain {s : Bytes} (h : plain s = true) (hSpecial : c ∈ special) : c ∉ s := by
  intro hc
  have hPlain := List.all_eq_true.mp h c hc
  simp [hSpecial] at hPlain

theorem plain_append (a b : Bytes) : plain (a ++ b) = (plain a && plain b) := List.all_append

theorem has_bracket_unquoted {s : Bytes} (h : (91 : UInt8) ∉ s) :
    has_bracket (unquoted s) = false := by
  induction s with
  | nil => rfl
  | cons c rest ih =>
      obtain ⟨hFirst, hRest⟩ := not_or.mp (mt List.mem_cons.mpr h)
      have hTail := ih hRest
      rw [unquoted] at hTail
      simp [unquoted, has_bracket, hTail, Ne.symm hFirst]

theorem ordinary_of_not_special (h : c ∉ special) : Ordinary c := by
  simp only [special, List.mem_cons, List.not_mem_nil, or_false, not_or] at h
  exact Or.inl (by simp [role, operators, h])

/-- A plain text stands for itself. -/
theorem bare_of_plain {s : Bytes} (hNonempty : s ≠ []) (h : plain s = true) : Bare s := by
  have hHead {c : UInt8} (hSpecial : c ∈ special) : s.head? ≠ some c := fun hFirst =>
    not_mem_of_plain h hSpecial (List.mem_of_mem_head? hFirst)
  have hStars : (unquoted s).any (fun l => l = ⟨42, false⟩ ∨ l = ⟨63, false⟩) = false := by
    rw [List.any_eq_false]
    intro l hl
    obtain ⟨c, hc, rfl⟩ := List.mem_map.mp hl
    have hStar : c ≠ 42 := fun hSame => not_mem_of_plain h (by decide) (hSame ▸ hc)
    have hMark : c ≠ 63 := fun hSame => not_mem_of_plain h (by decide) (hSame ▸ hc)
    simp [hStar, hMark]
  refine ⟨hNonempty, fun c hc => ?_, hHead (by decide), hHead (by decide), ?_⟩
  · exact ordinary_of_not_special fun hSpecial => not_mem_of_plain h hSpecial hc
  · rw [is_pattern, hStars, has_bracket_unquoted (not_mem_of_plain h (by decide))]
    rfl

/-- A path without an equals sign is the name of a command. -/
theorem is_command_path {s : Bytes} (hSlash : (47 : UInt8) ∈ s) (hEquals : (61 : UInt8) ∉ s) :
    is_command [unquoted s] = true := by
  have hName : (unquoted s).takeWhile (· ≠ ⟨61, false⟩) = unquoted s := by
    rw [List.takeWhile_eq_self_iff]
    intro l hl
    obtain ⟨c, hc, rfl⟩ := List.mem_map.mp hl
    have hc' : c ≠ 61 := fun h => hEquals (h ▸ hc)
    simpa using hc'
  have hReserved : unquoted s ∉ reserved_words.map unquoted := by
    intro hMem
    obtain ⟨r, hr, hSame⟩ := List.mem_map.mp hMem
    have hNone : ∀ r ∈ reserved_words, (47 : UInt8) ∉ r := by decide
    have hEq := congrArg (List.map Letter.byte) hSame
    rw [unquoted_byte, unquoted_byte] at hEq
    exact hNone r hr (hEq ▸ hSlash)
  have hAssigns : assigns (unquoted s) = false := by
    simp only [assigns, hName, lt_self_iff_false, decide_false, Bool.false_and]
  rw [is_command, List.head?_cons, Option.any_some, hAssigns, decide_eq_true hReserved]
  rfl

/-- Two texts and a blank between them, the first of which is the name of a command: the
line is these two fields exactly when the second is a word as it stands too. -/
theorem fields_pair_iff {command file rest : Bytes} (hCommand : Bare command)
    (hName : is_command [unquoted command] = true) (hLength : rest.length ≤ file.length) :
    fields (command ++ 32 :: rest) = some [command, file] ↔ rest = file ∧ Bare file := by
  have hTokens : tokens (command ++ 32 :: rest) =
      (rest.foldlM Lexer.next { tokens := [.word (unquoted command)] }).bind Lexer.finish := by
    have hFirst := Lexer.run_word (s := {}) rfl rfl hCommand.nonempty hCommand.letters
      hCommand.comment
    rw [tokens, List.foldlM_append, hFirst]
    rfl
  have hWord (hNonempty : rest ≠ []) (hLetters : ∀ c ∈ rest, Ordinary c)
      (hComment : rest.head? ≠ some 35) :
      simple_command (command ++ 32 :: rest) = some [unquoted command, unquoted rest] := by
    have hRest := Lexer.run_word (s := { tokens := [.word (unquoted command)] }) rfl rfl
      hNonempty hLetters hComment
    have hStill : is_command [unquoted command, unquoted rest] = true := hName
    simp [simple_command, hTokens, hRest, Lexer.finish, Lexer.delimit, Pending.tokens, newline,
      List.rdropWhile, Token.word?, hStill]
  constructor
  · intro hFields
    obtain ⟨words, hSimple, hMap⟩ := Option.bind_eq_some_iff.mp hFields
    obtain ⟨v, w, rfl, hFirst, hSecond⟩ := mapM_pair hMap
    obtain ⟨ts, hRead, hSizes⟩ := simple_command_sizes hSimple
    rw [hTokens] at hRead
    obtain ⟨t, hRun, hFinish⟩ := Option.bind_eq_some_iff.mp hRead
    have hFull : command.length + rest.length ≤ t.letters := by
      rw [← Lexer.finish_sizes hFinish]
      have hCommandLength := congrArg List.length (field_eq_some hFirst).1
      have hFileLength := congrArg List.length (field_eq_some hSecond).1
      simp only [List.length_map, List.map_cons, List.map_nil, List.sum_cons, List.sum_nil] at *
      omega
    have hStart : ({ tokens := [.word (unquoted command)] } : Lexer).letters = command.length := by
      simp [Lexer.letters, Pending.tokens, sizes, Token.size, unquoted]
    obtain ⟨hLetters, hComment⟩ := Lexer.run_full hRun rfl (by rw [hStart]; exact hFull)
    have hNonempty : rest ≠ [] := by
      rintro rfl
      simp [simple_command, hTokens, Lexer.finish, Lexer.delimit, Pending.tokens, newline,
        List.rdropWhile, Token.word?] at hSimple
    have hWords := hWord hNonempty hLetters (hComment (by simp))
    rw [hSimple] at hWords
    obtain ⟨rfl, rfl⟩ : v = unquoted command ∧ w = unquoted rest := by simpa using hWords
    obtain ⟨hSame, hTilde, hPattern⟩ := field_eq_some hSecond
    rw [unquoted_byte] at hSame
    subst hSame
    refine ⟨rfl, hNonempty, hLetters, hComment (by simp), ?_, hPattern⟩
    simpa [has_tilde_unquoted] using hTilde
  · rintro ⟨rfl, hFile⟩
    rw [fields, hWord hFile.nonempty hFile.letters hFile.comment]
    simp [hCommand.field, hFile.field]

end Shell
