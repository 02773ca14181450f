import RkFlashd.Text.Utf8

/-! The grammar of JSON texts, byte by byte: what a text says, and what may stand between the
quotes of a string. -/
namespace JsonText

open Text

/-- A value. A number is kept as its text. -/
inductive Value where
  | null
  | bool (value : Bool)
  | number (text : Bytes)
  | string (text : Bytes)
  | array (items : List Value)
  | object (members : List (Bytes × Value))

/-- What stands for a member of an object: the last value of its name. -/
def field (members : List (Bytes × Value)) (name : Bytes) : Option Value :=
  (members.filter fun member => member.1 = name).getLast?.map Prod.snd

/-- A byte that stands for itself in a string. -/
def Plain (c : UInt8) : Prop := 32 ≤ c ∧ c ≠ 34 ∧ c ≠ 92

instance : DecidablePred Plain := fun _ => inferInstanceAs (Decidable (_ ∧ _))

/-- What a backslash and one character stand for. -/
def escaped (c : UInt8) : Option UInt8 :=
  if c = 34 ∨ c = 92 ∨ c = 47 then some c
  else if c = 98 then some 8
  else if c = 102 then some 12
  else if c = 110 then some 10
  else if c = 114 then some 13
  else if c = 116 then some 9
  else none

/-- Four hex digits, and the number they denote. -/
structure CodeUnit (s : Bytes) (n : Nat) : Prop where
  length : s.length = 4
  digits : ∀ c ∈ s, isxdigit c = true
  value : numeral 16 s = n

/-- The characters of a string up to its closing quote, what they stand for, and what
follows the quote. -/
inductive Chars : Bytes → Bytes → Bytes → Prop where
  | close (rest : Bytes) : Chars (34 :: rest) [] rest
  | plain {c : UInt8} {s text rest : Bytes} (h : Plain c) (tail : Chars s text rest) :
      Chars (c :: s) (c :: text) rest
  | escape {c d : UInt8} {s text rest : Bytes} (h : escaped c = some d)
      (tail : Chars s text rest) : Chars (92 :: c :: s) (d :: text) rest
  | unicode {unit s text rest : Bytes} {n : Nat} (h : CodeUnit unit n) (hScalar : n.isValidChar)
      (tail : Chars s text rest) :
      Chars (92 :: 117 :: (unit ++ s)) (String.utf8EncodeChar (Char.ofNat n) ++ text) rest
  | surrogates {high low s text rest : Bytes} {m n : Nat} (hHigh : CodeUnit high m)
      (hLow : CodeUnit low n) (hm : 0xd800 ≤ m ∧ m < 0xdc00) (hn : 0xdc00 ≤ n ∧ n < 0xe000)
      (tail : Chars s text rest) :
      Chars (92 :: 117 :: (high ++ 92 :: 117 :: (low ++ s)))
        (String.utf8EncodeChar (Char.ofNat (0x10000 + (m - 0xd800) * 0x400 + (n - 0xdc00))) ++ text)
        rest

/-- Blanks may stand before and behind every token. -/
def Blank (s rest : Bytes) : Prop :=
  ∃ blanks, s = blanks ++ rest ∧ ∀ c ∈ blanks, c = 32 ∨ c = 9 ∨ c = 10 ∨ c = 13

def Digits (s : Bytes) : Prop := s ≠ [] ∧ ∀ c ∈ s, isdigit c = true

/-- A sign, an integer without leading zeros, a fraction and an exponent. -/
def Number (s : Bytes) : Prop :=
  ∃ sign int frac exp, s = sign ++ (int ++ (frac ++ exp)) ∧
    (sign = [] ∨ sign = [45]) ∧
    (int = [48] ∨ Digits int ∧ int.head? ≠ some 48) ∧
    (frac = [] ∨ ∃ digits, frac = 46 :: digits ∧ Digits digits) ∧
    (exp = [] ∨ ∃ e esign digits, exp = e :: (esign ++ digits) ∧ (e = 101 ∨ e = 69) ∧
      (esign = [] ∨ esign = [43] ∨ esign = [45]) ∧ Digits digits)

/-- The phrases of the grammar: a value, and the lists inside the brackets with the bracket
that closes them. -/
inductive Phrase where
  | value (v : Value)
  | items (vs : List Value)
  | members (ms : List (Bytes × Value))

/-- A text begins with a phrase, and this is what remains behind it. -/
inductive Reads : Phrase → Bytes → Bytes → Prop where
  | null (rest : Bytes) : Reads (.value .null) (110 :: 117 :: 108 :: 108 :: rest) rest
  | bool_true (rest : Bytes) :
      Reads (.value (.bool true)) (116 :: 114 :: 117 :: 101 :: rest) rest
  | bool_false (rest : Bytes) :
      Reads (.value (.bool false)) (102 :: 97 :: 108 :: 115 :: 101 :: rest) rest
  | number {text rest : Bytes} (h : Number text) :
      Reads (.value (.number text)) (text ++ rest) rest
  | string {s text rest : Bytes} (h : Chars s text rest) :
      Reads (.value (.string text)) (34 :: s) rest
  | empty_array {s rest : Bytes} (h : Blank s (93 :: rest)) :
      Reads (.value (.array [])) (91 :: s) rest
  | array {s t rest : Bytes} {vs : List Value} (h : Blank s t) (hItems : Reads (.items vs) t rest) :
      Reads (.value (.array vs)) (91 :: s) rest
  | empty_object {s rest : Bytes} (h : Blank s (125 :: rest)) :
      Reads (.value (.object [])) (123 :: s) rest
  | object {s t rest : Bytes} {ms : List (Bytes × Value)} (h : Blank s t)
      (hMembers : Reads (.members ms) t rest) : Reads (.value (.object ms)) (123 :: s) rest
  | last_item {s t rest : Bytes} {v : Value} (h : Reads (.value v) s t)
      (hClose : Blank t (93 :: rest)) : Reads (.items [v]) s rest
  | item {s t u next rest : Bytes} {v : Value} {vs : List Value} (h : Reads (.value v) s t)
      (hComma : Blank t (44 :: u)) (hNext : Blank u next) (tail : Reads (.items vs) next rest) :
      Reads (.items (v :: vs)) s rest
  | last_member {s t u start after rest name : Bytes} {v : Value} (hName : Chars s name t)
      (hColon : Blank t (58 :: u)) (hStart : Blank u start) (h : Reads (.value v) start after)
      (hClose : Blank after (125 :: rest)) : Reads (.members [(name, v)]) (34 :: s) rest
  | member {s t u start after w next rest name : Bytes} {v : Value} {ms : List (Bytes × Value)}
      (hName : Chars s name t) (hColon : Blank t (58 :: u)) (hStart : Blank u start)
      (h : Reads (.value v) start after) (hComma : Blank after (44 :: w)) (hNext : Blank w next)
      (tail : Reads (.members ms) next rest) : Reads (.members ((name, v) :: ms)) (34 :: s) rest

/-- A whole text is one value, in UTF-8. -/
def Parses (s : Bytes) (v : Value) : Prop :=
  ValidUtf8 s ∧ ∃ start rest, Blank s start ∧ Reads (.value v) start rest ∧ Blank rest []

variable {s t rest text : Bytes} {c : UInt8}

theorem Blank.refl (s : Bytes) : Blank s s := ⟨[], rfl, by simp⟩

theorem Blank.length (h : Blank s rest) : rest.length ≤ s.length := by
  obtain ⟨blanks, rfl, -⟩ := h
  simp

/-- A token begins where it stands. -/
theorem Blank.token (h : Blank (c :: s) t) (hc : ¬ (c = 32 ∨ c = 9 ∨ c = 10 ∨ c = 13)) :
    t = c :: s := by
  obtain ⟨blanks, hEq, hBlanks⟩ := h
  cases blanks with
  | nil => exact hEq.symm
  | cons first others =>
      obtain rfl : c = first := (List.cons.inj hEq).1
      exact absurd (hBlanks c (by simp)) hc

/-- Plain bytes stand for themselves. -/
theorem Chars.of_plain (h : ∀ c ∈ text, Plain c) (rest : Bytes) :
    Chars (text ++ 34 :: rest) text rest := by
  induction text with
  | nil => exact Chars.close rest
  | cons c others ih =>
      exact Chars.plain (h c (by simp)) (ih fun d hd => h d (by simp [hd]))

theorem not_plain_quote : ¬ Plain 34 := by decide

theorem not_plain_backslash : ¬ Plain 92 := by decide

/-- And for nothing else. -/
theorem Chars.plain_unique {found after : Bytes} (h : ∀ c ∈ text, Plain c)
    (hChars : Chars (text ++ 34 :: rest) found after) : found = text ∧ after = rest := by
  induction text generalizing found with
  | nil =>
      cases hChars with
      | close => exact ⟨rfl, rfl⟩
      | plain hPlain => exact absurd hPlain not_plain_quote
  | cons c others ih =>
      have hc := h c (by simp)
      generalize hText : c :: others ++ 34 :: rest = whole at hChars
      cases hChars with
      | close =>
          obtain rfl : c = 34 := (List.cons.inj hText).1
          exact absurd hc not_plain_quote
      | plain hPlain tail =>
          obtain ⟨rfl, rfl⟩ := List.cons.inj hText
          obtain ⟨rfl, rfl⟩ := ih (fun d hd => h d (by simp [hd])) tail
          exact ⟨rfl, rfl⟩
      | escape hEscape tail =>
          obtain rfl : c = 92 := (List.cons.inj hText).1
          exact absurd hc not_plain_backslash
      | unicode hUnit hScalar tail =>
          obtain rfl : c = 92 := (List.cons.inj hText).1
          exact absurd hc not_plain_backslash
      | surrogates hHigh hLow hm hn tail =>
          obtain rfl : c = 92 := (List.cons.inj hText).1
          exact absurd hc not_plain_backslash

/-- A string takes at least a byte for each it stands for, and its closing quote; no more
only if all of them are plain. -/
theorem Chars.length (h : Chars s text rest) :
    text.length + rest.length + 1 ≤ s.length ∧
      (s.length ≤ text.length + rest.length + 1 → ∀ c ∈ text, Plain c) := by
  induction h with
  | close rest => simp
  | plain hPlain tail ih =>
      simp only [List.length_cons, List.mem_cons, forall_eq_or_imp]
      exact ⟨by omega, fun hLe => ⟨hPlain, ih.2 (by omega)⟩⟩
  | escape hEscape tail ih =>
      simp only [List.length_cons]
      exact ⟨by omega, fun hLe => by omega⟩
  | @unicode unit s text rest n hUnit hScalar tail ih =>
      have hSize := (Char.ofNat n).utf8Size_le_four
      have hUnitLength := hUnit.length
      simp only [List.length_cons, List.length_append, String.length_utf8EncodeChar]
      exact ⟨by omega, fun hLe => by omega⟩
  | @surrogates high low s text rest m n hHigh hLow hm hn tail ih =>
      have hSize :=
        (Char.ofNat (0x10000 + (m - 0xd800) * 0x400 + (n - 0xdc00))).utf8Size_le_four
      have hHighLength := hHigh.length
      have hLowLength := hLow.length
      simp only [List.length_cons, List.length_append, String.length_utf8EncodeChar]
      exact ⟨by omega, fun hLe => by omega⟩

theorem Number.head (h : Number s) : ∃ c others, s = c :: others ∧ (c = 45 ∨ isdigit c = true) := by
  obtain ⟨sign, int, frac, exp, rfl, hSign, hInt, -, -⟩ := h
  rcases hSign with rfl | rfl
  · rcases hInt with rfl | ⟨⟨hNe, hDigits⟩, -⟩
    · exact ⟨48, _, rfl, Or.inr rfl⟩
    · obtain ⟨d, others, rfl⟩ := List.exists_cons_of_ne_nil hNe
      exact ⟨d, _, rfl, Or.inr (hDigits d (by simp))⟩
  · exact ⟨45, _, rfl, Or.inl rfl⟩

/-- A value that begins with a quote is a string. -/
theorem Reads.string_inv {v : Value} (h : Reads (.value v) (34 :: s) rest) :
    ∃ text, v = .string text ∧ Chars s text rest := by
  generalize hText : 34 :: s = whole at h
  cases h with
  | string hChars =>
      obtain rfl := (List.cons.inj hText).2
      exact ⟨_, rfl, hChars⟩
  | number hNumber =>
      obtain ⟨c, others, rfl, hHead⟩ := hNumber.head
      obtain rfl : 34 = c := (List.cons.inj hText).1
      rcases hHead with hMinus | hDigit
      · cases hMinus
      · cases hDigit
  | _ => cases hText

/-- What a phrase says of the size of its text. -/
def Phrase.Fits (s rest : Bytes) : Phrase → Prop
  | .value v => ∀ text, v = .string text → text.length + rest.length + 2 ≤ s.length
  | .items _ => True
  | .members ms => ∀ name text, (name, .string text) ∈ ms →
      text.length + rest.length + 2 ≤ s.length

/-- A text is at least as long as each string in it. -/
theorem Reads.length {phrase : Phrase} (h : Reads phrase s rest) :
    rest.length ≤ s.length ∧ phrase.Fits s rest := by
  induction h with
  | null => simp [Phrase.Fits]; omega
  | bool_true => simp [Phrase.Fits]; omega
  | bool_false => simp [Phrase.Fits]; omega
  | number => simp [Phrase.Fits]
  | @string s text rest hChars =>
      obtain ⟨hLength, -⟩ := hChars.length
      refine ⟨by simp; omega, ?_⟩
      intro found hFound
      cases hFound
      simp
      omega
  | empty_array hBlank =>
      have hLength := hBlank.length
      simp only [List.length_cons] at hLength
      exact ⟨by simp; omega, by simp [Phrase.Fits]⟩
  | array hBlank hItems ih =>
      have hLength := hBlank.length
      exact ⟨by simp; omega, by simp [Phrase.Fits]⟩
  | empty_object hBlank =>
      have hLength := hBlank.length
      simp only [List.length_cons] at hLength
      exact ⟨by simp; omega, by simp [Phrase.Fits]⟩
  | object hBlank hMembers ih =>
      have hLength := hBlank.length
      exact ⟨by simp; omega, by simp [Phrase.Fits]⟩
  | last_item hValue hClose ih =>
      have hLength := hClose.length
      simp only [List.length_cons] at hLength
      exact ⟨by omega, trivial⟩
  | item hValue hComma hNext tail ih ihTail =>
      have hLength := hComma.length
      have hNextLength := hNext.length
      simp only [List.length_cons] at hLength
      exact ⟨by omega, trivial⟩
  | last_member hName hColon hStart hValue hClose ih =>
      have hNameLength := hName.length.1
      have hColonLength := hColon.length
      have hStartLength := hStart.length
      have hCloseLength := hClose.length
      simp only [List.length_cons] at hColonLength hCloseLength ⊢
      refine ⟨by omega, ?_⟩
      intro name text hMem
      obtain ⟨rfl, rfl⟩ : name = _ ∧ Value.string text = _ := by simpa using hMem
      have hFits := ih.2 text rfl
      simp only [List.length_cons]
      omega
  | member hName hColon hStart hValue hComma hNext tail ih ihTail =>
      have hNameLength := hName.length.1
      have hColonLength := hColon.length
      have hStartLength := hStart.length
      have hCommaLength := hComma.length
      have hNextLength := hNext.length
      simp only [List.length_cons] at hColonLength hCommaLength ⊢
      refine ⟨by omega, ?_⟩
      intro name text hMem
      rcases List.mem_cons.mp hMem with hFirst | hLater
      · obtain ⟨rfl, rfl⟩ := Prod.mk.inj hFirst
        have hFits := ih.2 text rfl
        simp only [List.length_cons]
        omega
      · have hFits := ihTail.2 name text hLater
        simp only [List.length_cons]
        omega

theorem field_mem {members : List (Bytes × Value)} {name : Bytes} {v : Value}
    (h : field members name = some v) : (name, v) ∈ members := by
  obtain ⟨⟨found, w⟩, hLast, rfl⟩ := Option.map_eq_some_iff.mp h
  have hMem := List.mem_of_getLast? hLast
  obtain ⟨hIn, hName⟩ := List.mem_filter.mp hMem
  obtain rfl : found = name := by simpa using hName
  exact hIn

section Splice

variable {first second said m : Bytes}

/-- A text into whose second member a string has been put as it is. -/
def spliced (first said second m : Bytes) : Bytes :=
  123 :: 34 :: (first ++ 34 :: 58 :: 34 :: (said ++ 34 :: 44 :: 34 ::
    (second ++ 34 :: 58 :: 34 :: (m ++ [34, 125]))))

/-- What the text is meant to say. -/
def Says (first said second m text : Bytes) : Prop :=
  ∃ members, Parses text (.object members) ∧ field members first = some (.string said) ∧
    field members second = some (.string m)

/-- The rest of the text, from the second member on, says `m` only if it is plain. -/
theorem second_member_plain {members : List (Bytes × Value)} {rest : Bytes}
    (hSecond : ∀ c ∈ second, Plain c)
    (h : Reads (.members members) (34 :: (second ++ 34 :: 58 :: 34 :: (m ++ [34, 125]))) rest)
    (hMem : (second, .string m) ∈ members) : ∀ c ∈ m, Plain c := by
  cases h with
  | last_member hName hColon hStart hValue hClose =>
      obtain ⟨rfl, rfl⟩ := Chars.plain_unique hSecond hName
      obtain rfl := (List.cons.inj (hColon.token (by decide))).2
      obtain rfl := hStart.token (by decide)
      obtain ⟨found, rfl, hChars⟩ := hValue.string_inv
      obtain rfl : m = found := by simpa using hMem
      have hLength := hClose.length
      apply hChars.length.2
      simp only [List.length_append, List.length_cons, List.length_nil] at hLength ⊢
      omega
  | member hName hColon hStart hValue hComma hNext tail =>
      obtain ⟨rfl, rfl⟩ := Chars.plain_unique hSecond hName
      obtain rfl := (List.cons.inj (hColon.token (by decide))).2
      obtain rfl := hStart.token (by decide)
      obtain ⟨found, rfl, hChars⟩ := hValue.string_inv
      have hLength := hComma.length
      have hNextLength := hNext.length
      simp only [List.length_cons] at hLength
      rcases List.mem_cons.mp hMem with hHere | hLater
      · obtain rfl : m = found := by simpa using hHere
        apply hChars.length.2
        simp only [List.length_append, List.length_cons, List.length_nil]
        omega
      · -- what follows the value is too short to hold the string
        have hFits := tail.length.2 _ m hLater
        have hUsed := hChars.length.1
        simp only [List.length_append, List.length_cons, List.length_nil] at hUsed
        omega

/-- The members of the whole object. -/
theorem spliced_members_plain {members : List (Bytes × Value)} {rest : Bytes}
    (hFirst : ∀ c ∈ first, Plain c) (hSaid : ∀ c ∈ said, Plain c) (hSecond : ∀ c ∈ second, Plain c)
    (hNe : first ≠ second)
    (h : Reads (.members members) (34 :: (first ++ 34 :: 58 :: 34 :: (said ++ 34 :: 44 :: 34 ::
      (second ++ 34 :: 58 :: 34 :: (m ++ [34, 125]))))) rest)
    (hMem : (second, .string m) ∈ members) : ∀ c ∈ m, Plain c := by
  cases h with
  | last_member hName hColon hStart hValue hClose =>
      obtain ⟨hSame, -⟩ := Chars.plain_unique hFirst hName
      obtain ⟨rfl, -⟩ := Prod.mk.inj (List.mem_singleton.mp hMem)
      exact absurd hSame.symm hNe
  | member hName hColon hStart hValue hComma hNext tail =>
      obtain ⟨rfl, rfl⟩ := Chars.plain_unique hFirst hName
      obtain rfl := (List.cons.inj (hColon.token (by decide))).2
      obtain rfl := hStart.token (by decide)
      obtain ⟨found, rfl, hChars⟩ := hValue.string_inv
      obtain ⟨rfl, rfl⟩ := Chars.plain_unique hSaid hChars
      obtain rfl := (List.cons.inj (hComma.token (by decide))).2
      obtain rfl := hNext.token (by decide)
      apply second_member_plain hSecond tail
      rcases List.mem_cons.mp hMem with hHere | hLater
      · exact absurd (Prod.mk.inj hHere).1.symm hNe
      · exact hLater

/-- **A spliced text.** It says what it is meant to say exactly when each byte of the string
that is put in stands for itself. -/
theorem spliced_iff (hFirst : ∀ c ∈ first, Plain c) (hSaid : ∀ c ∈ said, Plain c)
    (hSecond : ∀ c ∈ second, Plain c) (hNe : first ≠ second)
    (hUtf8 : ValidUtf8 (spliced first said second m)) :
    Says first said second m (spliced first said second m) ↔ ∀ c ∈ m, Plain c := by
  constructor
  · rintro ⟨members, ⟨-, start, rest, hBlank, hReads, -⟩, -, hField⟩
    obtain rfl := hBlank.token (by decide)
    have hMem := field_mem hField
    clear hUtf8 hBlank hField
    cases hReads with
    | empty_object hEmpty => cases hEmpty.token (by decide)
    | object hInside hMembers =>
        obtain rfl := hInside.token (by decide)
        exact spliced_members_plain hFirst hSaid hSecond hNe hMembers hMem
  · intro hPlain
    refine ⟨[(first, .string said), (second, .string m)], ⟨hUtf8, _, [], Blank.refl _, ?_,
      Blank.refl []⟩, by simp [field, hNe.symm], by simp [field, hNe]⟩
    apply Reads.object (Blank.refl _)
    apply Reads.member (Chars.of_plain hFirst _) (Blank.refl _) (Blank.refl _)
      (Reads.string (Chars.of_plain hSaid _)) (Blank.refl _) (Blank.refl _)
    exact Reads.last_member (Chars.of_plain hSecond _) (Blank.refl _) (Blank.refl _)
      (Reads.string (Chars.of_plain hPlain _)) (Blank.refl _)

end Splice

end JsonText
