import CsiFirmware.Lib.CInt

/-!
# JSON text

The grammar of JSON as relations between a text, what it denotes, and the text that is left. A
`Node` keeps what the text says: the members of an object in the order in which they stand, repeated
keys included, and a number by its text.

A writer that puts a string between quotation marks as it is writes JSON if the string is plain.
`plain_of_stringBody` is the converse: a string that is read back from such a text was plain, unless
the text that follows makes up for the quotation mark that a backslash took away.
-/

namespace JsonText

open CInt

/-! ## Strings -/

/-- The character stands for itself in a string. -/
def Plain (c : Char) : Prop := c ≠ '"' ∧ c ≠ '\\' ∧ 0x20 ≤ c.toNat

instance (c : Char) : Decidable (Plain c) := inferInstanceAs (Decidable (_ ∧ _ ∧ _))

/-- What follows a backslash, and the character that the two stand for. -/
def escapes : List (Char × Char) :=
  [('"', '"'), ('\\', '\\'), ('/', '/'), ('b', '\x08'), ('f', '\x0c'), ('n', '\n'), ('r', '\r'),
    ('t', '\t')]

/-- The number behind `\u`. -/
def fourDigits : List Char → Option ℕ
  | [a, b, c, d] => do
      some ((((← hexDigit a) * 16 + (← hexDigit b)) * 16 + (← hexDigit c)) * 16 + (← hexDigit d))
  | _ => none

/-- The texts of one character. -/
inductive CharText : List Char → Char → Prop where
  | plain (c : Char) (h : Plain c) : CharText [c] c
  | escape (e c : Char) (h : (e, c) ∈ escapes) : CharText ['\\', e] c
  | unicode (digits : List Char) (n : ℕ) (h : fourDigits digits = some n) (scalar : n.isValidChar) :
      CharText ('\\' :: 'u' :: digits) (Char.ofNat n)
  | surrogates (high low : List Char) (m n : ℕ) (hm : fourDigits high = some m)
      (hn : fourDigits low = some n) (leading : 0xD800 ≤ m ∧ m < 0xDC00)
      (trailing : 0xDC00 ≤ n ∧ n < 0xE000) :
      CharText ('\\' :: 'u' :: high ++ '\\' :: 'u' :: low)
        (Char.ofNat (0x10000 + (m - 0xD800) * 0x400 + (n - 0xDC00)))

/-- A text, the string that it holds up to the closing quotation mark, and what follows. -/
inductive StringBody : List Char → List Char → List Char → Prop where
  | close (rest : List Char) : StringBody ('"' :: rest) [] rest
  | char {pre text d rest : List Char} {c : Char} (head : CharText pre c)
      (tail : StringBody text d rest) : StringBody (pre ++ text) (c :: d) rest

/-- Four hexadecimal digits, the highest first. -/
theorem exists_fourDigits {digits : List Char} {n : ℕ} (h : fourDigits digits = some n) :
    ∃ a b c d i j k l, digits = [a, b, c, d] ∧ hexDigit a = some i ∧ hexDigit b = some j ∧
      hexDigit c = some k ∧ hexDigit d = some l ∧ ((i * 16 + j) * 16 + k) * 16 + l = n := by
  unfold fourDigits at h
  split at h
  next a b c d =>
    simp only [Option.bind_eq_bind, Option.bind_eq_some_iff] at h
    obtain ⟨i, hi, j, hj, k, hk, l, hl, hn⟩ := h
    exact ⟨a, b, c, d, i, j, k, l, rfl, hi, hj, hk, hl, Option.some.inj hn⟩
  next => cases h

/-- The closing quotation mark cannot be among the digits. -/
theorem quote_not_mem_of_fourDigits {digits : List Char} {n : ℕ}
    (h : fourDigits digits = some n) : '"' ∉ digits := by
  obtain ⟨a, b, c, d, i, j, k, l, rfl, ha, hb, hc, hd, -⟩ := exists_fourDigits h
  have hquote : hexDigit '"' = none := by decide
  intro hmem
  simp only [List.mem_cons, List.not_mem_nil, or_false] at hmem
  rcases hmem with rfl | rfl | rfl | rfl <;> simp_all

/-- A character is written as it is, or with a backslash. -/
theorem CharText.head {pre : List Char} {c : Char} (h : CharText pre c) :
    (pre = [c] ∧ Plain c) ∨ ∃ e rest, pre = '\\' :: e :: rest := by
  cases h with
  | plain _ h => exact .inl ⟨rfl, h⟩
  | escape e => exact .inr ⟨e, [], rfl⟩
  | unicode digits => exact .inr ⟨'u', digits, rfl⟩
  | surrogates high low => exact .inr ⟨'u', high ++ '\\' :: 'u' :: low, rfl⟩

/-- A quotation mark is part of one character only. -/
theorem CharText.eq_of_quote_mem {pre : List Char} {c : Char} (h : CharText pre c)
    (hquote : '"' ∈ pre) : pre = ['\\', '"'] ∧ c = '"' := by
  cases h with
  | plain _ h =>
      rw [List.mem_singleton] at hquote
      exact absurd hquote.symm h.1
  | escape e _ h =>
      simp only [List.mem_cons, List.not_mem_nil, or_false] at hquote
      rcases hquote with hquote | rfl
      · cases hquote
      · refine ⟨rfl, ?_⟩
        simpa [escapes] using h
  | unicode digits n h =>
      have hdigits := quote_not_mem_of_fourDigits h
      simp [hdigits] at hquote
  | surrogates high low m n hm hn =>
      have hhigh := quote_not_mem_of_fourDigits hm
      have hlow := quote_not_mem_of_fourDigits hn
      simp [hhigh, hlow] at hquote

/-- The part of a character before a quotation mark is a backslash. -/
theorem CharText.of_append_quote {m u : List Char} {c : Char} (h : CharText (m ++ '"' :: u) c) :
    m = ['\\'] ∧ u = [] ∧ c = '"' := by
  -- the character is an escaped quotation mark, two characters long
  obtain ⟨hpre, hc⟩ := h.eq_of_quote_mem (by simp)
  have hlength := congrArg List.length hpre
  cases m with
  | nil => simp at hpre
  | cons y m =>
      cases m with
      | nil =>
          obtain ⟨rfl, hu⟩ : y = '\\' ∧ u = [] := by simpa using hpre
          exact ⟨rfl, hu, hc⟩
      | cons z m => simp at hlength

/-- Every character takes up some text. -/
theorem CharText.length_pos {pre : List Char} {c : Char} (h : CharText pre c) :
    0 < pre.length := by
  rcases h.head with ⟨rfl, -⟩ | ⟨e, rest, rfl⟩
  · exact Nat.one_pos
  · simp

/-- No character begins with a quotation mark. -/
theorem CharText.quote_ne {pre text rest : List Char} {c : Char} (h : CharText pre c) :
    pre ++ text ≠ '"' :: rest := by
  intro heq
  rcases h.head with ⟨rfl, hplain⟩ | ⟨e, rest', rfl⟩
  · obtain ⟨rfl, -⟩ := List.cons.inj heq
    exact hplain.1 rfl
  · cases (List.cons.inj heq).1

/-- A plain character is read as itself. -/
theorem CharText.eq_of_plain {pre text rest : List Char} {c x : Char} (h : CharText pre c)
    (hx : Plain x) (heq : pre ++ text = x :: rest) : c = x ∧ text = rest := by
  rcases h.head with ⟨rfl, -⟩ | ⟨e, rest', rfl⟩
  · exact List.cons.inj heq
  · exact absurd (List.cons.inj heq).1.symm hx.2.1

/-- A plain string is read as itself. -/
theorem stringBody_plain_iff {s t d rest : List Char} (hs : ∀ c ∈ s, Plain c) :
    StringBody (s ++ '"' :: t) d rest ↔ d = s ∧ rest = t := by
  induction s generalizing d with
  | nil =>
      constructor
      · intro h
        generalize htext : [] ++ '"' :: t = text at h
        cases h with
        | close => exact ⟨rfl, (List.cons.inj htext).2.symm⟩
        | char head => exact absurd htext.symm head.quote_ne
      · rintro ⟨rfl, rfl⟩
        exact .close _
  | cons x s ih =>
      rw [List.forall_mem_cons] at hs
      constructor
      · intro h
        generalize htext : x :: s ++ '"' :: t = text at h
        cases h with
        | close => exact absurd (List.cons.inj htext).1 hs.1.1
        | char head tail =>
            obtain ⟨rfl, rfl⟩ := head.eq_of_plain hs.1 htext.symm
            obtain ⟨rfl, rfl⟩ := (ih hs.2).mp tail
            exact ⟨rfl, rfl⟩
      · rintro ⟨rfl, rfl⟩
        have hbody := StringBody.char (.plain x hs.1) ((ih hs.2).mpr ⟨rfl, rfl⟩)
        exact hbody

/-- A string ends at its closing quotation mark, whatever follows. -/
theorem StringBody.exists_body {text s rest : List Char} (h : StringBody text s rest) :
    ∃ body, text = body ++ rest ∧ ∀ more, StringBody (body ++ more) s more := by
  induction h with
  | close rest => exact ⟨['"'], rfl, .close⟩
  | @char pre text s rest c head _ ih =>
      obtain ⟨body, rfl, hbody⟩ := ih
      refine ⟨pre ++ body, (List.append_assoc _ _ _).symm, fun more => ?_⟩
      rw [List.append_assoc]
      exact .char head (hbody more)

/-- A string that goes on in this text does not end with a backslash. -/
def Guarded (t : List Char) : Prop :=
  ∀ d rest, StringBody t d rest → d.getLast? ≠ some '\\'

/-- A plain string does not end with a backslash. -/
theorem guarded_of_plain {s t : List Char} (hs : ∀ c ∈ s, Plain c) : Guarded (s ++ '"' :: t) := by
  intro d rest h hlast
  obtain ⟨rfl, -⟩ := (stringBody_plain_iff hs).mp h
  exact (hs _ (List.mem_of_getLast? hlast)).2.1 rfl

/-- A string is closed by a quotation mark. -/
theorem StringBody.quote_mem {text d rest : List Char} (h : StringBody text d rest) :
    '"' ∈ text := by
  induction h with
  | close => exact List.mem_cons_self
  | char _ _ ih => exact List.mem_append_right _ ih

/-- No string goes on in a text without quotation marks. -/
theorem guarded_of_quote_not_mem {t : List Char} (ht : '"' ∉ t) : Guarded t :=
  fun _ _ h => absurd h.quote_mem ht

/-- A string is not longer than the text between its quotation marks, unless a backslash at the end
of that text takes the closing one away. -/
theorem StringBody.length_le {text d rest m t : List Char} (h : StringBody text d rest)
    (htext : text = m ++ '"' :: t) (ht : Guarded t) :
    d.length ≤ m.length ∨ m.getLast? = some '\\' ∧ ∃ x, d.getLast? = some x ∧ x ≠ '\\' := by
  induction h generalizing m with
  | close => exact .inl (Nat.zero_le _)
  | @char pre text d rest c head tail ih =>
      -- the first character ends before the closing quotation mark, or reaches it
      rcases List.append_eq_append_iff.mp htext with ⟨m', rfl, htext'⟩ | ⟨u, rfl, hu⟩
      · rcases ih htext' with hle | ⟨hm, x, hx, hne⟩
        · refine .inl ?_
          have hpos := head.length_pos
          simp only [List.length_cons, List.length_append]
          omega
        · refine .inr ⟨?_, x, ?_, hne⟩
          · rw [List.getLast?_append, hm]
            rfl
          · rw [List.getLast?_cons, hx]
            rfl
      · cases u with
        | nil =>
            -- it is the last character before the quotation mark
            have hpos := head.length_pos
            rw [List.append_nil] at hpos
            rcases ih (m := []) hu.symm with hle | ⟨hm, -⟩
            · refine .inl ?_
              simp only [List.length_nil, List.length_cons] at hle ⊢
              omega
            · cases hm
        | cons x u =>
            -- the closing quotation mark is the second half of this character
            obtain ⟨rfl, rfl⟩ := List.cons.inj hu
            obtain ⟨rfl, rfl, rfl⟩ := head.of_append_quote
            refine .inr ⟨rfl, ?_⟩
            rw [List.getLast?_cons]
            refine ⟨_, rfl, ?_⟩
            have hd := ht d rest tail
            cases hlast : d.getLast? with
            | none => decide
            | some x =>
                intro hx
                exact hd (hlast.trans (congrArg some hx))

/-- A string that is read back as the text between the quotation marks was plain. -/
theorem plain_of_stringBody {s t rest : List Char} (h : StringBody (s ++ '"' :: t) s rest)
    (ht : Guarded t) : ∀ c ∈ s, Plain c := by
  generalize htext : s ++ '"' :: t = text at h
  generalize hd : s = d at h
  induction h generalizing s with
  | close => simp
  | @char pre text d rest c head tail ih =>
      subst hd
      rw [List.forall_mem_cons]
      rcases head.head with ⟨rfl, hc⟩ | ⟨e, more, rfl⟩
      · obtain ⟨-, htext⟩ := List.cons.inj htext
        -- a character that is written as it is
        exact ⟨hc, ih htext rfl⟩
      · -- an escaped backslash takes up two characters, and the rest of the string falls short
        obtain ⟨rfl, hrest⟩ := List.cons.inj htext
        have hrest : d ++ '"' :: t = e :: more ++ text := hrest
        have hend : StringBody text d rest → ∀ m, text = m ++ '"' :: t → d ≠ e :: more ++ m := by
          rintro hbody m hm rfl
          rcases hbody.length_le hm ht with hle | ⟨hlast, x, hx, hne⟩
          · simp only [List.cons_append, List.length_cons, List.length_append] at hle
            omega
          · rw [List.getLast?_append, hlast] at hx
            exact hne (Option.some.inj hx).symm
        rcases List.append_eq_append_iff.mp hrest.symm with ⟨m, hd, htail⟩ | ⟨u, hpre, hu⟩
        · exact absurd hd (hend tail m htail)
        · cases u with
          | nil =>
              rw [List.append_nil] at hpre
              exact absurd (by simp [hpre]) (hend tail [] hu.symm)
          | cons x u =>
              obtain ⟨rfl, -⟩ := List.cons.inj hu
              obtain ⟨-, hc⟩ := head.eq_of_quote_mem (by simp [hpre])
              cases hc

/-! ## Values -/

/-- What a JSON text says. -/
inductive Node where
  | null
  | boolean (b : Bool)
  | number (text : List Char)
  | string (s : List Char)
  | array (items : List Node)
  | object (members : List (List Char × Node))

/-- At least one digit, and nothing else. -/
def Digits (text : List Char) : Prop := text ≠ [] ∧ ∀ c ∈ text, c.isDigit

/-- A number: no superfluous zero at the beginning, and digits on both sides of the point. -/
def NumberText (text : List Char) : Prop :=
  ∃ minus whole fraction exponent, text = minus ++ whole ++ fraction ++ exponent ∧
    (minus = [] ∨ minus = ['-']) ∧
    (whole = ['0'] ∨ Digits whole ∧ whole.head? ≠ some '0') ∧
    (fraction = [] ∨ ∃ digits, fraction = '.' :: digits ∧ Digits digits) ∧
    (exponent = [] ∨ ∃ e sign digits, exponent = e :: sign ++ digits ∧ e ∈ ['e', 'E'] ∧
      sign ∈ [[], ['+'], ['-']] ∧ Digits digits)

/-- The part of a number before the exponent. -/
def Mantissa (text : List Char) : Prop :=
  ∃ minus whole fraction, text = minus ++ whole ++ fraction ∧ (minus = [] ∨ minus = ['-']) ∧
    (whole = ['0'] ∨ Digits whole ∧ whole.head? ≠ some '0') ∧
    (fraction = [] ∨ ∃ digits, fraction = '.' :: digits ∧ Digits digits)

/-- One digit will do. -/
theorem digits_singleton {c : Char} (h : c.isDigit) : Digits [c] := by
  simp [Digits, h]

/-- A digit may follow. -/
theorem Digits.append {digits : List Char} {c : Char} (h : Digits digits) (hc : c.isDigit) :
    Digits (digits ++ [c]) := by
  refine ⟨by simp, fun x hx => ?_⟩
  rcases List.mem_append.mp hx with hx | hx
  · exact h.2 x hx
  · rw [List.mem_singleton.mp hx]
    exact hc

/-- A number is a mantissa with or without an exponent. -/
theorem numberText_iff {text : List Char} :
    NumberText text ↔ ∃ mantissa exponent, Mantissa mantissa ∧ text = mantissa ++ exponent ∧
      (exponent = [] ∨ ∃ e sign digits, exponent = e :: sign ++ digits ∧ e ∈ ['e', 'E'] ∧
        sign ∈ [[], ['+'], ['-']] ∧ Digits digits) := by
  constructor
  · rintro ⟨minus, whole, fraction, exponent, rfl, hminus, hwhole, hfraction, hexponent⟩
    exact ⟨_, exponent, ⟨minus, whole, fraction, rfl, hminus, hwhole, hfraction⟩, rfl, hexponent⟩
  · rintro ⟨_, exponent, ⟨minus, whole, fraction, rfl, hminus, hwhole, hfraction⟩, rfl, hexponent⟩
    exact ⟨minus, whole, fraction, exponent, rfl, hminus, hwhole, hfraction, hexponent⟩

/-- White space between the tokens. -/
def isWhite (c : Char) : Bool := c ∈ [' ', '\t', '\n', '\r']

/-- The text from the first token on. -/
def skipWhite (text : List Char) : List Char := text.dropWhile isWhite

mutual

/-- A text that begins with a value, the value, and what follows it. -/
inductive Value : List Char → Node → List Char → Prop where
  | nullLiteral (rest : List Char) : Value ('n' :: 'u' :: 'l' :: 'l' :: rest) .null rest
  | trueLiteral (rest : List Char) :
      Value ('t' :: 'r' :: 'u' :: 'e' :: rest) (.boolean true) rest
  | falseLiteral (rest : List Char) :
      Value ('f' :: 'a' :: 'l' :: 's' :: 'e' :: rest) (.boolean false) rest
  | number (text rest : List Char) (h : NumberText text) : Value (text ++ rest) (.number text) rest
  | string {text s rest : List Char} (body : StringBody text s rest) :
      Value ('"' :: text) (.string s) rest
  | emptyArray {text rest : List Char} (close : skipWhite text = ']' :: rest) :
      Value ('[' :: text) (.array []) rest
  | array {text rest : List Char} {items : List Node} (elements : Elements text items rest) :
      Value ('[' :: text) (.array items) rest
  | emptyObject {text rest : List Char} (close : skipWhite text = '\x7d' :: rest) :
      Value ('\x7b' :: text) (.object []) rest
  | object {text rest : List Char} {members : List (List Char × Node)}
      (elements : Members text members rest) : Value ('\x7b' :: text) (.object members) rest

/-- The elements of an array, and its closing bracket. -/
inductive Elements : List Char → List Node → List Char → Prop where
  | last {text mid rest : List Char} {item : Node} (value : Value (skipWhite text) item mid)
      (close : skipWhite mid = ']' :: rest) : Elements text [item] rest
  | next {text mid more rest : List Char} {item : Node} {items : List Node}
      (value : Value (skipWhite text) item mid) (comma : skipWhite mid = ',' :: more)
      (tail : Elements more items rest) : Elements text (item :: items) rest

/-- The members of an object, and its closing bracket. -/
inductive Members : List Char → List (List Char × Node) → List Char → Prop where
  | last {text body key colon value mid rest : List Char} {item : Node}
      (quote : skipWhite text = '"' :: body) (name : StringBody body key colon)
      (separator : skipWhite colon = ':' :: value) (node : Value (skipWhite value) item mid)
      (close : skipWhite mid = '\x7d' :: rest) : Members text [(key, item)] rest
  | next {text body key colon value mid more rest : List Char} {item : Node}
      {members : List (List Char × Node)} (quote : skipWhite text = '"' :: body)
      (name : StringBody body key colon) (separator : skipWhite colon = ':' :: value)
      (node : Value (skipWhite value) item mid) (comma : skipWhite mid = ',' :: more)
      (tail : Members more members rest) : Members text ((key, item) :: members) rest

end

/-- The whole text is one value. -/
def Document (text : List Char) (node : Node) : Prop :=
  ∃ rest, Value (skipWhite text) node rest ∧ skipWhite rest = []

/-- White space in front does not matter. -/
theorem skipWhite_append {white : List Char} (h : ∀ c ∈ white, isWhite c) (text : List Char) :
    skipWhite (white ++ text) = skipWhite text := List.dropWhile_append_of_pos h

/-- A text that begins with a token is not changed. -/
theorem skipWhite_cons {c : Char} (h : isWhite c = false) (text : List Char) :
    skipWhite (c :: text) = c :: text := List.dropWhile_cons_of_neg (by simp [h])

/-- Digits are tokens. -/
theorem isWhite_of_isDigit {c : Char} (h : c.isDigit) : isWhite c = false := by
  have hall : ∀ c ∈ [' ', '\t', '\n', '\r'], c.isDigit = false := by simp
  refine decide_eq_false fun hmem => ?_
  rw [hall c hmem] at h
  cases h

/-- The white space in front of the first token. -/
theorem exists_white (text : List Char) :
    ∃ white, (∀ c ∈ white, isWhite c) ∧ text = white ++ skipWhite text :=
  ⟨text.takeWhile isWhite, fun _ => List.mem_takeWhile_imp, List.takeWhile_append_dropWhile.symm⟩

/-- A number is made of ASCII characters. -/
theorem NumberText.ascii {text : List Char} (h : NumberText text) :
    ∀ c ∈ text, c.toNat < 128 := by
  have hdigits {digits : List Char} (h : Digits digits) : ∀ c ∈ digits, c.toNat < 128 := by
    intro c hc
    have hcode := toNat_of_isDigit (h.2 c hc)
    omega
  obtain ⟨minus, whole, fraction, exponent, rfl, hminus, hwhole, hfraction, hexponent⟩ := h
  simp only [List.forall_mem_append]
  refine ⟨⟨⟨?_, ?_⟩, ?_⟩, ?_⟩
  · rcases hminus with rfl | rfl <;> simp
  · rcases hwhole with rfl | ⟨hwhole, -⟩
    · simp
    · exact hdigits hwhole
  · rcases hfraction with rfl | ⟨digits, rfl, hfraction⟩
    · simp
    · exact List.forall_mem_cons.mpr ⟨by decide, hdigits hfraction⟩
  · rcases hexponent with rfl | ⟨e, sign, digits, rfl, he, hsign, hexponent⟩
    · simp
    · rw [List.cons_append, List.forall_mem_cons, List.forall_mem_append]
      refine ⟨?_, ?_, hdigits hexponent⟩
      · have hall : ∀ e ∈ ['e', 'E'], e.toNat < 128 := by simp
        exact hall e he
      · have hall : ∀ sign ∈ [[], ['+'], ['-']], ∀ c ∈ sign, Char.toNat c < 128 := by simp
        exact hall sign hsign

/-- A number begins with a digit or a minus sign. -/
theorem NumberText.head {text : List Char} (h : NumberText text) :
    ∃ c rest, text = c :: rest ∧ (c = '-' ∨ c.isDigit) := by
  obtain ⟨minus, whole, fraction, exponent, rfl, hminus, hwhole, -, -⟩ := h
  have hne : ∃ c rest, whole = c :: rest ∧ c.isDigit := by
    rcases hwhole with rfl | ⟨⟨hne, hdigits⟩, -⟩
    · exact ⟨'0', [], rfl, by decide⟩
    · obtain ⟨c, rest, rfl⟩ := List.exists_cons_of_ne_nil hne
      exact ⟨c, rest, rfl, hdigits c List.mem_cons_self⟩
  obtain ⟨c, rest, rfl, hc⟩ := hne
  rcases hminus with rfl | rfl
  · exact ⟨c, rest ++ fraction ++ exponent, by simp, .inr hc⟩
  · exact ⟨'-', c :: rest ++ fraction ++ exponent, by simp, .inl rfl⟩

/-- A number does not begin with white space. -/
theorem NumberText.skipWhite {text : List Char} (h : NumberText text) (more : List Char) :
    JsonText.skipWhite (text ++ more) = text ++ more := by
  obtain ⟨c, rest, rfl, hc⟩ := h.head
  refine skipWhite_cons ?_ _
  rcases hc with rfl | hc
  · rfl
  · exact isWhite_of_isDigit hc

/-- A number does not begin with a bracket or a quotation mark. -/
theorem NumberText.ne_cons {text rest text' : List Char} {c : Char} (h : NumberText text)
    (hc : c ≠ '-' ∧ c.isDigit = false) : text ++ rest ≠ c :: text' := by
  intro heq
  obtain ⟨x, more, rfl, hx⟩ := h.head
  obtain ⟨rfl, -⟩ := List.cons.inj heq
  rcases hx with rfl | hx
  · exact hc.1 rfl
  · simp [hc.2] at hx

/-- No value begins with white space. -/
theorem Value.skipWhite_eq {text rest : List Char} {node : Node} (h : Value text node rest) :
    skipWhite text = text := by
  cases h with
  | number text rest h => exact h.skipWhite rest
  | _ => exact skipWhite_cons rfl _

/-- A value takes up some text. -/
theorem Value.ne_nil {text rest : List Char} {node : Node} (h : Value text node rest) :
    text ≠ [] := by
  cases h with
  | number text rest h =>
      obtain ⟨c, more, rfl, -⟩ := h.head
      exact List.cons_ne_nil _ _
  | _ => exact List.cons_ne_nil _ _

/-- What begins with a quotation mark is a string. -/
theorem Value.of_quote {text rest : List Char} {node : Node} (h : Value ('"' :: text) node rest) :
    ∃ s, node = .string s ∧ StringBody text s rest := by
  generalize htext : '"' :: text = whole at h
  cases h with
  | string body =>
      obtain ⟨-, rfl⟩ := List.cons.inj htext
      exact ⟨_, rfl, body⟩
  | number _ _ h => exact absurd htext.symm (h.ne_cons (by decide))
  | nullLiteral | trueLiteral | falseLiteral | emptyArray | array | emptyObject | object =>
      cases (List.cons.inj htext).1

/-- What begins with a bracket is an array. -/
theorem Value.of_bracket {text rest : List Char} {node : Node} (h : Value ('[' :: text) node rest) :
    (node = .array [] ∧ skipWhite text = ']' :: rest) ∨
      ∃ items, node = .array items ∧ Elements text items rest := by
  generalize htext : '[' :: text = whole at h
  cases h with
  | emptyArray close =>
      obtain ⟨-, rfl⟩ := List.cons.inj htext
      exact .inl ⟨rfl, close⟩
  | array elements =>
      obtain ⟨-, rfl⟩ := List.cons.inj htext
      exact .inr ⟨_, rfl, elements⟩
  | number _ _ h => exact absurd htext.symm (h.ne_cons (by decide))
  | nullLiteral | trueLiteral | falseLiteral | string | emptyObject | object =>
      cases (List.cons.inj htext).1

/-- What begins with a brace is an object. -/
theorem Value.of_brace {text rest : List Char} {node : Node}
    (h : Value ('\x7b' :: text) node rest) :
    (node = .object [] ∧ skipWhite text = '\x7d' :: rest) ∨
      ∃ members, node = .object members ∧ Members text members rest := by
  generalize htext : '\x7b' :: text = whole at h
  cases h with
  | emptyObject close =>
      obtain ⟨-, rfl⟩ := List.cons.inj htext
      exact .inl ⟨rfl, close⟩
  | object members =>
      obtain ⟨-, rfl⟩ := List.cons.inj htext
      exact .inr ⟨_, rfl, members⟩
  | number _ _ h => exact absurd htext.symm (h.ne_cons (by decide))
  | nullLiteral | trueLiteral | falseLiteral | string | emptyArray | array =>
      cases (List.cons.inj htext).1

/-! ## Members that are strings -/

/-- A member that is a string, written without white space and without escapes. -/
def memberText (key s rest : List Char) : List Char :=
  '"' :: (key ++ '"' :: ':' :: '"' :: (s ++ '"' :: rest))

section MemberText

variable {text key s t rest : List Char} {members : List (List Char × Node)}

/-- A member written in this way has its key, and a string for its value that begins where it is
written. -/
theorem Members.of_memberText (hkey : ∀ c ∈ key, Plain c)
    (htext : skipWhite text = memberText key s t) (h : Members text members rest) :
    ∃ s' mid, StringBody (s ++ '"' :: t) s' mid ∧
      (members = [(key, .string s')] ∧ skipWhite mid = '\x7d' :: rest ∨
        ∃ more members', members = (key, .string s') :: members' ∧
          skipWhite mid = ',' :: more ∧ Members more members' rest) := by
  have hstart {body key' colon value mid : List Char} {item : Node}
      (quote : skipWhite text = '"' :: body) (name : StringBody body key' colon)
      (separator : skipWhite colon = ':' :: value) (node : Value (skipWhite value) item mid) :
      key' = key ∧ ∃ s', item = .string s' ∧ StringBody (s ++ '"' :: t) s' mid := by
    obtain ⟨-, rfl⟩ := List.cons.inj (htext.symm.trans quote)
    obtain ⟨rfl, rfl⟩ := (stringBody_plain_iff hkey).mp name
    obtain ⟨-, rfl⟩ := List.cons.inj separator
    exact ⟨rfl, node.of_quote⟩
  cases h with
  | last quote name separator node close =>
      obtain ⟨rfl, s', rfl, body⟩ := hstart quote name separator node
      exact ⟨s', _, body, .inl ⟨rfl, close⟩⟩
  | next quote name separator node comma tail =>
      obtain ⟨rfl, s', rfl, body⟩ := hstart quote name separator node
      exact ⟨s', _, body, .inr ⟨_, _, rfl, comma, tail⟩⟩

section Read

variable (hkey : ∀ c ∈ key, Plain c) (ht : Guarded t)
  (htext : skipWhite text = memberText key s t) (h : Members text members rest)
  (hread : ∀ s' mid, StringBody (s ++ '"' :: t) s' mid → (key, .string s') ∈ members → s' = s)
include hkey ht htext h hread

/-- A member whose value is read as it stands there is plain. -/
theorem Members.of_memberText_self :
    (∀ c ∈ s, Plain c) ∧
      (members = [(key, .string s)] ∧ skipWhite t = '\x7d' :: rest ∨
        ∃ more members', members = (key, .string s) :: members' ∧
          skipWhite t = ',' :: more ∧ Members more members' rest) := by
  obtain ⟨s', mid, hbody, hrest⟩ := h.of_memberText hkey htext
  have hmem : (key, .string s') ∈ members := by
    -- it is the first member in either case
    rcases hrest with ⟨rfl, -⟩ | ⟨_, _, rfl, -⟩ <;> simp
  obtain rfl : s' = s := hread s' mid hbody hmem
  have hplain : ∀ c ∈ s', Plain c := plain_of_stringBody hbody ht
  obtain ⟨-, rfl⟩ := (stringBody_plain_iff hplain).mp hbody
  exact ⟨hplain, hrest⟩

/-- Before a comma, such a member is followed by others. -/
theorem Members.of_memberText_comma {more : List Char} (comma : skipWhite t = ',' :: more) :
    (∀ c ∈ s, Plain c) ∧
      ∃ members', members = (key, .string s) :: members' ∧ Members more members' rest := by
  obtain ⟨hplain, hrest⟩ := h.of_memberText_self hkey ht htext hread
  rcases hrest with ⟨-, hclose⟩ | ⟨more', members', rfl, hcomma, hmembers⟩
  · cases (List.cons.inj (comma.symm.trans hclose)).1
  · obtain ⟨-, rfl⟩ := List.cons.inj (comma.symm.trans hcomma)
    exact ⟨hplain, members', rfl, hmembers⟩

/-- Before a brace, such a member is the last one. -/
theorem Members.of_memberText_close {more : List Char} (close : skipWhite t = '\x7d' :: more) :
    (∀ c ∈ s, Plain c) ∧ members = [(key, .string s)] ∧ rest = more := by
  obtain ⟨hplain, hrest⟩ := h.of_memberText_self hkey ht htext hread
  rcases hrest with ⟨hmembers, hclose⟩ | ⟨_, _, -, hcomma, -⟩
  · obtain ⟨-, rfl⟩ := List.cons.inj (close.symm.trans hclose)
    exact ⟨hplain, hmembers, rfl⟩
  · cases (List.cons.inj (close.symm.trans hcomma)).1

end Read

section Plain

variable (hkey : ∀ c ∈ key, Plain c) (hs : ∀ c ∈ s, Plain c)
  (htext : skipWhite text = memberText key s t)
include hkey hs htext

/-- A plain member before a brace. -/
theorem Members.last_memberText (close : skipWhite t = '\x7d' :: rest) :
    Members text [(key, .string s)] rest := by
  have hname := (stringBody_plain_iff (t := ':' :: '"' :: (s ++ '"' :: t)) hkey).mpr ⟨rfl, rfl⟩
  have hbody := (stringBody_plain_iff (t := t) hs).mpr ⟨rfl, rfl⟩
  exact .last htext hname rfl (.string hbody) close

/-- A plain member before a comma. -/
theorem Members.next_memberText {more : List Char} (comma : skipWhite t = ',' :: more)
    (tail : Members more members rest) : Members text ((key, .string s) :: members) rest := by
  have hname := (stringBody_plain_iff (t := ':' :: '"' :: (s ++ '"' :: t)) hkey).mpr ⟨rfl, rfl⟩
  have hbody := (stringBody_plain_iff (t := t) hs).mpr ⟨rfl, rfl⟩
  exact .next htext hname rfl (.string hbody) comma tail

end Plain

end MemberText

end JsonText
