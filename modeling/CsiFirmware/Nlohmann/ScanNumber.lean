import CsiFirmware.Lib.JsonText
import Mathlib.Data.List.Basic

/-!
# Numbers of the JSON library

Reference: `nlohmann::detail::lexer::scan_number`.

The function is a state machine with one label for each state. `NumberState.Scanned` is what the
text read so far looks like at a label; it carries the scan of a number (`scanNumber_sound`), and a
number of JSON is scanned up to its end (`scanNumber_complete`).
-/

namespace CsiFirmware.Nlohmann

open JsonText

/-- The labels of `scan_number`. -/
inductive NumberState where
  | init
  | minus
  | zero
  | any1
  | decimal1
  | decimal2
  | exponent
  | sign
  | any2
deriving DecidableEq

/-- Where a character leads; without a transition the number ends, or is in error. -/
def NumberState.next : NumberState → Char → Option NumberState
  | .init, c =>
      if c = '-' then some .minus else if c = '0' then some .zero
      else if c.isDigit then some .any1 else none
  | .minus, c => if c = '0' then some .zero else if c.isDigit then some .any1 else none
  | .zero, c =>
      if c = '.' then some .decimal1 else if c = 'e' ∨ c = 'E' then some .exponent else none
  | .any1, c =>
      if c.isDigit then some .any1 else if c = '.' then some .decimal1
      else if c = 'e' ∨ c = 'E' then some .exponent else none
  | .decimal1, c => if c.isDigit then some .decimal2 else none
  | .decimal2, c =>
      if c.isDigit then some .decimal2 else if c = 'e' ∨ c = 'E' then some .exponent else none
  | .exponent, c =>
      if c = '+' ∨ c = '-' then some .sign else if c.isDigit then some .any2 else none
  | .sign, c => if c.isDigit then some .any2 else none
  | .any2, c => if c.isDigit then some .any2 else none

/-- Any other character leads to `scan_number_done`. -/
def NumberState.done : NumberState → Bool
  | .zero | .any1 | .decimal2 | .any2 => true
  | _ => false

/-- `number_type`. -/
inductive NumberType where
  | unsigned
  | integer
  | float
deriving DecidableEq

/-- The type after the label was reached. -/
def NumberType.enter (type : NumberType) : NumberState → NumberType
  | .minus => .integer
  | .decimal1 | .exponent => .float
  | _ => type

/-- `scan_number` from a label on, up to `scan_number_done`: the type of the number, what is in
`token_buffer`, and the input after it. -/
def scanNumber (state : NumberState) (type : NumberType) (buffer : List Char) :
    List Char → Option (NumberType × List Char × List Char)
  | current :: input =>
      match state.next current with
      | some state => scanNumber state (type.enter state) (buffer ++ [current]) input
      | none => if state.done then some (type, buffer, current :: input) else none
  | [] => if state.done then some (type, buffer, []) else none

/-- The type of a number, by its text. -/
def numberType (text : List Char) : NumberType :=
  if text.any (· ∈ ['.', 'e', 'E']) then .float
  else if text.head? = some '-' then .integer
  else .unsigned

/-- A point or an `e` makes a float. -/
theorem numberType_append_of_mem {text : List Char} {c : Char} (hc : c ∈ ['.', 'e', 'E']) :
    numberType (text ++ [c]) = .float := by
  rw [numberType, if_pos]
  exact List.any_eq_true.mpr ⟨c, by simp, decide_eq_true hc⟩

/-- Any other character behind the first leaves the type. -/
theorem numberType_append_of_not_mem {text : List Char} {c : Char} (hne : text ≠ [])
    (hc : c ∉ ['.', 'e', 'E']) : numberType (text ++ [c]) = numberType text := by
  have hany : (text ++ [c]).any (· ∈ ['.', 'e', 'E']) = text.any (· ∈ ['.', 'e', 'E']) := by
    rw [List.any_append, List.any_cons, decide_eq_false hc, List.any_nil, Bool.or_false,
      Bool.or_false]
  rw [numberType, numberType, hany, List.head?_append_of_ne_nil _ hne]

/-- What is in `token_buffer` at a label. -/
def NumberState.Scanned : NumberState → List Char → Prop
  | .init, text => text = []
  | .minus, text => text = ['-']
  | .zero, text => ∃ minus, (minus = [] ∨ minus = ['-']) ∧ text = minus ++ ['0']
  | .any1, text => ∃ minus whole, (minus = [] ∨ minus = ['-']) ∧ Digits whole ∧
      whole.head? ≠ some '0' ∧ text = minus ++ whole
  | .decimal1, text => ∃ minus whole, (minus = [] ∨ minus = ['-']) ∧
      (whole = ['0'] ∨ Digits whole ∧ whole.head? ≠ some '0') ∧ text = minus ++ whole ++ ['.']
  | .decimal2, text => ∃ minus whole digits, (minus = [] ∨ minus = ['-']) ∧
      (whole = ['0'] ∨ Digits whole ∧ whole.head? ≠ some '0') ∧ Digits digits ∧
      text = minus ++ whole ++ '.' :: digits
  | .exponent, text => ∃ mantissa e, Mantissa mantissa ∧ e ∈ ['e', 'E'] ∧ text = mantissa ++ [e]
  | .sign, text => ∃ mantissa e sign, Mantissa mantissa ∧ e ∈ ['e', 'E'] ∧ sign ∈ ['+', '-'] ∧
      text = mantissa ++ [e, sign]
  | .any2, text => ∃ mantissa e sign digits, Mantissa mantissa ∧ e ∈ ['e', 'E'] ∧
      sign ∈ [[], ['+'], ['-']] ∧ Digits digits ∧ text = mantissa ++ e :: sign ++ digits

/-- The labels without an exponent that a number may end at. -/
theorem NumberState.Scanned.mantissa {state : NumberState} {text : List Char}
    (h : state.Scanned text) (hdone : state.done) (hne : state ≠ .any2) : Mantissa text := by
  cases state with
  | zero =>
      obtain ⟨minus, hminus, rfl⟩ := h
      exact ⟨minus, ['0'], [], (List.append_nil _).symm, hminus, .inl rfl, .inl rfl⟩
  | any1 =>
      obtain ⟨minus, whole, hminus, hwhole, hhead, rfl⟩ := h
      exact ⟨minus, whole, [], (List.append_nil _).symm, hminus, .inr ⟨hwhole, hhead⟩, .inl rfl⟩
  | decimal2 =>
      obtain ⟨minus, whole, digits, hminus, hwhole, hdigits, rfl⟩ := h
      exact ⟨minus, whole, _, rfl, hminus, hwhole, .inr ⟨digits, rfl, hdigits⟩⟩
  | any2 => exact absurd rfl hne
  | init | minus | decimal1 | exponent | sign => cases hdone

/-- At a label where it may end, the text is a number. -/
theorem NumberState.Scanned.numberText {state : NumberState} {text : List Char}
    (h : state.Scanned text) (hdone : state.done) : NumberText text := by
  rw [numberText_iff]
  by_cases hany : state = .any2
  · subst hany
    obtain ⟨mantissa, e, sign, digits, hmantissa, he, hsign, hdigits, rfl⟩ := h
    exact ⟨mantissa, _, hmantissa, by simp, .inr ⟨e, sign, digits, rfl, he, hsign, hdigits⟩⟩
  · exact ⟨text, [], h.mantissa hdone hany, (List.append_nil _).symm, .inl rfl⟩

/-- What one transition adds. -/
theorem NumberState.Scanned.next {state state' : NumberState} {text : List Char} {c : Char}
    (h : state.Scanned text) (hnext : state.next c = some state') :
    state'.Scanned (text ++ [c]) := by
  -- three of the labels lead to an exponent, all in the same way
  have hexponent : state.done → state ≠ .any2 → c = 'e' ∨ c = 'E' →
      NumberState.exponent.Scanned (text ++ [c]) :=
    fun hdone hne hc => ⟨text, c, h.mantissa hdone hne, by simpa using hc, rfl⟩
  cases state with
  | init =>
      obtain rfl : text = [] := h
      simp only [NumberState.next] at hnext
      split_ifs at hnext with hminus hzero hdigit <;> obtain rfl := Option.some.inj hnext
      · exact congrArg (fun c => [c]) hminus
      · exact ⟨[], .inl rfl, congrArg (fun c => [c]) hzero⟩
      · exact ⟨[], [c], .inl rfl, digits_singleton hdigit, by simpa using hzero, rfl⟩
  | minus =>
      obtain rfl : text = ['-'] := h
      simp only [NumberState.next] at hnext
      split_ifs at hnext with hzero hdigit <;> obtain rfl := Option.some.inj hnext
      · exact ⟨['-'], .inr rfl, by rw [hzero]⟩
      · exact ⟨['-'], [c], .inr rfl, digits_singleton hdigit, by simpa using hzero, rfl⟩
  | zero =>
      simp only [NumberState.next] at hnext
      split_ifs at hnext with hpoint he <;> obtain rfl := Option.some.inj hnext
      · obtain ⟨minus, hminus, rfl⟩ := h
        exact ⟨minus, ['0'], hminus, .inl rfl, by rw [hpoint]⟩
      · exact hexponent rfl (by decide) he
  | any1 =>
      simp only [NumberState.next] at hnext
      split_ifs at hnext with hdigit hpoint he <;> obtain rfl := Option.some.inj hnext
      · obtain ⟨minus, whole, hminus, hwhole, hhead, rfl⟩ := h
        refine ⟨minus, whole ++ [c], hminus, hwhole.append hdigit, ?_, List.append_assoc _ _ _⟩
        rw [List.head?_append_of_ne_nil _ hwhole.1]
        exact hhead
      · obtain ⟨minus, whole, hminus, hwhole, hhead, rfl⟩ := h
        exact ⟨minus, whole, hminus, .inr ⟨hwhole, hhead⟩, by rw [hpoint]⟩
      · exact hexponent rfl (by decide) he
  | decimal1 =>
      simp only [NumberState.next] at hnext
      split_ifs at hnext with hdigit
      obtain rfl := Option.some.inj hnext
      obtain ⟨minus, whole, hminus, hwhole, rfl⟩ := h
      exact ⟨minus, whole, [c], hminus, hwhole, digits_singleton hdigit, by simp⟩
  | decimal2 =>
      simp only [NumberState.next] at hnext
      split_ifs at hnext with hdigit he <;> obtain rfl := Option.some.inj hnext
      · obtain ⟨minus, whole, digits, hminus, hwhole, hdigits, rfl⟩ := h
        exact ⟨minus, whole, digits ++ [c], hminus, hwhole, hdigits.append hdigit, by simp⟩
      · exact hexponent rfl (by decide) he
  | exponent =>
      obtain ⟨mantissa, e, hmantissa, he, rfl⟩ := h
      simp only [NumberState.next] at hnext
      split_ifs at hnext with hsign hdigit <;> obtain rfl := Option.some.inj hnext
      · exact ⟨mantissa, e, c, hmantissa, he, by simpa using hsign, by simp⟩
      · exact ⟨mantissa, e, [], [c], hmantissa, he, by simp, digits_singleton hdigit, by simp⟩
  | sign =>
      obtain ⟨mantissa, e, sign, hmantissa, he, hsign, rfl⟩ := h
      simp only [NumberState.next] at hnext
      split_ifs at hnext with hdigit
      obtain rfl := Option.some.inj hnext
      refine ⟨mantissa, e, [sign], [c], hmantissa, he, ?_, digits_singleton hdigit, by simp⟩
      simpa using hsign
  | any2 =>
      obtain ⟨mantissa, e, sign, digits, hmantissa, he, hsign, hdigits, rfl⟩ := h
      simp only [NumberState.next] at hnext
      split_ifs at hnext with hdigit
      obtain rfl := Option.some.inj hnext
      exact ⟨mantissa, e, sign, digits ++ [c], hmantissa, he, hsign, hdigits.append hdigit, by simp⟩

/-- The other characters of numbers are no digits. -/
theorem not_isDigit_of_mem {c : Char} (h : c ∈ ['.', 'e', 'E', '+', '-']) : c.isDigit = false := by
  have hall : ∀ c ∈ ['.', 'e', 'E', '+', '-'], c.isDigit = false := by simp
  exact hall c h

/-- What a transition makes of the type: a point or an `e` makes a float, and a minus at the
beginning an integer. -/
theorem NumberState.next_cases {state state' : NumberState} {c : Char}
    (h : state.next c = some state') :
    c ∈ ['.', 'e', 'E'] ∧ (∀ type : NumberType, type.enter state' = .float) ∨
      c ∉ ['.', 'e', 'E'] ∧ (∀ type : NumberType, type.enter state' = type) ∧
        (state = .init → c ≠ '-') ∨
      state = .init ∧ c = '-' ∧ state' = .minus := by
  have hdigit : c.isDigit → c ∉ ['.', 'e', 'E'] ∧ c ≠ '-' := by
    intro hc
    constructor
    · intro hmem
      have hnot := not_isDigit_of_mem (List.mem_append_left ['+', '-'] hmem)
      simp [hnot] at hc
    · rintro rfl
      cases hc
  cases state <;> simp only [NumberState.next] at h <;> split_ifs at h <;>
    obtain rfl := Option.some.inj h <;> simp_all [NumberType.enter]
  next hsign => rcases hsign with rfl | rfl <;> simp

/-- The type goes with the text. -/
theorem numberType_next {state state' : NumberState} {text : List Char} {c : Char}
    (h : state.Scanned text) (hinit : text = [] → state = .init)
    (hnext : state.next c = some state') :
    (numberType text).enter state' = numberType (text ++ [c]) := by
  rcases state.next_cases hnext with ⟨hc, hfloat⟩ | ⟨hc, hsame, hminus⟩ | ⟨rfl, rfl, rfl⟩
  · rw [numberType_append_of_mem hc, hfloat]
  · rw [hsame]
    by_cases hne : text = []
    · obtain rfl := hne
      have hminus : c ≠ '-' := hminus (hinit rfl)
      rw [List.nil_append, numberType, numberType, if_neg (by simp), if_neg (by simp),
        if_neg (by simpa using hc), if_neg (by simpa using hminus)]
    · exact (numberType_append_of_not_mem hne hc).symm
  · obtain rfl : text = [] := h
    decide

/-- Behind every label but the first there is some text. -/
theorem NumberState.Scanned.eq_init {state : NumberState} (h : state.Scanned []) :
    state = .init := by
  cases state with
  | init => rfl
  | minus => cases h
  | zero | any1 | decimal1 | decimal2 | exponent | sign | any2 =>
      simp [NumberState.Scanned, Digits] at h

/-- A number that is scanned is a number of JSON. -/
theorem scanNumber_sound {state : NumberState} {type type' : NumberType}
    {buffer input text rest : List Char} (hscanned : state.Scanned buffer)
    (htype : type = numberType buffer)
    (h : scanNumber state type buffer input = some (type', text, rest)) :
    buffer ++ input = text ++ rest ∧ NumberText text ∧ type' = numberType text := by
  induction input generalizing state type buffer with
  | nil =>
      rw [scanNumber] at h
      split_ifs at h with hdone
      obtain ⟨rfl, rfl, rfl⟩ : type = type' ∧ buffer = text ∧ [] = rest := by simpa using h
      exact ⟨rfl, hscanned.numberText hdone, htype⟩
  | cons current input ih =>
      rw [scanNumber] at h
      split at h
      next state' hnext =>
        subst htype
        obtain ⟨heq, htext⟩ := ih (hscanned.next hnext)
          (numberType_next hscanned (fun hnil => by
            subst hnil
            exact hscanned.eq_init) hnext) h
        rw [List.append_assoc, List.singleton_append] at heq
        exact ⟨heq, htext⟩
      next =>
        split_ifs at h with hdone
        obtain ⟨rfl, rfl, rfl⟩ : type = type' ∧ buffer = text ∧ current :: input = rest := by
          simpa using h
        exact ⟨rfl, hscanned.numberText hdone, htype⟩

/-! A number that is a number of JSON is scanned. -/

/-- Nothing that could go on a number. -/
def Delimited (rest : List Char) : Prop :=
  ∀ c ∈ rest.head?, c ∈ [' ', '\t', '\n', '\r', ',', ']', '\x7d', '\x00']

/-- White space in front of such a rest is one too. -/
theorem Delimited.white {white rest : List Char} (hwhite : ∀ c ∈ white, isWhite c)
    (hrest : Delimited rest) : Delimited (white ++ rest) := by
  cases white with
  | nil => exact hrest
  | cons w white =>
      rintro _ ⟨⟩
      have hw : isWhite w := hwhite w List.mem_cons_self
      exact List.mem_append_left [',', ']', '\x7d', '\x00'] (of_decide_eq_true hw)

/-- There the scan ends. -/
theorem scanNumber_delimited {state : NumberState} (hdone : state.done) {rest : List Char}
    (hrest : Delimited rest) (type : NumberType) (buffer : List Char) :
    scanNumber state type buffer rest = some (type, buffer, rest) := by
  cases rest with
  | nil => rw [scanNumber, if_pos hdone]
  | cons c rest =>
      have hnone : state.next c = none := by
        have hc := hrest c rfl
        -- none of these goes on a number, at whatever label it may end
        have hall : ∀ c ∈ [' ', '\t', '\n', '\r', ',', ']', '\x7d', '\x00'],
            state.next c = none := by
          cases state with
          | zero | any1 | decimal2 | any2 => simp [NumberState.next]
          | init | minus | decimal1 | exponent | sign => cases hdone
        exact hall c hc
      rw [scanNumber, hnone]
      exact if_pos hdone

/-- The scan follows the transitions over a text. -/
theorem scanNumber_append {state state' : NumberState} {text : List Char}
    (h : text.foldlM NumberState.next state = some state') (type : NumberType)
    (buffer rest : List Char) :
    ∃ type', scanNumber state type buffer (text ++ rest) =
      scanNumber state' type' (buffer ++ text) rest := by
  induction text generalizing state type buffer with
  | nil =>
      obtain rfl := Option.some.inj h
      exact ⟨type, by simp⟩
  | cons c text ih =>
      rw [List.foldlM_cons, Option.bind_eq_bind, Option.bind_eq_some_iff] at h
      obtain ⟨next, hnext, h⟩ := h
      obtain ⟨type', heq⟩ := ih h (type.enter next) (buffer ++ [c])
      refine ⟨type', ?_⟩
      rw [List.cons_append, scanNumber, hnext]
      simpa using heq

/-- Digits lead to a label that they do not leave. -/
theorem foldlM_digits {state state' : NumberState} {digits : List Char} (h : Digits digits)
    (hfirst : ∀ c, c.isDigit → state.next c = some state')
    (hstay : ∀ c, c.isDigit → state'.next c = some state') :
    digits.foldlM NumberState.next state = some state' := by
  have hrest : ∀ digits : List Char, (∀ c ∈ digits, c.isDigit) →
      digits.foldlM NumberState.next state' = some state' := by
    intro digits hdigits
    induction digits with
    | nil => rfl
    | cons c digits ih =>
        rw [List.forall_mem_cons] at hdigits
        rw [List.foldlM_cons, hstay c hdigits.1]
        exact ih hdigits.2
  obtain ⟨c, digits, rfl⟩ := List.exists_cons_of_ne_nil h.1
  have hdigits : c.isDigit ∧ ∀ c ∈ digits, c.isDigit := List.forall_mem_cons.mp h.2
  rw [List.foldlM_cons, hfirst c hdigits.1]
  exact hrest digits hdigits.2

/-- The transitions over the whole part. -/
theorem foldlM_whole {minus whole : List Char} (hminus : minus = [] ∨ minus = ['-'])
    (h : whole = ['0'] ∨ Digits whole ∧ whole.head? ≠ some '0') :
    (minus ++ whole).foldlM NumberState.next .init = some .zero ∨
      (minus ++ whole).foldlM NumberState.next .init = some .any1 := by
  -- with a minus or without, the next character leads to the same label
  obtain ⟨state, hrun, hstate⟩ : ∃ state, minus.foldlM NumberState.next .init = some state ∧
      (state = .init ∨ state = .minus) := by
    rcases hminus with rfl | rfl
    · exact ⟨.init, rfl, .inl rfl⟩
    · exact ⟨.minus, rfl, .inr rfl⟩
  rw [List.foldlM_append, hrun]
  rcases h with rfl | ⟨hdigits, hhead⟩
  · left
    rcases hstate with rfl | rfl <;> rfl
  · right
    obtain ⟨c, digits, rfl⟩ := List.exists_cons_of_ne_nil hdigits.1
    obtain ⟨hc, hdigits⟩ : c.isDigit ∧ ∀ c ∈ digits, c.isDigit := List.forall_mem_cons.mp hdigits.2
    have hzero : c ≠ '0' := by simpa using hhead
    have hminus : c ≠ '-' := by
      rintro rfl
      cases hc
    have hnext : state.next c = some .any1 := by
      rcases hstate with rfl | rfl <;> simp [NumberState.next, hc, hzero, hminus]
    show List.foldlM NumberState.next state (c :: digits) = _
    rw [List.foldlM_cons, hnext]
    show List.foldlM NumberState.next .any1 digits = _
    by_cases hnil : digits = []
    · subst hnil
      rfl
    · exact foldlM_digits ⟨hnil, hdigits⟩ (by simp +contextual [NumberState.next])
        (by simp +contextual [NumberState.next])

/-- The transitions over the mantissa, behind which an exponent may follow. -/
theorem foldlM_mantissa {mantissa : List Char} (h : Mantissa mantissa) :
    ∃ state, mantissa.foldlM NumberState.next .init = some state ∧ state.done ∧
      ∀ e ∈ ['e', 'E'], state.next e = some .exponent := by
  obtain ⟨minus, whole, fraction, rfl, hminus, hwhole, hfraction⟩ := h
  obtain ⟨state, hrun, hstate⟩ : ∃ state,
      (minus ++ whole).foldlM NumberState.next .init = some state ∧
        (state = .zero ∨ state = .any1) := by
    rcases foldlM_whole hminus hwhole with hrun | hrun
    · exact ⟨_, hrun, .inl rfl⟩
    · exact ⟨_, hrun, .inr rfl⟩
  rcases hfraction with rfl | ⟨digits, rfl, hdigits⟩
  · rw [List.append_nil]
    refine ⟨state, hrun, ?_, ?_⟩
    · rcases hstate with rfl | rfl <;> rfl
    · rcases hstate with rfl | rfl <;> simp [NumberState.next]
  · refine ⟨.decimal2, ?_, rfl, by simp [NumberState.next]⟩
    rw [List.foldlM_append, hrun]
    show List.foldlM NumberState.next state ('.' :: digits) = _
    have hpoint : state.next '.' = some .decimal1 := by
      rcases hstate with rfl | rfl <;> rfl
    rw [List.foldlM_cons, hpoint]
    exact foldlM_digits hdigits (by simp +contextual [NumberState.next])
      (by simp +contextual [NumberState.next])

/-- The transitions over a number end at a label where it may end. -/
theorem foldlM_numberText {text : List Char} (h : NumberText text) :
    ∃ state, text.foldlM NumberState.next .init = some state ∧ state.done := by
  obtain ⟨mantissa, exponent, hmantissa, rfl, hexponent⟩ := numberText_iff.mp h
  obtain ⟨state, hrun, hdone, hnext⟩ := foldlM_mantissa hmantissa
  rcases hexponent with rfl | ⟨e, sign, digits, rfl, he, hsign, hdigits⟩
  · rw [List.append_nil]
    exact ⟨state, hrun, hdone⟩
  · refine ⟨.any2, ?_, rfl⟩
    have hstay : ∀ c, c.isDigit → NumberState.any2.next c = some .any2 := by
      simp +contextual [NumberState.next]
    rw [List.foldlM_append, hrun]
    show List.foldlM NumberState.next state (e :: sign ++ digits) = _
    rw [List.cons_append, List.foldlM_cons, hnext e he]
    show List.foldlM NumberState.next .exponent (sign ++ digits) = _
    simp only [List.mem_cons, List.not_mem_nil, or_false] at hsign
    rcases hsign with rfl | rfl | rfl
    · -- without a sign the digits come at once
      refine foldlM_digits hdigits (fun c hc => ?_) hstay
      have hsigned : ¬(c = '+' ∨ c = '-') := by
        rintro (rfl | rfl) <;> cases hc
      rw [NumberState.next, if_neg hsigned, if_pos hc]
    all_goals
      show List.foldlM NumberState.next .sign digits = _
      exact foldlM_digits hdigits (by simp +contextual [NumberState.next]) hstay

/-- A number of JSON is scanned up to its end. -/
theorem scanNumber_complete {text rest : List Char} (h : NumberText text)
    (hrest : Delimited rest) :
    scanNumber .init .unsigned [] (text ++ rest) = some (numberType text, text, rest) := by
  obtain ⟨state, hrun, hdone⟩ := foldlM_numberText h
  obtain ⟨type, hscan⟩ := scanNumber_append hrun .unsigned [] rest
  rw [scanNumber_delimited hdone hrest, List.nil_append] at hscan
  have hinit : NumberState.init.Scanned [] := rfl
  obtain ⟨-, -, htype⟩ := scanNumber_sound hinit rfl hscan
  rw [hscan, htype]

end CsiFirmware.Nlohmann
