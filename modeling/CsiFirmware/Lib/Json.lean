import CsiFirmware.Lib.CInt

/-!
# JSON values

The values of `nlohmann::json` and how a program reads them: `operator[]` on an object, `get<int>`
and `get<std::string>`. An exception is `none`. Reading and writing text is left to a `Codec`; what
a program relies on there is `Codec.Lawful`.

`operator[]` on a mutable value inserts a null where a key is missing, and makes an object of a
null. A program that only reads cannot tell this from a null that was there before, so `member`
returns it and leaves the value as it is.
-/

/-- A `nlohmann::json` value. -/
inductive Json where
  | null
  | boolean (b : Bool)
  | numberInteger (i : Int)
  | numberUnsigned (n : ℕ)
  /-- A finite floating-point number, by its value. -/
  | numberFloat (q : ℚ)
  | string (s : String)
  | array (items : List Json)
  /-- The members in the order of their keys. -/
  | object (members : List (String × Json))

namespace Json

open CInt

/-- As nlohmann's `is_object`. -/
def isObject : Json → Bool
  | .object _ => true
  | _ => false

/-- `j[key]`. -/
def member (key : String) : Json → Option Json
  | .object members => some ((members.lookup key).getD .null)
  | .null => some .null
  | _ => none

/-- The values that a range-based `for` goes through. -/
def items : Json → List Json
  | .array items => items
  | .object members => members.map Prod.snd
  | .null => []
  | j => [j]

/-- The elements of an array; a value that is no array has none. -/
def elements : Json → List Json
  | .array items => items
  | _ => []

/-- `get<std::string>()`. -/
def getString : Json → Option String
  | .string s => some s
  | _ => none

/-- Only strings are converted to strings. -/
theorem getString_eq_some_iff {j : Json} {s : String} : j.getString = some s ↔ j = .string s := by
  constructor
  · intro h
    cases j with
    | string t => exact congrArg Json.string (Option.some.inj h)
    | null | boolean | numberInteger | numberUnsigned | numberFloat | array | object => cases h
  · rintro rfl
    rfl

/-- `get<int>()`. -/
def getInt (p : Platform) : Json → Option Int
  | .numberInteger i => some (wrap i)
  | .numberUnsigned n => some (wrap n)
  | .numberFloat q => some (p.castFloat q)
  | .boolean b => some (if b then 1 else 0)
  | _ => none

/-- The value of a number. -/
def number? : Json → Option ℚ
  | .numberInteger i => some i
  | .numberUnsigned n => some n
  | .numberFloat q => some q
  | _ => none

/-- A number whose value is an `int` is read as that `int`. -/
theorem getInt_of_number? {p : Platform} {j : Json} {k : Int} (hk : InRange k)
    (h : j.number? = some (k : ℚ)) : j.getInt p = some k := by
  cases j with
  | numberInteger i =>
      have hik : i = k := by exact_mod_cast Option.some.inj h
      rw [hik, getInt, wrap_of_inRange hk]
  | numberUnsigned n =>
      have hnk : (n : Int) = k := by exact_mod_cast Option.some.inj h
      rw [getInt, hnk, wrap_of_inRange hk]
  | numberFloat q =>
      have hqk : q = k := Option.some.inj h
      rw [hqk, getInt, Platform.castFloat_intCast hk]
  | null => cases h
  | boolean b => cases h
  | string s => cases h
  | array items => cases h
  | object members => cases h

/-- The value is not the number `k`, but is converted to it. -/
def Misread (p : Platform) (k : Int) : Json → Prop
  | .numberInteger i => i ≠ k ∧ 2 ^ 32 ∣ i - k
  | .numberUnsigned n => (n : Int) ≠ k ∧ 2 ^ 32 ∣ (n : Int) - k
  | .numberFloat q => q ≠ k ∧ p.castFloat q = k
  | .boolean b => k = if b then 1 else 0
  | _ => False

/-- An `int` that is read is the number that was there, unless a conversion made it. -/
theorem getInt_eq_some_iff {p : Platform} {j : Json} {k : Int} (hk : InRange k) :
    j.getInt p = some k ↔ j.number? = some (k : ℚ) ∨ j.Misread p k := by
  cases j with
  | numberInteger i =>
      have hnumber : (i : ℚ) = k ↔ i = k := Int.cast_inj
      simp only [getInt, number?, Misread, Option.some_inj, wrap_eq_iff hk, hnumber]
      by_cases hik : i = k
      · simp [hik]
      · simp [hik]
  | numberUnsigned n =>
      have hnumber : (n : ℚ) = k ↔ (n : Int) = k := by exact_mod_cast Iff.rfl
      simp only [getInt, number?, Misread, Option.some_inj, wrap_eq_iff hk, hnumber]
      by_cases hnk : (n : Int) = k
      · simp [hnk]
      · simp [hnk]
  | numberFloat q =>
      simp only [getInt, number?, Misread, Option.some_inj]
      by_cases hqk : q = k
      · simp [hqk, Platform.castFloat_intCast hk]
      · simp [hqk]
  | boolean b => simp [getInt, number?, Misread, eq_comm]
  | null => simp [getInt, number?, Misread]
  | string s => simp [getInt, number?, Misread]
  | array items => simp [getInt, number?, Misread]
  | object members => simp [getInt, number?, Misread]

/-- What is misread as `k` is not the number `k`. -/
theorem Misread.number?_ne {p : Platform} {j : Json} {k : Int} (h : j.Misread p k) :
    j.number? ≠ some (k : ℚ) := by
  intro hnumber
  cases j with
  | numberInteger i => exact h.1 (by exact_mod_cast Option.some.inj hnumber)
  | numberUnsigned n => exact h.1 (by exact_mod_cast Option.some.inj hnumber)
  | numberFloat q => exact h.1 (Option.some.inj hnumber)
  | boolean b => cases hnumber
  | null | string | array | object => exact h

/-! ## Strings -/

mutual

/-- All strings in a value, keys included. -/
def strings : Json → List String
  | .string s => [s]
  | .array items => itemStrings items
  | .object members => memberStrings members
  | _ => []

def itemStrings : List Json → List String
  | [] => []
  | j :: rest => j.strings ++ itemStrings rest

def memberStrings : List (String × Json) → List String
  | [] => []
  | (key, j) :: rest => key :: j.strings ++ memberStrings rest

end

/-- A string is the one string in it. -/
@[simp] theorem strings_string {s : String} : (string s).strings = [s] := by
  rw [strings]

/-- There are no strings in a number. -/
@[simp] theorem strings_numberInteger {i : Int} : (numberInteger i).strings = [] := by
  rw [strings]
  all_goals simp

/-- The keys count as strings. -/
@[simp] theorem strings_object {members : List (String × Json)} :
    (object members).strings = members.flatMap fun m => m.1 :: m.2.strings := by
  rw [strings]
  induction members with
  | nil => rw [memberStrings, List.flatMap_nil]
  | cons m rest ih => rw [memberStrings, List.flatMap_cons, ih]

/-- The strings of an array are those of its elements, in order. -/
@[simp] theorem strings_array {items : List Json} :
    (array items).strings = items.flatMap strings := by
  rw [strings]
  induction items with
  | nil => rw [itemStrings, List.flatMap_nil]
  | cons j rest ih => rw [itemStrings, List.flatMap_cons, ih]

/-! ## Values that are read back -/

mutual

/-- The members of every object are in the order of their keys, and no key occurs twice. -/
def Ordered : Json → Prop
  | .array items => OrderedItems items
  | .object members => members.Pairwise (·.1.toList < ·.1.toList) ∧ OrderedMembers members
  | _ => True

def OrderedItems : List Json → Prop
  | [] => True
  | j :: rest => j.Ordered ∧ OrderedItems rest

def OrderedMembers : List (String × Json) → Prop
  | [] => True
  | (_, j) :: rest => j.Ordered ∧ OrderedMembers rest

end

/-- No members, nothing to order. -/
@[simp] theorem ordered_string {s : String} : (string s).Ordered := by
  rw [Ordered]
  all_goals simp

/-- No members, nothing to order. -/
@[simp] theorem ordered_numberInteger {i : Int} : (numberInteger i).Ordered := by
  rw [Ordered]
  all_goals simp

/-- An array orders nothing itself. -/
@[simp] theorem ordered_array {items : List Json} :
    (array items).Ordered ↔ ∀ j ∈ items, j.Ordered := by
  rw [Ordered]
  induction items with
  | nil => simp [OrderedItems]
  | cons j rest ih => rw [OrderedItems, ih, List.forall_mem_cons]

/-- The keys of an object increase, and its values are ordered. -/
@[simp] theorem ordered_object {members : List (String × Json)} :
    (object members).Ordered ↔
      members.Pairwise (·.1.toList < ·.1.toList) ∧ ∀ m ∈ members, m.2.Ordered := by
  have hall : OrderedMembers members ↔ ∀ m ∈ members, m.2.Ordered := by
    induction members with
    | nil => simp [OrderedMembers]
    | cons m rest ih => rw [OrderedMembers, ih, List.forall_mem_cons]
  rw [Ordered, hall]

mutual

/-- The integers fit `std::int64_t` and `std::uint64_t`, and the floating-point numbers satisfy
`float`. -/
def Exact (float : ℚ → Prop) : Json → Prop
  | .numberInteger i => -2 ^ 63 ≤ i ∧ i < 2 ^ 63
  | .numberUnsigned n => n < 2 ^ 64
  | .numberFloat q => float q
  | .array items => ExactItems float items
  | .object members => ExactMembers float members
  | .null | .boolean _ | .string _ => True

def ExactItems (float : ℚ → Prop) : List Json → Prop
  | [] => True
  | j :: rest => j.Exact float ∧ ExactItems float rest

def ExactMembers (float : ℚ → Prop) : List (String × Json) → Prop
  | [] => True
  | (_, j) :: rest => j.Exact float ∧ ExactMembers float rest

end

section Exact

variable {float float' : ℚ → Prop}

@[simp] theorem exact_string {s : String} : (string s).Exact float := by
  rw [Exact]
  trivial

/-- A signed number has 64 bits. -/
@[simp] theorem exact_numberInteger {i : Int} :
    (numberInteger i).Exact float ↔ -2 ^ 63 ≤ i ∧ i < 2 ^ 63 := by
  rw [Exact]

/-- Every element is exact. -/
@[simp] theorem exact_array {items : List Json} :
    (array items).Exact float ↔ ∀ j ∈ items, j.Exact float := by
  rw [Exact]
  induction items with
  | nil => simp [ExactItems]
  | cons j rest ih => rw [ExactItems, ih, List.forall_mem_cons]

/-- Every value is exact. -/
@[simp] theorem exact_object {members : List (String × Json)} :
    (object members).Exact float ↔ ∀ m ∈ members, m.2.Exact float := by
  rw [Exact]
  induction members with
  | nil => simp [ExactMembers]
  | cons m rest ih => rw [ExactMembers, ih, List.forall_mem_cons]

mutual

/-- The condition on floating-point numbers can be weakened. -/
theorem Exact.mono (h : ∀ q, float q → float' q) :
    ∀ {j : Json}, j.Exact float → j.Exact float'
  | .null, _ | .boolean _, _ | .string _, _ => trivial
  | .numberInteger _, hj | .numberUnsigned _, hj => hj
  | .numberFloat q, hj => h q hj
  | .array _, hj => ExactItems.mono h hj
  | .object _, hj => ExactMembers.mono h hj

/-- The same for the elements of an array. -/
theorem ExactItems.mono (h : ∀ q, float q → float' q) :
    ∀ {items : List Json}, ExactItems float items → ExactItems float' items
  | [], _ => trivial
  | _ :: _, hitems => ⟨hitems.1.mono h, ExactItems.mono h hitems.2⟩

/-- The same for the members of an object. -/
theorem ExactMembers.mono (h : ∀ q, float q → float' q) :
    ∀ {members : List (String × Json)}, ExactMembers float members → ExactMembers float' members
  | [], _ => trivial
  | _ :: _, hmembers => ⟨hmembers.1.mono h, ExactMembers.mono h hmembers.2⟩

end

end Exact

mutual

/-- A value after it was written and read again: an integer that is not negative is unsigned. -/
def reread : Json → Json
  | .numberInteger i => if 0 ≤ i then .numberUnsigned i.toNat else .numberInteger i
  | .array items => .array (rereadItems items)
  | .object members => .object (rereadMembers members)
  | .null => .null
  | .boolean b => .boolean b
  | .numberUnsigned n => .numberUnsigned n
  | .numberFloat q => .numberFloat q
  | .string s => .string s

def rereadItems : List Json → List Json
  | [] => []
  | j :: rest => j.reread :: rereadItems rest

def rereadMembers : List (String × Json) → List (String × Json)
  | [] => []
  | (key, j) :: rest => (key, j.reread) :: rereadMembers rest

end

/-- Strings come back as they are. -/
@[simp] theorem reread_string {s : String} : (string s).reread = string s := by
  rw [reread]

/-- Elements come back one by one. -/
@[simp] theorem reread_array {items : List Json} :
    (array items).reread = array (items.map reread) := by
  rw [reread]
  induction items with
  | nil => rw [rereadItems, List.map_nil]
  | cons j rest ih => simpa [rereadItems] using ih

/-- Values come back one by one, under their keys. -/
@[simp] theorem reread_object {members : List (String × Json)} :
    (object members).reread = object (members.map fun m => (m.1, m.2.reread)) := by
  rw [reread]
  induction members with
  | nil => rw [rereadMembers, List.map_nil]
  | cons m rest ih => simpa [rereadMembers] using ih

/-! ## Text -/

/-- The operations between values and text. -/
structure Codec where
  /-- `json::parse`. -/
  parse : String → Option Json
  /-- `dump()`. -/
  dump : Json → Option String
  /-- `dump(4)`. -/
  dumpIndented : Json → Option String
  /-- Whether the bytes of a `std::string` are UTF-8. -/
  utf8 : String → Bool

/-- Values are written unless they contain a string that is not UTF-8. -/
structure Codec.Lawful (c : Codec) : Prop where
  utf8_ascii : ∀ s : String, (∀ ch ∈ s.toList, ch.toNat < 128) → c.utf8 s
  dump_isSome : ∀ j, (c.dump j).isSome ↔ ∀ s ∈ j.strings, c.utf8 s
  dumpIndented_isSome : ∀ j, (c.dumpIndented j).isSome ↔ ∀ s ∈ j.strings, c.utf8 s
  utf8_dumpIndented : ∀ j text, c.dumpIndented j = some text → c.utf8 text
  dump_ne_empty : ∀ j, c.dump j ≠ some ""

/-- A value that was written is read back, if its numbers are integers that fit their types. -/
def Codec.Faithful (c : Codec) : Prop :=
  ∀ j text, j.Ordered → j.Exact (fun _ => False) → c.dumpIndented j = some text →
    c.parse text = some j.reread

/-- `json::parse` of a text that has to be an object. -/
def Codec.parseObject (c : Codec) (text : String) : Option Json := (c.parse text).filter isObject

end Json
