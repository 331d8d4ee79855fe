import LazorKit.ToMathlib.Bytes

/-! # JSON texts

The grammar of JSON as a relation between a byte string and what a raw scanner cares about: the string tokens
of a value in the order they are written, and the members of an object with all white space kept. String
tokens are raw, that is, the bytes between the quotes with their escapes. How characters beyond ASCII are
encoded is not looked at.
-/

namespace JsonText

/-- Space, tab, line feed or carriage return. -/
def isWs (b : UInt8) : Bool := b = 32 ∨ b = 9 ∨ b = 10 ∨ b = 13

def Ws (text : Bytes) : Prop := ∀ b ∈ text, isWs b = true

def isHex (b : UInt8) : Bool := (48 ≤ b ∧ b ≤ 57) ∨ (65 ≤ b ∧ b ≤ 70) ∨ (97 ≤ b ∧ b ≤ 102)

/-- What may stand between two quotes. -/
inductive Chars : Bytes → Prop where
  | nil : Chars []
  | plain {b : UInt8} {rest : Bytes} (printable : 32 ≤ b) (quote : b ≠ 34) (backslash : b ≠ 92) (chars : Chars rest) :
      Chars (b :: rest)
  | escape {b : UInt8} {rest : Bytes} (known : b ∈ [34, 92, 47, 98, 102, 110, 114, 116]) (chars : Chars rest) :
      Chars (92 :: b :: rest)
  | unicode {a b c d : UInt8} {rest : Bytes} (hex : ∀ digit ∈ [a, b, c, d], isHex digit = true) (chars : Chars rest) :
      Chars (92 :: 117 :: a :: b :: c :: d :: rest)

/-- A string with its quotes. -/
def quoted (raw : Bytes) : Bytes := 34 :: raw ++ [34]

/-- Without escapes there is no quote inside a string. -/
theorem Chars.quote_not_mem {raw : Bytes} (chars : Chars raw) (clean : 92 ∉ raw) : 34 ∉ raw := by
  induction chars with
  | nil => exact List.not_mem_nil
  | plain printable quote backslash chars ih =>
    rw [List.mem_cons, not_or] at clean ⊢
    exact ⟨Ne.symm quote, ih clean.2⟩
  | escape known chars ih => exact absurd (List.mem_cons_self ..) clean
  | unicode hex chars ih => exact absurd (List.mem_cons_self ..) clean

/-- The first escape of a string stands in front of every quote in it. -/
theorem Chars.first_escape {raw : Bytes} (chars : Chars raw) (escaped : 92 ∈ raw) :
    ∃ front back, raw = front ++ 92 :: back ∧ 34 ∉ front ∧ 92 ∉ front := by
  induction chars with
  | nil => cases escaped
  | plain printable quote backslash chars ih =>
    obtain ⟨front, back, rfl, noQuote, noEscape⟩ := ih ((List.mem_cons.mp escaped).resolve_left (Ne.symm backslash))
    refine ⟨_ :: front, back, rfl, ?_, ?_⟩
    · exact fun member => (List.mem_cons.mp member).elim (Ne.symm quote) noQuote
    · exact fun member => (List.mem_cons.mp member).elim (Ne.symm backslash) noEscape
  | escape known chars ih => exact ⟨[], _, rfl, List.not_mem_nil, List.not_mem_nil⟩
  | unicode hex chars ih => exact ⟨[], _, rfl, List.not_mem_nil, List.not_mem_nil⟩

def isDigit (b : UInt8) : Bool := 48 ≤ b ∧ b ≤ 57

/-- One digit or more. -/
def Digits (text : Bytes) : Prop := text ≠ [] ∧ ∀ b ∈ text, isDigit b = true

/-- Zero, or digits that do not start with it. -/
def Integer (text : Bytes) : Prop := text = [48] ∨ Digits text ∧ text.head? ≠ some 48

def Fraction (text : Bytes) : Prop := text = [] ∨ ∃ digits, text = 46 :: digits ∧ Digits digits

def Exponent (text : Bytes) : Prop :=
  text = [] ∨ ∃ e sign digits, text = e :: sign ++ digits ∧ e ∈ [101, 69] ∧ sign ∈ [[], [43], [45]] ∧ Digits digits

/-- A value that is one word. -/
inductive Scalar : Bytes → Prop where
  | truth : Scalar [116, 114, 117, 101]
  | falsehood : Scalar [102, 97, 108, 115, 101]
  | null : Scalar [110, 117, 108, 108]
  | number {sign integer fraction exponent : Bytes} (minus : sign ∈ [[], [45]]) (whole : Integer integer)
      (part : Fraction fraction) (power : Exponent exponent) : Scalar (sign ++ integer ++ fraction ++ exponent)

/-- A byte that neither opens, closes nor separates anything. -/
def isPlain (b : UInt8) : Bool := 34 < b ∧ b ∉ [44, 91, 93, 123, 125]

theorem isPlain_of_isDigit {b : UInt8} (digit : isDigit b = true) : isPlain b = true := by
  obtain ⟨low, high⟩ := of_decide_eq_true digit
  simp only [UInt8.le_iff_toNat_le, UInt8.reduceToNat] at low high
  simp only [isPlain, decide_eq_true_eq, List.mem_cons, List.not_mem_nil, or_false, ← UInt8.toNat_inj,
    UInt8.lt_iff_toNat_lt, UInt8.reduceToNat]
  omega

theorem Digits.plain {text : Bytes} (digits : Digits text) : ∀ b ∈ text, isPlain b = true :=
  fun b member => isPlain_of_isDigit (digits.2 b member)

theorem Integer.plain {text : Bytes} (integer : Integer text) : text ≠ [] ∧ ∀ b ∈ text, isPlain b = true := by
  rcases integer with rfl | ⟨digits, -⟩
  · exact ⟨by simp, by decide +kernel⟩
  · exact ⟨digits.1, digits.plain⟩

theorem Fraction.plain {text : Bytes} (fraction : Fraction text) : ∀ b ∈ text, isPlain b = true := by
  rcases fraction with rfl | ⟨digits, rfl, each⟩
  · exact nofun
  · exact List.forall_mem_cons.mpr ⟨by decide +kernel, each.plain⟩

theorem Exponent.plain {text : Bytes} (exponent : Exponent text) : ∀ b ∈ text, isPlain b = true := by
  rcases exponent with rfl | ⟨e, sign, digits, rfl, letter, signed, each⟩
  · exact nofun
  · rw [List.cons_append, List.forall_mem_cons, List.forall_mem_append]
    refine ⟨?_, ?_, each.plain⟩
    · revert e
      decide +kernel
    · revert sign
      decide +kernel

/-- A word is not empty and has plain bytes only. -/
theorem Scalar.plain {text : Bytes} (scalar : Scalar text) : text ≠ [] ∧ ∀ b ∈ text, isPlain b = true := by
  cases scalar with
  | truth => exact ⟨by simp, by decide +kernel⟩
  | falsehood => exact ⟨by simp, by decide +kernel⟩
  | null => exact ⟨by simp, by decide +kernel⟩
  | @number sign integer fraction exponent minus whole part power =>
    have sign : ∀ b ∈ sign, isPlain b = true := by
      revert sign
      decide +kernel
    simp only [List.forall_mem_append]
    exact ⟨by simp [whole.plain.1], ⟨⟨sign, whole.plain.2⟩, part.plain⟩, power.plain⟩

/-- An element of an array, with the white space around it and its string tokens. -/
structure Element where
  before : Bytes
  value : Bytes
  after : Bytes
  strings : List Bytes

def Element.text (element : Element) : Bytes := element.before ++ element.value ++ element.after

/-- A member of an object, with the white space in it and the string tokens of its value. -/
structure Member where
  before : Bytes
  key : Bytes
  beforeColon : Bytes
  afterColon : Bytes
  value : Bytes
  after : Bytes
  strings : List Bytes

namespace Member

def text (member : Member) : Bytes :=
  member.before ++ quoted member.key ++ member.beforeColon ++ 58 :: member.afterColon ++ member.value ++ member.after

structure Spaced (member : Member) : Prop where
  before : Ws member.before
  key : Chars member.key
  beforeColon : Ws member.beforeColon
  afterColon : Ws member.afterColon
  after : Ws member.after

end Member

/-- Parts with commas between them; white space if there are none. -/
def joined (pad : Bytes) : List Bytes → Bytes
  | [] => pad
  | part :: rest => part ++ rest.flatMap (44 :: ·)

/-- The text of a value, and its string tokens in order. -/
inductive Value : Bytes → List Bytes → Prop where
  | scalar {text : Bytes} (scalar : Scalar text) : Value text []
  | string {raw : Bytes} (chars : Chars raw) : Value (quoted raw) [raw]
  | array {pad : Bytes} {elements : List Element} (ws : Ws pad)
      (spaced : ∀ element ∈ elements, Ws element.before ∧ Ws element.after)
      (each : ∀ element ∈ elements, Value element.value element.strings) :
      Value (91 :: joined pad (elements.map Element.text) ++ [93]) (elements.flatMap (·.strings))
  | object {pad : Bytes} {members : List Member} (ws : Ws pad) (spaced : ∀ member ∈ members, member.Spaced)
      (each : ∀ member ∈ members, Value member.value member.strings) :
      Value (123 :: joined pad (members.map Member.text) ++ [125])
        (members.flatMap fun member => member.key :: member.strings)

/-- A value is a string, or it starts behind the quote in the alphabet. -/
theorem Value.quoted_or {text : Bytes} {strings : List Bytes} (value : Value text strings) :
    (∃ raw, Chars raw ∧ text = quoted raw ∧ strings = [raw]) ∨ ∃ b rest, text = b :: rest ∧ 34 < b := by
  cases value with
  | scalar scalar =>
    obtain ⟨some_, plain⟩ := scalar.plain
    obtain ⟨b, rest, rfl⟩ := List.exists_cons_of_ne_nil some_
    exact .inr ⟨b, rest, rfl, (of_decide_eq_true (plain b (List.mem_cons_self ..))).1⟩
  | string chars => exact .inl ⟨_, chars, rfl, rfl⟩
  | array ws spaced each => exact .inr ⟨91, _, rfl, by decide⟩
  | object ws spaced each => exact .inr ⟨123, _, rfl, by decide⟩

/-- A text that is an object with these members, in white space. -/
structure ObjectText (text : Bytes) (members : List Member) : Prop where
  written : ∃ lead pad trail, Ws lead ∧ Ws pad ∧ Ws trail ∧
    text = lead ++ (123 :: joined pad (members.map Member.text) ++ [125]) ++ trail
  spaced : ∀ member ∈ members, member.Spaced
  each : ∀ member ∈ members, Value member.value member.strings

end JsonText
