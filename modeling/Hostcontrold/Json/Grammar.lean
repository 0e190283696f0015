import Hostcontrold.Json.Lexer

/-!
# JSON texts

The language of JSON, as a grammar of bytes: strings (`StringText`), numbers (`Number`), the
values without parts (`Scalar`), and arrays and objects over them (`Derives`), with the values
that they denote. Nothing here refers to the functions of the lexer or the parser.

An integer is a number without fraction and exponent. It denotes itself as far as the types of
the library go, and otherwise the floating-point number `strtod` makes of it, as the other
numbers do; a number that is too large denotes nothing. Of the members of an object that have
the same key, the first one counts, and the members are ordered by their keys (`Kept`).
-/

namespace Hostcontrold.Json

open Lexer String

/-! ## Strings -/

/-- The hexadecimal digit with the value `v`, in either case. -/
def HexDigit (c : UInt8) (v : Nat) : Prop :=
  v < 10 ∧ c.toNat = 0x30 + v ∨ 10 ≤ v ∧ v < 16 ∧ (c.toNat = 0x37 + v ∨ c.toNat = 0x57 + v)

/-- Four digits, and their number. -/
inductive FourDigits : List UInt8 → Nat → Prop
  | intro {a b c d : UInt8} {u v w x : Nat} : HexDigit a u → HexDigit b v → HexDigit c w →
      HexDigit d x → FourDigits [a, b, c, d] (u * 4096 + v * 256 + w * 16 + x)

/-- The escapes of one character, and what they stand for. -/
def shortEscapes : List (UInt8 × Char) :=
  [(0x22, .ofNat 0x22), (0x5C, .ofNat 0x5C), (0x2F, .ofNat 0x2F), (0x62, .ofNat 0x08),
    (0x66, .ofNat 0x0C), (0x6E, .ofNat 0x0A), (0x72, .ofNat 0x0D), (0x74, .ofNat 0x09)]

/-- What can follow the backslash in a string, and the character it stands for. -/
inductive EscapeText : List UInt8 → Char → Prop
  | short {e : UInt8} {c : Char} : (e, c) ∈ shortEscapes → EscapeText [e] c
  | unicode {digits : List UInt8} {c : Char} : FourDigits digits c.toNat →
      EscapeText (0x75 :: digits) c
  | surrogates {digits digits' : List UInt8} {high low : Nat} {c : Char} :
      FourDigits digits high → FourDigits digits' low → 0xD800 ≤ high ∧ high ≤ 0xDBFF →
      0xDC00 ≤ low ∧ low ≤ 0xDFFF → c.toNat = 0x10000 + (high - 0xD800) * 0x400 + (low - 0xDC00) →
      EscapeText (0x75 :: (digits ++ 0x5C :: 0x75 :: digits')) c

/-- The texts of a character in a string. -/
inductive CharText : List UInt8 → Char → Prop
  | plain {c : Char} : 0x20 ≤ c.toNat → c.toNat ≠ 0x22 → c.toNat ≠ 0x5C →
      CharText (utf8EncodeChar c) c
  | escape {text : List UInt8} {c : Char} : EscapeText text c → CharText (0x5C :: text) c

/-- The texts between the quotes of a string. -/
inductive StringText : List UInt8 → List Char → Prop
  | nil : StringText [] []
  | cons {bytes body : List UInt8} {c : Char} {text : List Char} : CharText bytes c →
      StringText body text → StringText (bytes ++ body) (c :: text)

/-! ## Numbers -/

/-- Digits, and nothing else. -/
def IsDigits (text : List UInt8) : Prop := ∀ c ∈ text, IsDigit c

instance (text : List UInt8) : Decidable (IsDigits text) := List.decidableBAll IsDigit text

@[simp]
theorem isDigits_nil : IsDigits [] := fun _ hc => absurd hc List.not_mem_nil

@[simp]
theorem isDigits_cons {c : UInt8} {text : List UInt8} :
    IsDigits (c :: text) ↔ IsDigit c ∧ IsDigits text := List.forall_mem_cons

/-- One digit or more. -/
def Digits (digits : List UInt8) : Prop := digits ≠ [] ∧ IsDigits digits

/-- The digits of a number before the point: there are no leading zeros. -/
inductive WholePart : List UInt8 → Prop
  | zero : WholePart [0x30]
  | nonzero {c : UInt8} {digits : List UInt8} : IsDigit c → c ≠ 0x30 →
      IsDigits digits → WholePart (c :: digits)

inductive Fraction : List UInt8 → Prop
  | none : Fraction []
  | some {digits : List UInt8} : Digits digits → Fraction (0x2E :: digits)

inductive Exponent : List UInt8 → Prop
  | none : Exponent []
  | unsigned {e : UInt8} {digits : List UInt8} : IsExponentMark e → Digits digits →
      Exponent (e :: digits)
  | signed {e sign : UInt8} {digits : List UInt8} : IsExponentMark e →
      sign = 0x2B ∨ sign = 0x2D → Digits digits → Exponent (e :: sign :: digits)

/-- The texts of numbers without a sign. -/
inductive Magnitude : List UInt8 → Prop
  | intro {whole fraction exponent : List UInt8} : WholePart whole → Fraction fraction →
      Exponent exponent → Magnitude (whole ++ fraction ++ exponent)

/-- The texts of numbers. -/
inductive Number : List UInt8 → Prop
  | positive {text : List UInt8} : Magnitude text → Number text
  | negative {text : List UInt8} : Magnitude text → Number (0x2D :: text)

variable (strtod : List UInt8 → Option ℚ)

/-- The value of a number. -/
def numberValue (text : List UInt8) : Option Json :=
  if IsDigits text ∧ decimal text < 2 ^ 64 then
    some (.numberUnsigned (.ofNat (decimal text)))
  else if text.head? = some 0x2D ∧ IsDigits text.tail ∧ decimal text.tail ≤ 2 ^ 63 then
    some (.numberInteger (.ofInt (-decimal text.tail)))
  else (strtod text).map .numberFloat

/-! ## Values -/

/-- The texts of values without parts. -/
inductive Scalar : List UInt8 → Json → Prop
  | null : Scalar [0x6E, 0x75, 0x6C, 0x6C] .null
  | true : Scalar [0x74, 0x72, 0x75, 0x65] (.boolean Bool.true)
  | false : Scalar [0x66, 0x61, 0x6C, 0x73, 0x65] (.boolean Bool.false)
  | string {body : List UInt8} {text : List Char} : StringText body text →
      Scalar (0x22 :: (body ++ [0x22])) (.string (.ofList text))
  | number {text : List UInt8} {v : Json} : Number text → numberValue strtod text = some v →
      Scalar text v

/-- The members of an object as they are kept. -/
structure Kept (members kept : List (String × Json)) : Prop where
  sorted : kept.Pairwise fun a b => Utf8.ofString a.1 < Utf8.ofString b.1
  lookup : ∀ key, kept.lookup key = members.lookup key

/-- What a text can stand for: a value, an element of an array (a value with blanks around it),
    the elements of an array, or the members of an object in the order of the text. -/
inductive Form
  | value (v : Json)
  | element (v : Json)
  | elements (vs : List Json)
  | members (ms : List (String × Json))

def Blanks (text : List UInt8) : Prop := ∀ c ∈ text, IsBlank c

/-- The grammar. -/
inductive Derives : Form → List UInt8 → Prop
  | scalar {v : Json} {text : List UInt8} : Scalar strtod text v → Derives (.value v) text
  | emptyArray {blanks : List UInt8} : Blanks blanks →
      Derives (.value (.array [])) (0x5B :: (blanks ++ [0x5D]))
  | array {vs : List Json} {text : List UInt8} : Derives (.elements vs) text →
      Derives (.value (.array vs)) (0x5B :: (text ++ [0x5D]))
  | emptyObject {blanks : List UInt8} : Blanks blanks →
      Derives (.value (.object [])) (0x7B :: (blanks ++ [0x7D]))
  | object {ms kept : List (String × Json)} {text : List UInt8} : Derives (.members ms) text →
      Kept ms kept → Derives (.value (.object kept)) (0x7B :: (text ++ [0x7D]))
  | element {v : Json} {before text after : List UInt8} : Blanks before →
      Derives (.value v) text → Blanks after → Derives (.element v) (before ++ text ++ after)
  | lastElement {v : Json} {text : List UInt8} : Derives (.element v) text →
      Derives (.elements [v]) text
  | nextElement {v : Json} {vs : List Json} {text text' : List UInt8} :
      Derives (.element v) text → Derives (.elements vs) text' →
      Derives (.elements (v :: vs)) (text ++ 0x2C :: text')
  | lastMember {key : List Char} {v : Json} {before body after text : List UInt8} :
      Blanks before → StringText body key → Blanks after → Derives (.element v) text →
      Derives (.members [(.ofList key, v)])
        (before ++ 0x22 :: (body ++ 0x22 :: (after ++ 0x3A :: text)))
  | nextMember {key : List Char} {v : Json} {ms : List (String × Json)}
      {before body after text text' : List UInt8} :
      Blanks before → StringText body key → Blanks after → Derives (.element v) text →
      Derives (.members ms) text' →
      Derives (.members ((.ofList key, v) :: ms))
        (before ++ 0x22 :: (body ++ 0x22 :: (after ++ 0x3A :: (text ++ 0x2C :: text'))))

/-- A text that ends before `rest`: it is not a number that goes on there. -/
def EndsBefore (text rest : List UInt8) : Prop :=
  ∀ c ∈ rest.head?, ∀ suffix, ¬Number (text ++ c :: suffix)

/-- The value that the input begins with, as far as it goes. -/
def BeginsWith (input : List UInt8) (v : Json) : Prop :=
  ∃ blanks text rest, input = blanks ++ text ++ rest ∧ Blanks blanks ∧
    Derives strtod (.value v) text ∧ EndsBefore text rest

end Hostcontrold.Json
