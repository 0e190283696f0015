import Hostcontrold.Json.Lexer

/-!
# The serializer of the JSON library

The text of a value, pretty-printed: the members of an object and the elements of an array are
on lines of their own, indented by their depth. The members are written in the order in which
the object keeps them, that of their keys.

A string is checked to be UTF-8 by an automaton, whose table `utf8d` first gives the class of a
byte, and then the next state for the state and the class. Then it is escaped: quotes,
backslashes and control characters are. This is done in place, in a result of the final size
that consists of backslashes at first. The digits of an integer are written from the last one on
into a buffer of 64 characters, and reversed.

The conversion of floating-point numbers is a parameter, `snprintf`.
-/

namespace Hostcontrold.Json.Serializer

/-! ## UTF-8 -/

/-- The classes of the bytes, and from the index 256 on, the next states for every state. -/
def utf8d : List Nat :=
  [0, 0, 0, 0, 0, 0, 0, 0, 0, 0, 0, 0, 0, 0, 0, 0, 0, 0, 0, 0, 0, 0, 0, 0, 0, 0, 0, 0, 0, 0, 0, 0,
    0, 0, 0, 0, 0, 0, 0, 0, 0, 0, 0, 0, 0, 0, 0, 0, 0, 0, 0, 0, 0, 0, 0, 0, 0, 0, 0, 0, 0, 0, 0, 0,
    0, 0, 0, 0, 0, 0, 0, 0, 0, 0, 0, 0, 0, 0, 0, 0, 0, 0, 0, 0, 0, 0, 0, 0, 0, 0, 0, 0, 0, 0, 0, 0,
    0, 0, 0, 0, 0, 0, 0, 0, 0, 0, 0, 0, 0, 0, 0, 0, 0, 0, 0, 0, 0, 0, 0, 0, 0, 0, 0, 0, 0, 0, 0, 0,
    1, 1, 1, 1, 1, 1, 1, 1, 1, 1, 1, 1, 1, 1, 1, 1, 9, 9, 9, 9, 9, 9, 9, 9, 9, 9, 9, 9, 9, 9, 9, 9,
    7, 7, 7, 7, 7, 7, 7, 7, 7, 7, 7, 7, 7, 7, 7, 7, 7, 7, 7, 7, 7, 7, 7, 7, 7, 7, 7, 7, 7, 7, 7, 7,
    8, 8, 2, 2, 2, 2, 2, 2, 2, 2, 2, 2, 2, 2, 2, 2, 2, 2, 2, 2, 2, 2, 2, 2, 2, 2, 2, 2, 2, 2, 2, 2,
    10, 3, 3, 3, 3, 3, 3, 3, 3, 3, 3, 3, 3, 4, 3, 3,
    11, 6, 6, 6, 5, 8, 8, 8, 8, 8, 8, 8, 8, 8, 8, 8,
    0, 1, 2, 3, 5, 8, 7, 1, 1, 1, 4, 6, 1, 1, 1, 1,
    1, 1, 1, 1, 1, 1, 1, 1, 1, 1, 1, 1, 1, 1, 1, 1, 1, 0, 1, 1, 1, 1, 1, 0, 1, 0, 1, 1, 1, 1, 1, 1,
    1, 2, 1, 1, 1, 1, 1, 2, 1, 2, 1, 1, 1, 1, 1, 1, 1, 1, 1, 1, 1, 1, 1, 2, 1, 1, 1, 1, 1, 1, 1, 1,
    1, 2, 1, 1, 1, 1, 1, 1, 1, 2, 1, 1, 1, 1, 1, 1, 1, 1, 1, 1, 1, 1, 1, 3, 1, 3, 1, 1, 1, 1, 1, 1,
    1, 3, 1, 1, 1, 1, 1, 3, 1, 3, 1, 1, 1, 1, 1, 1, 1, 3, 1, 1, 1, 1, 1, 1, 1, 1, 1, 1, 1, 1, 1, 1]

/-- The next state. The state 0 accepts, and the state 1 rejects. -/
def decode (state : Nat) (byte : UInt8) : Nat :=
  let type := utf8d.getD byte.toNat 0
  utf8d.getD (256 + state * 16 + type) 0

/-- Two hexadecimal digits. -/
def hexByte (byte : UInt8) : String :=
  (String.ofList [Nat.digitChar (byte.toNat / 16), Nat.digitChar (byte.toNat % 16)]).toUpper

/-- The loop of `throw_if_invalid_utf8`: what is left of the string `str`, at an index. -/
def throwIfInvalidFrom (str : List UInt8) (state i : Nat) :
    List UInt8 → Except JsonException Unit
  | [] =>
    if state ≠ 0 then
      .error (.typeError 316
        ("incomplete UTF-8 string; last byte: 0x" ++ hexByte (str.getLastD 0)))
    else .ok ()
  | byte :: rest =>
    let state := decode state byte
    if state = 1 then
      .error (.typeError 316
        ("invalid UTF-8 byte at index " ++ toString i ++ ": 0x" ++ hexByte byte))
    else throwIfInvalidFrom str state (i + 1) rest

def throwIfInvalidUtf8 (str : List UInt8) : Except JsonException Unit :=
  throwIfInvalidFrom str 0 0 str

/-! ## Strings -/

/-- The characters with an escape of their own, and what follows the backslash there. -/
def escapes : List (UInt8 × UInt8) :=
  [(0x22, 0x22), (0x5C, 0x5C), (0x08, 0x62), (0x0C, 0x66), (0x0A, 0x6E), (0x0D, 0x72),
    (0x09, 0x74)]

/-- How much longer the escaped string is. -/
def extraSpace : List UInt8 → Nat
  | [] => 0
  | c :: s =>
    (if (escapes.lookup c).isSome then 1 else if c ≤ 0x1F then 5 else 0) + extraSpace s

/-- The result while a string is escaped, and the position in it. -/
structure Escaping where
  result : List UInt8
  pos : Nat := 0

namespace Escaping

/-- Write characters after the position. -/
def write (offset : Nat) (c : UInt8) (r : Escaping) : Escaping :=
  { r with result := r.result.set (r.pos + offset) c }

def move (n : Nat) (r : Escaping) : Escaping := { r with pos := r.pos + n }

def hexify : List UInt8 :=
  [0x30, 0x31, 0x32, 0x33, 0x34, 0x35, 0x36, 0x37, 0x38, 0x39, 0x61, 0x62, 0x63, 0x64, 0x65, 0x66]

/-- The digit of a number at a bit. -/
def digitAt (codepoint bit : Nat) : UInt8 := hexify.getD (codepoint >>> bit &&& 0x0F) 0

/-- `escape_codepoint`; the backslash is there. -/
def escapeCodepoint (codepoint : Nat) (r : Escaping) : Escaping :=
  let r := r.write 1 0x75
  let r := r.write 2 (digitAt codepoint 12)
  let r := r.write 3 (digitAt codepoint 8)
  let r := r.write 4 (digitAt codepoint 4)
  let r := r.write 5 (digitAt codepoint 0)
  r.move 6

/-- The next character of the string. -/
def next (r : Escaping) (c : UInt8) : Escaping :=
  if c = 0x5C then r.move 2
  else
    match escapes.lookup c with
    | some e => (r.write 1 e).move 2
    | none => if c ≤ 0x1F then r.escapeCodepoint c.toNat else (r.write 0 c).move 1

end Escaping

/-- `dump_escaped`. -/
def dumpEscaped (s : List UInt8) : Except JsonException (List UInt8) := do
  throwIfInvalidUtf8 s
  let space := extraSpace s
  if space = 0 then return s
  else
    let r : Escaping := { result := .replicate (s.length + space) 0x5C }
    return (s.foldl Escaping.next r).result

/-! ## Numbers -/

/-- The digits of a number from the last one on, with the room that is left for them. -/
def writeDigits : Nat → Int → List UInt8
  | 0, _ => []
  | room + 1, x =>
    if x = 0 then []
    else .ofNat (0x30 + (x.tmod 10).natAbs) :: writeDigits room (x.tdiv 10)

/-- `dump_integer`. -/
def dumpInteger (x : Int) : List UInt8 :=
  if x = 0 then [0x30]
  else
    let numberBuffer := writeDigits 63 x
    (if x < 0 then numberBuffer ++ [0x2D] else numberBuffer).reverse

variable (snprintf : ℚ → List UInt8)

/-- `dump_float`: what looks like an integer gets a fraction. -/
def dumpFloat (x : ℚ) : List UInt8 :=
  let text := snprintf x
  if 0x2E ∈ text ∨ 0x65 ∈ text then text else text ++ [0x2E, 0x30]

/-! ## Values -/

/-- The beginning of a line. -/
def indentation (indent : Nat) : List UInt8 := .replicate indent 0x20

variable (indentStep : Nat)

mutual

/-- The text of a value. -/
def dump (currentIndent : Nat) : Json → Except JsonException (List UInt8)
  | .object members =>
    if members.isEmpty then return [0x7B, 0x7D]
    else do
      let body ← dumpMembers (currentIndent + indentStep) members
      return 0x7B :: 0x0A :: body ++ 0x0A :: indentation currentIndent ++ [0x7D]
  | .array elements =>
    if elements.isEmpty then return [0x5B, 0x5D]
    else do
      let body ← dumpElements (currentIndent + indentStep) elements
      return 0x5B :: 0x0A :: body ++ 0x0A :: indentation currentIndent ++ [0x5D]
  | .string s => do
    let text ← dumpEscaped (Utf8.ofString s)
    return 0x22 :: text ++ [0x22]
  | .boolean b => return Utf8.ofString (if b then "true" else "false")
  | .numberInteger i => return dumpInteger i.toInt
  | .numberUnsigned n => return dumpInteger n.toNat
  | .numberFloat q => return dumpFloat snprintf q
  | .null => return Utf8.ofString "null"

/-- The lines of the members of an object. -/
def dumpMembers (newIndent : Nat) : List (String × Json) → Except JsonException (List UInt8)
  | [] => return []
  | (key, value) :: members => do
    let name ← dumpEscaped (Utf8.ofString key)
    let text ← dump newIndent value
    let member := indentation newIndent ++ 0x22 :: name ++ [0x22, 0x3A, 0x20] ++ text
    if members.isEmpty then return member
    else
      let rest ← dumpMembers newIndent members
      return member ++ 0x2C :: 0x0A :: rest

/-- The lines of the elements of an array. -/
def dumpElements (newIndent : Nat) : List Json → Except JsonException (List UInt8)
  | [] => return []
  | value :: elements => do
    let text ← dump newIndent value
    let element := indentation newIndent ++ text
    if elements.isEmpty then return element
    else
      let rest ← dumpElements newIndent elements
      return element ++ 0x2C :: 0x0A :: rest

end

end Serializer

/-- `dump`: the text of a value, with an indentation. -/
def dump (snprintf : ℚ → List UInt8) (indent : Nat) (v : Json) :
    Except JsonException (List UInt8) :=
  Serializer.dump snprintf indent 0 v

end Hostcontrold.Json
