import Hostcontrold.Config
import Hostcontrold.Json.Utf8

/-!
# The lexer of the JSON library

The lexer reads the input byte by byte (`get`), and can put back the last one (`unget`); it
keeps the bytes read since the beginning of a token for the messages. `scan` skips blanks and
reads one token. The text of a string or number is collected in `yytext`, with the escapes of
strings resolved; numbers are converted at once.

The loops end with the input: they are recursions on a bound for what is left of it, and the
base case is the one at the end. The conversion of floating-point numbers is a parameter,
`strtod`, with `none` for a number that is too large. The decimal point is that of the locale
`C`, in which every program starts.
-/

namespace Hostcontrold.Json

/-- The types of the tokens. -/
inductive TokenType
  | uninitialized
  | literalTrue
  | literalFalse
  | literalNull
  | valueString
  | valueUnsigned
  | valueInteger
  | valueFloat
  | beginArray
  | beginObject
  | endArray
  | endObject
  | nameSeparator
  | valueSeparator
  | parseError
  | endOfInput
  | literalOrValue
  deriving DecidableEq, Repr

/-- The name of a type in the messages. -/
def TokenType.name : TokenType → String
  | .uninitialized => "<uninitialized>"
  | .literalTrue => "true literal"
  | .literalFalse => "false literal"
  | .literalNull => "null literal"
  | .valueString => "string literal"
  | .valueUnsigned => "number literal"
  | .valueInteger => "number literal"
  | .valueFloat => "number literal"
  | .beginArray => "'['"
  | .beginObject => "'\x7b'"
  | .endArray => "']'"
  | .endObject => "'\x7d'"
  | .nameSeparator => "':'"
  | .valueSeparator => "','"
  | .parseError => "<parse error>"
  | .endOfInput => "end of input"
  | .literalOrValue => "'[', '\x7b', or a literal"

/-- The state of the lexer. There is no current character at the end of the input. -/
structure Lexer where
  input : List UInt8
  current : Option UInt8 := none
  charsRead : Nat := 0
  tokenString : List UInt8 := []
  yytext : List UInt8 := []
  errorMessage : String := ""
  valueInteger : Int64 := 0
  valueUnsigned : UInt64 := 0
  valueFloat : Option ℚ := some 0

namespace Lexer

/-! ## The input -/

/-- Read the next character. -/
def get (l : Lexer) : Lexer :=
  match l.input with
  | [] => { l with charsRead := l.charsRead + 1, current := none }
  | c :: input =>
    { l with
      input, charsRead := l.charsRead + 1, current := some c, tokenString := l.tokenString ++ [c] }

/-- Put the current character back. -/
def unget (l : Lexer) : Lexer :=
  match l.current with
  | none => { l with charsRead := l.charsRead - 1 }
  | some c =>
    { l with
      input := c :: l.input, charsRead := l.charsRead - 1
      tokenString := l.tokenString.dropLast }

/-- Add a character to the text of the token. -/
def add (c : UInt8) (l : Lexer) : Lexer := { l with yytext := l.yytext ++ [c] }

/-- The current character, as it is added to a text; the end of the input is -1. -/
def currentChar (l : Lexer) : UInt8 := l.current.getD 0xFF

/-- The current character begins a token. -/
def reset (l : Lexer) : Lexer := { l with yytext := [], tokenString := [l.currentChar] }

/-- Set the message of an error. -/
def fail (message : String) (l : Lexer) : Lexer := { l with errorMessage := message }

/-- A character of a token in a message: control characters are written in hexadecimal. -/
def escapeControl (c : UInt8) : List UInt8 :=
  let digit (n : Nat) : UInt8 := if n < 10 then .ofNat (0x30 + n) else .ofNat (0x37 + n)
  if c.toNat ≤ 0x1F then
    [0x3C, 0x55, 0x2B, 0x30, 0x30, digit (c.toNat / 16), digit (c.toNat % 16), 0x3E]
  else [c]

/-- The last token, for the messages. -/
def getTokenString (l : Lexer) : List UInt8 := l.tokenString.flatMap escapeControl

/-! ## Strings -/

/-- The value of a hexadecimal digit. -/
def hexDigit? (c : UInt8) : Option Nat :=
  if 0x30 ≤ c.toNat ∧ c.toNat ≤ 0x39 then some (c.toNat - 0x30)
  else if 0x41 ≤ c.toNat ∧ c.toNat ≤ 0x46 then some (c.toNat - 0x37)
  else if 0x61 ≤ c.toNat ∧ c.toNat ≤ 0x66 then some (c.toNat - 0x57)
  else none

/-- The code point of the digits to come, with these factors. -/
def getCodepointFrom : List Nat → Nat → Lexer → Option Nat × Lexer
  | [], codepoint, l => (some codepoint, l)
  | factor :: factors, codepoint, l =>
    match l.get.current.bind hexDigit? with
    | some digit => getCodepointFrom factors (codepoint + digit <<< factor) l.get
    | none => (none, l.get)

/-- The code point of the four digits after `\u`. -/
def getCodepoint (l : Lexer) : Option Nat × Lexer := getCodepointFrom [12, 8, 4, 0] 0 l

/-- Translate a code point into bytes. -/
def addCodepoint (codepoint : Nat) (l : Lexer) : Lexer :=
  if codepoint < 0x80 then l.add (.ofNat codepoint)
  else if codepoint ≤ 0x7FF then
    (l.add (.ofNat (0xC0 ||| (codepoint >>> 6)))).add (.ofNat (0x80 ||| (codepoint &&& 0x3F)))
  else if codepoint ≤ 0xFFFF then
    ((l.add (.ofNat (0xE0 ||| (codepoint >>> 12)))).add
      (.ofNat (0x80 ||| ((codepoint >>> 6) &&& 0x3F)))).add
      (.ofNat (0x80 ||| (codepoint &&& 0x3F)))
  else
    (((l.add (.ofNat (0xF0 ||| (codepoint >>> 18)))).add
      (.ofNat (0x80 ||| ((codepoint >>> 12) &&& 0x3F)))).add
      (.ofNat (0x80 ||| ((codepoint >>> 6) &&& 0x3F)))).add
      (.ofNat (0x80 ||| (codepoint &&& 0x3F)))

/-- The escape of the low surrogate that has to follow that of a high one. Here and below, the
    answer tells whether there was no error. -/
def scanLowSurrogate (codepoint1 : Nat) (l : Lexer) : Bool × Lexer :=
  if l.get.current = some 0x5C then
    if l.get.get.current = some 0x75 then
      match l.get.get.getCodepoint with
      | (none, l) => (false, l.fail "invalid string: '\\u' must be followed by 4 hex digits")
      | (some codepoint2, l) =>
        if 0xDC00 ≤ codepoint2 ∧ codepoint2 ≤ 0xDFFF then
          (true, l.addCodepoint (codepoint1 <<< 10 + codepoint2 - 0x35FDC00))
        else
          (false, l.fail
            "invalid string: surrogate U+DC00..U+DFFF must be followed by U+DC00..U+DFFF")
    else
      (false, l.get.get.fail
        "invalid string: surrogate U+DC00..U+DFFF must be followed by U+DC00..U+DFFF")
  else
    (false, l.get.fail
      "invalid string: surrogate U+DC00..U+DFFF must be followed by U+DC00..U+DFFF")

/-- The escape `\uxxxx`, after the `u`. -/
def scanUnicodeEscape (l : Lexer) : Bool × Lexer :=
  match l.getCodepoint with
  | (none, l) => (false, l.fail "invalid string: '\\u' must be followed by 4 hex digits")
  | (some codepoint1, l) =>
    if 0xD800 ≤ codepoint1 ∧ codepoint1 ≤ 0xDBFF then scanLowSurrogate codepoint1 l
    else if 0xDC00 ≤ codepoint1 ∧ codepoint1 ≤ 0xDFFF then
      (false, l.fail "invalid string: surrogate U+DC00..U+DFFF must follow U+D800..U+DBFF")
    else (true, l.addCodepoint codepoint1)

/-- The escapes of one character, and what they stand for. -/
def escapes : List (UInt8 × UInt8) :=
  [(0x22, 0x22), (0x5C, 0x5C), (0x2F, 0x2F), (0x62, 0x08), (0x66, 0x0C), (0x6E, 0x0A),
    (0x72, 0x0D), (0x74, 0x09)]

/-- An escape, after the backslash. -/
def scanEscape (l : Lexer) : Bool × Lexer :=
  match l.get.current with
  | none => (false, l.get.fail "invalid string: forbidden character after backslash")
  | some c =>
    match escapes.lookup c with
    | some e => (true, l.get.add e)
    | none =>
      if c = 0x75 then scanUnicodeEscape l.get
      else (false, l.get.fail "invalid string: forbidden character after backslash")

/-- Read bytes in the given ranges. -/
def bytesInRange : List (Nat × Nat) → Lexer → Bool × Lexer
  | [], l => (true, l)
  | (low, high) :: ranges, l =>
    match l.get.current with
    | none => (false, l.get.fail "invalid string: ill-formed UTF-8 byte")
    | some c =>
      if low ≤ c.toNat ∧ c.toNat ≤ high then bytesInRange ranges (l.get.add c)
      else (false, l.get.fail "invalid string: ill-formed UTF-8 byte")

/-- Add the current byte, and the bytes after it, which must be in the given ranges. -/
def nextByteInRange (ranges : List (Nat × Nat)) (l : Lexer) : Bool × Lexer :=
  bytesInRange ranges (l.add l.currentChar)

/-- The ranges of the bytes that follow the first byte of a character beyond ASCII. -/
def rangesAfter (c : Nat) : Option (List (Nat × Nat)) :=
  if 0xC2 ≤ c ∧ c ≤ 0xDF then some [(0x80, 0xBF)]
  else if c = 0xE0 then some [(0xA0, 0xBF), (0x80, 0xBF)]
  else if (0xE1 ≤ c ∧ c ≤ 0xEC) ∨ c = 0xEE ∨ c = 0xEF then some [(0x80, 0xBF), (0x80, 0xBF)]
  else if c = 0xED then some [(0x80, 0x9F), (0x80, 0xBF)]
  else if c = 0xF0 then some [(0x90, 0xBF), (0x80, 0xBF), (0x80, 0xBF)]
  else if 0xF1 ≤ c ∧ c ≤ 0xF3 then some [(0x80, 0xBF), (0x80, 0xBF), (0x80, 0xBF)]
  else if c = 0xF4 then some [(0x80, 0x8F), (0x80, 0xBF), (0x80, 0xBF)]
  else none

/-- One character of a string that begins with `c`, the current one; it is not the closing
    quote. -/
def scanChar (c : UInt8) (l : Lexer) : Bool × Lexer :=
  if c = 0x5C then scanEscape l
  else if c.toNat ≤ 0x1F then
    (false, l.fail "invalid string: control character must be escaped")
  else if c.toNat ≤ 0x7F then (true, l.add c)
  else
    match rangesAfter c.toNat with
    | some ranges => nextByteInRange ranges l
    | none => (false, l.fail "invalid string: ill-formed UTF-8 byte")

/-- The loop of `scanString`. -/
def scanStringFrom : Nat → Lexer → TokenType × Lexer
  | 0, l => (.parseError, l.get.fail "invalid string: missing closing quote")
  | bound + 1, l =>
    match l.get.current with
    | none => (.parseError, l.get.fail "invalid string: missing closing quote")
    | some c =>
      if c = 0x22 then (.valueString, l.get)
      else
        match scanChar c l.get with
        | (true, l) => scanStringFrom bound l
        | (false, l) => (.parseError, l)

/-- A string, after the opening quote. -/
def scanString (l : Lexer) : TokenType × Lexer := scanStringFrom l.input.length l.reset

/-! ## Numbers -/

/-- The states of `scan_number`, named like its labels. -/
inductive NumberState
  | minus
  | zero
  | any1
  | decimal1
  | decimal2
  | exponent
  | sign
  | any2
  deriving DecidableEq, Repr

/-- What a state does with the next character: add it and go to another state, end the number
    before it, or fail. -/
inductive Transition
  | goto (state : NumberState)
  | done
  | error (message : String)
  deriving DecidableEq, Repr

abbrev IsDigit (c : UInt8) : Prop := 0x30 ≤ c.toNat ∧ c.toNat ≤ 0x39

abbrev IsExponentMark (c : UInt8) : Prop := c = 0x65 ∨ c = 0x45

/-- The first character of a number. -/
def NumberState.start (c : UInt8) : NumberState :=
  if c = 0x2D then .minus else if c = 0x30 then .zero else .any1

/-- What a state does with a character. -/
def NumberState.next : NumberState → UInt8 → Transition
  | .minus, c =>
    if c = 0x30 then .goto .zero
    else if IsDigit c then .goto .any1
    else .error "invalid number; expected digit after '-'"
  | .zero, c =>
    if c = 0x2E then .goto .decimal1
    else if IsExponentMark c then .goto .exponent
    else .done
  | .any1, c =>
    if IsDigit c then .goto .any1
    else if c = 0x2E then .goto .decimal1
    else if IsExponentMark c then .goto .exponent
    else .done
  | .decimal1, c =>
    if IsDigit c then .goto .decimal2 else .error "invalid number; expected digit after '.'"
  | .decimal2, c =>
    if IsDigit c then .goto .decimal2
    else if IsExponentMark c then .goto .exponent
    else .done
  | .exponent, c =>
    if c = 0x2B ∨ c = 0x2D then .goto .sign
    else if IsDigit c then .goto .any2
    else .error "invalid number; expected '+', '-', or digit after exponent"
  | .sign, c =>
    if IsDigit c then .goto .any2
    else .error "invalid number; expected digit after exponent sign"
  | .any2, c => if IsDigit c then .goto .any2 else .done

theorem NumberState.next_ne_minus {state : NumberState} {c : UInt8} :
    state.next c ≠ .goto .minus := by
  cases state <;> rw [next] <;> split_ifs <;> simp

/-- What a state does at the end of the input. -/
def NumberState.atEnd : NumberState → Transition
  | .minus => .error "invalid number; expected digit after '-'"
  | .decimal1 => .error "invalid number; expected digit after '.'"
  | .exponent => .error "invalid number; expected '+', '-', or digit after exponent"
  | .sign => .error "invalid number; expected digit after exponent sign"
  | _ => .done

/-- The type of a number in a state, given its type before. -/
def NumberState.numberType : NumberState → TokenType → TokenType
  | .minus, _ => .valueInteger
  | .decimal1, _ => .valueFloat
  | .exponent, _ => .valueFloat
  | _, type => type

/-- The state machine of `scan_number`, from a state on. -/
def scanNumberFrom : Nat → NumberState → TokenType → Lexer → TokenType × Lexer
  | 0, state, type, l =>
    match state.atEnd with
    | .error message => (.parseError, l.get.fail message)
    | _ => (state.numberType type, l.get.unget)
  | bound + 1, state, type, l =>
    match l.get.current.elim state.atEnd state.next with
    | .goto state' =>
      scanNumberFrom bound state' (state.numberType type) (l.get.add l.get.currentChar)
    | .done => (state.numberType type, l.get.unget)
    | .error message => (.parseError, l.get.fail message)

/-- The value of decimal digits. -/
def decimal (digits : List UInt8) : Nat := digits.foldl (fun n c => 10 * n + (c.toNat - 0x30)) 0

variable (strtod : List UInt8 → Option ℚ)

/-- The end of `scan_number`: try to parse integers first, and fall back to floats. -/
def convertNumber : TokenType → Lexer → TokenType × Lexer
  | .valueUnsigned, l =>
    if decimal l.yytext < 2 ^ 64 then
      (.valueUnsigned, { l with valueUnsigned := .ofNat (decimal l.yytext) })
    else (.valueFloat, { l with valueFloat := strtod l.yytext })
  | .valueInteger, l =>
    -- The text begins with the minus sign.
    if decimal (l.yytext.drop 1) ≤ 2 ^ 63 then
      (.valueInteger, { l with valueInteger := .ofInt (-decimal (l.yytext.drop 1)) })
    else (.valueFloat, { l with valueFloat := strtod l.yytext })
  | _, l => (.valueFloat, { l with valueFloat := strtod l.yytext })

/-- A number, after its first character. -/
def scanNumber (l : Lexer) : TokenType × Lexer :=
  match scanNumberFrom l.input.length (.start l.currentChar) .valueUnsigned
      (l.reset.add l.currentChar) with
  | (.parseError, l) => (.parseError, l)
  | (type, l) => convertNumber strtod type l

/-! ## Tokens -/

/-- The characters of a literal, after the first one. -/
def scanLiteral : List UInt8 → TokenType → Lexer → TokenType × Lexer
  | [], type, l => (type, l)
  | c :: text, type, l =>
    if l.get.current = some c then scanLiteral text type l.get
    else (.parseError, l.get.fail "invalid literal")

abbrev IsBlank (c : UInt8) : Prop := c = 0x20 ∨ c = 0x09 ∨ c = 0x0A ∨ c = 0x0D

/-- Read the next character that is not blank. -/
def skipBlanks : Nat → Lexer → Lexer
  | 0, l => l.get
  | bound + 1, l =>
    match l.get.current with
    | none => l.get
    | some c => if IsBlank c then skipBlanks bound l.get else l.get

/-- The structural characters. -/
def structural : List (UInt8 × TokenType) :=
  [(0x5B, .beginArray), (0x5D, .endArray), (0x7B, .beginObject), (0x7D, .endObject),
    (0x3A, .nameSeparator), (0x2C, .valueSeparator)]

/-- The token that begins with the current character. -/
def scanToken (c : UInt8) (l : Lexer) : TokenType × Lexer :=
  match structural.lookup c with
  | some type => (type, l)
  | none =>
    if c = 0x74 then scanLiteral [0x72, 0x75, 0x65] .literalTrue l
    else if c = 0x66 then scanLiteral [0x61, 0x6C, 0x73, 0x65] .literalFalse l
    else if c = 0x6E then scanLiteral [0x75, 0x6C, 0x6C] .literalNull l
    else if c = 0x22 then scanString l
    else if c = 0x2D ∨ IsDigit c then scanNumber strtod l
    else if c = 0 then (.endOfInput, l)
    else (.parseError, l.fail "invalid literal")

/-- Read the next token. A NUL ends the input. -/
def scan (l : Lexer) : TokenType × Lexer :=
  let l := skipBlanks l.input.length l
  match l.current with
  | none => (.endOfInput, l)
  | some c => scanToken strtod c l

end Lexer

end Hostcontrold.Json
