import Hostcontrold.Json.Lexer
import Mathlib.Data.List.Sort

/-!
# The parser of the JSON library

A recursive descent over the tokens of the lexer. When a function begins, the first token of
what it parses has been read, and when it returns, nothing else has been read than that. The
first unexpected token is thrown as an exception, with the position of the lexer and the bytes
of the token; the exceptions are therefore byte strings here.

The members of an object are kept in the order of the bytes of their keys, and the first one of
several with the same key is kept. The parser reads one value and does not look at what follows
it, as it does when a stream is read with `>>`. The recursion has fuel; `parse` has enough of
it for every input, which is proved in `Hostcontrold.Json.Parsing`.
-/

namespace Hostcontrold.Json

/-- The exceptions of the parser, with the texts after the name of the exception. Running out of
    fuel is none of them. -/
inductive Failure
  | parseError (id byte : Nat) (what : List UInt8)
  | outOfRange (id : Nat) (what : List UInt8)
  | outOfFuel
  deriving DecidableEq, Repr

/-- What the input adapter of a stream leaves out. -/
def skipByteOrderMark (input : List UInt8) : List UInt8 :=
  if input.take 3 = [0xEF, 0xBB, 0xBF] then input.drop 3 else input

/-- Insert a member at its place, if there is none with its key. -/
def emplace (key : String) (value : Json) (members : List (String × Json)) :
    List (String × Json) :=
  if (members.lookup key).isSome then members
  else members.orderedInsert (fun a b => Utf8.ofString a.1 ≤ Utf8.ofString b.1) (key, value)

/-- The state of the parser. -/
structure Parser where
  lastToken : TokenType := .uninitialized
  lexer : Lexer

namespace Parser

/-- The exception for the last token, which is not the expected one. -/
def exception (expected : TokenType) (p : Parser) : Failure :=
  let token := if p.lastToken = .parseError then
      Utf8.ofString (p.lexer.errorMessage ++ "; last read: '") ++ p.lexer.getTokenString ++
        Utf8.ofString "'"
    else Utf8.ofString ("unexpected " ++ p.lastToken.name)
  let expectation := if expected = .uninitialized then []
    else Utf8.ofString ("; expected " ++ expected.name)
  let position := if p.lexer.charsRead = 0 then "" else " at " ++ toString p.lexer.charsRead
  .parseError 101 p.lexer.charsRead
    (Utf8.ofString ("parse error" ++ position ++ ": syntax error - ") ++ token ++ expectation)

/-- Throw, unless the last token is the expected one. -/
def expect (expected : TokenType) (p : Parser) : Except Failure Unit :=
  if expected = p.lastToken then .ok () else .error (p.exception expected)

variable (strtod : List UInt8 → Option ℚ)

/-- Read the next token. -/
def getToken (p : Parser) : Parser :=
  { lastToken := (p.lexer.scan strtod).1, lexer := (p.lexer.scan strtod).2 }

mutual

/-- Parse a value. -/
def parseInternal : Nat → Parser → Except Failure (Json × Parser)
  | 0, _ => .error .outOfFuel
  | fuel + 1, p =>
    match p.lastToken with
    | .beginObject =>
      let p := p.getToken strtod
      if p.lastToken = .endObject then .ok (.object [], p)
      else parseMembers fuel [] p
    | .beginArray =>
      let p := p.getToken strtod
      if p.lastToken = .endArray then .ok (.array [], p)
      else parseElements fuel [] p
    | .literalNull => .ok (.null, p)
    | .valueString => .ok (.string (Utf8.toString p.lexer.yytext), p)
    | .literalTrue => .ok (.boolean true, p)
    | .literalFalse => .ok (.boolean false, p)
    | .valueUnsigned => .ok (.numberUnsigned p.lexer.valueUnsigned, p)
    | .valueInteger => .ok (.numberInteger p.lexer.valueInteger, p)
    | .valueFloat =>
      match p.lexer.valueFloat with
      | some q => .ok (.numberFloat q, p)
      | none =>
        .error (.outOfRange 406 (Utf8.ofString "number overflow parsing '" ++
          p.lexer.getTokenString ++ Utf8.ofString "'"))
    | .parseError => .error (p.exception .uninitialized)
    | _ => .error (p.exception .literalOrValue)

/-- Parse the members of an object, and its end; `members` have been parsed before. -/
def parseMembers : Nat → List (String × Json) → Parser → Except Failure (Json × Parser)
  | 0, _, _ => .error .outOfFuel
  | fuel + 1, members, p => do
    p.expect .valueString
    let key := Utf8.toString p.lexer.yytext
    let p := p.getToken strtod
    p.expect .nameSeparator
    let (value, p) ← parseInternal fuel (p.getToken strtod)
    let members := emplace key value members
    let p := p.getToken strtod
    if p.lastToken = .valueSeparator then parseMembers fuel members (p.getToken strtod)
    else
      p.expect .endObject
      return (.object members, p)

/-- Parse the elements of an array, and its end; `elements` have been parsed before. -/
def parseElements : Nat → List Json → Parser → Except Failure (Json × Parser)
  | 0, _, _ => .error .outOfFuel
  | fuel + 1, elements, p => do
    let (value, p) ← parseInternal fuel p
    let elements := elements ++ [value]
    let p := p.getToken strtod
    if p.lastToken = .valueSeparator then parseElements fuel elements (p.getToken strtod)
    else
      p.expect .endArray
      return (.array elements, p)

end

variable {strtod} {p : Parser} {elements : List Json} {members : List (String × Json)}

theorem parseInternal_zero : parseInternal strtod 0 p = .error .outOfFuel := by
  rw [parseInternal]

theorem parseMembers_zero : parseMembers strtod 0 members p = .error .outOfFuel := by
  rw [parseMembers]

theorem parseElements_zero : parseElements strtod 0 elements p = .error .outOfFuel := by
  rw [parseElements]

end Parser

variable (strtod : List UInt8 → Option ℚ)

/-- Parse the value that the input begins with. -/
def parse (input : List UInt8) : Except Failure Json := do
  let p : Parser := { lexer := { input := skipByteOrderMark input } }
  let (value, _) ← Parser.parseInternal strtod (2 * input.length + 3) (p.getToken strtod)
  return value

end Hostcontrold.Json
