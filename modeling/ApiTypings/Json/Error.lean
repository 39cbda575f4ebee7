import ApiTypings.Text.Basic

/-!
This module contains what can be wrong with a JSON text: the cause, where it was noticed, and the
wording of both.
-/

namespace ApiTypings

namespace Json

inductive Cause
  | endInValue
  | endInString
  | endInList
  | endInObject
  | expectedValue
  | expectedWord
  | expectedColon
  | expectedCommaInList
  | expectedCommaInObject
  | keyNotString
  | trailingComma
  | trailingText
  | invalidNumber
  | numberOutOfRange
  | invalidEscape
  | controlCharacter
  | loneSurrogate
  | unfinishedSurrogate
  | tooDeep
deriving DecidableEq, Repr

def Cause.message : Cause → Text
  | .endInValue => "EOF while parsing a value".toList
  | .endInString => "EOF while parsing a string".toList
  | .endInList => "EOF while parsing a list".toList
  | .endInObject => "EOF while parsing an object".toList
  | .expectedValue => "expected value".toList
  | .expectedWord => "expected ident".toList
  | .expectedColon => "expected `:`".toList
  | .expectedCommaInList => "expected `,` or `]`".toList
  | .expectedCommaInObject => "expected `,` or `".toList ++ ['}', '`']
  | .keyNotString => "key must be a string".toList
  | .trailingComma => "trailing comma".toList
  | .trailingText => "trailing characters".toList
  | .invalidNumber => "invalid number".toList
  | .numberOutOfRange => "number out of range".toList
  | .invalidEscape => "invalid escape".toList
  | .controlCharacter =>
    "control character (\\u0000-\\u001F) found while parsing a string".toList
  | .loneSurrogate => "lone leading surrogate in hex escape".toList
  | .unfinishedSurrogate => "unexpected end of hex escape".toList
  | .tooDeep => "recursion limit exceeded".toList

-- the line, counted from one, and the bytes of that line before the place

structure Position where
  line : Nat
  column : Nat
deriving DecidableEq, Repr

namespace Position

def advance (place : Position) : Text → Nat → Position
  | [], _ => place
  | c :: rest, offset =>
    if offset < c.utf8Size then
      { place with column := place.column + offset }
    else if c = '\n' then
      advance ⟨place.line + 1, 0⟩ rest (offset - c.utf8Size)
    else
      advance ⟨place.line, place.column + c.utf8Size⟩ rest (offset - c.utf8Size)

def ofOffset (t : Text) (offset : Nat) : Position := advance ⟨1, 0⟩ t offset

end Position

structure Error where
  cause : Cause
  place : Position
deriving DecidableEq, Repr

def Error.message (e : Error) : Text :=
  e.cause.message ++ " at line ".toList ++ Text.ofNat e.place.line ++ " column ".toList ++
    Text.ofNat e.place.column

end Json

end ApiTypings
