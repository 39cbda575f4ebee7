import ApiTypings.Json.Value
import ApiTypings.Json.Shortest

/-!
This module contains the printer of JSON values: one line of text without gaps.
-/

namespace ApiTypings

namespace Json

namespace Printer

def hexDigit (n : Nat) : Char := "0123456789abcdef".toList.getD n '0'

def escape (c : Char) : Text :=
  if c = '"' then "\\\"".toList
  else if c = '\\' then "\\\\".toList
  else if c = '\n' then "\\n".toList
  else if c = '\r' then "\\r".toList
  else if c = '\t' then "\\t".toList
  else if c.toNat < 0x20 then
    "\\u00".toList ++ [hexDigit (c.toNat / 16), hexDigit (c.toNat % 16)]
  else [c]

def quote (t : Text) : Text := '"' :: (t.flatMap escape ++ ['"'])

def number : Number → Text
  | .int value => Shortest.intText value
  | .float value => if value.isFinite then Shortest.text value else "null".toList

def enclose (opening closing : Char) (texts : List Text) : Text :=
  opening :: ([','].intercalate texts ++ [closing])

mutual

def value : Value → Text
  | .null => "null".toList
  | .bool true => "true".toList
  | .bool false => "false".toList
  | .number n => number n
  | .string t => quote t
  | .array items => enclose '[' ']' (values items)
  | .object members => enclose '{' '}' (pairs members)

def values : List Value → List Text
  | [] => []
  | item :: rest => value item :: values rest

def pairs : List (Text × Value) → List Text
  | [] => []
  | (key, item) :: rest => (quote key ++ ':' :: value item) :: pairs rest

end

end Printer

def Value.text (v : Value) : Text := Printer.value v

end Json

end ApiTypings
