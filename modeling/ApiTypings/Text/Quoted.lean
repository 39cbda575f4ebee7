import ApiTypings.Text.Hidden
import ApiTypings.Text.Raw

/-!
This module contains the quoting of raw text for log lines: every character can be seen for what it
is, and so can the bytes that make none, and the end of the text cannot be mistaken.
-/

namespace ApiTypings

namespace Text

def visible (c : Char) : Text :=
  if c = '\x00' then "\\0".toList
  else if c = '\t' then "\\t".toList
  else if c = '\n' then "\\n".toList
  else if c = '\r' then "\\r".toList
  else if c = '\\' ∨ c = '"' then ['\\', c]
  else if isHidden c then "\\u".toList ++ '{' :: Nat.toDigits 16 c.toNat ++ ['}']
  else [c]

end Text

namespace RawText

def upperHex (byte : UInt8) : Text :=
  [Nat.digitChar (byte.toNat / 16), Nat.digitChar (byte.toNat % 16)].map Char.toUpper

def visible : RawChar → Text
  | .char c => Text.visible c
  | .stray first more => (first :: more).flatMap fun byte => "\\x".toList ++ upperHex byte

def quoted (t : RawText) : Text := '"' :: (t.flatMap visible ++ ['"'])

end RawText

end ApiTypings
