import ApiTypings.Json.Numeral

/-!
This module contains the reader of JSON texts. It reads from left to right and stops at the first
thing that is wrong; `parse` turns the bytes left unread there into a line and a column.
-/

namespace ApiTypings

namespace Json

namespace Reader

def isGap (c : Char) : Bool := c == ' ' || c == '\n' || c == '\t' || c == '\r'

def skipGap (t : Text) : Text := t.dropWhile isGap

def readWord (word : Text) (value : Value) (t : Text) : Read Value :=
  match word, t with
  | [], rest => .ok (value, rest)
  | _ :: _, [] => .error (.before .endInValue [])
  | w :: word, c :: rest =>
    if c = w then readWord word value rest else .error (.after .expectedWord (c :: rest))

def hexDigit? (c : Char) : Option Nat :=
  if c.isDigit then some (c.toNat - '0'.toNat)
  else if 'a' ≤ c ∧ c ≤ 'f' then some (c.toNat - 'a'.toNat + 10)
  else if 'A' ≤ c ∧ c ≤ 'F' then some (c.toNat - 'A'.toNat + 10)
  else none

-- fewer than four bytes are passed over, and so are four others

def readHex (t : Text) : Read Nat :=
  let wrong : Read Nat :=
    if t.utf8Size < 4 then
      .error (.before .endInString [])
    else
      .error ⟨.invalidEscape, t.utf8Size - 4⟩
  match t with
  | a :: b :: c :: d :: rest =>
    match hexDigit? a, hexDigit? b, hexDigit? c, hexDigit? d with
    | some a, some b, some c, some d => .ok (((a * 16 + b) * 16 + c) * 16 + d, rest)
    | _, _, _, _ => wrong
  | _ => wrong

def isHighSurrogate (n : Nat) : Bool := 0xD800 ≤ n && n ≤ 0xDBFF

def isLowSurrogate (n : Nat) : Bool := 0xDC00 ≤ n && n ≤ 0xDFFF

def ofSurrogates (high low : Nat) : Char :=
  Char.ofNat ((high - 0xD800) * 0x400 + (low - 0xDC00) + 0x10000)

def readMark (mark : Char) : Text → Except Stop Text
  | [] => .error (.before .endInString [])
  | c :: rest => if c = mark then .ok rest else .error (.after .unfinishedSurrogate (c :: rest))

def readCodePoint (t : Text) : Read Char :=
  match readHex t with
  | .error stop => .error stop
  | .ok (n, rest) =>
    if isLowSurrogate n then
      .error (.before .loneSurrogate rest)
    else if isHighSurrogate n then
      match readMark '\\' rest with
      | .error stop => .error stop
      | .ok rest =>
        match readMark 'u' rest with
        | .error stop => .error stop
        | .ok rest =>
          match readHex rest with
          | .error stop => .error stop
          | .ok (low, rest) =>
            if isLowSurrogate low then
              .ok (ofSurrogates n low, rest)
            else
              .error (.before .loneSurrogate rest)
    else
      .ok (Char.ofNat n, rest)

def readEscape : Text → Read Char
  | [] => .error (.before .endInString [])
  | '"' :: rest => .ok ('"', rest)
  | '\\' :: rest => .ok ('\\', rest)
  | '/' :: rest => .ok ('/', rest)
  | 'b' :: rest => .ok ('\x08', rest)
  | 'f' :: rest => .ok ('\x0c', rest)
  | 'n' :: rest => .ok ('\n', rest)
  | 'r' :: rest => .ok ('\r', rest)
  | 't' :: rest => .ok ('\t', rest)
  | 'u' :: rest => readCodePoint rest
  | rest => .error (.after .invalidEscape rest)

-- every step reads at least one character, so the length of the text is fuel enough

def readStringWith : Nat → Text → Read Text
  | 0, t => .error (.before .endInString t)
  | _ + 1, [] => .error (.before .endInString [])
  | fuel + 1, c :: rest =>
    if c = '"' then
      .ok ([], rest)
    else if c = '\\' then
      match readEscape rest with
      | .error stop => .error stop
      | .ok (d, rest) =>
        match readStringWith fuel rest with
        | .error stop => .error stop
        | .ok (s, rest) => .ok (d :: s, rest)
    else if c.toNat < 0x20 then
      .error (.after .controlCharacter (c :: rest))
    else
      match readStringWith fuel rest with
      | .error stop => .error stop
      | .ok (s, rest) => .ok (c :: s, rest)

def readString (t : Text) : Read Text := readStringWith (t.length + 1) t

-- every step reads at least a comma, so the length of the text is fuel enough

def readItems (readItem : Text → Read Value) : Nat → Text → Read (List Value)
  | 0, t => .error (.before .endInList t)
  | fuel + 1, t =>
    match readItem t with
    | .error stop => .error stop
    | .ok (item, rest) =>
      match skipGap rest with
      | [] => .error (.after .endInList [])
      | ']' :: rest => .ok ([item], rest)
      | ',' :: rest =>
        match skipGap rest with
        | ']' :: rest => .error (.after .trailingComma (']' :: rest))
        | rest =>
          match readItems readItem fuel rest with
          | .error stop => .error stop
          | .ok (items, rest) => .ok (item :: items, rest)
      | rest => .error (.after .expectedCommaInList rest)

def readArray (readItem : Text → Read Value) (t : Text) : Read Value :=
  match skipGap t with
  | [] => .error (.after .endInList [])
  | ']' :: rest => .ok (.array [], rest)
  | t =>
    match readItems readItem t.length t with
    | .error stop => .error stop
    | .ok (items, rest) => .ok (.array items, rest)

def readMember (readItem : Text → Read Value) (t : Text) : Read (Text × Value) :=
  match readString t with
  | .error stop => .error stop
  | .ok (key, rest) =>
    match skipGap rest with
    | [] => .error (.after .endInObject [])
    | ':' :: rest =>
      match readItem rest with
      | .error stop => .error stop
      | .ok (value, rest) => .ok ((key, value), rest)
    | rest => .error (.after .expectedColon rest)

-- every step reads at least a quote, so the length of the text is fuel enough

def readMembers (readItem : Text → Read Value) : Nat → Text → Read (List (Text × Value))
  | 0, t => .error (.before .endInObject t)
  | fuel + 1, t =>
    match readMember readItem t with
    | .error stop => .error stop
    | .ok (pair, rest) =>
      match skipGap rest with
      | [] => .error (.after .endInObject [])
      | '}' :: rest => .ok ([pair], rest)
      | ',' :: rest =>
        match skipGap rest with
        | [] => .error (.after .endInValue [])
        | '"' :: rest =>
          match readMembers readItem fuel rest with
          | .error stop => .error stop
          | .ok (pairs, rest) => .ok (pair :: pairs, rest)
        | '}' :: rest => .error (.after .trailingComma ('}' :: rest))
        | rest => .error (.after .keyNotString rest)
      | rest => .error (.after .expectedCommaInObject rest)

def readObject (readItem : Text → Read Value) (t : Text) : Read Value :=
  match skipGap t with
  | [] => .error (.after .endInObject [])
  | '}' :: rest => .ok (.object [], rest)
  | '"' :: rest =>
    match readMembers readItem (rest.length + 1) rest with
    | .error stop => .error stop
    | .ok (pairs, rest) => .ok (.object (Members.ofPairs pairs), rest)
  | rest => .error (.after .keyNotString rest)

def readScalar : Text → Read Value
  | 'n' :: rest => readWord "ull".toList .null rest
  | 't' :: rest => readWord "rue".toList (.bool true) rest
  | 'f' :: rest => readWord "alse".toList (.bool false) rest
  | '"' :: rest =>
    match readString rest with
    | .error stop => .error stop
    | .ok (s, rest) => .ok (.string s, rest)
  | '-' :: rest =>
    match Numeral.read true rest with
    | .error stop => .error stop
    | .ok (n, rest) => .ok (.number n, rest)
  | [] => .error (.after .endInValue [])
  | c :: rest =>
    if c.isDigit then
      match Numeral.read false (c :: rest) with
      | .error stop => .error stop
      | .ok (n, rest) => .ok (.number n, rest)
    else
      .error (.after .expectedValue (c :: rest))

def readValue : Nat → Text → Read Value
  | 0, t =>
    match skipGap t with
    | '[' :: rest => .error (.after .tooDeep ('[' :: rest))
    | '{' :: rest => .error (.after .tooDeep ('{' :: rest))
    | t => readScalar t
  | depth + 1, t =>
    match skipGap t with
    | '[' :: rest => readArray (readValue depth) rest
    | '{' :: rest => readObject (readValue depth) rest
    | t => readScalar t

def readWhole (depth : Nat) (t : Text) : Except Stop Value :=
  match readValue depth t with
  | .error stop => .error stop
  | .ok (value, rest) =>
    match skipGap rest with
    | [] => .ok value
    | rest => .error (.after .trailingText rest)

end Reader

def maxDepth : Nat := 127

def parseWithin (depth : Nat) (t : Text) : Except Error Value :=
  match Reader.readWhole depth t with
  | .error stop => .error ⟨stop.cause, .ofOffset t (t.utf8Size - stop.unread)⟩
  | .ok value => .ok value

def parse (t : Text) : Except Error Value := parseWithin maxDepth t

end Json

end ApiTypings
