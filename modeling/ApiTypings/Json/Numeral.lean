import ApiTypings.Json.Value
import ApiTypings.Json.Error

/-!
This module contains the reading of JSON numerals.

The digits of a numeral go into a 64-bit significand for as long as they fit. Integer digits after
that only raise the exponent, and fraction digits after that are passed over. The double is the
significand, rounded, times or over a power of ten.
-/

namespace ApiTypings

namespace Json

-- the bytes not yet read at the place to be blamed

structure Stop where
  cause : Cause
  unread : Nat
deriving DecidableEq, Repr

namespace Stop

def before (cause : Cause) (unread : Text) : Stop := ⟨cause, unread.utf8Size⟩

def after (cause : Cause) (unread : Text) : Stop := ⟨cause, unread.utf8Size - 1⟩

end Stop

abbrev Read (α : Type) := Except Stop (α × Text)

namespace Numeral

def maxSignificand : Nat := 18446744073709551615

def maxExponent : Nat := 2147483647

def digit (c : Char) : Nat := c.toNat - '0'.toNat

-- as long as the number stays within a bound

def takeDigits (bound : Nat) (n : Nat) : Text → Nat × Text
  | [] => (n, [])
  | c :: rest =>
    if c.isDigit ∧ n * 10 + digit c ≤ bound then
      takeDigits bound (n * 10 + digit c) rest
    else
      (n, c :: rest)

def startsWithDigit : Text → Bool
  | [] => false
  | c :: _ => c.isDigit

def dropDigits (t : Text) : Text := t.dropWhile Char.isDigit

def power (exponent : Nat) : Float := Float.ofScientific 1 false exponent

def maxPower : Nat := 308

/-- The double of a significand times a power of ten, or `none` if it is too large. Under the
    smallest power a significand is divided twice, and beyond that nothing of it is left. -/
def toFloat? (significand : Nat) (exponent : Int) : Option Float :=
  let f := Float.ofNat significand
  match exponent with
  | .ofNat e =>
    if e ≤ maxPower then
      let product := f * power e
      if product.isInf then none else some product
    else if significand = 0 then
      some 0
    else
      none
  | .negSucc e =>
    let e := e + 1
    if e ≤ maxPower then
      some (f / power e)
    else if e ≤ 2 * maxPower then
      some (f / power maxPower / power (e - maxPower))
    else
      some 0

def signed (negative : Bool) (f : Float) : Number := .float (if negative then -f else f)

def finish (negative : Bool) (significand : Nat) (exponent : Int) (rest : Text) : Read Number :=
  match toFloat? significand exponent with
  | none => .error (.before .numberOutOfRange rest)
  | some f => .ok (signed negative f, rest)

-- an exponent above the greatest one is noticed at the digit that makes it so

def readExponent (negative : Bool) (significand : Nat) (start : Int) (t : Text) : Read Number :=
  let (down, t) := match t with
    | '+' :: rest => (false, rest)
    | '-' :: rest => (true, rest)
    | t => (false, t)
  match t with
  | [] => .error (.before .endInValue [])
  | c :: rest =>
    if c.isDigit then
      let (e, rest) := takeDigits maxExponent (digit c) rest
      if startsWithDigit rest then
        if significand ≠ 0 ∧ !down then
          .error (.after .numberOutOfRange rest)
        else
          .ok (signed negative 0, dropDigits rest)
      else
        finish negative significand (if down then start - e else start + e) rest
    else
      .error (.after .invalidNumber (c :: rest))

def readScale (negative : Bool) (significand : Nat) (exponent : Int) : Text → Read Number
  | 'e' :: rest => readExponent negative significand exponent rest
  | 'E' :: rest => readExponent negative significand exponent rest
  | rest => finish negative significand exponent rest

def readFraction (negative : Bool) (significand : Nat) (exponent : Nat) (t : Text) : Read Number :=
  if startsWithDigit t then
    let (n, rest) := takeDigits maxSignificand significand t
    readScale negative n (exponent - (t.length - rest.length : Nat)) (dropDigits rest)
  else
    .error (.after (if t = [] then .endInValue else .invalidNumber) t)

def maxNegative : Nat := 9223372036854775808

-- minus zero is a double, and so is a negative number below the signed 64-bit integers

def ofSignificand (negative : Bool) (n : Nat) : Number :=
  if negative then
    if n = 0 ∨ maxNegative < n then .float (-Float.ofNat n) else .int (-n)
  else
    .int n

def read (negative : Bool) : Text → Read Number
  | [] => .error (.before .endInValue [])
  | c :: rest =>
    if !c.isDigit then
      .error (.after .invalidNumber (c :: rest))
    else if c = '0' ∧ startsWithDigit rest then
      .error (.after .invalidNumber rest)
    else
      let (n, after) := takeDigits maxSignificand (digit c) rest
      let rest := dropDigits after
      let raised := after.length - rest.length
      match rest with
      | '.' :: fraction => readFraction negative n raised fraction
      | 'e' :: exponent => readExponent negative n raised exponent
      | 'E' :: exponent => readExponent negative n raised exponent
      | rest =>
        if raised = 0 then
          .ok (ofSignificand negative n, rest)
        else
          finish negative n raised rest

end Numeral

end Json

end ApiTypings
