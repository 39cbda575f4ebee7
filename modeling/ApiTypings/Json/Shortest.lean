import ApiTypings.Text.Basic

/-!
This module contains the decimal text of doubles: the fewest digits whose nearest double is the
given one, in scientific notation.
-/

namespace ApiTypings

namespace Json

namespace Shortest

def hiddenBit : Nat := 0x10000000000000

def signBit : Nat := 0x8000000000000000

def fraction (f : Float) : Nat × Nat :=
  let bits := f.toBits.toNat
  let exponent := bits / hiddenBit % 0x800
  let mantissa := bits % hiddenBit
  let (m, q) := if exponent = 0 then (mantissa, 1) else (mantissa + hiddenBit, exponent)
  if 1075 ≤ q then (m * Nat.pow 2 (q - 1075), 1) else (m, Nat.pow 2 (1075 - q))

-- a half goes to the even neighbour

def roundDiv (num den : Nat) : Nat :=
  let q := num / den
  let r := num % den
  if 2 * r < den ∨ (2 * r = den ∧ q % 2 = 0) then q else q + 1

def digitCount (n : Nat) : Nat := (Nat.toDigits 10 n).length

def scale (num den : Nat) : Int := (digitCount num : Int) - digitCount den

def onGrid (num den : Nat) (exponent : Int) : Nat :=
  match exponent with
  | .ofNat e => roundDiv num (den * Nat.pow 10 e)
  | .negSucc e => roundDiv (num * Nat.pow 10 (e + 1)) den

def nearest (digits : Nat) (exponent : Int) : Float :=
  match exponent with
  | .ofNat e => Float.ofScientific digits false e
  | .negSucc e => Float.ofScientific digits true (e + 1)

/-- Tries ever finer grids until the point nearest to the fraction reads back as `f`. Eighteen
    grids are enough, since seventeen digits tell all doubles apart. -/
def search (f : Float) (num den : Nat) : Nat → Int → Nat × Int
  | 0, exponent => (onGrid num den exponent, exponent)
  | tries + 1, exponent =>
    let digits := onGrid num den exponent
    if nearest digits exponent == f then
      (digits, exponent)
    else
      search f num den tries (exponent - 1)

def intText : Int → Text
  | .ofNat n => Text.ofNat n
  | .negSucc n => '-' :: Text.ofNat (n + 1)

def scientific (digits : Nat) (exponent : Int) : Text :=
  let text := Text.ofNat digits
  let tail := if text.length = 1 then ['0'] else text.drop 1
  text.take 1 ++ '.' :: tail ++ 'e' :: intText (exponent + (text.length - 1 : Nat))

def text (f : Float) : Text :=
  let magnitude := if f.toBits.toNat < signBit then f else -f
  let sign := if f.toBits.toNat < signBit then [] else ['-']
  if magnitude == 0 then
    sign ++ "0.0".toList
  else
    let (num, den) := fraction magnitude
    let (digits, exponent) := search magnitude num den 18 (scale num den)
    sign ++ scientific digits exponent

end Shortest

end Json

end ApiTypings
