import ApiTypings.Text.Basic

/-!
This module contains the class of blank characters: those with the Unicode property `White_Space`.
A line feed is blank, a zero-width space is not.
-/

namespace ApiTypings

namespace Text

def blankRanges : List (Nat × Nat) :=
  [(0x09, 0x0D), (0x20, 0x20), (0x85, 0x85), (0xA0, 0xA0), (0x1680, 0x1680), (0x2000, 0x200A),
   (0x2028, 0x2029), (0x202F, 0x202F), (0x205F, 0x205F), (0x3000, 0x3000)]

def isBlank (c : Char) : Bool := blankRanges.any fun (lo, hi) => lo ≤ c.toNat && c.toNat ≤ hi

@[simp]
theorem isBlank_space : isBlank ' ' = true := by decide

@[simp]
theorem isBlank_newline : isBlank '\n' = true := by decide

@[simp]
theorem isBlank_tab : isBlank '\t' = true := by decide

def startsBlank : Nat → Text → Bool
  | 0, _ => true
  | _ + 1, [] => false
  | n + 1, c :: rest => isBlank c && startsBlank n rest

@[simp]
theorem startsBlank_zero (t : Text) : startsBlank 0 t = true := by
  cases t <;> rfl

theorem startsBlank_spaces (n : Nat) (t : Text) :
    startsBlank n (List.replicate n ' ' ++ t) = true := by
  induction n with
  | zero => simp
  | succ n ih => simp [List.replicate_succ, startsBlank, ih]

end Text

end ApiTypings
