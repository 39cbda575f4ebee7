/-!
This module contains the text type and the few operations on it that every other module needs: sizes
in bytes, braces around a text, numbers in decimal and the order of texts.
-/

namespace ApiTypings

abbrev Text := List Char

namespace Text

def utf8Size : Text → Nat
  | [] => 0
  | c :: rest => c.utf8Size + utf8Size rest

@[simp]
theorem utf8Size_nil : utf8Size [] = 0 := rfl

@[simp]
theorem utf8Size_cons (c : Char) (t : Text) : utf8Size (c :: t) = c.utf8Size + utf8Size t := rfl

@[simp]
theorem utf8Size_append (s t : Text) : utf8Size (s ++ t) = utf8Size s + utf8Size t := by
  induction s with
  | nil => simp
  | cons c rest ih => simp [ih, Nat.add_assoc]

def braced (t : Text) : Text := '{' :: ' ' :: (t ++ [' ', '}'])

def ofNat (n : Nat) : Text := Nat.toDigits 10 n

-- the code-point order, which is also the order of the UTF-8 bytes

def le : Text → Text → Bool
  | [], _ => true
  | _ :: _, [] => false
  | c :: s, d :: t => c.toNat < d.toNat || (c == d && le s t)

end Text

end ApiTypings
