import ApiTypings.Text.Basic

/-!
This module contains raw text, which is what paths and arguments are spelled in. A system does not ask
for UTF-8 there: between characters there can be bytes that make none. To be shown, they are replaced
by U+FFFD, so texts that differ can be shown alike.
-/

namespace ApiTypings

inductive RawChar
  | char (c : Char)
  -- as many bytes as are replaced together, and not the start of anything longer
  | stray (first : UInt8) (more : List UInt8)
deriving DecidableEq, Repr

abbrev RawText := List RawChar

namespace RawChar

def size : RawChar → Nat
  | char c => c.utf8Size
  | stray _ more => more.length + 1

def shown : RawChar → Char
  | char c => c
  | stray _ _ => '\ufffd'

end RawChar

namespace RawText

def ofText (t : Text) : RawText := t.map .char

def shown (t : RawText) : Text := t.map RawChar.shown

def size : RawText → Nat
  | [] => 0
  | c :: rest => c.size + size rest

@[simp]
theorem size_nil : size [] = 0 := rfl

@[simp]
theorem size_cons (c : RawChar) (t : RawText) : size (c :: t) = c.size + size t := rfl

@[simp]
theorem size_append (s t : RawText) : size (s ++ t) = size s + size t := by
  induction s with
  | nil => simp
  | cons c rest ih => simp [ih, Nat.add_assoc]

@[simp]
theorem ofText_nil : ofText [] = [] := rfl

@[simp]
theorem ofText_cons (c : Char) (t : Text) : ofText (c :: t) = .char c :: ofText t := rfl

@[simp]
theorem ofText_append (s t : Text) : ofText (s ++ t) = ofText s ++ ofText t := List.map_append

@[simp]
theorem shown_ofText (t : Text) : (ofText t).shown = t := by
  simp [ofText, shown, Function.comp_def, RawChar.shown]

theorem mem_ofText {c : Char} {t : Text} : RawChar.char c ∈ ofText t ↔ c ∈ t := by
  simp [ofText]

theorem mem_of_mem_shown {c : Char} (hc : c ≠ '\ufffd') {t : RawText} (h : c ∈ t.shown) :
    RawChar.char c ∈ t := by
  obtain ⟨d, hmem, hd⟩ := List.mem_map.1 h
  cases d with
  | char d => exact hd ▸ hmem
  | stray first more => exact absurd hd.symm hc

theorem char_of_mem_ofText {c : RawChar} {t : Text} (h : c ∈ ofText t) :
    RawChar.char c.shown = c := by
  obtain ⟨d, _, rfl⟩ := List.mem_map.1 h
  rfl

theorem ofText_shown_eq_self_iff {t : RawText} :
    ofText t.shown = t ↔ ∀ c ∈ t, RawChar.char c.shown = c := by
  induction t with
  | nil => simp [ofText, shown]
  | cons c rest ih =>
    rw [List.forall_mem_cons, ← ih, shown, List.map_cons, ofText_cons, List.cons.injEq]
    rfl

end RawText

def raw (s : String) : RawText := .ofText s.toList

theorem raw_dot : raw "." = [.char '.'] := rfl

theorem raw_dots : raw ".." = [.char '.', .char '.'] := rfl

end ApiTypings
