import ApiTypings.Json.Value

/-!
This module contains the JSON texts of values, as the format defines them and without regard to how
they are read: the ways to write a character in a string, the gaps that may stand between tokens, and
lists in brackets. Only numbers are left out.
-/

namespace ApiTypings
namespace Json

def IsGap (t : Text) : Prop := ∀ c ∈ t, c ∈ [' ', '\t', '\n', '\r']

def shortEscapes : List (Char × Char) :=
  [('"', '"'), ('\\', '\\'), ('/', '/'), ('\x08', 'b'), ('\x0c', 'f'), ('\n', 'n'), ('\r', 'r'),
    ('\t', 't')]

def IsHexDigit (n : Nat) (c : Char) : Prop :=
  "0123456789abcdef".toList[n]? = some c ∨ "0123456789ABCDEF".toList[n]? = some c

inductive IsHex : Nat → Text → Prop
  | digits {n₁ n₂ n₃ n₄ : Nat} {c₁ c₂ c₃ c₄ : Char} (h₁ : IsHexDigit n₁ c₁)
    (h₂ : IsHexDigit n₂ c₂) (h₃ : IsHexDigit n₃ c₃) (h₄ : IsHexDigit n₄ c₄) :
    IsHex (((n₁ * 16 + n₂) * 16 + n₃) * 16 + n₄) [c₁, c₂, c₃, c₄]

inductive SpellsChar : Char → Text → Prop
  | plain {c : Char} (hquote : c ≠ '"') (hbackslash : c ≠ '\\') (hcontrol : 0x20 ≤ c.toNat) :
    SpellsChar c [c]
  | short {c mark : Char} (h : (c, mark) ∈ shortEscapes) : SpellsChar c ['\\', mark]
  | code {c : Char} {digits : Text} (h : IsHex c.toNat digits) :
    SpellsChar c ('\\' :: 'u' :: digits)
  | surrogates {c : Char} {high low : Nat} {digits digits' : Text}
    (hhigh : 0xD800 ≤ high ∧ high ≤ 0xDBFF) (hlow : 0xDC00 ≤ low ∧ low ≤ 0xDFFF)
    (hc : c.toNat = 0x10000 + (high - 0xD800) * 0x400 + (low - 0xDC00))
    (h : IsHex high digits) (h' : IsHex low digits') :
    SpellsChar c ('\\' :: 'u' :: digits ++ '\\' :: 'u' :: digits')

inductive SpellsString : Text → Text → Prop
  | nil : SpellsString [] []
  | cons {c : Char} {s t t' : Text} (h : SpellsChar c t) (hrest : SpellsString s t') :
    SpellsString (c :: s) (t ++ t')

inductive Listed (spells : α → Text → Prop) : List α → Text → Prop
  | last {a : α} {t gap : Text} (h : spells a t) (hgap : IsGap gap) : Listed spells [a] (t ++ gap)
  | more {a : α} {rest : List α} {t gap gap' t' : Text} (h : spells a t) (hgap : IsGap gap)
    (hgap' : IsGap gap') (hrest : Listed spells rest t') :
    Listed spells (a :: rest) (t ++ gap ++ ',' :: (gap' ++ t'))

inductive Enclosed (spells : α → Text → Prop) : List α → Text → Prop
  | empty {gap : Text} (hgap : IsGap gap) : Enclosed spells [] gap
  | listed {as : List α} {gap t : Text} (hgap : IsGap gap) (h : Listed spells as t) :
    Enclosed spells as (gap ++ t)

inductive SpellsMember (spells : α → Text → Prop) : Text × α → Text → Prop
  | member {key : Text} {a : α} {k gap gap' t : Text} (hkey : SpellsString key k)
    (hgap : IsGap gap) (hgap' : IsGap gap') (h : spells a t) :
    SpellsMember spells (key, a) ('"' :: (k ++ '"' :: (gap ++ ':' :: (gap' ++ t))))

inductive Spells : Value → Text → Prop
  | null : Spells .null "null".toList
  | true : Spells (.bool .true) "true".toList
  | false : Spells (.bool .false) "false".toList
  | string {s t : Text} (h : SpellsString s t) : Spells (.string s) ('"' :: (t ++ ['"']))
  | array {items : List Value} {t : Text} (h : Enclosed Spells items t) :
    Spells (.array items) ('[' :: (t ++ [']']))
  | object {members : Members} {t : Text} (h : Enclosed (SpellsMember Spells) members t) :
    Spells (.object members) ('{' :: (t ++ ['}']))

inductive SpellsDocument : Value → Text → Prop
  | document {value : Value} {gap t gap' : Text} (hgap : IsGap gap) (h : Spells value t)
    (hgap' : IsGap gap') : SpellsDocument value (gap ++ t ++ gap')

theorem spellsString_self {s : Text}
    (h : ∀ c ∈ s, c ≠ '"' ∧ c ≠ '\\' ∧ 0x20 ≤ c.toNat) : SpellsString s s := by
  induction s with
  | nil => exact .nil
  | cons c rest ih =>
    obtain ⟨⟨hquote, hbackslash, hcontrol⟩, hrest⟩ := List.forall_mem_cons.1 h
    exact .cons (.plain hquote hbackslash hcontrol) (ih hrest)

end Json
end ApiTypings
