import ApiTypings.Text.Blank

/-!
This module contains the layout rule for templates. A template is text written with spaces at a
fixed indentation; laying it out takes that indentation away and turns what is left of it into tabs.

A *separator* of a given width is a line feed and that many blank characters after it. Line feeds
are blank, so a separator may run over several lines. The text is cut at its separators, empty
segments are dropped, the others are joined by line feeds, and every four spaces become a tab.
-/

namespace ApiTypings

namespace Layout

def columns : Nat := 4

-- two to the power of 64: the sizes that a machine word can hold are those below this one

def wordSize : Nat := 0x10000000000000000

-- the product is computed in a machine word, so what does not fit into one is lost; where arithmetic
-- is checked, the program stops instead

def width (level : Nat) : Nat := columns * level % wordSize

theorem width_of_lt {level : Nat} (h : columns * level < wordSize) :
    width level = columns * level :=
  Nat.mod_eq_of_lt h

/-- The segments of a text between separators, which are found from left to right without overlap.
    The first argument after the width counts the characters of a separator still to be passed. -/
def segmentsFrom (width : Nat) : Nat → Text → List Text
  | _, [] => [[]]
  | skip + 1, _ :: rest => segmentsFrom width skip rest
  | 0, c :: rest =>
    if c = '\n' ∧ Text.startsBlank width rest then
      [] :: segmentsFrom width width rest
    else
      (segmentsFrom width 0 rest).modifyHead (c :: ·)

def segments (width : Nat) (t : Text) : List Text := segmentsFrom width 0 t

-- every four spaces, found from left to right without overlap, become one tab

def tabs : Text → Text
  | ' ' :: ' ' :: ' ' :: ' ' :: rest => '\t' :: tabs rest
  | c :: rest => c :: tabs rest
  | [] => []

@[simp]
theorem tabs_nil : tabs [] = [] := rfl

theorem tabs_cons_of_ne {c : Char} (h : c ≠ ' ') (t : Text) : tabs (c :: t) = c :: tabs t := by
  rw [tabs]
  simp_all

def strip (level : Nat) (t : Text) : Text :=
  tabs (['\n'].intercalate ((segments (width level) t).filter (· ≠ [])))

inductive Fault
  | widthOutOfRange (width : Nat)
  -- looking for a separator this wide needs a program above `programLimit`
  | programTooLarge
deriving DecidableEq, Repr

def widthLimit : Nat := 4294967295

def programLimit : Nat := 10485760

/-- The bytes of such a program for each blank character of the separator, which it reads backwards: 20
    steps of 32 bytes, of which one chooses between ten ranges with 4 bytes for each. These sizes are
    those of the `regex` crate, release 1.11. They were measured against runs at some levels: 1000 is
    the highest of them that was usable, and 5000 the lowest that was not. -/
def programCost : Nat := 20 * 32 + 10 * 4

-- for the line feed, the start and the end

def programBase : Nat := 176

def programSize (width : Nat) : Nat := programBase + programCost * width

def fault? (level : Nat) : Option Fault :=
  if widthLimit < width level then
    some (.widthOutOfRange (width level))
  else if programLimit < programSize (width level) then
    some .programTooLarge
  else
    none

-- a width out of range is shown in its pattern and underlined

def Fault.message : Fault → Text
  | .widthOutOfRange width =>
    let digits := Text.ofNat width
    "regex parse error:\n    \\n\\s".toList ++ '{' :: digits ++ '}' :: "\n         ".toList ++
      List.replicate digits.length '^' ++ "\nerror: decimal literal invalid".toList
  | .programTooLarge =>
    "Compiled regex exceeds size limit of ".toList ++ Text.ofNat programLimit ++ " bytes.".toList

def normalize (level : Nat) (t : Text) : Except Fault Text :=
  match fault? level with
  | some fault => .error fault
  | none => .ok (strip level t)

theorem normalize_of_fault?_eq_none {level : Nat} (h : fault? level = none) (t : Text) :
    normalize level t = .ok (strip level t) := by
  simp [normalize, h]

def line (level : Nat) (t : Text) : Text := '\n' :: (List.replicate (columns * level) ' ' ++ t)

end Layout

end ApiTypings
