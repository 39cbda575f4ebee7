import ApiTypings.Text.Raw

/-!
This module contains paths and the operations on their text.

A path is the text it is spelled with. It is taken apart into an anchor and the segments between
slashes. A segment that is empty or a single dot is *silent*: it stays in the spelling, but counts
neither as the file name of a path nor as its parent. A dot that opens a relative path is its anchor.
-/

namespace ApiTypings

structure Path where
  text : RawText
deriving DecidableEq, Repr

namespace Path

def ofString (s : String) : Path := ⟨raw s⟩

def shown (path : Path) : Text := path.text.shown

inductive Anchor
  -- nothing is said, so the path starts in the working folder
  | implied
  -- the path opens with a dot, which is the working folder
  | here
  | root
deriving DecidableEq, Repr

def isSilent (segment : RawText) : Bool := segment == [] || segment == raw "."

def split (path : Path) : Anchor × List RawText :=
  match path.text with
  | .char '/' :: rest => (.root, List.splitOn (.char '/') rest)
  | [.char '.'] => (.here, [])
  | .char '.' :: .char '/' :: rest => (.here, List.splitOn (.char '/') rest)
  | t => (.implied, List.splitOn (.char '/') t)

def anchor (path : Path) : Anchor := path.split.1

def segments (path : Path) : List RawText := path.split.2

def build : Anchor → List RawText → Path
  | .root, segments => ⟨.char '/' :: [.char '/'].intercalate segments⟩
  | .here, [] => ⟨[.char '.']⟩
  | .here, segments => ⟨.char '.' :: .char '/' :: [.char '/'].intercalate segments⟩
  | .implied, segments => ⟨[.char '/'].intercalate segments⟩

theorem build_split (path : Path) : build path.split.1 path.split.2 = path := by
  obtain ⟨t⟩ := path
  rw [split]
  split
  · next rest h => simp_all [build]
  · next h => simp_all [build]
  · next rest h =>
    simp only at h
    rw [h]
    cases hs : rest.splitOn (.char '/') with
    | nil => exact absurd hs (List.splitOn_ne_nil _ _)
    | cons => simp [build, ← hs]
  · simp [build]

def backwards (path : Path) : List RawText := path.segments.reverse.dropWhile isSilent

def isAbsolute (path : Path) : Bool := path.anchor == .root

def fileName? (path : Path) : Option RawText :=
  match path.backwards with
  | [] => none
  | name :: _ => if name = raw ".." then none else some name

/-- The path without its last segment that counts; without one, an opening dot is taken away, and
    nothing else can be. -/
def parent? (path : Path) : Option Path :=
  match path.backwards with
  | _ :: before => some (build path.anchor (before.dropWhile isSilent).reverse)
  | [] => if path.anchor = .here then some ⟨[]⟩ else none

/-- A path and below it another one, which replaces it if it is absolute. A slash is put between
    them unless there is one, or nothing before it. -/
def join (path below : Path) : Path :=
  if below.isAbsolute then
    below
  else if path.text = [] ∨ path.text.getLast? = some (.char '/') then
    ⟨path.text ++ below.text⟩
  else
    ⟨path.text ++ .char '/' :: below.text⟩

-- a dot at the start of a name does not open an extension

def splitName (name : RawText) : RawText × Option RawText :=
  match name.reverse.dropWhile (· ≠ .char '.') with
  | [] => (name, none)
  | [_] => (name, none)
  | _ :: stem => (stem.reverse, some (name.reverse.takeWhile (· ≠ .char '.')).reverse)

def stem? (path : Path) : Option RawText := path.fileName?.map fun name => (splitName name).1

def extension? (path : Path) : Option RawText := path.fileName?.bind fun name => (splitName name).2

def endsInName (path : Path) : Bool :=
  match path.segments.getLast? with
  | none => false
  | some segment => !isSilent segment

/-- Gives the file name another extension, and drops whatever is spelled after the name. A path
    without a file name stays as it is. -/
def withExtension (path : Path) (extension : String) : Path :=
  match path.backwards with
  | [] => path
  | name :: before =>
    if name = raw ".." then
      path
    else
      let (stem, old) := splitName name
      -- the old extension is cut off first, and a path that ends in two dots has no file name
      if stem = [.char '.'] ∧ old ≠ some [] ∧ path.endsInName then
        build path.anchor (before.reverse ++ [raw ".."])
      else
        build path.anchor (before.reverse ++ [stem ++ .char '.' :: raw extension])

def dropNames : List RawText → List RawText → Option (List RawText)
  | [], segments => some (segments.dropWhile isSilent)
  | name :: names, segments =>
    match segments.dropWhile isSilent with
    | [] => none
    | segment :: rest => if segment = name then dropNames names rest else none

def below? (names : List RawText) (path : Path) : Option Path :=
  if path.isAbsolute then
    (dropNames names path.segments).map fun rest =>
      build .implied (rest.reverse.dropWhile isSilent).reverse
  else
    none

def components (path : Path) : Anchor × List RawText :=
  (path.anchor, path.segments.filter fun segment => !isSilent segment)

end Path

end ApiTypings
