import ApiTypings.Path.Basic

/-!
This module contains disks: folders, files and symbolic links, each at its own location.

A location is the list of names from the root. The root is always a folder. Every other entry is
listed with its location, so that what an operation leaves alone is a law about a look-up.
-/

namespace ApiTypings

abbrev Location := List RawText

inductive Content
  | text (t : Text)
  | binary (bytes : List UInt8)
deriving DecidableEq, Repr

namespace Content

def ofBytes (bytes : List UInt8) : Content :=
  match String.fromUTF8? ⟨bytes.toArray⟩ with
  | some s => .text s.toList
  | none => .binary bytes

end Content

inductive Entry
  | file (content : Content)
  | folder
  | link (destination : Path)
deriving DecidableEq, Repr

structure Disk where
  home : Location
  -- the entries other than the root
  entries : List (Location × Entry)
deriving DecidableEq, Repr

namespace Disk

def at? (disk : Disk) (location : Location) : Option Entry :=
  if location = [] then some .folder else disk.entries.lookup location

def set (disk : Disk) (location : Location) (entry : Entry) : Disk :=
  { disk with
    entries := (location, entry) :: disk.entries.filter fun (other, _) => other ≠ location }

def erase (disk : Disk) (location : Location) : Disk :=
  { disk with entries := disk.entries.filter fun (other, _) => other ≠ location }

@[simp]
theorem at?_nil (disk : Disk) : disk.at? [] = some .folder := rfl

@[simp]
theorem home_set (disk : Disk) (location : Location) (entry : Entry) :
    (disk.set location entry).home = disk.home := rfl

@[simp]
theorem home_erase (disk : Disk) (location : Location) :
    (disk.erase location).home = disk.home := rfl

theorem lookup_filter_ne {location other : Location} (h : other ≠ location)
    (entries : List (Location × Entry)) :
    (entries.filter fun (l, _) => l ≠ location).lookup other = entries.lookup other := by
  induction entries with
  | nil => rfl
  | cons head rest ih =>
    obtain ⟨l, e⟩ := head
    by_cases hl : l = location
    · have ho : (other == l) = false := by simp [hl, h]
      rw [List.lookup_cons, ho, ← ih]
      simp [hl]
    · rw [List.filter_cons_of_pos (by simpa using hl), List.lookup_cons, List.lookup_cons, ih]

theorem lookup_filter_self (location : Location) (entries : List (Location × Entry)) :
    (entries.filter fun (l, _) => l ≠ location).lookup location = none := by
  induction entries with
  | nil => rfl
  | cons head rest ih =>
    obtain ⟨l, e⟩ := head
    by_cases hl : l = location
    · rw [List.filter_cons_of_neg (by simpa using hl), ih]
    · have ho : (location == l) = false := by simp [Ne.symm hl]
      rw [List.filter_cons_of_pos (by simpa using hl), List.lookup_cons, ih, ho]

theorem at?_set_self {location : Location} (h : location ≠ []) (disk : Disk) (entry : Entry) :
    (disk.set location entry).at? location = some entry := by
  simp [at?, set, h]

theorem at?_set_of_ne {location other : Location} (h : other ≠ location) (disk : Disk)
    (entry : Entry) : (disk.set location entry).at? other = disk.at? other := by
  have hl : (other == location) = false := by simp [h]
  simp only [at?, set, List.lookup_cons, hl]
  rw [lookup_filter_ne h]

theorem at?_erase_self {location : Location} (h : location ≠ []) (disk : Disk) :
    (disk.erase location).at? location = none := by
  simp only [at?, erase, h, if_false]
  exact lookup_filter_self _ _

theorem at?_erase_of_ne {location other : Location} (h : other ≠ location) (disk : Disk) :
    (disk.erase location).at? other = disk.at? other := by
  simp only [at?, erase]
  rw [lookup_filter_ne h]

end Disk

end ApiTypings
