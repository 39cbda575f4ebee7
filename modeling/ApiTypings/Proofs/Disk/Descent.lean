import ApiTypings.Disk.Resolve

/-!
This module contains the way along the names of a path as a relation. What holds of the places that
paths lead to is proved by induction on it, with one case for each thing that can be met at a name.
-/

namespace ApiTypings
namespace Disk

theorem find_eq_ok_iff {disk : Disk} {folder : Location} {name : RawText} {found : Option Entry} :
    disk.find folder name = .ok found ↔
      name.size ≤ maxName
        ∧
      disk.at? (folder ++ [name]) = found := by
  unfold find
  split
  . next hlong =>
    constructor
    . intro h
      cases h
    . rintro ⟨hshort, _⟩
      omega
  . next hshort =>
    rw [Except.ok.injEq]
    constructor
    . intro h
      exact ⟨by omega, h⟩
    . rintro ⟨_, h⟩
      exact h

theorem spot_eq_ok_iff {disk : Disk} {follows : Bool → Bool} {path : Path} {found : Spot} :
    disk.spot follows path = .ok found ↔
      .char '\x00' ∉ path.text
        ∧
      path.text ≠ []
        ∧
      path.text.size ≤ maxPath
        ∧
      disk.walk follows maxLinks path.route.slash (if path.route.fromRoot then [] else disk.home)
        path.route.names = .ok found := by
  unfold spot
  split
  . next hnull => simp [hnull]
  . next hnull =>
    split
    . next htext => simp [htext]
    . next htext =>
      split
      . next hlong => simp [Nat.not_le.2 hlong]
      . next hfits => simp [hnull, htext, Nat.not_lt.1 hfits]

-- the other two stand for a folder wherever they are

def IsEntryName (name : RawText) : Prop := name ≠ raw "." ∧ name ≠ raw ".."

inductive Leads (disk : Disk) (follows : Bool → Bool) (jump : Jump) (slash : Bool) :
    Location → List RawText → Spot → Prop
  | arrive (folder : Location) : Leads disk follows jump slash folder [] (.inside folder)
  | stay {folder : Location} {rest : List RawText} {spot : Spot}
    (later : Leads disk follows jump slash folder rest spot) :
    Leads disk follows jump slash folder (raw "." :: rest) spot
  | leave {folder : Location} {rest : List RawText} {spot : Spot}
    (later : Leads disk follows jump slash folder.dropLast rest spot) :
    Leads disk follows jump slash folder (raw ".." :: rest) spot
  | enter {folder : Location} {name : RawText} {rest : List RawText} {spot : Spot}
    (hname : IsEntryName name) (hrest : rest ≠ [])
    (hfind : disk.find folder name = .ok (some .folder))
    (later : Leads disk follows jump slash (folder ++ [name]) rest spot) :
    Leads disk follows jump slash folder (name :: rest) spot
  | stop {folder : Location} {name : RawText} (hname : IsEntryName name)
    (hfollows : follows slash = true → ∃ found, disk.find folder name = .ok found ∧
      ∀ destination, found ≠ some (.link destination)) :
    Leads disk follows jump slash folder [name] (.entry folder name slash)
  | jump {folder : Location} {name : RawText} {rest : List RawText} {destination : Path} {spot : Spot}
    (hname : IsEntryName name) (hfollows : rest = [] → follows slash = true)
    (hfind : disk.find folder name = .ok (some (.link destination)))
    (hjump : jump folder destination rest slash = .ok spot) :
    Leads disk follows jump slash folder (name :: rest) spot

section

variable {disk : Disk} {follows : Bool → Bool} {jump : Jump} {slash : Bool} {folder : Location}
  {names : List RawText} {spot : Spot}

theorem leads_of_descend (h : descend disk follows jump slash folder names = .ok spot) :
    Leads disk follows jump slash folder names spot := by
  induction names generalizing folder with
  | nil =>
    cases h
    exact .arrive folder
  | cons name rest ih =>
    unfold descend at h
    split at h
    . next hdot =>
      rw [hdot]
      exact .stay (ih h)
    . next hdot =>
      split at h
      . next hdots =>
        rw [hdots]
        exact .leave (ih h)
      . next hdots =>
        have hname : IsEntryName name := ⟨hdot, hdots⟩
        split at h
        . next hlast =>
          rw [hlast]
          split at h
          . next hfollows =>
            split at h
            . cases h
            . next hfind => exact .jump hname (fun _ => hfollows) hfind h
            . next found hlink hfind =>
              cases h
              exact .stop hname fun _ => ⟨found, hfind, fun destination heq => hlink destination heq⟩
          . next hfollows =>
            cases h
            exact .stop hname fun heq => absurd heq hfollows
        . next hrest =>
          split at h
          . cases h
          . cases h
          . next hfind => exact .enter hname hrest hfind (ih h)
          . cases h
          . next hfind => exact .jump hname (fun heq => absurd heq hrest) hfind h

theorem Leads.descend_eq (h : Leads disk follows jump slash folder names spot) :
    descend disk follows jump slash folder names = .ok spot := by
  induction h with
  | arrive => rfl
  | stay later ih =>
    unfold descend
    rw [if_pos rfl, ih]
  | leave later ih =>
    unfold descend
    rw [if_neg (by decide), if_pos rfl, ih]
  | enter hname hrest hfind later ih =>
    unfold descend
    rw [if_neg hname.1, if_neg hname.2, if_neg hrest, hfind]
    exact ih
  | stop hname hfollows =>
    unfold descend
    rw [if_neg hname.1, if_neg hname.2, if_pos rfl]
    split
    . next heq =>
      obtain ⟨found, hfind, hlink⟩ := hfollows heq
      rw [hfind]
      split
      . next heq => cases heq
      . next heq => exact absurd (Except.ok.inj heq) (hlink _)
      . rfl
    . rfl
  | @jump folder name rest destination spot hname hfollows hfind hjump =>
    unfold descend
    rw [if_neg hname.1, if_neg hname.2, hfind]
    split
    . next hlast =>
      rw [if_pos (hfollows hlast)]
      exact hlast ▸ hjump
    . exact hjump

theorem descend_eq_ok_iff :
    descend disk follows jump slash folder names = .ok spot ↔
      Leads disk follows jump slash folder names spot :=
  ⟨leads_of_descend, Leads.descend_eq⟩

end

theorem walk_eq_descend (disk : Disk) (follows : Bool → Bool) (links : Nat) :
    ∃ jump, ∀ slash folder names, disk.walk follows links slash folder names =
      disk.descend follows jump slash folder names := by
  cases links <;> exact ⟨_, fun _ _ _ => rfl⟩

end Disk
end ApiTypings
