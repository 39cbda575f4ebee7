import ApiTypings.Proofs.Disk.Changes

/-!
This module contains what the way along a path depends on: the folders and the links of a disk, and
not its files. So a path leads to the same place after files have come, gone or changed, and after
folders have been added.
-/

namespace ApiTypings
namespace Disk

/-- Whatever way there is on a disk is there on another one: it has the folders of the first and
    exactly its links. -/
structure WaysKept (disk disk' : Disk) : Prop where
  home : disk'.home = disk.home
  folder : ∀ location, disk.at? location = some .folder → disk'.at? location = some .folder
  link : ∀ location destination,
    disk'.at? location = some (.link destination) ↔ disk.at? location = some (.link destination)

section

variable {disk disk' disk'' : Disk} {follows : Bool → Bool} {folder location : Location}
  {name : RawText} {path : Path} {slash : Bool} {spot : Spot}

theorem WaysKept.refl (disk : Disk) : disk.WaysKept disk :=
  ⟨rfl, fun _ h => h, fun _ _ => Iff.rfl⟩

theorem WaysKept.trans (h : disk.WaysKept disk') (h' : disk'.WaysKept disk'') :
    disk.WaysKept disk'' := by
  constructor
  . rw [h'.home, h.home]
  . intro location hfolder
    apply h'.folder location (h.folder location hfolder)
  . intro location destination
    rw [h'.link, h.link]

theorem WaysKept.find_folder (h : disk.WaysKept disk')
    (hfind : disk.find folder name = .ok (some .folder)) :
    disk'.find folder name = .ok (some .folder) := by
  rw [find_eq_ok_iff] at hfind ⊢
  exact ⟨hfind.1, h.folder _ hfind.2⟩

theorem WaysKept.find_link (h : disk.WaysKept disk') {destination : Path}
    (hfind : disk.find folder name = .ok (some (.link destination))) :
    disk'.find folder name = .ok (some (.link destination)) := by
  rw [find_eq_ok_iff] at hfind ⊢
  exact ⟨hfind.1, (h.link _ _).2 hfind.2⟩

theorem WaysKept.find_other (h : disk.WaysKept disk') {found : Option Entry}
    (hfind : disk.find folder name = .ok found)
    (hlink : ∀ destination, found ≠ some (.link destination)) :
    ∃ found',
      disk'.find folder name = .ok found'
        ∧
      ∀ destination, found' ≠ some (.link destination) := by
  rw [find_eq_ok_iff] at hfind
  refine ⟨disk'.at? (folder ++ [name]), find_eq_ok_iff.2 ⟨hfind.1, rfl⟩, ?_⟩
  intro destination hlink'
  apply hlink destination
  rw [← hfind.2]
  exact (h.link _ _).1 hlink'

theorem WaysKept.descend_eq_ok (h : disk.WaysKept disk') {jump jump' : Jump}
    (hjump : ∀ folder destination rest slash, jump folder destination rest slash = .ok spot →
      jump' folder destination rest slash = .ok spot)
    {names : List RawText} (hspot : disk.descend follows jump slash folder names = .ok spot) :
    disk'.descend follows jump' slash folder names = .ok spot := by
  rw [descend_eq_ok_iff] at hspot ⊢
  induction hspot with
  | arrive folder => exact .arrive folder
  | stay later ih => exact .stay (ih hjump)
  | leave later ih => exact .leave (ih hjump)
  | enter hname hrest hfind later ih => exact .enter hname hrest (h.find_folder hfind) (ih hjump)
  | stop hname hfollows =>
    refine .stop hname fun heq => ?_
    obtain ⟨found, hfind, hlink⟩ := hfollows heq
    exact h.find_other hfind hlink
  | jump hname hfollows hfind hlater =>
    exact .jump hname hfollows (h.find_link hfind) (hjump _ _ _ _ hlater)

theorem WaysKept.walk_eq_ok (h : disk.WaysKept disk') {links : Nat} {names : List RawText}
    (hspot : disk.walk follows links slash folder names = .ok spot) :
    disk'.walk follows links slash folder names = .ok spot := by
  induction links generalizing slash folder names with
  | zero =>
    unfold walk at hspot ⊢
    apply h.descend_eq_ok _ hspot
    intro _ _ _ _ hnone
    cases hnone
  | succ links ih =>
    unfold walk at hspot ⊢
    apply h.descend_eq_ok _ hspot
    intro folder destination rest slash hjump
    apply ih hjump

theorem WaysKept.spot_eq_ok (h : disk.WaysKept disk') (hspot : disk.spot follows path = .ok spot) :
    disk'.spot follows path = .ok spot := by
  obtain ⟨hnull, htext, hfits, hwalk⟩ := spot_eq_ok_iff.1 hspot
  rw [spot_eq_ok_iff, h.home]
  exact ⟨hnull, htext, hfits, h.walk_eq_ok hwalk⟩

theorem stat_eq_folder_iff :
    disk.stat path = .ok (location, .folder) ↔
      disk.spot (fun _ => true) path = .ok (.inside location)
        ∨
      ∃ folder name slash,
        disk.spot (fun _ => true) path = .ok (.entry folder name slash)
          ∧
        disk.find folder name = .ok (some .folder)
          ∧
        location = folder ++ [name] := by
  unfold stat
  split
  . next hspot => simp [hspot]
  . next hspot => simp [hspot, eq_comm]
  . next folder name slash hspot =>
    rw [hspot]
    simp only [Except.ok.injEq, Spot.entry.injEq, reduceCtorEq, false_or]
    constructor
    . intro h
      split at h
      . cases h
      . cases h
      . split at h
        . cases h
        . cases h
      . next hfind =>
        cases h
        exact ⟨folder, name, slash, ⟨rfl, rfl, rfl⟩, hfind, rfl⟩
      . cases h
    . rintro ⟨_, _, _, ⟨rfl, rfl, rfl⟩, hfind, rfl⟩
      rw [hfind]

theorem WaysKept.stat_eq_folder (h : disk.WaysKept disk')
    (hstat : disk.stat path = .ok (location, .folder)) :
    disk'.stat path = .ok (location, .folder) := by
  rw [stat_eq_folder_iff] at hstat ⊢
  cases hstat with
  | inl hinside => exact .inl (h.spot_eq_ok hinside)
  | inr hentry =>
    obtain ⟨folder, name, slash, hspot, hfind, hlocation⟩ := hentry
    exact .inr ⟨folder, name, slash, h.spot_eq_ok hspot, h.find_folder hfind, hlocation⟩

theorem stat_of_spot {content : Content}
    (hspot : disk.spot (fun _ => true) path = .ok (.entry folder name false))
    (hfind : disk.find folder name = .ok (some (.file content))) :
    disk.stat path = .ok (folder ++ [name], .file content) := by
  unfold stat
  rw [hspot]
  simp only [hfind]
  rfl

variable {entry : Entry}

theorem waysKept_set (hne : location ≠ []) (hfolder : disk.at? location ≠ some .folder)
    (hlink : ∀ destination, disk.at? location ≠ some (.link destination))
    (hentry : ∀ destination, entry ≠ .link destination) :
    disk.WaysKept (disk.set location entry) := by
  constructor
  . rfl
  . intro other hother
    apply at?_set_of_folder hne (.inr hfolder) hother
  . intro other destination
    by_cases heq : other = location
    . rw [heq, at?_set_self hne]
      constructor
      . intro h
        exact absurd (Option.some.inj h) (hentry destination)
      . intro h
        exact absurd h (hlink destination)
    . rw [at?_set_of_ne heq]

theorem waysKept_of_set {content : Content} (hne : location ≠ [])
    (hlink : ∀ destination, disk.at? location ≠ some (.link destination)) :
    (disk.set location (.file content)).WaysKept disk := by
  constructor
  . rfl
  . intro other hother
    have heq : other ≠ location := by
      intro heq
      rw [heq, at?_set_self hne] at hother
      cases hother
    rwa [at?_set_of_ne heq] at hother
  . intro other destination
    by_cases heq : other = location
    . rw [heq, at?_set_self hne]
      constructor
      . intro h
        exact absurd h (hlink destination)
      . intro h
        cases h
    . rw [at?_set_of_ne heq]

end

section

variable {disk : Disk} {follows follows' : Bool → Bool} {jump jump' : Jump} {slash : Bool}
  {folder place location : Location} {names : List RawText} {name : RawText} {path : Path}

-- a slash at the end of a path or of a link is never lost on the way

theorem slash_of_descend
    (hjump : ∀ folder destination rest slash,
      jump folder destination rest slash = .ok (.entry place name false) → slash = false)
    (h : disk.descend follows jump slash folder names = .ok (.entry place name false)) :
    slash = false := by
  rw [descend_eq_ok_iff] at h
  generalize hspot : Spot.entry place name false = spot at h
  induction h with
  | arrive => cases hspot
  | stay later ih => exact ih hspot
  | leave later ih => exact ih hspot
  | enter hname hrest hfind later ih => exact ih hspot
  | stop hname hfollows =>
    cases hspot
    rfl
  | jump hname hfollows hfind hlater => exact hjump _ _ _ _ (hspot ▸ hlater)

theorem slash_of_walk {links : Nat}
    (h : disk.walk follows links slash folder names = .ok (.entry place name false)) :
    slash = false := by
  induction links generalizing slash folder names with
  | zero =>
    unfold walk at h
    apply slash_of_descend _ h
    intro _ _ _ _ hnone
    cases hnone
  | succ links ih =>
    unfold walk at h
    apply slash_of_descend _ h
    intro folder destination rest slash hwalk
    have hslash := ih hwalk
    split at hslash
    . exact (Bool.or_eq_false_iff.1 hslash).1
    . exact hslash

theorem descend_of_follows (hfollows : follows false = follows' false)
    (hjump : ∀ folder destination rest slash,
      jump folder destination rest slash = .ok (.entry place name false) →
      jump' folder destination rest slash = .ok (.entry place name false))
    (h : disk.descend follows jump false folder names = .ok (.entry place name false)) :
    disk.descend follows' jump' false folder names = .ok (.entry place name false) := by
  rw [descend_eq_ok_iff] at h ⊢
  generalize hspot : Spot.entry place name false = spot at h ⊢
  induction h with
  | arrive => cases hspot
  | stay later ih => exact .stay (ih hspot)
  | leave later ih => exact .leave (ih hspot)
  | enter hname hrest hfind later ih => exact .enter hname hrest hfind (ih hspot)
  | stop hname hstop => exact .stop hname fun heq => hstop (hfollows.trans heq)
  | jump hname hlast hfind hlater =>
    refine .jump hname (fun heq => hfollows.symm.trans (hlast heq)) hfind ?_
    exact hspot ▸ hjump _ _ _ _ (hspot ▸ hlater)

theorem walk_of_follows (hfollows : follows false = follows' false) {links : Nat}
    (h : disk.walk follows links false folder names = .ok (.entry place name false)) :
    disk.walk follows' links false folder names = .ok (.entry place name false) := by
  induction links generalizing folder names with
  | zero =>
    unfold walk at h ⊢
    apply descend_of_follows hfollows _ h
    intro _ _ _ _ hnone
    cases hnone
  | succ links ih =>
    unfold walk at h ⊢
    apply descend_of_follows hfollows _ h
    intro folder destination rest slash hwalk
    simp only at hwalk ⊢
    have hslash := slash_of_walk hwalk
    rw [hslash] at hwalk ⊢
    apply ih hwalk

theorem spot_of_follows (hfollows : follows false = follows' false)
    (h : disk.spot follows path = .ok (.entry place name false)) :
    disk.spot follows' path = .ok (.entry place name false) := by
  obtain ⟨hnull, htext, hfits, hwalk⟩ := spot_eq_ok_iff.1 h
  have hslash := slash_of_walk hwalk
  rw [hslash] at hwalk
  rw [spot_eq_ok_iff, hslash]
  exact ⟨hnull, htext, hfits, walk_of_follows hfollows hwalk⟩

-- whether a link at the end is followed does not matter where there is none

theorem descend_of_end {slash' : Bool} {found : Option Entry}
    (hfound : disk.find place name = .ok found)
    (hlink : ∀ destination, found ≠ some (.link destination))
    (hjump : ∀ folder destination rest slash,
      jump folder destination rest slash = .ok (.entry place name slash') →
      jump' folder destination rest slash = .ok (.entry place name slash'))
    (h : disk.descend (fun _ => false) jump slash folder names = .ok (.entry place name slash')) :
    disk.descend follows jump' slash folder names = .ok (.entry place name slash') := by
  rw [descend_eq_ok_iff] at h ⊢
  generalize hspot : Spot.entry place name slash' = spot at h ⊢
  induction h with
  | arrive => cases hspot
  | stay later ih => exact .stay (ih hspot)
  | leave later ih => exact .leave (ih hspot)
  | enter hname hrest hfind later ih => exact .enter hname hrest hfind (ih hspot)
  | stop hname hfollows =>
    cases hspot
    exact .stop hname fun _ => ⟨found, hfound, hlink⟩
  | jump hname hlast hfind hlater =>
    refine .jump hname (fun heq => absurd (hlast heq) (by simp)) hfind ?_
    exact hspot ▸ hjump _ _ _ _ (hspot ▸ hlater)

theorem walk_of_end {links : Nat} {slash' : Bool} {found : Option Entry}
    (hfound : disk.find place name = .ok found)
    (hlink : ∀ destination, found ≠ some (.link destination))
    (h : disk.walk (fun _ => false) links slash folder names = .ok (.entry place name slash')) :
    disk.walk follows links slash folder names = .ok (.entry place name slash') := by
  induction links generalizing slash folder names with
  | zero =>
    unfold walk at h ⊢
    apply descend_of_end hfound hlink _ h
    intro _ _ _ _ hnone
    cases hnone
  | succ links ih =>
    unfold walk at h ⊢
    apply descend_of_end hfound hlink _ h
    intro folder destination rest slash hwalk
    apply ih hwalk

theorem spot_of_end {found : Option Entry} (hfound : disk.find place name = .ok found)
    (hlink : ∀ destination, found ≠ some (.link destination))
    (h : disk.spot (fun _ => false) path = .ok (.entry place name slash)) :
    disk.spot follows path = .ok (.entry place name slash) := by
  obtain ⟨hnull, htext, hfits, hwalk⟩ := spot_eq_ok_iff.1 h
  exact spot_eq_ok_iff.2 ⟨hnull, htext, hfits, walk_of_end hfound hlink hwalk⟩

theorem at?_of_fileSpot (h : disk.fileSpot path = .ok location) :
    location ≠ []
      ∧
    disk.at? location ≠ some .folder
      ∧
    ∀ destination, disk.at? location ≠ some (.link destination) := by
  unfold fileSpot at h
  split at h
  . cases h
  . cases h
  . split at h
    . cases h
    . split at h
      . cases h
      . cases h
      . cases h
      . next found hfolder hlink hfind =>
        cases h
        rw [(find_eq_ok_iff.1 hfind).2]
        exact ⟨by simp, hfolder, hlink⟩

theorem waysKept_set_fileSpot (h : disk.fileSpot path = .ok location) (content : Content) :
    disk.WaysKept (disk.set location (.file content))
      ∧
    (disk.set location (.file content)).WaysKept disk := by
  obtain ⟨hne, hfolder, hlink⟩ := at?_of_fileSpot h
  exact ⟨waysKept_set hne hfolder hlink (fun _ => Entry.noConfusion), waysKept_of_set hne hlink⟩

theorem stat_set_fileSpot (h : disk.fileSpot path = .ok location) (content : Content) :
    (disk.set location (.file content)).stat path = .ok (location, .file content) := by
  obtain ⟨folder, name, found, hspot, hfind, _, hlocation⟩ := fileSpot_eq_ok h
  have hstat : disk.spot (fun _ => true) path = .ok (.entry folder name false) :=
    spot_of_follows rfl hspot
  rw [hlocation] at h ⊢
  apply stat_of_spot ((waysKept_set_fileSpot h content).1.spot_eq_ok hstat)
  rw [find_eq_ok_iff, at?_set_self (by simp)]
  exact ⟨(find_eq_ok_iff.1 hfind).1, rfl⟩

theorem effect_of_makeFolder {disk' : Disk} (h : disk.makeFolder path = .ok disk') :
    ∃ location,
      location ≠ []
        ∧
      disk.at? location = none
        ∧
      disk' = disk.set location .folder
        ∧
      disk'.stat path = .ok (location, .folder) := by
  obtain ⟨folder, name, slash, hspot, hfind, hdisk⟩ := makeFolder_eq_ok h
  obtain ⟨hshort, hnone⟩ := find_eq_ok_iff.1 hfind
  have hways : disk.WaysKept disk' := by
    rw [hdisk]
    apply waysKept_set (by simp)
    . simp [hnone]
    . simp [hnone]
    . exact fun _ => Entry.noConfusion
  refine ⟨folder ++ [name], by simp, hnone, hdisk, ?_⟩
  rw [stat_eq_folder_iff]
  right
  refine ⟨folder, name, slash, ?_, ?_, rfl⟩
  . apply hways.spot_eq_ok
    exact spot_of_end hfind (by simp) hspot
  . rw [find_eq_ok_iff, hdisk, at?_set_self (by simp)]
    exact ⟨hshort, rfl⟩

theorem set_set (disk : Disk) (location : Location) (entry entry' : Entry) :
    (disk.set location entry).set location entry' = disk.set location entry' := by
  simp [set]

end

def placeOf? (disk : Disk) (path : Path) : Option Location :=
  match disk.spot (fun _ => false) path with
  | .ok (.entry folder name _) => some (folder ++ [name])
  | _ => none

section

variable {disk disk' : Disk} {path : Path} {location folder : Location} {name : RawText}

theorem placeOf?_of_spot {slash : Bool}
    (h : disk.spot (fun _ => false) path = .ok (.entry folder name slash)) :
    disk.placeOf? path = some (folder ++ [name]) := by
  unfold placeOf?
  rw [h]

theorem spot_of_placeOf? (h : disk.placeOf? path = some location) :
    ∃ folder name slash,
      disk.spot (fun _ => false) path = .ok (.entry folder name slash)
        ∧
      location = folder ++ [name] := by
  unfold placeOf? at h
  split at h
  . next folder name slash hspot => exact ⟨folder, name, slash, hspot, (Option.some.inj h).symm⟩
  . cases h

theorem WaysKept.placeOf?_eq_some (h : disk.WaysKept disk')
    (hplace : disk.placeOf? path = some location) : disk'.placeOf? path = some location := by
  obtain ⟨folder, name, slash, hspot, hlocation⟩ := spot_of_placeOf? hplace
  rw [placeOf?_of_spot (h.spot_eq_ok hspot), hlocation]

end
end Disk
end ApiTypings
