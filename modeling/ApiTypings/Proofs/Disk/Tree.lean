import ApiTypings.Disk.Operations
import ApiTypings.Proofs.Disk.Descent

/-!
This module contains what holds of a disk at all times: its entries form a tree, and where there are
no links no operation brings one in.
-/

namespace ApiTypings
namespace Disk

structure IsTree (disk : Disk) : Prop where
  home : disk.at? disk.home = some .folder
  above : ∀ location entry,
    disk.at? location = some entry → disk.at? location.dropLast = some .folder

def IsLinkFree (disk : Disk) : Prop :=
  ∀ location destination, disk.at? location ≠ some (.link destination)

section

variable {disk : Disk} {location : Location} {entry : Entry}

theorem mem_keys_of_at? (h : disk.at? location = some entry) (hne : location ≠ []) :
    location ∈ disk.entries.map Prod.fst := by
  unfold at? at h
  rw [if_neg hne] at h
  have hsome : (disk.entries.lookup location).isSome = true := by rw [h]; rfl
  obtain ⟨found, hmem, heq⟩ := List.lookup_isSome_iff.1 hsome
  exact List.mem_map.2 ⟨found, hmem, (eq_of_beq heq).symm⟩

theorem at?_isSome_of_mem_keys (h : location ∈ disk.entries.map Prod.fst) :
    (disk.at? location).isSome = true := by
  unfold at?
  split
  . rfl
  . obtain ⟨found, hmem, heq⟩ := List.mem_map.1 h
    exact List.lookup_isSome_iff.2 ⟨found, hmem, by simp [heq]⟩

theorem isTree_iff :
    disk.IsTree ↔
      disk.at? disk.home = some .folder
        ∧
      ∀ location ∈ disk.entries.map Prod.fst, disk.at? location.dropLast = some .folder := by
  constructor
  . intro h
    refine ⟨h.home, ?_⟩
    intro location hmem
    obtain ⟨entry, hentry⟩ := Option.isSome_iff_exists.1 (at?_isSome_of_mem_keys hmem)
    apply h.above location entry hentry
  . rintro ⟨hhome, habove⟩
    refine ⟨hhome, ?_⟩
    intro location entry hentry
    by_cases hne : location = []
    . rw [hne]
      rfl
    . apply habove location (mem_keys_of_at? hentry hne)

instance : Decidable disk.IsTree := decidable_of_iff _ isTree_iff.symm

theorem isLinkFree_iff :
    disk.IsLinkFree ↔
      ∀ location ∈ disk.entries.map Prod.fst,
        (disk.at? location).any (fun entry => entry matches .link _) = false := by
  constructor
  . intro h location hmem
    obtain ⟨entry, hentry⟩ := Option.isSome_iff_exists.1 (at?_isSome_of_mem_keys hmem)
    rw [hentry]
    cases entry with
    | link destination => exact absurd hentry (h location destination)
    | _ => rfl
  . intro h location destination hlink
    have hne : location ≠ [] := by
      intro hnil
      rw [hnil, at?_nil] at hlink
      cases hlink
    have := h location (mem_keys_of_at? hlink hne)
    rw [hlink] at this
    cases this

instance : Decidable disk.IsLinkFree := decidable_of_iff _ isLinkFree_iff.symm

theorem ne_nil_of_at?_ne_folder (h : disk.at? location ≠ some .folder) : location ≠ [] := by
  intro hnil
  exact h (hnil ▸ rfl)

theorem IsTree.at?_of_append (htree : disk.IsTree) {folder rest : Location} (hrest : rest ≠ [])
    (h : disk.at? (folder ++ rest) = some entry) : disk.at? folder = some .folder := by
  -- from the top down: what is in a folder that is itself an entry makes that folder one
  induction rest generalizing folder with
  | nil => exact absurd rfl hrest
  | cons name rest ih =>
    have hname : ∃ found, disk.at? (folder ++ [name]) = some found := by
      cases rest with
      | nil => exact ⟨entry, h⟩
      | cons => exact ⟨.folder, ih (List.cons_ne_nil _ _) (by simpa using h)⟩
    obtain ⟨found, hfound⟩ := hname
    have habove := htree.above _ _ hfound
    rwa [List.dropLast_concat] at habove

theorem at?_set_of_folder (hne : location ≠ [])
    (hkept : entry = .folder ∨ disk.at? location ≠ some .folder) {other : Location}
    (h : disk.at? other = some .folder) : (disk.set location entry).at? other = some .folder := by
  by_cases heq : other = location
  . rw [heq, at?_set_self hne]
    cases hkept with
    | inl hentry => rw [hentry]
    | inr hnot => exact absurd (heq ▸ h) hnot
  . rw [at?_set_of_ne heq]
    exact h

theorem at?_erase_of_folder (hnot : disk.at? location ≠ some .folder) {other : Location}
    (h : disk.at? other = some .folder) : (disk.erase location).at? other = some .folder := by
  have hne : other ≠ location := by
    intro heq
    exact hnot (heq ▸ h)
  rw [at?_erase_of_ne hne]
  exact h

theorem IsTree.set (htree : disk.IsTree) (hne : location ≠ [])
    (hfolder : disk.at? location.dropLast = some .folder)
    (hkept : entry = .folder ∨ disk.at? location ≠ some .folder) :
    (disk.set location entry).IsTree := by
  constructor
  . apply at?_set_of_folder hne hkept htree.home
  . intro other found hfound
    apply at?_set_of_folder hne hkept
    by_cases heq : other = location
    . rw [heq]
      exact hfolder
    . rw [at?_set_of_ne heq] at hfound
      apply htree.above _ _ hfound

theorem IsTree.erase (htree : disk.IsTree) (hnot : disk.at? location ≠ some .folder) :
    (disk.erase location).IsTree := by
  have hne := ne_nil_of_at?_ne_folder hnot
  constructor
  . apply at?_erase_of_folder hnot htree.home
  . intro other found hfound
    by_cases heq : other = location
    . rw [heq, at?_erase_self hne] at hfound
      cases hfound
    . rw [at?_erase_of_ne heq] at hfound
      apply at?_erase_of_folder hnot (htree.above _ _ hfound)

theorem IsLinkFree.set (hfree : disk.IsLinkFree) (hne : location ≠ [])
    (hentry : ∀ destination, entry ≠ .link destination) :
    (disk.set location entry).IsLinkFree := by
  intro other destination hlink
  by_cases heq : other = location
  . rw [heq, at?_set_self hne] at hlink
    apply hentry destination (Option.some.inj hlink)
  . rw [at?_set_of_ne heq] at hlink
    apply hfree other destination hlink

theorem IsLinkFree.erase (hfree : disk.IsLinkFree) (hne : location ≠ []) :
    (disk.erase location).IsLinkFree := by
  intro other destination hlink
  by_cases heq : other = location
  . rw [heq, at?_erase_self hne] at hlink
    cases hlink
  . rw [at?_erase_of_ne heq] at hlink
    apply hfree other destination hlink

end

theorem IsTree.folder_of_descend {disk : Disk} (htree : disk.IsTree) {follows : Bool → Bool}
    {jump : Jump} {slash : Bool} {place : Location} {name : RawText} {slash' : Bool}
    (hjump : ∀ folder destination rest slash, disk.at? folder = some .folder →
      jump folder destination rest slash = .ok (.entry place name slash') →
      disk.at? place = some .folder)
    {folder : Location} {names : List RawText} (hfolder : disk.at? folder = some .folder)
    (h : descend disk follows jump slash folder names = .ok (.entry place name slash')) :
    disk.at? place = some .folder := by
  rw [descend_eq_ok_iff] at h
  generalize hspot : Spot.entry place name slash' = spot at h
  induction h with
  | arrive => cases hspot
  | stay later ih => exact ih hfolder hspot
  -- two dots lead to the folder around a folder, which is there as well
  | leave later ih => exact ih (htree.above _ _ hfolder) hspot
  | enter hname hrest hfind later ih => exact ih (find_eq_ok_iff.1 hfind).2 hspot
  | stop hname hfollows =>
    cases hspot
    exact hfolder
  | jump hname hfollows hfind hlater => exact hjump _ _ _ _ hfolder (hspot ▸ hlater)

theorem IsTree.folder_of_walk {disk : Disk} (htree : disk.IsTree) {follows : Bool → Bool}
    {links : Nat} {slash : Bool} {place : Location} {name : RawText} {slash' : Bool}
    {folder : Location} {names : List RawText} (hfolder : disk.at? folder = some .folder)
    (h : walk disk follows links slash folder names = .ok (.entry place name slash')) :
    disk.at? place = some .folder := by
  induction links generalizing slash folder names with
  | zero =>
    unfold walk at h
    refine htree.folder_of_descend ?_ hfolder h
    intro _ _ _ _ _ hnone
    cases hnone
  | succ links ih =>
    unfold walk at h
    refine htree.folder_of_descend ?_ hfolder h
    intro folder destination rest slash hfolder hwalk
    refine ih ?_ hwalk
    split
    . rfl
    . exact hfolder

theorem IsTree.folder_of_spot {disk : Disk} (htree : disk.IsTree) {follows : Bool → Bool}
    {path : Path} {folder : Location} {name : RawText} {slash : Bool}
    (h : disk.spot follows path = .ok (.entry folder name slash)) :
    disk.at? folder = some .folder := by
  obtain ⟨_, _, _, hwalk⟩ := spot_eq_ok_iff.1 h
  refine htree.folder_of_walk ?_ hwalk
  split
  . rfl
  . exact htree.home

end Disk

end ApiTypings
