import ApiTypings.Proofs.Disk.Places

/-!
This module contains what an operation does on a disk on which it has been done before: a folder
that is there is not made again, and a file that is put and given its name a second time leaves the
disk as the first time left it.
-/

namespace ApiTypings
namespace Disk

theorem erase_set (disk : Disk) (location : Location) (entry : Entry) :
    (disk.set location entry).erase location = disk.erase location := by
  simp [set, erase]

theorem erase_set_of_ne {location other : Location} (h : location ≠ other) (disk : Disk)
    (entry : Entry) :
    (disk.set location entry).erase other = (disk.erase other).set location entry := by
  unfold set erase
  simp only [mk.injEq, true_and]
  rw [List.filter_cons_of_pos (by simpa using h), List.filter_filter, List.filter_filter]
  simp only [Bool.and_comm]

theorem erase_erase (disk : Disk) (location : Location) :
    (disk.erase location).erase location = disk.erase location := by
  simp [erase]

theorem move_again {location other : Location} (h : other ≠ location) (disk : Disk)
    (entry : Entry) :
    (((disk.erase location).set other entry).erase location).set other entry =
      (disk.erase location).set other entry := by
  rw [erase_set_of_ne h, erase_erase, set_set]

section

variable {disk : Disk} {follows : Bool → Bool} {jump jump' : Jump} {slash : Bool}
  {folder : Location} {names : List RawText} {path source target : Path} {spot : Spot}

theorem IsLinkFree.descend_unfollowed (hfree : disk.IsLinkFree)
    (h : descend disk follows jump slash folder names = .ok spot) :
    descend disk (fun _ => false) jump' slash folder names = .ok spot := by
  rw [descend_eq_ok_iff] at h ⊢
  induction h with
  | arrive folder => exact .arrive folder
  | stay later ih => exact .stay ih
  | leave later ih => exact .leave ih
  | enter hname hrest hfind later ih => exact .enter hname hrest hfind ih
  | stop hname _ => exact .stop hname fun heq => absurd heq (by simp)
  | jump hname hlast hfind hlater => exact absurd (find_eq_ok_iff.1 hfind).2 (hfree _ _)

theorem IsLinkFree.spot_unfollowed (hfree : disk.IsLinkFree)
    (h : disk.spot follows path = .ok spot) : disk.spot (fun _ => false) path = .ok spot := by
  obtain ⟨hnull, htext, hfits, hwalk⟩ := spot_eq_ok_iff.1 h
  exact spot_eq_ok_iff.2 ⟨hnull, htext, hfits, hfree.descend_unfollowed hwalk⟩

theorem isFolder_eq_true_iff :
    disk.isFolder path = true ↔ ∃ location, disk.stat path = .ok (location, .folder) := by
  unfold isFolder
  split
  . next location hstat => simp [hstat]
  . next hnot =>
    simp only [Bool.false_eq_true, false_iff, not_exists]
    exact fun location hstat => hnot location hstat

theorem WaysKept.isFolder {disk' : Disk} (h : disk.WaysKept disk')
    (hfolder : disk.isFolder path = true) : disk'.isFolder path = true := by
  obtain ⟨location, hstat⟩ := isFolder_eq_true_iff.1 hfolder
  exact isFolder_eq_true_iff.2 ⟨location, h.stat_eq_folder hstat⟩

theorem IsLinkFree.makeFolder_of_isFolder (hfree : disk.IsLinkFree)
    (h : disk.isFolder path = true) : disk.makeFolder path = .error .entryExists := by
  obtain ⟨location, hstat⟩ := isFolder_eq_true_iff.1 h
  unfold makeFolder
  obtain hinside | ⟨folder, name, slash, hspot, hfind, _⟩ := stat_eq_folder_iff.1 hstat
  . rw [hfree.spot_unfollowed hinside]
  . rw [hfree.spot_unfollowed hspot]
    simp only [hfind]

theorem isFolder_of_makeFolder {disk' : Disk} (h : disk.makeFolder path = .ok disk') :
    disk'.isFolder path = true := by
  obtain ⟨location, _, _, _, hstat⟩ := effect_of_makeFolder h
  exact isFolder_eq_true_iff.2 ⟨location, hstat⟩

variable {folder' : Location} {name name' : RawText} {entry : Entry} {old found : Option Entry}

theorem fileSpot_of_spot
    (hspot : disk.spot (fun slash => !slash) path = .ok (.entry folder name false))
    (hfind : disk.find folder name = .ok found) (hfolder : found ≠ some .folder)
    (hlink : ∀ destination, found ≠ some (.link destination)) :
    disk.fileSpot path = .ok (folder ++ [name]) := by
  unfold fileSpot
  rw [hspot]
  simp only [hfind, Bool.false_eq_true, if_false]

theorem rename_of_spot
    (hsource : disk.spot (fun _ => false) source = .ok (.entry folder name false))
    (htarget : disk.spot (fun _ => false) target = .ok (.entry folder' name' false))
    (hfind : disk.find folder name = .ok (some entry)) (hfind' : disk.find folder' name' = .ok old)
    (hentry : entry ≠ .folder) (hne : folder ++ [name] ≠ folder' ++ [name'])
    (hold : old ≠ some .folder) :
    disk.rename source target =
      .ok ((disk.erase (folder ++ [name])).set (folder' ++ [name']) entry) := by
  unfold rename
  rw [hsource, htarget]
  simp [hfind, hfind', hentry, hne, hold]

end

theorem IsLinkFree.rename_again {made disk' : Disk} {source target : Path} {beside : Location}
    {t : Text} (hfree : made.IsLinkFree) (hfile : made.fileSpot source = .ok beside)
    (hrename : (made.set beside (.file (.text t))).rename source target = .ok disk') :
    disk'.fileSpot source = .ok beside
      ∧
    (disk'.set beside (.file (.text t))).rename source target = .ok disk' := by
  obtain ⟨above, before, _, hspot, hfound, _, hbeside⟩ := fileSpot_eq_ok hfile
  obtain ⟨hne, _, _⟩ := at?_of_fileSpot hfile
  have hput := (waysKept_set_fileSpot hfile (.text t)).1
  have hfree' := hput.isLinkFree hfree
  have hfilled : (made.set beside (.file (.text t))).at? beside = some (.file (.text t)) :=
    at?_set_self hne _ _
  obtain ⟨above', before', folder, name, entry, old, hsource, htarget, hfind, hfind', hentry,
    hmade⟩ := rename_eq_ok hrename
  obtain ⟨hshort, hmoved⟩ := find_eq_ok_iff.1 hfind
  have hplace : above' ++ [before'] = beside := by
    rw [hbeside]
    exact hfree.spot_unique hfree' rfl hspot hsource
  have hsource' := placeOf?_of_spot hsource
  rw [hplace] at hmade hmoved hsource'
  have hmoves := (hfree'.effect_of_rename hsource' hfilled hrename).1
  have hways := hput.trans hmoves
  -- in both cases nothing is in the way of the file beside the target
  have hfile' (hnot : disk'.at? beside ≠ some .folder) : disk'.fileSpot source = .ok beside := by
    rw [hbeside] at hnot ⊢
    apply fileSpot_of_spot (hways.spot_eq_ok hspot) _ hnot
      (hways.isLinkFree hfree _)
    exact find_eq_ok_iff.2 ⟨(find_eq_ok_iff.1 hfound).1, rfl⟩
  obtain ⟨_, hdisk⟩ | ⟨hother, hold, hdisk⟩ := hmade
  . rw [hdisk] at hrename hfile' ⊢
    refine ⟨hfile' (by simp [hfilled]), ?_⟩
    rw [set_set, hrename]
  . have hgone : disk'.at? beside = none := by
      rw [hdisk, at?_set_of_ne hother, at?_erase_self hne]
    have hfile'' := hfile' (by simp [hgone])
    have hputs := hmoves.trans (waysKept_set_fileSpot hfile'' (.text t)).1
    have hfind'' : (disk'.set beside (.file (.text t))).find above' before' = .ok (some entry) := by
      rw [find_eq_ok_iff, hplace, at?_set_self hne, ← hmoved, hfilled]
      exact ⟨hshort, rfl⟩
    have hthere : (disk'.set beside (.file (.text t))).find folder name = .ok (some entry) := by
      rw [find_eq_ok_iff, at?_set_of_ne hother.symm, hdisk, at?_set_self (by simp)]
      exact ⟨(find_eq_ok_iff.1 hfind').1, rfl⟩
    refine ⟨hfile'', ?_⟩
    rw [rename_of_spot (hputs.spot_eq_ok hsource) (hputs.spot_eq_ok htarget) hfind'' hthere hentry,
      hplace, hdisk, erase_set, move_again hother.symm]
    . rwa [hplace]
    . exact fun heq => hentry (Option.some.inj heq)

end Disk
end ApiTypings
