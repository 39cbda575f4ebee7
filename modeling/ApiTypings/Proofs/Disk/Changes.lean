import ApiTypings.Proofs.Disk.Tree

/-!
This module contains what the operations have done to a disk when they are not refused. All of them
make one of few changes, and what each of these keeps is kept by every operation.
-/

namespace ApiTypings
namespace Disk

section

variable {disk disk' : Disk} {path source target : Path} {location : Location} {content : Content}

theorem stat_eq_file (h : disk.stat path = .ok (location, .file content)) :
    ∃ folder name,
      disk.spot (fun _ => true) path = .ok (.entry folder name false)
        ∧
      disk.find folder name = .ok (some (.file content))
        ∧
      location = folder ++ [name] := by
  unfold stat at h
  split at h
  . cases h
  . cases h
  . next folder name slash hspot =>
    split at h
    . cases h
    . cases h
    . next found hfind =>
      split at h
      . cases h
      . next hslash =>
        cases h
        rw [Bool.not_eq_true] at hslash
        exact ⟨folder, name, hslash ▸ hspot, hfind, rfl⟩
    . cases h
    . cases h

theorem makeFolder_eq_ok (h : disk.makeFolder path = .ok disk') :
    ∃ folder name slash,
      disk.spot (fun _ => false) path = .ok (.entry folder name slash)
        ∧
      disk.find folder name = .ok none
        ∧
      disk' = disk.set (folder ++ [name]) .folder := by
  unfold makeFolder at h
  split at h
  . cases h
  . cases h
  . next folder name slash hspot =>
    split at h
    . cases h
    . cases h
    . next hfind =>
      cases h
      exact ⟨folder, name, slash, hspot, hfind, rfl⟩

theorem fileSpot_eq_ok (h : disk.fileSpot path = .ok location) :
    ∃ folder name found,
      disk.spot (fun slash => !slash) path = .ok (.entry folder name false)
        ∧
      disk.find folder name = .ok found
        ∧
      found ≠ some .folder
        ∧
      location = folder ++ [name] := by
  unfold fileSpot at h
  split at h
  . cases h
  . cases h
  . next folder name slash hspot =>
    split at h
    . cases h
    . next hslash =>
      rw [Bool.not_eq_true] at hslash
      split at h
      . cases h
      . cases h
      . cases h
      . next found hfolder _ hfind =>
        cases h
        exact ⟨folder, name, found, hslash ▸ hspot, hfind, hfolder, rfl⟩

theorem createFile_eq_ok (h : disk.createFile path = .ok disk') :
    ∃ location,
      disk.fileSpot path = .ok location
        ∧
      disk' = disk.set location (.file (.text [])) := by
  unfold createFile at h
  split at h
  . cases h
  . next location hspot =>
    cases h
    exact ⟨location, hspot, rfl⟩

theorem fillFile_eq_ok {t : Text} (h : disk.fillFile path t = .ok disk') :
    ∃ location old,
      disk.stat path = .ok (location, .file old)
        ∧
      disk' = disk.set location (.file (.text t)) := by
  unfold fillFile at h
  split at h
  . cases h
  . next location old hstat =>
    cases h
    exact ⟨location, old, hstat, rfl⟩
  . cases h

theorem rename_eq_ok (h : disk.rename source target = .ok disk') :
    ∃ folder name folder' name' entry old,
      disk.spot (fun _ => false) source = .ok (.entry folder name false)
        ∧
      disk.spot (fun _ => false) target = .ok (.entry folder' name' false)
        ∧
      disk.find folder name = .ok (some entry)
        ∧
      disk.find folder' name' = .ok old
        ∧
      entry ≠ .folder
        ∧
      (folder ++ [name] = folder' ++ [name'] ∧ disk' = disk
        ∨
      folder ++ [name] ≠ folder' ++ [name'] ∧ old ≠ some .folder
        ∧ disk' = (disk.erase (folder ++ [name])).set (folder' ++ [name']) entry) := by
  unfold rename at h
  split at h
  . cases h
  . cases h
  . cases h
  . cases h
  . next folder name slash folder' name' slash' hsource htarget =>
    split at h
    . cases h
    . cases h
    . next entry hfind =>
      split at h
      . cases h
      . next old hfind' =>
        split at h
        . cases h
        . next hentry =>
          split at h
          . cases h
          . next hslash =>
            rw [Bool.not_eq_true, Bool.or_eq_false_iff] at hslash
            rw [hslash.1] at hsource
            rw [hslash.2] at htarget
            refine ⟨folder, name, folder', name', entry, old, hsource, htarget, hfind, hfind',
              hentry, ?_⟩
            split at h
            . next heq =>
              left
              exact ⟨heq, (Except.ok.inj h).symm⟩
            . next hne =>
              split at h
              . cases h
              . next hold =>
                right
                exact ⟨hne, hold, (Except.ok.inj h).symm⟩

end

inductive Change (disk : Disk) : Disk → Prop
  | nothing : Change disk disk
  | put (location : Location) (entry : Entry) (hne : location ≠ [])
      (hfolder : disk.at? location.dropLast = some .folder)
      (hnot : disk.at? location ≠ some .folder)
      (hentry : ∀ destination, entry ≠ .link destination) :
      Change disk (disk.set location entry)
  | move (source target : Location) (entry : Entry) (hsource : disk.at? source = some entry)
      (hentry : entry ≠ .folder) (hne : target ≠ [])
      (hfolder : disk.at? target.dropLast = some .folder)
      (hnot : disk.at? target ≠ some .folder) :
      Change disk ((disk.erase source).set target entry)

section

variable {disk disk' : Disk} {path source target : Path}

theorem Change.home_eq (h : disk.Change disk') : disk'.home = disk.home := by
  cases h <;> rfl

theorem IsTree.change (htree : disk.IsTree) (h : disk.Change disk') : disk'.IsTree := by
  cases h with
  | nothing => exact htree
  | put location entry hne hfolder hnot hentry => exact htree.set hne hfolder (.inr hnot)
  | move source target entry hsource hentry hne hfolder hnot =>
    have hsource' : disk.at? source ≠ some .folder := by
      rw [hsource]
      exact fun heq => hentry (Option.some.inj heq)
    apply (htree.erase hsource').set hne (at?_erase_of_folder hsource' hfolder)
    right
    by_cases heq : target = source
    . rw [heq, at?_erase_self (ne_nil_of_at?_ne_folder hsource')]
      simp
    . rw [at?_erase_of_ne heq]
      exact hnot

theorem IsLinkFree.change (hfree : disk.IsLinkFree) (h : disk.Change disk') :
    disk'.IsLinkFree := by
  cases h with
  | nothing => exact hfree
  | put location entry hne hfolder hnot hentry => exact hfree.set hne hentry
  | move source target entry hsource hentry hne hfolder hnot =>
    have hsource' : disk.at? source ≠ some .folder := by
      rw [hsource]
      exact fun heq => hentry (Option.some.inj heq)
    apply (hfree.erase (ne_nil_of_at?_ne_folder hsource')).set hne
    intro destination heq
    exact hfree source destination (heq ▸ hsource)

theorem IsTree.change_of_makeFolder (htree : disk.IsTree)
    (h : disk.makeFolder path = .ok disk') : disk.Change disk' := by
  obtain ⟨folder, name, slash, hspot, hfind, hdisk⟩ := makeFolder_eq_ok h
  rw [hdisk]
  apply Change.put
  . simp
  . rw [List.dropLast_concat]
    apply htree.folder_of_spot hspot
  . rw [(find_eq_ok_iff.1 hfind).2]
    simp
  . exact fun _ => Entry.noConfusion

theorem IsTree.change_of_createFile (htree : disk.IsTree)
    (h : disk.createFile path = .ok disk') : disk.Change disk' := by
  obtain ⟨location, hlocation, hdisk⟩ := createFile_eq_ok h
  obtain ⟨folder, name, found, hspot, hfind, hnot, heq⟩ := fileSpot_eq_ok hlocation
  rw [hdisk, heq]
  apply Change.put
  . simp
  . rw [List.dropLast_concat]
    apply htree.folder_of_spot hspot
  . rw [(find_eq_ok_iff.1 hfind).2]
    exact hnot
  . exact fun _ => Entry.noConfusion

theorem IsTree.change_of_stat (htree : disk.IsTree) {location : Location} {old : Content}
    (hstat : disk.stat path = .ok (location, .file old)) (content : Content) :
    disk.Change (disk.set location (.file content)) := by
  obtain ⟨folder, name, hspot, hfind, heq⟩ := stat_eq_file hstat
  rw [heq]
  apply Change.put
  . simp
  . rw [List.dropLast_concat]
    apply htree.folder_of_spot hspot
  . rw [(find_eq_ok_iff.1 hfind).2]
    simp
  . exact fun _ => Entry.noConfusion

theorem IsTree.change_of_rename (htree : disk.IsTree)
    (h : disk.rename source target = .ok disk') : disk.Change disk' := by
  obtain ⟨folder, name, folder', name', entry, old, hsource, htarget, hfind, hfind', hentry,
    ⟨_, hdisk⟩ | ⟨_, hold, hdisk⟩⟩ := rename_eq_ok h
  . rw [hdisk]
    exact .nothing
  . rw [hdisk]
    apply Change.move
    . exact (find_eq_ok_iff.1 hfind).2
    . exact hentry
    . simp
    . rw [List.dropLast_concat]
      apply htree.folder_of_spot htarget
    . rw [(find_eq_ok_iff.1 hfind').2]
      exact hold

end

end Disk

end ApiTypings
