import ApiTypings.Proofs.Disk.Lookup
import ApiTypings.Proofs.Disk.Ways

/-!
This module contains the places that paths name on a disk without links, two dots in them or not: a
place follows from the names of the path alone. It contains too what is different once a file has got
another place there.
-/

namespace ApiTypings

namespace Disk

section

variable {disk disk' : Disk} {follows : Bool → Bool} {slash slash' : Bool}
  {place : Location} {name : RawText} {path : Path}

theorem WaysKept.isLinkFree (h : disk.WaysKept disk') (hfree : disk.IsLinkFree) :
    disk'.IsLinkFree := by
  intro location destination hlink
  exact hfree location destination ((h.link _ _).1 hlink)

theorem IsLinkFree.spot_unique {follows' : Bool → Bool} {place' : Location} {name' : RawText}
    (hfree : disk.IsLinkFree) (hfree' : disk'.IsLinkFree) (hhome : disk'.home = disk.home)
    (h : disk.spot follows path = .ok (.entry place name slash))
    (h' : disk'.spot follows' path = .ok (.entry place' name' slash')) :
    place' ++ [name'] = place ++ [name] := by
  obtain ⟨before, hnames, _, _, hplace, _⟩ := hfree.place_of_spot h
  obtain ⟨before', hnames', _, _, hplace', _⟩ := hfree'.place_of_spot h'
  rw [hnames] at hnames'
  obtain ⟨hbefore, hname⟩ := List.append_inj' hnames' rfl
  rw [hplace, hplace', hhome, ← hbefore, ← (List.cons.inj hname).1]

end

section

variable {disk disk' : Disk} {path : Path} {location folder : Location} {name : RawText}

theorem waysKept_erase (hfolder : disk.at? location ≠ some .folder)
    (hlink : ∀ destination, disk.at? location ≠ some (.link destination)) :
    disk.WaysKept (disk.erase location) := by
  have hne := ne_nil_of_at?_ne_folder hfolder
  constructor
  . rfl
  . intro other hother
    apply at?_erase_of_folder hfolder hother
  . intro other destination
    by_cases heq : other = location
    . rw [heq, at?_erase_self hne]
      simp [hlink destination]
    . rw [at?_erase_of_ne heq]

theorem readText_of_spot {t : Text}
    (hspot : disk.spot (fun _ => false) path = .ok (.entry folder name false))
    (hfind : disk.find folder name = .ok (some (.file (.text t)))) :
    disk.readText path = .ok t := by
  unfold readText
  rw [stat_of_spot (spot_of_end hfind (by simp) hspot) hfind]

theorem isPresent_eq_false_of_spot {slash : Bool}
    (hspot : disk.spot (fun _ => false) path = .ok (.entry folder name slash))
    (hfind : disk.find folder name = .ok none) : disk.isPresent path = false := by
  unfold isPresent stat
  rw [spot_of_end hfind (by simp) hspot]
  simp only [hfind]

theorem waysKept_move {entry : Entry} (hfree : disk.IsLinkFree)
    (hfolder : disk.at? location ≠ some .folder) (hplace : disk.at? (folder ++ [name]) ≠ some .folder)
    (hne : folder ++ [name] ≠ location) (hentry : ∀ destination, entry ≠ .link destination) :
    disk.WaysKept ((disk.erase location).set (folder ++ [name]) entry) := by
  have herased := waysKept_erase hfolder (hfree location)
  apply herased.trans
  apply waysKept_set (by simp)
  . rw [at?_erase_of_ne hne]
    exact hplace
  . apply herased.isLinkFree hfree
  . exact hentry

theorem IsLinkFree.effect_of_rename {source target : Path} {t : Text} (hfree : disk.IsLinkFree)
    (hsource : disk.placeOf? source = some location)
    (hfile : disk.at? location = some (.file (.text t)))
    (h : disk.rename source target = .ok disk') :
    disk.WaysKept disk'
      ∧
    disk'.readText target = .ok t
      ∧
    ∃ folder name,
      disk'.spot (fun _ => false) target = .ok (.entry folder name false)
        ∧
      (folder ++ [name] ≠ location →
        disk'.isPresent source = false ∧ disk'.at? location = none)
        ∧
      ∀ other, other ≠ folder ++ [name] → other ≠ location →
        disk'.at? other = disk.at? other := by
  obtain ⟨above, before, folder, name, entry, old, hspot, htarget, hfind, hfind', _, hmade⟩ :=
    rename_eq_ok h
  have hplace : above ++ [before] = location := by
    rw [placeOf?_of_spot hspot] at hsource
    exact Option.some.inj hsource
  have hentry : entry = .file (.text t) := by
    have hfound := (find_eq_ok_iff.1 hfind).2
    rw [hplace, hfile] at hfound
    exact (Option.some.inj hfound).symm
  obtain ⟨hshort, htargetFound⟩ := find_eq_ok_iff.1 hfind'
  cases hmade with
  | inl hsame =>
    obtain ⟨heq, hdisk⟩ := hsame
    rw [hplace] at heq
    have hfound : disk.find folder name = .ok (some (.file (.text t))) :=
      find_eq_ok_iff.2 ⟨hshort, heq ▸ hfile⟩
    rw [hdisk]
    exact ⟨.refl disk, readText_of_spot htarget hfound, folder, name, htarget,
      fun hne => absurd heq.symm hne, fun _ _ _ => rfl⟩
  | inr hmoved =>
    obtain ⟨hne, hold, hdisk⟩ := hmoved
    rw [hplace, hentry] at hdisk
    rw [hplace] at hne
    have hways : disk.WaysKept disk' := by
      rw [hdisk]
      apply waysKept_move hfree
      . simp [hfile]
      . rwa [htargetFound]
      . exact hne.symm
      . exact fun _ => Entry.noConfusion
    have hgone : disk'.at? location = none := by
      rw [hdisk, at?_set_of_ne hne, at?_erase_self (hplace ▸ by simp)]
    have hfound : disk'.find folder name = .ok (some (.file (.text t))) := by
      rw [find_eq_ok_iff, hdisk, at?_set_self (by simp)]
      exact ⟨hshort, rfl⟩
    have hmissing : disk'.find above before = .ok none := by
      rw [find_eq_ok_iff, hplace, hgone]
      exact ⟨(find_eq_ok_iff.1 hfind).1, rfl⟩
    refine ⟨hways, readText_of_spot (hways.spot_eq_ok htarget) hfound, folder, name,
      hways.spot_eq_ok htarget, ?_, ?_⟩
    . intro _
      exact ⟨isPresent_eq_false_of_spot (hways.spot_eq_ok hspot) hmissing, hgone⟩
    . intro other hother hother'
      rw [hdisk, at?_set_of_ne hother, at?_erase_of_ne hother']

end
end Disk
end ApiTypings
