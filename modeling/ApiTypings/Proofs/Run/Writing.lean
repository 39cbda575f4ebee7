import ApiTypings.Proofs.Disk.Places
import ApiTypings.Proofs.Run.Effects

/-!
This module contains what a write leaves on a disk without links: the whole content in the target, the
folders above it, and nothing else that was not there before.
-/

namespace ApiTypings
namespace Target

section

variable {disk disk' made : Disk} {target : Path} {content : Text}

theorem temporary_eq_self {folder : Location} {name : RawText} (hfree : disk.IsLinkFree)
    (hsource : disk.placeOf? (temporary target) = some (folder ++ [name]))
    (htarget : disk.spot (fun _ => false) target = .ok (.entry folder name false)) :
    temporary target = target := by
  obtain ⟨folder', name', _, hspot, hlocation⟩ := Disk.spot_of_placeOf? hsource
  have hlast := (List.append_inj' hlocation rfl).2
  obtain ⟨before, hnames, _, _, _, _⟩ := hfree.place_of_spot hspot
  obtain ⟨before', hnames', hdot, hdots, _, hslash, _⟩ := hfree.place_of_spot htarget
  apply Path.withExtension_eq_self (by decide) hslash.symm _ hdot hdots
  . unfold temporary at hnames
    rw [hnames, List.getLast?_concat, (List.cons.inj hlast).1]
  . rw [hnames', List.getLast?_concat]

theorem effect_of_rename {beside : Location} (hfree : made.IsLinkFree)
    (hfile : made.fileSpot (temporary target) = .ok beside)
    (hrename : (made.set beside (.file (.text content))).rename (temporary target) target =
      .ok disk') :
    made.WaysKept disk'
      ∧
    disk'.placeOf? (temporary target) = some beside
      ∧
    disk'.readText target = .ok content
      ∧
    ∃ place,
      disk'.placeOf? target = some place
        ∧
      (temporary target ≠ target →
        disk'.isPresent (temporary target) = false ∧ disk'.at? beside = none)
        ∧
      ∀ location, location ≠ place → location ≠ beside →
        disk'.at? location = made.at? location := by
  obtain ⟨hne, _, _⟩ := Disk.at?_of_fileSpot hfile
  obtain ⟨folder, name, _, hspot, _, _, hbeside⟩ := Disk.fileSpot_eq_ok hfile
  obtain ⟨hways, _⟩ := Disk.waysKept_set_fileSpot hfile (.text content)
  have hfilled := hways.isLinkFree hfree
  have hsource : (made.set beside (.file (.text content))).placeOf? (temporary target) =
      some beside := by
    obtain ⟨_, _, _, _, _, _, hspot', _⟩ := Disk.rename_eq_ok hrename
    rw [Disk.placeOf?_of_spot hspot', hfree.spot_unique hfilled rfl hspot hspot', hbeside]
  obtain ⟨hmoves, hread, folder', name', htarget, hgone, hothers⟩ :=
    hfilled.effect_of_rename hsource (Disk.at?_set_self hne _ _) hrename
  have hsource' := hmoves.placeOf?_eq_some hsource
  refine ⟨hways.trans hmoves, hsource', hread, folder' ++ [name'],
    Disk.placeOf?_of_spot htarget, ?_, ?_⟩
  . intro hother
    apply hgone
    intro heq
    rw [← heq] at hsource'
    exact hother (temporary_eq_self (hmoves.isLinkFree hfilled) hsource' htarget)
  . intro location hlocation hlocation'
    rw [hothers location hlocation hlocation', Disk.at?_set_of_ne hlocation']

end

/-- What a write that was done has changed on a disk without links: the target holds the content,
    nothing is beside it any more, and the only other new entries are folders above the target. -/
theorem at?_of_replace_ok {confirm : Path → Bool} {disk disk' : Disk} {target : Path}
    {content : Text} {events : List Event} (hfree : disk.IsLinkFree)
    (h : (replace target content).run confirm disk = ⟨.ok (), disk', events⟩) :
    disk'.readText target = .ok content
      ∧
    (temporary target ≠ target →
      disk'.isPresent (temporary target) = false
        ∧
      ∀ location, disk'.placeOf? (temporary target) = some location → disk'.at? location = none)
      ∧
    (∀ location entry, disk.at? location = some entry →
      disk'.placeOf? target ≠ some location → disk'.placeOf? (temporary target) ≠ some location →
      disk'.at? location = some entry)
      ∧
    (∀ location entry, disk'.at? location = some entry → disk.at? location = none →
      disk'.placeOf? target ≠ some location →
      entry = .folder ∧ ∃ above, target.IsBelow above ∧ disk'.stat above = .ok (location, .folder)) := by
  have hends := ends_replace confirm disk target content
  have hgrown := grown_prepared disk target
  rw [h] at hends
  cases hends with
  | named beside _ hfile hrename =>
    obtain ⟨hways, hbeside, hread, place, hplace, hgone, hothers⟩ :=
      effect_of_rename (hgrown.waysKept.isLinkFree hfree) hfile hrename
    rw [hbeside, hplace]
    refine ⟨hread, ?_, ?_, ?_⟩
    . intro hne
      obtain ⟨habsent, hnone⟩ := hgone hne
      refine ⟨habsent, ?_⟩
      intro location heq
      rw [← Option.some.inj heq, hnone]
    . intro location entry hold hlocation hlocation'
      rw [hothers location (fun heq => hlocation (heq ▸ rfl)) (fun heq => hlocation' (heq ▸ rfl))]
      apply hgrown.kept location entry hold
    . intro location entry hnew hold hlocation
      have hlocation' : location ≠ beside := by
        intro heq
        by_cases hself : temporary target = target
        . rw [hself, hplace] at hbeside
          apply hlocation
          rw [hbeside, heq]
        . rw [heq, (hgone hself).2] at hnew
          cases hnew
      rw [hothers location (fun heq => hlocation (heq ▸ rfl)) hlocation'] at hnew
      obtain ⟨hfolder, above, habove, hstat⟩ := hgrown.added location entry hnew hold
      exact ⟨hfolder, above, habove, hways.stat_eq_folder hstat⟩

def cluttered : Disk :=
  ⟨[raw "home"],
    [([raw "home"], .folder),
      ([raw "home", raw "notes"], .file (.text "mine".toList)),
      ([raw "home", raw "api.d.tmp"], .file (.text "left".toList))]⟩

theorem at?_of_replace_ok_cluttered :
    cluttered.IsLinkFree
      ∧
    ∃ disk' events,
      (replace (.ofString "lib/../api.d.ts") "code".toList).run (fun _ => false) cluttered =
        ⟨.ok (), disk', events⟩
        ∧
      disk'.readText (.ofString "lib/../api.d.ts") = .ok "code".toList
        ∧
      disk'.at? [raw "home", raw "api.d.tmp"] = none
        ∧
      disk'.at? [raw "home", raw "notes"] = some (.file (.text "mine".toList))
        ∧
      ∃ above, (Path.ofString "lib/../api.d.ts").IsBelow above
        ∧ disk'.stat above = .ok ([raw "home", raw "lib"], .folder) := by
  have hfree : cluttered.IsLinkFree := by decide
  have hdone : ((replace (.ofString "lib/../api.d.ts") "code".toList).run (fun _ => false)
      cluttered).value.toBool = true := by decide +kernel
  have hdisk : ((replace (.ofString "lib/../api.d.ts") "code".toList).run (fun _ => false)
      cluttered).disk =
        ⟨[raw "home"],
          [([raw "home", raw "api.d.ts"], .file (.text "code".toList)),
            ([raw "home", raw "lib"], .folder),
            ([raw "home"], .folder),
            ([raw "home", raw "notes"], .file (.text "mine".toList))]⟩ := by
    decide +kernel
  cases h : (replace (.ofString "lib/../api.d.ts") "code".toList).run (fun _ => false)
      cluttered with
  | mk value disk' events =>
    rw [h] at hdone hdisk
    cases value with
    | error fault => cases hdone
    | ok =>
      simp only at hdisk
      subst hdisk
      obtain ⟨hread, hgone, hkept, hadded⟩ := at?_of_replace_ok hfree h
      refine ⟨hfree, _, _, rfl, hread, ?_, ?_, ?_⟩
      . exact (hgone (by decide)).2 [raw "home", raw "api.d.tmp"] (by decide +kernel)
      . exact hkept [raw "home", raw "notes"] _ (by decide) (by decide +kernel)
          (by decide +kernel)
      . exact (hadded [raw "home", raw "lib"] .folder (by decide) (by decide)
          (by decide +kernel)).2

end Target
end ApiTypings
