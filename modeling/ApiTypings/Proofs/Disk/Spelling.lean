import ApiTypings.Disk.Operations
import ApiTypings.Proofs.Disk.Descent
import ApiTypings.Proofs.Path.Inside

/-!
This module contains the proof that a disk does not see how a path is spelled: paths that end in a
name and agree in their components lead to the same place, whatever links are on the way, so no
operation tells them apart.
-/

namespace ApiTypings

structure Path.IsProper (path : Path) : Prop where
  name : path.endsInName = true
  noNull : .char '\x00' ∉ path.text
  fits : path.text.size ≤ Disk.maxPath

def Path.LeadsLike (path other : Path) : Prop :=
  ∀ (disk : Disk) (follows : Bool → Bool), disk.spot follows path = disk.spot follows other

namespace Disk

theorem filter_dot_eq_nil_iff {names : List RawText} (hlast : names.getLast? ≠ some (raw ".")) :
    names.filter (· ≠ raw ".") = [] ↔ names = [] := by
  constructor
  . intro h
    cases hcase : names.getLast? with
    | none => exact List.getLast?_eq_none_iff.1 hcase
    | some last =>
      have hmem := List.filter_eq_nil_iff.1 h last (List.mem_of_getLast? hcase)
      rw [hcase] at hlast
      simp only [ne_eq, decide_not, Bool.not_eq_true', decide_eq_false_iff_not, not_not] at hmem
      exact absurd (congrArg some hmem) hlast
  . intro h
    rw [h]
    rfl

theorem getLast?_append_filter_dot {before names : List RawText} (hne : names ≠ [])
    (hlast : names.getLast? ≠ some (raw ".")) :
    (before ++ names).getLast? ≠ some (raw ".")
      ∧
    (before ++ names.filter (· ≠ raw ".")).getLast? ≠ some (raw ".") := by
  have hne' : names.filter (· ≠ raw ".") ≠ [] := mt (filter_dot_eq_nil_iff hlast).1 hne
  constructor
  . rw [List.getLast?_append, List.getLast?_eq_some_getLast hne]
    rw [List.getLast?_eq_some_getLast hne] at hlast
    exact hlast
  . intro h
    rw [List.getLast?_append, List.getLast?_eq_some_getLast hne', Option.some_or,
      Option.some.injEq] at h
    have hmem := List.getLast_mem hne'
    rw [h] at hmem
    simp at hmem

section

variable {disk : Disk} {follows : Bool → Bool} {jump : Jump} {slash : Bool} {folder : Location}
  {names : List RawText}

-- a dot at the end is not passed over, as then the name before it has to be that of a folder

theorem descend_filter_dot (hlast : names.getLast? ≠ some (raw "."))
    (hjump : ∀ folder destination rest, rest.getLast? ≠ some (raw ".") →
      jump folder destination (rest.filter (· ≠ raw ".")) slash =
        jump folder destination rest slash) :
    disk.descend follows jump slash folder (names.filter (· ≠ raw ".")) =
      disk.descend follows jump slash folder names := by
  induction names generalizing folder with
  | nil => rfl
  | cons name rest ih =>
    have hrest : rest.getLast? ≠ some (raw ".") := by
      cases rest with
      | nil => simp
      | cons => rwa [List.getLast?_cons_cons] at hlast
    by_cases hdot : name = raw "."
    . rw [List.filter_cons_of_neg (by simpa using hdot), ih hrest, descend, if_pos hdot]
    . rw [List.filter_cons_of_pos (by simpa using hdot), descend, descend, if_neg hdot, if_neg hdot]
      by_cases hdots : name = raw ".."
      . rw [if_pos hdots, if_pos hdots, ih hrest]
      . rw [if_neg hdots, if_neg hdots]
        by_cases hnone : rest = []
        . rw [hnone]
          rfl
        . rw [if_neg (mt (filter_dot_eq_nil_iff hrest).1 hnone), if_neg hnone]
          cases disk.find folder name with
          | error fault => rfl
          | ok found =>
            cases found with
            | none => rfl
            | some entry =>
              cases entry with
              | file content => rfl
              | folder => exact ih hrest
              | link destination => exact hjump folder destination rest hrest

theorem walk_filter_dot {links : Nat} (hlast : names.getLast? ≠ some (raw ".")) :
    disk.walk follows links slash folder (names.filter (· ≠ raw ".")) =
      disk.walk follows links slash folder names := by
  induction links generalizing slash folder names with
  | zero =>
    unfold walk
    apply descend_filter_dot hlast
    intro _ _ _ _
    rfl
  | succ links ih =>
    unfold walk
    apply descend_filter_dot hlast
    intro folder destination rest hrest
    by_cases hnone : rest = []
    . rw [hnone]
      rfl
    -- the names of a link keep their dots, so both sides are compared without any
    . obtain ⟨hafter, hafter'⟩ := getLast?_append_filter_dot hnone hrest
      simp only [if_neg (mt (filter_dot_eq_nil_iff hrest).1 hnone), if_neg hnone]
      rw [← ih hafter, ← ih hafter', List.filter_append, List.filter_append, List.filter_filter]
      simp only [Bool.and_self]

variable {path : Path}

theorem ne_nil_of_isFolder (h : disk.isFolder path = true) :
    path.text ≠ []
      ∧
    .char '\x00' ∉ path.text := by
  unfold isFolder stat at h
  cases hspot : disk.spot (fun _ => true) path with
  | error fault =>
    rw [hspot] at h
    cases h
  | ok spot =>
    obtain ⟨hnull, htext, _⟩ := spot_eq_ok_iff.1 hspot
    exact ⟨htext, hnull⟩

end

end Disk

namespace Path

section

variable {path other folder : Path} {name : RawText}

theorem isProper_join_name (hname : endsInName (folder.join ⟨name⟩) = true)
    (hslash : .char '/' ∉ name)
    (hnull : .char '\x00' ∉ folder.text) (hnull' : .char '\x00' ∉ name)
    (hfits : (folder.join ⟨name⟩).text.size ≤ Disk.maxPath) :
    (folder.join ⟨name⟩).IsProper :=
  ⟨hname, notMem_join_name hslash (by decide) hnull hnull', hfits⟩

theorem leadsLike_of_components_eq (hpath : path.IsProper) (hother : other.IsProper)
    (h : path.components = other.components) : path.LeadsLike other := by
  intro disk follows
  obtain ⟨hslash, hlast, htext⟩ := route_of_endsInName hpath.name
  obtain ⟨hslash', hlast', htext'⟩ := route_of_endsInName hother.name
  have hroot : path.route.fromRoot = other.route.fromRoot :=
    congrArg (fun components => components.1 == .root) h
  have hnames : path.names = other.names := by
    rw [← components_eq, ← components_eq, h]
  have hwalk (folder : Location) :
      disk.walk follows Disk.maxLinks false folder path.route.names =
        disk.walk follows Disk.maxLinks false folder other.route.names := by
    rw [← Disk.walk_filter_dot hlast, ← Disk.walk_filter_dot hlast']
    exact congrArg _ hnames
  unfold Disk.spot
  rw [if_neg hpath.noNull, if_neg hother.noNull, if_neg htext, if_neg htext',
    if_neg (Nat.not_lt.2 hpath.fits), if_neg (Nat.not_lt.2 hother.fits)]
  simp only [hslash, hslash', hroot, hwalk]

theorem leadsLike_join_trimmed (htext : folder.text ≠ []) (hnull : .char '\x00' ∉ folder.text)
    (hslash : .char '/' ∉ name) (hname : isSilent name = false) (hnull' : .char '\x00' ∉ name)
    (hfits : (folder.join ⟨name⟩).text.size ≤ Disk.maxPath) :
    (folder.join ⟨name⟩).LeadsLike (folder.trimmed.join ⟨name⟩) := by
  have hstart := text_trimmed_prefix folder
  have htext' := text_trimmed_ne_nil htext
  have hshorter := size_join_name_le hslash hslash hstart (Nat.le_refl name.size)
  apply leadsLike_of_components_eq
  . apply isProper_join_name (endsInName_join_name htext hslash hname) hslash hnull hnull' hfits
  . apply isProper_join_name (endsInName_join_name htext' hslash hname) hslash _ hnull'
      (Nat.le_trans hshorter hfits)
    exact fun hmem => hnull (hstart.subset hmem)
  . rw [components_join_name htext hslash hname, components_join_name htext' hslash hname,
      components_trimmed htext]

end

section

variable {path other source source' : Path} (disk : Disk)

theorem LeadsLike.stat_eq (h : path.LeadsLike other) : disk.stat path = disk.stat other := by
  unfold Disk.stat
  rw [h disk]

theorem LeadsLike.isPresent_eq (h : path.LeadsLike other) :
    disk.isPresent path = disk.isPresent other := by
  unfold Disk.isPresent
  rw [h.stat_eq disk]

theorem LeadsLike.fileSpot_eq (h : path.LeadsLike other) :
    disk.fileSpot path = disk.fileSpot other := by
  unfold Disk.fileSpot
  rw [h disk]

theorem LeadsLike.rename_eq (hsource : source.LeadsLike source') (h : path.LeadsLike other) :
    disk.rename source path = disk.rename source' other := by
  unfold Disk.rename
  rw [h disk, hsource disk]

end
end Path
end ApiTypings
