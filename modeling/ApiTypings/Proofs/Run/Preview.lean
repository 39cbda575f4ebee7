import ApiTypings.Proofs.Run.Reading
import ApiTypings.Proofs.Run.Writing

/-!
This module contains the proof that a dry run is a preview: it changes nothing, and what it says is
what the run does that is not dry, up to the write itself.
-/

namespace ApiTypings

def Fault.IsUnwritable (fault : Fault) : Prop := ∃ path cause, fault = .unwritable path cause

namespace Target

section

variable {confirm : Path → Bool} {disk : Disk} {target : Path} {content : Text}
  {overwrite : Overwrite} {fault : Fault}

theorem isUnwritable_of_makeParents
    (h : ((makeParents target).run confirm disk).value = .error fault) : fault.IsUnwritable := by
  unfold makeParents at h
  split at h
  . cases h
  . next parent _ =>
    rw [Program.value_run_bind] at h
    split at h
    . next cause _ =>
      cases h
      exact ⟨_, cause, rfl⟩
    . cases h

theorem isUnwritable_of_replace
    (h : ((replace target content).run confirm disk).value = .error fault) :
    fault.IsUnwritable := by
  unfold replace at h
  rw [Program.value_run_bind] at h
  split at h
  . next hparents =>
    cases h
    exact isUnwritable_of_makeParents hparents
  . rw [Program.value_run_bind, run_writeFile] at h
    cases hfile : ((makeParents target).run confirm disk).disk.fileSpot (temporary target) with
    | error cause =>
      rw [hfile] at h
      cases h
      exact ⟨_, cause, rfl⟩
    | ok location =>
      rw [hfile] at h
      simp only at h
      rw [Program.value_run_bind] at h
      split at h
      . next cause _ =>
        cases h
        exact ⟨_, cause, rfl⟩
      . cases h

theorem isUnwritable_of_write
    (h : ((write target content overwrite).run confirm disk).value = .error fault) :
    fault.IsUnwritable := by
  by_cases hkept : IsKept confirm disk target overwrite
  . rw [(run_write_of_isKept hkept).1] at h
    cases h
  . rw [(run_write_of_not_isKept hkept).1] at h
    cases hreplace : ((replace target content).run confirm disk).value with
    | error cause =>
      rw [hreplace] at h
      cases h
      exact isUnwritable_of_replace hreplace
    | ok =>
      rw [hreplace] at h
      cases h

theorem replaced_of_write {outcome : Outcome}
    (h : ((write target content overwrite).run confirm disk).value = .ok outcome)
    (hskipped : outcome ≠ .skipped) :
    ((replace target content).run confirm disk).value = .ok ()
      ∧
    ((write target content overwrite).run confirm disk).disk =
      ((replace target content).run confirm disk).disk := by
  by_cases hkept : IsKept confirm disk target overwrite
  . rw [(run_write_of_isKept hkept).1] at h
    cases h
    exact absurd rfl hskipped
  . rw [(run_write_of_not_isKept hkept).1] at h
    refine ⟨?_, (run_write_of_not_isKept hkept).2⟩
    cases hreplace : ((replace target content).run confirm disk).value with
    | error cause =>
      rw [hreplace] at h
      cases h
    | ok => rfl

theorem readText_of_replace (hfree : disk.IsLinkFree)
    (h : ((replace target content).run confirm disk).value = .ok ()) :
    ((replace target content).run confirm disk).disk.readText target = .ok content := by
  have hends := ends_replace confirm disk target content
  rw [h] at hends
  cases hends with
  | named location _ hfile hrename =>
    have hgrown := grown_prepared disk target
    obtain ⟨_, _, hread, _⟩ := effect_of_rename (hgrown.waysKept.isLinkFree hfree) hfile hrename
    exact hread

theorem waysKept_of_replace (hfree : disk.IsLinkFree)
    (h : ((replace target content).run confirm disk).value = .ok ()) :
    disk.WaysKept ((replace target content).run confirm disk).disk := by
  have hends := ends_replace confirm disk target content
  rw [h] at hends
  cases hends with
  | named location _ hfile hrename =>
    have hgrown := (grown_prepared disk target).waysKept
    exact hgrown.trans (effect_of_rename (hgrown.isLinkFree hfree) hfile hrename).1

end
end Target

namespace Generation

section

variable {confirm : Path → Bool} {disk : Disk} {options : Options}

theorem isRead_dry (options : Options) :
    (run { options with dryRun := true }).Takes Action.IsRead := by
  unfold run
  apply (isRead_codeOf options.source).bind
  intro code
  split
  . trivial
  . apply (Target.isRead_ofOptions _).bind
    intro target
    apply (Program.isRead_log rfl).bind
    intro _
    trivial

theorem not_isUnwritable_of_codeOf {source : Path} {fault : Fault}
    (h : ((codeOf source).run confirm disk).value = .error fault) : ¬fault.IsUnwritable := by
  rintro ⟨path, cause, rfl⟩
  rw [value_run_codeOf] at h
  split at h
  . next fault hload =>
    rw [Document.value_run_load, Document.value_run_fetch, Document.value_run_read] at hload
    simp only [Document.value_run_interpret] at hload
    cases h
    cases hread : disk.readText ((Document.locate source).run confirm disk).value with
    | error reason =>
      rw [hread] at hload
      cases hload
    | ok text =>
      rw [hread] at hload
      cases hparse : Json.parse text with
      | error reason =>
        simp only [hparse] at hload
        cases hload
      | ok value =>
        simp only [hparse] at hload
        split at hload
        . cases hload
        . cases hload
  . split at h
    . cases h
    . cases h

/-- A dry run is a preview of the run that is not dry: it changes nothing and asks nothing, it fails
    if that run fails before it comes to write and for the same reason, and what that run writes is
    the text that it shows. -/
theorem run_as_previewed {disk : Disk} (hfree : disk.IsLinkFree) (confirm : Path → Bool)
    (options : Options) :
    let preview := (run { options with dryRun := true }).run confirm disk
    let result := (run { options with dryRun := false }).run confirm disk
    preview.disk = disk
      ∧
    preview.asked? = none
      ∧
    (∀ fault, preview.value = .error fault → ¬fault.IsUnwritable)
      ∧
    (∀ fault, preview.value = .error fault ↔ result.value = .error fault ∧ ¬fault.IsUnwritable)
      ∧
    (∀ fault, result.value = .error fault → ¬fault.IsUnwritable → result.disk = disk)
      ∧
    (∀ generation, result.value = .ok generation →
      preview.value = .ok { generation with outcome := none }
        ∧
      (generation.outcome = some .created ∨ generation.outcome = some .overwritten →
        result.disk.readText generation.target = .ok generation.code)) := by
  intro preview result
  have hpreview (fault : Fault) : preview.value = .error fault ↔
      ((codeOf options.source).run confirm disk).value = .error fault := by
    rw [run_eq_error_iff]
    simp
  refine ⟨Program.disk_of_isRead (isRead_dry options) confirm disk, ?_, ?_, ?_, ?_, ?_⟩
  . apply List.findSome?_eq_none_iff.2
    apply Program.question?_of_isRead (isRead_dry options)
  . intro fault h
    apply not_isUnwritable_of_codeOf ((hpreview fault).1 h)
  . intro fault
    rw [hpreview, run_eq_error_iff]
    constructor
    . intro h
      exact ⟨.inl h, not_isUnwritable_of_codeOf h⟩
    . rintro ⟨h | ⟨_, code, _, hwrite⟩, hfault⟩
      . exact h
      . exact absurd (Target.isUnwritable_of_write hwrite) hfault
  . intro fault h hfault
    obtain hcode | ⟨_, code, _, hwrite⟩ := run_eq_error_iff.1 h
    . apply disk_run_of_error hcode
    . exact absurd (Target.isUnwritable_of_write hwrite) hfault
  . intro generation h
    obtain ⟨hcode, htarget, outcome, houtcome, hwrite⟩ := run_eq_ok_iff.1 h
    refine ⟨run_eq_ok_iff.2 ⟨hcode, htarget, rfl⟩, ?_⟩
    intro hwritten
    have hskipped : outcome ≠ .skipped := by
      rintro rfl
      simp [houtcome] at hwritten
    have hdisk : result.disk = _ := disk_run_of_ok hcode rfl
    obtain ⟨hreplace, hreplaced⟩ := Target.replaced_of_write hwrite hskipped
    rw [hdisk, ← htarget, hreplaced]
    apply Target.readText_of_replace hfree hreplace

end

def shelved : Disk :=
  ⟨[raw "home"],
    [([raw "home"], .folder),
      ([raw "home", raw "apis.json"],
        .file (.text ('{' :: "\"user\":".toList ++ '{' :: "\"info\":".toList ++
          '{' :: "\"params\":[\"id\"]".toList ++ ['}', '}', '}'])))]⟩

def shelving : Options :=
  { source := .ofString "apis.json", output := some (.ofString "types/../lib/apis.d.ts") }

theorem run_as_previewed_shelved :
    shelved.IsLinkFree
      ∧
    ((run { shelving with dryRun := true }).run (fun _ => false) shelved).disk = shelved
      ∧
    ∃ generation : Generation,
      ((run { shelving with dryRun := true }).run (fun _ => false) shelved).value =
        .ok { generation with outcome := none }
        ∧
      generation.outcome = some .created
        ∧
      ((run { shelving with dryRun := false }).run (fun _ => false) shelved).disk.readText
        generation.target = .ok generation.code := by
  have hfree : shelved.IsLinkFree := by decide
  obtain ⟨hdisk, _, _, _, _, hok⟩ := run_as_previewed hfree (fun _ => false) shelving
  have houtcome : ((run { shelving with dryRun := false }).run (fun _ => false)
      shelved).value.toOption.map Generation.outcome = some (some .created) := by
    decide +kernel
  cases h : ((run { shelving with dryRun := false }).run (fun _ => false) shelved).value with
  | error fault =>
    rw [h] at houtcome
    cases houtcome
  | ok generation =>
    rw [h] at houtcome
    obtain ⟨hpreview, hwritten⟩ := hok generation h
    have hcreated : generation.outcome = some .created := Option.some.inj houtcome
    exact ⟨hfree, hdisk, generation, hpreview, hcreated, hwritten (.inl hcreated)⟩

end Generation
end ApiTypings
