import ApiTypings.Proofs.Disk.Repeat
import ApiTypings.Proofs.Run.Preview
import ApiTypings.Proofs.Run.Survival

/-!
This module contains the proof that a run can be made again: after one that wrote its target, another
one finds the same document and comes to the same text and the same target, and leaves the disk
exactly as it found it, whether it writes the target or not.
-/

namespace ApiTypings
namespace Target

section

variable {confirm : Path → Bool} {disk disk' : Disk} {path target : Path} {above : List Path}
  {fault : Disk.Fault} {content : Text}

theorem run_accept (confirm : Path → Bool) (disk : Disk) (path : Path) (fault : Disk.Fault) :
    (makeFolders.accept path fault).run confirm disk =
      ⟨if disk.isFolder path then .ok () else .error fault, disk, []⟩ := by
  unfold makeFolders.accept
  rw [Program.run_bind, Program.run_isFolder]
  cases disk.isFolder path <;> rfl

theorem isFolder_of_accept
    (h : ((makeFolders.accept path fault).run confirm disk).value = .ok ()) :
    ((makeFolders.accept path fault).run confirm disk).disk.isFolder path = true := by
  rw [run_accept] at h ⊢
  cases hfolder : disk.isFolder path with
  | true => rfl
  | false =>
    rw [hfolder] at h
    cases h

theorem isFolder_of_makeFolders
    (h : ((makeFolders (path :: above)).run confirm disk).value = .ok ()) :
    ((makeFolders (path :: above)).run confirm disk).disk.isFolder path = true := by
  unfold makeFolders at h ⊢
  rw [Program.value_run_bind, Program.run_makeFolder] at h
  rw [Program.disk_run_bind, Program.run_makeFolder]
  cases hmake : disk.makeFolder path with
  | ok made => exact Disk.isFolder_of_makeFolder hmake
  | error fault =>
    rw [hmake] at h
    by_cases hnone : fault = .noEntry
    -- the folders above are made first, and then this one is tried again
    . subst hnone
      simp only [Action.change] at h ⊢
      rw [Program.value_run_bind] at h
      rw [Program.disk_run_bind]
      cases hmakes : (makeFolders above).run confirm disk with
      | mk value made events =>
        rw [hmakes] at h
        cases value with
        | error fault => cases h
        | ok =>
          simp only at h ⊢
          rw [Program.value_run_bind, Program.run_makeFolder] at h
          rw [Program.disk_run_bind, Program.run_makeFolder]
          cases hmake' : made.makeFolder path with
          | ok made' => exact Disk.isFolder_of_makeFolder hmake'
          | error fault =>
            rw [hmake'] at h
            exact isFolder_of_accept h
    . simp only [Action.change] at h ⊢
      exact isFolder_of_accept h

-- without a link at its end, a path to a folder is in its own way when the folder is to be made

theorem run_makeFolders_again (hfree : disk.IsLinkFree) (h : disk.isFolder path = true) :
    (makeFolders (path :: above)).run confirm disk = ⟨.ok (), disk, []⟩ := by
  unfold makeFolders
  rw [Program.run_bind, Program.run_makeFolder, hfree.makeFolder_of_isFolder h]
  simp only [Action.change]
  rw [run_accept, h]
  rfl

theorem ancestors_eq_cons (fuel : Nat) (h : path.text ≠ []) :
    ∃ above, ancestors (fuel + 1) path = path :: above := by
  unfold ancestors
  rw [if_neg h]
  exact ⟨_, rfl⟩

theorem run_makeParents_again {confirm' : Path → Bool} (hfree : disk'.IsLinkFree)
    (h : ((makeParents target).run confirm disk).value = .ok ())
    (hways : (prepared disk target).WaysKept disk') :
    (makeParents target).run confirm' disk' = ⟨.ok (), disk', []⟩ := by
  rw [← disk_run_makeParents confirm] at hways
  unfold makeParents at h hways ⊢
  split
  . rfl
  . next parent hparent =>
    rw [hparent] at h hways
    simp only at h hways
    cases htext : parent.text with
    | nil => rfl
    | cons c rest =>
      have hne : parent.text ≠ [] := by simp [htext]
      obtain ⟨above, habove⟩ := ancestors_eq_cons rest.length hne
      rw [htext, List.length_cons, habove] at h hways
      rw [List.length_cons, habove, Program.run_bind]
      rw [Program.value_run_bind] at h
      rw [Program.disk_run_bind] at hways
      cases hmade : ((makeFolders (parent :: above)).run confirm disk).value with
      | error cause =>
        rw [hmade] at h
        cases h
      | ok =>
        rw [hmade] at hways
        have hfolder := hways.isFolder (isFolder_of_makeFolders hmade)
        simp only [run_makeFolders_again hfree hfolder]
        rfl

theorem run_replace_again {confirm' : Path → Bool} (hfree : disk.IsLinkFree)
    (h : ((replace target content).run confirm disk).value = .ok ()) :
    (replace target content).run confirm' ((replace target content).run confirm disk).disk =
      ⟨.ok (), ((replace target content).run confirm disk).disk, []⟩ := by
  have hends := ends_replace confirm disk target content
  have hparents : ((makeParents target).run confirm disk).value = .ok () := by
    unfold replace at h
    rw [Program.value_run_bind] at h
    cases hmade : ((makeParents target).run confirm disk).value with
    | error fault =>
      rw [hmade] at h
      cases h
    | ok => rfl
  generalize ((replace target content).run confirm disk).disk = disk' at hends ⊢
  rw [h] at hends
  cases hends with
  | named beside _ hfile hrename =>
    have hfree' := (grown_prepared disk target).waysKept.isLinkFree hfree
    obtain ⟨hways, _⟩ := effect_of_rename hfree' hfile hrename
    obtain ⟨hfile', hrename'⟩ := hfree'.rename_again hfile hrename
    unfold replace
    rw [Program.run_bind, run_makeParents_again (hways.isLinkFree hfree') hparents hways]
    simp only
    rw [Program.run_bind, run_writeFile, hfile']
    simp only
    rw [Program.run_bind, Program.run_rename, hrename']
    rfl

theorem run_write_again (hfree : disk.IsLinkFree)
    (h : ((replace target content).run confirm disk).value = .ok ()) (confirm' : Path → Bool)
    (overwrite : Overwrite) :
    ((write target content overwrite).run confirm'
        ((replace target content).run confirm disk).disk).value =
      .ok (if allows confirm' target overwrite then .overwritten else .skipped)
      ∧
    ((write target content overwrite).run confirm'
        ((replace target content).run confirm disk).disk).disk =
      ((replace target content).run confirm disk).disk := by
  have hagain : (replace target content).run confirm' _ = _ := run_replace_again hfree h
  have hpresent := Disk.isPresent_of_readText (readText_of_replace hfree h)
  cases hallows : allows confirm' target overwrite with
  | true =>
    have hnot : ¬IsKept confirm' ((replace target content).run confirm disk).disk target
        overwrite := by
      rintro ⟨_, hnone⟩
      rw [hallows] at hnone
      cases hnone
    rw [(run_write_of_not_isKept hnot).1, (run_write_of_not_isKept hnot).2, hagain, hpresent]
    exact ⟨rfl, rfl⟩
  | false => exact run_write_of_isKept ⟨hpresent, hallows⟩

end
end Target

namespace Generation

section

variable {confirm confirm' : Path → Bool} {disk : Disk} {options : Options}

theorem isFolder_run (hfree : disk.IsLinkFree) (houtput : options.output = none) {text : Text}
    (htext : disk.readText ((Document.locate options.source).run confirm disk).value = .ok text) :
    ((run options).run confirm disk).disk.isFolder options.source =
      disk.isFolder options.source := by
  obtain ⟨deeds, hreaches⟩ := Program.reaches_run confirm (run options) disk
  cases hfolder : disk.isFolder options.source with
  | true =>
    obtain ⟨location, hstat⟩ := Disk.stat_of_readText htext
    exact (survives_of_reaches hfree houtput hstat hreaches).ways.isFolder hfolder
  | false =>
    have hcontent := content?_of_reaches hfree houtput hreaches
    rw [Disk.readText_eq_ok_iff.1 htext, Document.run_locate, hfolder] at hcontent
    exact Disk.isFolder_of_readText (Disk.readText_eq_ok_iff.2 hcontent)

theorem codeOf_run (hfree : disk.IsLinkFree) (houtput : options.output = none) {text : Text}
    (htext : disk.readText ((Document.locate options.source).run confirm disk).value = .ok text) :
    ((codeOf options.source).run confirm' ((run options).run confirm disk).disk).value =
      ((codeOf options.source).run confirm disk).value := by
  obtain ⟨deeds, hreaches⟩ := Program.reaches_run confirm (run options) disk
  have hcontent := content?_of_reaches hfree houtput hreaches
  apply value_run_codeOf_congr
  . rw [Document.run_locate, Document.run_locate, isFolder_run hfree houtput htext]
  . rw [Disk.readText_eq_ok_iff.1 htext] at hcontent
    rw [htext, Disk.readText_eq_ok_iff.2 hcontent]

theorem readText_of_codeOf {source : Path} {code : Text}
    (h : ((codeOf source).run confirm disk).value = .ok code) :
    ∃ text, disk.readText ((Document.locate source).run confirm disk).value = .ok text := by
  obtain ⟨text, _, _, hread, _⟩ := document_of_codeOf h
  exact ⟨text, hread⟩

end

/-- A run that wrote its target can be made again. It comes to the same text and the same target, and
    whether it may write the target or not, it leaves the disk exactly as the first run did. -/
theorem run_again {confirm : Path → Bool} {disk : Disk} {options : Options}
    {generation : Generation} (hfree : disk.IsLinkFree) (houtput : options.output = none)
    (h : ((run options).run confirm disk).value = .ok generation)
    (hwritten : generation.outcome = some .created ∨ generation.outcome = some .overwritten)
    (confirm' : Path → Bool) (overwrite : Overwrite) :
    let settled := ((run options).run confirm disk).disk
    let again := (run { options with overwrite := overwrite }).run confirm' settled
    again.value =
      .ok { generation with
        outcome :=
          some (if Target.allows confirm' generation.target overwrite then .overwritten
            else .skipped) }
      ∧
    again.disk = settled := by
  intro settled again
  obtain ⟨hcode, htarget, hrest⟩ := run_eq_ok_iff.1 h
  have hdry : options.dryRun = false := by
    cases hdry : options.dryRun with
    | false => rfl
    | true =>
      rw [hdry] at hrest
      simp only [if_true] at hrest
      simp [hrest] at hwritten
  rw [hdry] at hrest
  obtain ⟨outcome, houtcome, hwrite⟩ := hrest
  have hskipped : outcome ≠ .skipped := by
    rintro rfl
    simp [houtcome] at hwritten
  obtain ⟨hreplace, hreplaced⟩ := Target.replaced_of_write hwrite hskipped
  have hsettled : settled = _ := disk_run_of_ok hcode hdry
  rw [← htarget, hreplaced] at hsettled
  obtain ⟨text, htext⟩ := readText_of_codeOf hcode
  -- the second run comes to the same text and the same target
  have hcode' : ((codeOf options.source).run confirm' settled).value = .ok generation.code := by
    rw [codeOf_run hfree houtput htext, hcode]
  have htarget' : ((Target.ofOptions { options with overwrite := overwrite }).run confirm'
      settled).value = generation.target := by
    rw [htarget]
    unfold Target.ofOptions
    simp only [houtput]
    rw [Target.run_derive, Target.run_derive, isFolder_run hfree houtput htext]
  obtain ⟨hvalue, hdisk⟩ := Target.run_write_again hfree hreplace confirm' overwrite
  rw [← hsettled] at hvalue hdisk
  constructor
  . rw [run_eq_ok_iff]
    refine ⟨hcode', htarget'.symm, ?_⟩
    rw [if_neg (by simp [hdry])]
    exact ⟨_, rfl, hvalue⟩
  . have hagain : again.disk = _ := disk_run_of_ok hcode' hdry
    rw [hagain, htarget', hdisk]

def interrupted : Disk :=
  ⟨[raw "home"],
    [([raw "home"], .folder),
      ([raw "home", raw "lib"], .folder),
      ([raw "home", raw "lib", raw "index.json"], .file (.text userApi)),
      ([raw "home", raw "lib", raw "index.d.tmp"], .file (.text "left".toList))]⟩

def resuming : Options := { source := .ofString "lib/../lib/", overwrite := .never }

theorem run_again_interrupted :
    interrupted.IsLinkFree
      ∧
    resuming.output = none
      ∧
    ∃ generation disk',
      ((run resuming).run (fun _ => false) interrupted).value = .ok generation
        ∧
      generation.outcome = some .created
        ∧
      ((run resuming).run (fun _ => false) interrupted).disk = disk'
        ∧
      ((run { resuming with overwrite := .always }).run (fun _ => false) disk').value =
        .ok { generation with outcome := some .overwritten }
        ∧
      ((run { resuming with overwrite := .always }).run (fun _ => false) disk').disk = disk'
        ∧
      ((run { resuming with overwrite := .ask }).run (fun _ => false) disk').value =
        .ok { generation with outcome := some .skipped }
        ∧
      ((run { resuming with overwrite := .ask }).run (fun _ => false) disk').disk = disk' := by
  have hfree : interrupted.IsLinkFree := by decide
  have houtput : resuming.output = none := rfl
  have hcreated : ((run resuming).run (fun _ => false) interrupted).value.toOption.map
      Generation.outcome = some (some .created) := by
    decide +kernel
  cases h : ((run resuming).run (fun _ => false) interrupted).value with
  | error fault =>
    rw [h] at hcreated
    cases hcreated
  | ok generation =>
    rw [h] at hcreated
    have houtcome : generation.outcome = some .created := Option.some.inj hcreated
    obtain ⟨halways, hdisk⟩ :=
      run_again hfree houtput h (.inl houtcome) (fun _ => false) .always
    obtain ⟨hask, hdisk'⟩ := run_again hfree houtput h (.inl houtcome) (fun _ => false) .ask
    exact ⟨hfree, houtput, generation, _, rfl, houtcome, rfl, halways, hdisk, hask, hdisk'⟩

end Generation
end ApiTypings
