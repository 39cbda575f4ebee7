import ApiTypings.Proofs.Disk.Spelling
import ApiTypings.Proofs.Run.Reading

/-!
This module contains the proof that a folder and the document called `index.json` in it are the same
source. The paths that the two runs come to differ in spelling, as one target is put below the folder
and the other one beside the document, and everything else is the same.
-/

namespace ApiTypings

inductive Fault.Alike : Fault → Fault → Prop
  | same (fault : Fault) : Alike fault fault
  | unwritable {path other : Path} (cause : Disk.Fault) (h : path.components = other.components) :
    Alike (.unwritable path.shown cause) (.unwritable other.shown cause)

inductive EndAlike (alike : α → α → Prop) : Except Fault α → Except Fault α → Prop
  | error {fault other : Fault} (h : fault.Alike other) :
    EndAlike alike (.error fault) (.error other)
  | ok {a b : α} (h : alike a b) : EndAlike alike (.ok a) (.ok b)

theorem EndAlike.map {alike : α → α → Prop} {alike' : β → β → Prop} {result other : Except Fault α}
    {f g : α → β} (h : EndAlike alike result other) (hf : ∀ a b, alike a b → alike' (f a) (g b)) :
    EndAlike alike' (result.map f) (other.map g) := by
  cases h with
  | error h => exact .error h
  | ok h => exact .ok (hf _ _ h)

namespace Target

structure Alike (target other : Path) : Prop where
  parent : target.parent? = other.parent?
  leads : target.LeadsLike other
  components : target.components = other.components
  leadsBeside : (temporary target).LeadsLike (temporary other)
  componentsBeside : (temporary target).components = (temporary other).components

section

variable {confirm confirm' : Path → Bool} {disk : Disk} {target other : Path} {content : Text}
  {overwrite : Overwrite}

theorem Alike.replace (h : Alike target other) :
    EndAlike Eq ((Target.replace target content).run confirm disk).value
      ((Target.replace other content).run confirm' disk).value
      ∧
    ((Target.replace target content).run confirm disk).disk =
      ((Target.replace other content).run confirm' disk).disk := by
  have hparents : (makeParents other).run confirm' disk = (makeParents target).run confirm disk := by
    rw [run_makeParents_eq confirm' disk other confirm]
    unfold makeParents
    rw [h.parent]
  unfold Target.replace
  rw [Program.run_bind, Program.run_bind, hparents]
  cases (makeParents target).run confirm disk with
  | mk value made events =>
    cases value with
    | error fault => exact ⟨.error (.same fault), rfl⟩
    | ok =>
      simp only
      rw [Program.run_bind, Program.run_bind, run_writeFile, run_writeFile,
        h.leadsBeside.fileSpot_eq]
      cases made.fileSpot (temporary other) with
      | error cause => exact ⟨.error (.unwritable cause h.componentsBeside), rfl⟩
      | ok location =>
        simp only
        rw [Program.run_bind, Program.run_bind, Program.run_rename, Program.run_rename,
          h.leadsBeside.rename_eq _ h.leads]
        cases (made.set location (.file (.text content))).rename (temporary other) other with
        | error cause => exact ⟨.error (.unwritable cause h.components), rfl⟩
        | ok disk' => exact ⟨.ok rfl, rfl⟩

theorem Alike.write (h : Alike target other) (hanswers : confirm target = confirm' other) :
    EndAlike Eq ((Target.write target content overwrite).run confirm disk).value
      ((Target.write other content overwrite).run confirm' disk).value
      ∧
    ((Target.write target content overwrite).run confirm disk).disk =
      ((Target.write other content overwrite).run confirm' disk).disk := by
  have hallows : allows confirm target overwrite = allows confirm' other overwrite := by
    cases overwrite with
    | ask => exact hanswers
    | always => rfl
    | never => rfl
  have hpresent := h.leads.isPresent_eq disk
  have hsame : IsKept confirm disk target overwrite ↔ IsKept confirm' disk other overwrite := by
    unfold IsKept
    rw [hallows, hpresent]
  by_cases hkept : IsKept confirm disk target overwrite
  . have hkept' := hsame.1 hkept
    rw [(run_write_of_isKept hkept).1, (run_write_of_isKept hkept').1,
      (run_write_of_isKept hkept).2, (run_write_of_isKept hkept').2]
    exact ⟨.ok rfl, rfl⟩
  . have hkept' := mt hsame.2 hkept
    rw [(run_write_of_not_isKept hkept).1, (run_write_of_not_isKept hkept').1,
      (run_write_of_not_isKept hkept).2, (run_write_of_not_isKept hkept').2, hpresent]
    obtain ⟨hreplace, hreplaced⟩ := h.replace
    refine ⟨hreplace.map ?_, hreplaced⟩
    intro _ _ _
    rfl

end

section

variable {folder : Path}

theorem beside_index (htext : folder.text ≠ []) :
    beside (folder.join Document.indexName) = folder.trimmed.join (.ofString "index.d.ts") := by
  have hlast : (folder.join Document.indexName).lastName? = some (raw "index.json") :=
    Path.join_name (by decide) (by decide)
  have hparent : (folder.join Document.indexName).parent? = some folder.trimmed :=
    Path.parent?_join_name htext (by decide) (by decide)
  have hstem := Path.stem?_of_lastName? hlast (by decide) (by decide)
  unfold beside
  rw [hparent, hstem]
  rfl

theorem temporary_index (htext : folder.text ≠ []) :
    temporary (folder.join (.ofString "index.d.ts")) = folder.join (.ofString "index.d.tmp") :=
  Path.withExtension_join_name htext (by decide) (by decide) (by decide) (by decide) (by decide)

theorem alike_index (htext : folder.text ≠ []) (hnull : RawChar.char '\x00' ∉ folder.text)
    (hfits : (folder.join (.ofString "index.d.tmp")).text.size ≤ Disk.maxPath) :
    Alike (folder.join (.ofString "index.d.ts")) (beside (folder.join Document.indexName)) := by
  have htext' := Path.text_trimmed_ne_nil htext
  have hcomponents {name : RawText} (hslash : RawChar.char '/' ∉ name)
      (hname : Path.isSilent name = false) :
      (folder.join ⟨name⟩).components = (folder.trimmed.join ⟨name⟩).components := by
    rw [Path.components_join_name htext hslash hname, Path.components_join_name htext' hslash hname,
      Path.components_trimmed htext]
  have hshorter : (folder.join (.ofString "index.d.ts")).text.size ≤
      (folder.join (.ofString "index.d.tmp")).text.size :=
    Path.size_join_name_le (by decide) (by decide) (List.prefix_refl _) (by decide)
  have hparent : (folder.join (.ofString "index.d.ts")).parent? = some folder.trimmed :=
    Path.parent?_join_name htext (by decide) (by decide)
  have hparent' : (folder.trimmed.join (.ofString "index.d.ts")).parent? =
      some folder.trimmed.trimmed :=
    Path.parent?_join_name htext' (by decide) (by decide)
  rw [beside_index htext]
  constructor
  . rw [hparent, hparent', Path.trimmed_trimmed htext]
  . apply Path.leadsLike_join_trimmed htext hnull (by decide) (by decide) (by decide)
      (Nat.le_trans hshorter hfits)
  . apply hcomponents (by decide) (by decide)
  . rw [temporary_index htext, temporary_index htext']
    apply Path.leadsLike_join_trimmed htext hnull (by decide) (by decide) (by decide) hfits
  . rw [temporary_index htext, temporary_index htext']
    apply hcomponents (by decide) (by decide)

end
end Target

namespace Generation

structure Alike (generation other : Generation) : Prop where
  code : generation.code = other.code
  target : generation.target.components = other.target.components
  outcome : generation.outcome = other.outcome

theorem alike_run {disk : Disk} {options other : Options} {confirm confirm' : Path → Bool}
    (hcode : ((codeOf options.source).run confirm disk).value =
      ((codeOf other.source).run confirm' disk).value)
    (htarget : Target.Alike ((Target.ofOptions options).run confirm disk).value
      ((Target.ofOptions other).run confirm' disk).value)
    (hanswers : confirm ((Target.ofOptions options).run confirm disk).value =
      confirm' ((Target.ofOptions other).run confirm' disk).value)
    (hoverwrite : options.overwrite = other.overwrite) (hdry : options.dryRun = other.dryRun) :
    EndAlike Alike ((run options).run confirm disk).value ((run other).run confirm' disk).value
      ∧
    ((run options).run confirm disk).disk = ((run other).run confirm' disk).disk := by
  rw [value_run, value_run, disk_run, disk_run]
  unfold writing?
  rw [hcode, hoverwrite, hdry]
  cases ((codeOf other.source).run confirm' disk).value with
  | error fault => exact ⟨.error (.same fault), rfl⟩
  | ok code =>
    cases other.dryRun with
    | true => exact ⟨.ok ⟨rfl, htarget.components, rfl⟩, rfl⟩
    | false =>
      obtain ⟨hwrite, hwritten⟩ := htarget.write hanswers
      refine ⟨?_, hwritten⟩
      simp only [Bool.false_eq_true, if_false]
      generalize ((Target.write ((Target.ofOptions options).run confirm disk).value code
        other.overwrite).run confirm disk).value = first at hwrite ⊢
      generalize ((Target.write ((Target.ofOptions other).run confirm' disk).value code
        other.overwrite).run confirm' disk).value = second at hwrite ⊢
      cases hwrite with
      | error h => exact .error h
      | ok h => exact .ok ⟨rfl, htarget.components, congrArg some h⟩

/-- A folder and the document called `index.json` in it are the same source, however the folder is
    spelled and whatever links are on the way to it. No path of the two runs is longer than the one
    of the file beside the target. -/
theorem run_index {disk : Disk} {options : Options} {confirm confirm' : Path → Bool}
    (houtput : options.output = none) (hfolder : disk.isFolder options.source = true)
    (hindex : disk.isFolder (options.source.join Document.indexName) = false)
    (hfits : (options.source.join (.ofString "index.d.tmp")).text.size ≤ Disk.maxPath)
    (hanswers : confirm (options.source.join (.ofString "index.d.ts")) =
      confirm' (Target.beside (options.source.join Document.indexName))) :
    let indexed := { options with source := options.source.join Document.indexName }
    let target := ((Target.ofOptions options).run confirm disk).value
    let target' := ((Target.ofOptions indexed).run confirm' disk).value
    let result := (run options).run confirm disk
    let result' := (run indexed).run confirm' disk
    ((Document.read options.source).run confirm disk).value =
      ((Document.read indexed.source).run confirm' disk).value
      ∧
    ((codeOf options.source).run confirm disk).value =
      ((codeOf indexed.source).run confirm' disk).value
      ∧
    target.components = target'.components
      ∧
    EndAlike Alike result.value result'.value
      ∧
    result.disk = result'.disk := by
  intro indexed target target' result result'
  obtain ⟨htext, hnull⟩ := Disk.ne_nil_of_isFolder hfolder
  have halike := Target.alike_index htext hnull hfits
  have hread : ((Document.read options.source).run confirm disk).value =
      ((Document.read indexed.source).run confirm' disk).value := by
    rw [Document.value_run_read, Document.value_run_read, Document.run_locate, Document.run_locate,
      hfolder, hindex]
    rfl
  have hcode : ((codeOf options.source).run confirm disk).value =
      ((codeOf indexed.source).run confirm' disk).value := by
    rw [value_run_codeOf, value_run_codeOf, Document.value_run_load, Document.value_run_load,
      Document.value_run_fetch, Document.value_run_fetch, hread]
    simp only [Document.value_run_interpret]
  have htarget : target = options.source.join (.ofString "index.d.ts") := by
    show ((Target.ofOptions options).run confirm disk).value = _
    unfold Target.ofOptions
    rw [houtput]
    simp only [Target.run_derive, hfolder, if_true]
  have htarget' : target' = Target.beside (options.source.join Document.indexName) := by
    show ((Target.ofOptions indexed).run confirm' disk).value = _
    unfold Target.ofOptions
    rw [show indexed.output = none from houtput]
    simp only [Target.run_derive]
    rw [show disk.isFolder indexed.source = false from hindex]
    rfl
  rw [← htarget, ← htarget'] at halike hanswers
  exact ⟨hread, hcode, halike.components, alike_run hcode halike hanswers rfl rfl⟩

def linked : Disk :=
  ⟨[raw "home"],
    [([raw "home"], .folder),
      ([raw "home", raw "lib"], .folder),
      ([raw "home", raw "apis"], .link (.ofString "./lib")),
      ([raw "home", raw "lib", raw "index.json"],
        .file (.text ('{' :: "\"user\":".toList ++ ['{', '}', '}']))),
      ([raw "home", raw "lib", raw "index.d.ts"], .file (.text "old".toList))]⟩

def linking : Options := { source := .ofString "apis//../apis/.//" }

-- the question shows the target as the run spells it

def agreesBelow (target : Path) : Bool := target.text == raw "apis//../apis/.//index.d.ts"

def agreesBeside (target : Path) : Bool := target.text == raw "apis//../apis/index.d.ts"

theorem run_index_linked :
    linking.output = none
      ∧
    linked.isFolder linking.source = true
      ∧
    linked.isFolder (linking.source.join Document.indexName) = false
      ∧
    (linking.source.join (.ofString "index.d.tmp")).text.size ≤ Disk.maxPath
      ∧
    agreesBelow (linking.source.join (.ofString "index.d.ts")) =
      agreesBeside (Target.beside (linking.source.join Document.indexName))
      ∧
    ((run linking).run agreesBelow linked).value.toOption.map Generation.outcome =
      some (some .overwritten)
      ∧
    EndAlike Alike ((run linking).run agreesBelow linked).value
      ((run { linking with source := linking.source.join Document.indexName }).run agreesBeside
        linked).value
      ∧
    ((run linking).run agreesBelow linked).disk =
      ((run { linking with source := linking.source.join Document.indexName }).run agreesBeside
        linked).disk := by
  have houtput : linking.output = none := rfl
  have hfolder : linked.isFolder linking.source = true := by decide +kernel
  have hindex : linked.isFolder (linking.source.join Document.indexName) = false := by
    decide +kernel
  have hfits : (linking.source.join (.ofString "index.d.tmp")).text.size ≤ Disk.maxPath := by
    decide +kernel
  have hanswers : agreesBelow (linking.source.join (.ofString "index.d.ts")) =
      agreesBeside (Target.beside (linking.source.join Document.indexName)) := by
    decide +kernel
  have houtcome : ((run linking).run agreesBelow linked).value.toOption.map Generation.outcome =
      some (some .overwritten) := by
    decide +kernel
  obtain ⟨_, _, _, hends, hdisk⟩ := run_index houtput hfolder hindex hfits hanswers
  exact ⟨houtput, hfolder, hindex, hfits, hanswers, houtcome, hends, hdisk⟩

end Generation
end ApiTypings
