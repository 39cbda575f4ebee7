import ApiTypings.CommandLine.Session
import ApiTypings.Proofs.Declaration.Total
import ApiTypings.Proofs.Disk.Below
import ApiTypings.Proofs.Run.Preview

/-!
This module contains the proof that a call reports what it has done to the disk: each line that it
prints about a target is true of the disk that it leaves, and the path in it leads to the target.
-/

namespace ApiTypings

namespace CommandLine

/-- Whether a call has put the declarations of its document, as that was before, in place of its
    target. What is printed is how a path to it is shown, and leads to it if the target is spelled
    with characters. -/
structure Delivered (arguments : Arguments) (disk disk' : Disk) (printed : Text) : Prop where
  shows : ∃ path : Path,
    path.shown = printed
      ∧
    disk'.stat path = disk'.stat ((Target.ofOptions arguments.options).run declines disk).value
  found : ∀ t : Text,
    ((Target.ofOptions arguments.options).run declines disk).value.text = .ofText t →
      disk'.stat ⟨.ofText printed⟩ =
        disk'.stat ((Target.ofOptions arguments.options).run declines disk).value
  content : ∃ text value apis code,
    disk.readText ((Document.locate arguments.options.source).run declines disk).value = .ok text
      ∧
    Json.parse text = .ok value
      ∧
    ApiMap.ofJson value = .ok apis
      ∧
    Declaration.ofApiMap apis = .ok code
      ∧
    disk'.readText ((Target.ofOptions arguments.options).run declines disk).value = .ok code

section

variable {arguments : Arguments} {disk : Disk} {home : Location} {generation : Generation}
  {outcome outcome' : Outcome} {text text' : Text} {fault : Fault}

theorem value_perform (arguments : Arguments) (disk : Disk) :
    (perform arguments disk).value =
      reportOn disk.home arguments.options
        ((Generation.run arguments.options).run declines disk).value := by
  unfold perform start
  rw [Program.value_run_bind, Program.value_run_bind]
  rfl

theorem disk_perform (arguments : Arguments) (disk : Disk) :
    (perform arguments disk).disk =
      ((Generation.run arguments.options).run declines disk).disk := by
  unfold perform start
  rw [Program.disk_run_bind, Program.disk_run_bind]
  rfl

theorem head?_announcement (outcome : Outcome) (rest : Text) :
    (announcement outcome ++ rest).head? = (announcement outcome).head? := by
  cases outcome <;> rfl

theorem announcement_inj
    (h : announcement outcome ++ text ++ ['\n'] = announcement outcome' ++ text' ++ ['\n']) :
    outcome = outcome' ∧ text = text' := by
  have hsame : outcome = outcome' := by
    have hhead := congrArg List.head? h
    rw [List.append_assoc, List.append_assoc, head?_announcement, head?_announcement] at hhead
    cases outcome <;> cases outcome' <;> first | rfl | exact absurd hhead (by decide)
  refine ⟨hsame, ?_⟩
  rw [hsame] at h
  exact List.append_cancel_left (List.append_cancel_right h)

theorem outputOf_eq_announcement (hcode : generation.code.head? = some '/')
    (h : outputOf home generation = announcement outcome ++ text ++ ['\n']) :
    generation.outcome = some outcome ∧ text = (fromHome home generation.target).shown := by
  unfold outputOf at h
  split at h
  -- what is shown on a dry run starts like no such line
  . have hhead := congrArg List.head? h
    rw [List.head?_append, hcode, List.append_assoc, head?_announcement] at hhead
    cases outcome <;> exact absurd hhead (by decide)
  . next other hother =>
    obtain ⟨hsame, htext⟩ := announcement_inj h
    rw [hother, hsame]
    exact ⟨rfl, htext.symm⟩

theorem generation_of_announcement (outcome : Outcome)
    (h : (perform arguments disk).value.output = announcement outcome ++ text ++ ['\n']) :
    ∃ generation,
      ((Generation.run arguments.options).run declines disk).value = .ok generation
        ∧
      generation.outcome = some outcome
        ∧
      text = (fromHome disk.home generation.target).shown := by
  rw [value_perform] at h
  cases hrun : ((Generation.run arguments.options).run declines disk).value with
  | error fault =>
    rw [hrun] at h
    simp [reportOn] at h
  | ok generation =>
    rw [hrun] at h
    obtain ⟨_, _, _, _, _, _, hcode⟩ :=
      Generation.document_of_codeOf (Generation.run_eq_ok_iff.1 hrun).1
    exact ⟨generation, rfl, outputOf_eq_announcement (Declaration.head?_of_ofApiMap hcode) h⟩

theorem allows_eq_force (arguments : Arguments) (target : Path) :
    Target.allows declines target arguments.options.overwrite = arguments.force := by
  unfold Arguments.options
  simp only
  split
  . next hforce => rw [hforce]; rfl
  . next hforce =>
    rw [Bool.not_eq_true] at hforce
    rw [hforce]
    split <;> rfl

theorem stat_fromHome {target : Path} {location : Location} {content : Content}
    (hfree : disk.IsLinkFree) (hfolder : disk.at? disk.home = some .folder)
    (hhome : raw ".." ∉ disk.home) (hstat : disk.stat target = .ok (location, .file content)) :
    (fromHome disk.home target).text <:+ target.text
      ∧
    disk.stat (fromHome disk.home target) = disk.stat target := by
  unfold fromHome
  cases hbelow : target.below? disk.home with
  | none => exact ⟨List.suffix_refl _, rfl⟩
  | some shorter =>
    rw [hstat]
    exact hfree.stat_of_below? hfolder hhome hbelow hstat

theorem ofText_shown_fromHome {target : Path} {t : Text} (htext : target.text = .ofText t)
    (hsuffix : (fromHome home target).text <:+ target.text) :
    (⟨.ofText (fromHome home target).shown⟩ : Path) = fromHome home target := by
  apply congrArg Path.mk
  apply RawText.ofText_shown_eq_self_iff.2
  intro c hmem
  apply RawText.char_of_mem_ofText (t := t)
  rw [← htext]
  exact hsuffix.subset hmem

theorem delivered (htree : disk.IsTree) (hfree : disk.IsLinkFree) (hhome : raw ".." ∉ disk.home)
    (hrun : ((Generation.run arguments.options).run declines disk).value = .ok generation)
    (houtcome : generation.outcome = some outcome) (hskipped : outcome ≠ .skipped) :
    Delivered arguments disk (perform arguments disk).disk
      (fromHome disk.home generation.target).shown := by
  obtain ⟨hcode, htarget, _⟩ := Generation.run_eq_ok_iff.1 hrun
  obtain ⟨hwrite, hdisk⟩ := Generation.write_of_outcome hrun houtcome
  obtain ⟨hreplace, hreplaced⟩ := Target.replaced_of_write hwrite hskipped
  have hways := Target.waysKept_of_replace hfree hreplace
  have hread := Target.readText_of_replace hfree hreplace
  rw [← hreplaced, ← hdisk, ← disk_perform] at hways hread
  rw [htarget] at hread
  obtain ⟨location, hstat⟩ := Disk.stat_of_readText hread
  obtain ⟨hsuffix, hfound⟩ := stat_fromHome (hways.isLinkFree hfree)
    (hways.home ▸ hways.folder _ htree.home) (hways.home ▸ hhome) hstat
  rw [hways.home] at hsuffix hfound
  rw [htarget]
  constructor
  . exact ⟨_, rfl, hfound⟩
  . intro t htext
    rw [ofText_shown_fromHome htext hsuffix]
    exact hfound
  . obtain ⟨text, value, apis, hdocument, hparse, hshape, hcode⟩ :=
      Generation.document_of_codeOf hcode
    exact ⟨text, value, apis, generation.code, hdocument, hparse, hshape, hcode, hread⟩

theorem disk_of_isPresent (hforce : arguments.force = false)
    (hpresent : disk.isPresent ((Target.ofOptions arguments.options).run declines disk).value =
      true) :
    (perform arguments disk).disk = disk := by
  have hkept : Target.IsKept declines disk
      ((Target.ofOptions arguments.options).run declines disk).value arguments.options.overwrite :=
    ⟨hpresent, (allows_eq_force arguments _).trans hforce⟩
  rw [disk_perform, Generation.disk_run]
  unfold Generation.writing?
  split
  . rfl
  . next target code hwriting =>
    split at hwriting
    . cases hwriting
    . split at hwriting
      . cases hwriting
      . cases hwriting
        exact (Target.run_write_of_isKept hkept).2

theorem disk_of_dryRun (hdry : arguments.options.dryRun = true) :
    (perform arguments disk).disk = disk := by
  rw [disk_perform, Generation.disk_run]
  unfold Generation.writing?
  cases ((Generation.codeOf arguments.options.source).run declines disk).value with
  | error fault => rfl
  | ok code =>
    rw [hdry]
    rfl

theorem disk_of_skipped
    (hrun : ((Generation.run arguments.options).run declines disk).value = .ok generation)
    (houtcome : generation.outcome = some .skipped) : (perform arguments disk).disk = disk := by
  obtain ⟨hwrite, hdisk⟩ := Generation.write_of_outcome hrun houtcome
  rw [disk_perform, hdisk]
  exact (Target.run_write_of_isKept (Target.tells_of_write hwrite)).2

theorem disk_of_error
    (hrun : ((Generation.run arguments.options).run declines disk).value = .error fault)
    (hfault : ¬fault.IsUnwritable) : (perform arguments disk).disk = disk := by
  rw [disk_perform]
  obtain hcode | ⟨_, _, _, hwrite⟩ := Generation.run_eq_error_iff.1 hrun
  . exact Generation.disk_run_of_error hcode
  . exact absurd (Target.isUnwritable_of_write hwrite) hfault

theorem exitCode_eq_zero_iff :
    (perform arguments disk).value.exitCode = 0 ↔
      ∃ generation,
        ((Generation.run arguments.options).run declines disk).value = .ok generation := by
  rw [value_perform]
  cases ((Generation.run arguments.options).run declines disk).value with
  | error fault => simp [reportOn]
  | ok generation => simp [reportOn]

end

/-- A call reports what it has done to the disk. No folder is called by two dots, so neither is one
    on the way to the working folder. -/
theorem perform_reports {disk : Disk} (htree : disk.IsTree) (hfree : disk.IsLinkFree)
    (hhome : raw ".." ∉ disk.home) (arguments : Arguments) :
    let generated := ((Generation.run arguments.options).run declines disk).value
    let target := ((Target.ofOptions arguments.options).run declines disk).value
    let result := perform arguments disk
    (arguments.force = false → disk.isPresent target = true → result.disk = disk)
      ∧
    (arguments.options.dryRun = true → result.disk = disk)
      ∧
    (∀ text, result.value.output = announcement .skipped ++ text ++ ['\n'] →
      result.disk = disk)
      ∧
    (∀ fault, generated = .error fault → ¬fault.IsUnwritable →
      result.value.exitCode = 1 ∧ result.disk = disk)
      ∧
    (∀ text, result.value.output = announcement .created ++ text ++ ['\n'] →
      disk.isPresent target = false ∧ Delivered arguments disk result.disk text)
      ∧
    (∀ text, result.value.output = announcement .overwritten ++ text ++ ['\n'] →
      disk.isPresent target = true
        ∧
      arguments.force = true
        ∧
      Delivered arguments disk result.disk text)
      ∧
    (result.value.exitCode = 0 ↔ ∃ generation, generated = .ok generation) := by
  intro generated target result
  refine ⟨disk_of_isPresent, disk_of_dryRun, ?_, ?_, ?_, ?_, exitCode_eq_zero_iff⟩
  . intro text h
    obtain ⟨generation, hrun, houtcome, _⟩ := generation_of_announcement .skipped h
    exact disk_of_skipped hrun houtcome
  . intro fault h hfault
    refine ⟨?_, disk_of_error h hfault⟩
    have hvalue : result.value = reportOn disk.home arguments.options generated :=
      value_perform arguments disk
    rw [hvalue, h]
    rfl
  . intro text h
    obtain ⟨generation, hrun, houtcome, htext⟩ := generation_of_announcement .created h
    have hwrite := (Generation.write_of_outcome hrun houtcome).1
    rw [(Generation.run_eq_ok_iff.1 hrun).2.1] at hwrite
    rw [htext]
    exact ⟨Target.tells_of_write hwrite, delivered htree hfree hhome hrun houtcome nofun⟩
  . intro text h
    obtain ⟨generation, hrun, houtcome, htext⟩ := generation_of_announcement .overwritten h
    have hwrite := (Generation.write_of_outcome hrun houtcome).1
    rw [(Generation.run_eq_ok_iff.1 hrun).2.1] at hwrite
    obtain ⟨hpresent, hallows⟩ := Target.tells_of_write hwrite
    rw [allows_eq_force] at hallows
    rw [htext]
    exact ⟨hpresent, hallows, delivered htree hfree hhome hrun houtcome nofun⟩

def served : Disk :=
  ⟨[raw "home"],
    [([raw "home"], .folder),
      ([raw "home", raw "apis.json"], .file (.text ('{' :: "\"user\":".toList ++ ['{', '}', '}']))),
      ([raw "home", raw "api.d.ts"], .file (.text "old".toList))]⟩

def forcing : Arguments :=
  { source := some (.ofString "apis.json")
    output := some (.ofString "/home//./api.d.ts")
    flags := [.force] }

theorem perform_reports_served :
    served.IsTree
      ∧
    served.IsLinkFree
      ∧
    raw ".." ∉ served.home
      ∧
    (perform forcing served).value.output =
      "Overwrote api declarations -> api.d.ts\n".toList
      ∧
    Delivered forcing served (perform forcing served).disk "api.d.ts".toList
      ∧
    (perform forcing served).disk.stat (.ofString "api.d.ts") =
      (perform forcing served).disk.stat (.ofString "/home//./api.d.ts") := by
  have htree : served.IsTree := by decide
  have hfree : served.IsLinkFree := by decide
  have hhome : raw ".." ∉ served.home := by decide
  have houtput : (perform forcing served).value.output =
      "Overwrote api declarations -> api.d.ts\n".toList := by
    decide +kernel
  obtain ⟨_, _, _, _, _, hoverwrote, _⟩ := perform_reports htree hfree hhome forcing
  have hdelivered := (hoverwrote "api.d.ts".toList houtput).2.2
  exact ⟨htree, hfree, hhome, houtput, hdelivered,
    hdelivered.found "/home//./api.d.ts".toList rfl⟩

def writing (target : Path) : Arguments :=
  { source := some (.ofString "apis.json"), output := some target }

def strayTarget : Path := ⟨raw "out" ++ .stray 255 [] :: raw ".d.ts"⟩

def brokenTarget : Path := .ofString "a\nb.d.ts"

/-- A path that is printed need not lead to the target: bytes that are no characters are replaced in
    it, and a line of what is printed ends at the first line break. -/
theorem printed_path_not_found :
    served.IsTree
      ∧
    served.IsLinkFree
      ∧
    raw ".." ∉ served.home
      ∧
    (perform (writing strayTarget) served).value.output =
      "Generated api declarations -> out\ufffd.d.ts\n".toList
      ∧
    (perform (writing strayTarget) served).disk.isPresent strayTarget = true
      ∧
    (perform (writing strayTarget) served).disk.isPresent (.ofString "out\ufffd.d.ts") = false
      ∧
    (perform (writing brokenTarget) served).value.output =
      "Generated api declarations -> a\n".toList ++ "b.d.ts\n".toList
      ∧
    (perform (writing brokenTarget) served).disk.isPresent brokenTarget = true
      ∧
    (perform (writing brokenTarget) served).disk.isPresent (.ofString "a") = false := by
  refine ⟨by decide, by decide, by decide, ?_, ?_, ?_, ?_, ?_, ?_⟩ <;> decide +kernel

end CommandLine
end ApiTypings
