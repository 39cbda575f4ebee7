import ApiTypings.Proofs.Disk.Ways
import ApiTypings.Proofs.Run.Moments
import ApiTypings.Run.Target

/-!
This module contains what the parts of a write do to a disk, links or not: making the folders above a
target brings in folders and nothing else, the file beside it is one entry, and the write ends in one
of four ways.
-/

namespace ApiTypings

inductive Path.IsBelow : Path → Path → Prop
  | parent {path above : Path} (h : path.parent? = some above) : path.IsBelow above
  | higher {path between above : Path} (h : path.IsBelow between)
    (habove : between.parent? = some above) : path.IsBelow above

namespace Disk

structure Grown (isMade : Path → Prop) (disk disk' : Disk) : Prop where
  home : disk'.home = disk.home
  kept : ∀ location entry, disk.at? location = some entry → disk'.at? location = some entry
  added : ∀ location entry, disk'.at? location = some entry → disk.at? location = none →
    entry = .folder ∧ ∃ path, isMade path ∧ disk'.stat path = .ok (location, .folder)

section

variable {isMade : Path → Prop} {disk disk' disk'' : Disk} {path : Path}

theorem Grown.refl (isMade : Path → Prop) (disk : Disk) : Grown isMade disk disk := by
  refine ⟨rfl, fun _ _ h => h, ?_⟩
  intro location entry h hnone
  rw [hnone] at h
  cases h

theorem Grown.waysKept (h : Grown isMade disk disk') : disk.WaysKept disk' := by
  refine ⟨h.home, fun location => h.kept location _, ?_⟩
  intro location destination
  refine ⟨?_, h.kept location _⟩
  intro hlink
  cases hold : disk.at? location with
  | none => cases (h.added location _ hlink hold).1
  | some entry => rw [← h.kept location entry hold, hlink]

theorem Grown.trans (h : Grown isMade disk disk') (h' : Grown isMade disk' disk'') :
    Grown isMade disk disk'' := by
  constructor
  . rw [h'.home, h.home]
  . intro location entry hentry
    apply h'.kept location entry (h.kept location entry hentry)
  . intro location entry hentry hnone
    cases hbetween : disk'.at? location with
    | none => exact h'.added location entry hentry hbetween
    | some entry' =>
      obtain ⟨hfolder, path, hpath, hstat⟩ := h.added location entry' hbetween hnone
      have hsame := h'.kept location entry' hbetween
      rw [hentry, Option.some.injEq] at hsame
      exact ⟨hsame.trans hfolder, path, hpath, h'.waysKept.stat_eq_folder hstat⟩

theorem Grown.at?_cases (h : Grown isMade disk disk') (location : Location) :
    disk'.at? location = disk.at? location
      ∨
    disk.at? location = none
      ∧
    disk'.at? location = some .folder
      ∧
    ∃ path, isMade path ∧ disk'.stat path = .ok (location, .folder) := by
  cases hold : disk.at? location with
  | some entry =>
    left
    rw [h.kept location entry hold]
  | none =>
    cases hnew : disk'.at? location with
    | none => exact .inl rfl
    | some entry =>
      obtain ⟨hfolder, hpath⟩ := h.added location entry hnew hold
      exact .inr ⟨rfl, by rw [hfolder], hpath⟩

theorem grown_of_makeFolder (hpath : isMade path) (h : disk.makeFolder path = .ok disk') :
    Grown isMade disk disk' := by
  obtain ⟨made, hne, hnone, hdisk, hstat⟩ := effect_of_makeFolder h
  constructor
  . rw [hdisk]
    rfl
  . intro location entry hentry
    have heq : location ≠ made := by
      intro heq
      rw [heq, hnone] at hentry
      cases hentry
    rw [hdisk, at?_set_of_ne heq]
    exact hentry
  . intro location entry hentry hlocation
    by_cases heq : location = made
    . rw [hdisk, heq, at?_set_self hne, Option.some.injEq] at hentry
      exact ⟨hentry.symm, path, hpath, heq ▸ hstat⟩
    . rw [hdisk, at?_set_of_ne heq, hlocation] at hentry
      cases hentry

end
end Disk

theorem Program.value_run_bind (confirm : Path → Bool) (program : Program α)
    (f : α → Program β) (disk : Disk) :
    ((program >>= f).run confirm disk).value =
      ((f (program.run confirm disk).value).run confirm (program.run confirm disk).disk).value := by
  rw [Program.run_bind]

theorem Program.disk_run_bind (confirm : Path → Bool) (program : Program α)
    (f : α → Program β) (disk : Disk) :
    ((program >>= f).run confirm disk).disk =
      ((f (program.run confirm disk).value).run confirm (program.run confirm disk).disk).disk := by
  rw [Program.run_bind]

theorem Program.Takes.run_invariant {kind : Action → Prop} {holds : Disk → Prop}
    {confirm : Path → Bool}
    (hperform : ∀ action disk, kind action → holds disk →
      holds (action.perform confirm disk).2)
    {program : Program α} (htakes : program.Takes kind) {disk : Disk} (hdisk : holds disk) :
    holds (program.run confirm disk).disk := by
  induction program generalizing disk with
  | done a => exact hdisk
  | step action next ih => exact ih _ (htakes.2 _) (hperform action disk htakes.1 hdisk)

theorem Program.Takes.run_eq_run {kind : Action → Prop} {confirm confirm' : Path → Bool}
    (hperform : ∀ action disk, kind action →
      action.perform confirm disk = action.perform confirm' disk)
    {program : Program α} (htakes : program.Takes kind) (disk : Disk) :
    program.run confirm disk = program.run confirm' disk := by
  induction program generalizing disk with
  | done a => rfl
  | step action next ih =>
    unfold Program.run
    simp only
    rw [hperform action disk htakes.1, ih _ (htakes.2 _)]

namespace Target

def MakesFolders (isMade : Path → Prop) : Action → Prop
  | .isFolder _ => True
  | .makeFolder path => isMade path
  | _ => False

section

variable {isMade : Path → Prop} {confirm : Path → Bool} {disk disk' between : Disk}

theorem grown_perform {action : Action} (haction : MakesFolders isMade action)
    (h : Disk.Grown isMade disk between) :
    Disk.Grown isMade disk (action.perform confirm between).2 := by
  cases action with
  | isFolder => exact h
  | makeFolder path =>
    apply Action.holds_change h
    intro disk' hmake
    apply h.trans (Disk.grown_of_makeFolder haction hmake)
  | _ => cases haction

theorem makesFolders_accept (path : Path) (fault : Disk.Fault) :
    (makeFolders.accept path fault).Takes (MakesFolders isMade) := by
  unfold makeFolders.accept
  refine Program.Takes.bind ⟨trivial, fun _ => trivial⟩ ?_
  intro folder
  split
  . trivial
  . trivial

theorem makesFolders_makeFolders {paths : List Path} (hpaths : ∀ path ∈ paths, isMade path) :
    (makeFolders paths).Takes (MakesFolders isMade) := by
  induction paths with
  | nil => trivial
  | cons path above ih =>
    obtain ⟨hpath, habove⟩ := List.forall_mem_cons.1 hpaths
    have hmake : (Program.makeFolder path).Takes (MakesFolders isMade) :=
      ⟨hpath, fun _ => trivial⟩
    unfold makeFolders
    apply hmake.bind
    intro first
    split
    . trivial
    . apply (ih habove).bind
      intro made
      split
      . trivial
      . apply hmake.bind
        intro second
        split
        . trivial
        . apply makesFolders_accept
    . apply makesFolders_accept

theorem isBelow_of_mem_ancestors {target path above : Path} {fuel : Nat}
    (hpath : target.IsBelow path) (h : above ∈ ancestors fuel path) : target.IsBelow above := by
  induction fuel generalizing path with
  | zero => cases h
  | succ fuel ih =>
    unfold ancestors at h
    split at h
    . cases h
    . cases List.mem_cons.1 h with
      | inl heq => exact heq ▸ hpath
      | inr hmem =>
        split at hmem
        . cases hmem
        . next hparent => exact ih (.higher hpath hparent) hmem

theorem makesFolders_makeParents (target : Path) :
    (makeParents target).Takes (MakesFolders target.IsBelow) := by
  unfold makeParents
  split
  . trivial
  . next parent hparent =>
    apply (makesFolders_makeFolders _).bind
    . intro made
      split
      . trivial
      . trivial
    . intro above hmem
      apply isBelow_of_mem_ancestors (.parent hparent) hmem

def prepared (disk : Disk) (target : Path) : Disk :=
  ((makeParents target).run (fun _ => false) disk).disk

end

section

variable (confirm : Path → Bool) (disk : Disk) (target : Path) (content : Text)

-- nobody is asked whether folders may be made

theorem run_makeParents_eq (confirm' : Path → Bool) :
    (makeParents target).run confirm disk = (makeParents target).run confirm' disk := by
  apply (makesFolders_makeParents target).run_eq_run
  intro action disk haction
  cases action with
  | ask => cases haction
  | _ => rfl

theorem disk_run_makeParents :
    ((makeParents target).run confirm disk).disk = prepared disk target := by
  unfold prepared
  rw [run_makeParents_eq confirm disk target (fun _ => false)]

theorem grown_prepared : Disk.Grown target.IsBelow disk (prepared disk target) :=
  Program.Takes.run_invariant (fun _ _ => grown_perform) (makesFolders_makeParents target)
    (.refl _ disk)

theorem run_writeFile (path : Path) :
    (writeFile path content).run confirm disk =
      match disk.fileSpot path with
      | .error cause => ⟨.error (.unwritable path.shown cause), disk, []⟩
      | .ok location => ⟨.ok (), disk.set location (.file (.text content)), []⟩ := by
  unfold writeFile
  rw [Program.run_bind, Program.run_createFile]
  unfold Disk.createFile
  cases hfile : disk.fileSpot path with
  | error cause => rfl
  | ok location =>
    have hfill : (disk.set location (.file (.text []))).fillFile path content =
        .ok (disk.set location (.file (.text content))) := by
      unfold Disk.fillFile
      rw [Disk.stat_set_fileSpot hfile]
      simp only [Disk.set_set]
    simp only [Action.change]
    rw [Program.run_bind, Program.run_fillFile, hfill]
    rfl

end

/-- How the write of a target ends, and what has become of the disk on which the folders above it
    have been made as far as that goes. -/
inductive Ends (made : Disk) (target : Path) (content : Text) : Except Fault Unit → Disk → Prop
  | unmade (fault : Fault) : Ends made target content (.error fault) made
  | unopened (cause : Disk.Fault) (hfile : made.fileSpot (temporary target) = .error cause) :
    Ends made target content (.error (.unwritable (temporary target).shown cause)) made
  | unnamed (location : Location) (cause : Disk.Fault)
    (hfile : made.fileSpot (temporary target) = .ok location)
    (hrename : (made.set location (.file (.text content))).rename (temporary target) target =
      .error cause) :
    Ends made target content (.error (.unwritable target.shown cause))
      (made.set location (.file (.text content)))
  | named (location : Location) (disk' : Disk)
    (hfile : made.fileSpot (temporary target) = .ok location)
    (hrename : (made.set location (.file (.text content))).rename (temporary target) target =
      .ok disk') :
    Ends made target content (.ok ()) disk'

section

variable (confirm : Path → Bool) (disk : Disk) (target : Path) (content : Text)

theorem ends_replace :
    Ends (prepared disk target) target content ((replace target content).run confirm disk).value
      ((replace target content).run confirm disk).disk := by
  have hdisk := disk_run_makeParents confirm disk target
  unfold replace
  rw [Program.run_bind]
  cases hmade : (makeParents target).run confirm disk with
  | mk value made events =>
    rw [hmade] at hdisk
    rw [← hdisk]
    cases value with
    | error fault => exact .unmade fault
    | ok =>
      simp only
      rw [Program.run_bind, run_writeFile]
      cases hfile : made.fileSpot (temporary target) with
      | error cause => exact .unopened cause hfile
      | ok location =>
        simp only
        rw [Program.run_bind, Program.run_rename]
        cases hrename : (made.set location (.file (.text content))).rename (temporary target)
            target with
        | error cause => exact .unnamed location cause hfile hrename
        | ok disk' => exact .named location disk' hfile hrename

def allows (confirm : Path → Bool) (target : Path) : Overwrite → Bool
  | .ask => confirm target
  | .always => true
  | .never => false

def IsKept (confirm : Path → Bool) (disk : Disk) (target : Path) (overwrite : Overwrite) : Prop :=
  disk.isPresent target = true ∧ allows confirm target overwrite = false

variable (overwrite : Overwrite)

theorem value_run_mayReplace :
    ((mayReplace overwrite target).run confirm disk).value = allows confirm target overwrite := by
  cases overwrite <;> rfl

theorem disk_run_mayReplace :
    ((mayReplace overwrite target).run confirm disk).disk = disk := by
  cases overwrite <;> rfl

theorem run_publish (outcome : Outcome) :
    ((publish target content outcome).run confirm disk).value =
      ((replace target content).run confirm disk).value.map (fun _ => outcome)
      ∧
    ((publish target content outcome).run confirm disk).disk =
      ((replace target content).run confirm disk).disk := by
  unfold publish
  rw [Program.run_bind]
  cases (replace target content).run confirm disk with
  | mk value disk' events => cases value <;> exact ⟨rfl, rfl⟩

variable {confirm disk target content overwrite}

theorem run_write_of_isKept (h : IsKept confirm disk target overwrite) :
    ((write target content overwrite).run confirm disk).value = .ok .skipped
      ∧
    ((write target content overwrite).run confirm disk).disk = disk := by
  obtain ⟨hpresent, hallows⟩ := h
  rw [← value_run_mayReplace confirm disk] at hallows
  have hdisk := disk_run_mayReplace confirm disk target overwrite
  unfold write
  rw [Program.run_bind, Program.run_isPresent, hpresent]
  simp only [if_true]
  rw [Program.run_bind]
  simp only [hallows, hdisk, Bool.false_eq_true, if_false]
  exact ⟨rfl, rfl⟩

theorem run_write_of_not_isKept (h : ¬IsKept confirm disk target overwrite) :
    (((write target content overwrite).run confirm disk).value =
      ((replace target content).run confirm disk).value.map
        (fun _ => if disk.isPresent target then .overwritten else .created))
      ∧
    ((write target content overwrite).run confirm disk).disk =
      ((replace target content).run confirm disk).disk := by
  unfold write
  rw [Program.run_bind, Program.run_isPresent]
  cases hpresent : disk.isPresent target with
  | false =>
    simp only [Bool.false_eq_true, if_false]
    exact run_publish confirm disk target content .created
  | true =>
    have hallows : allows confirm target overwrite = true := by
      cases hcase : allows confirm target overwrite with
      | true => rfl
      | false => exact absurd ⟨hpresent, hcase⟩ h
    rw [← value_run_mayReplace confirm disk] at hallows
    have hdisk := disk_run_mayReplace confirm disk target overwrite
    simp only [if_true]
    rw [Program.run_bind]
    simp only [hallows, hdisk, if_true]
    exact run_publish confirm disk target content .overwritten

def Tells (confirm : Path → Bool) (disk : Disk) (target : Path) (overwrite : Overwrite) :
    Outcome → Prop
  | .created => disk.isPresent target = false
  | .overwritten => disk.isPresent target = true ∧ allows confirm target overwrite = true
  | .skipped => IsKept confirm disk target overwrite

theorem tells_of_write {outcome : Outcome}
    (h : ((write target content overwrite).run confirm disk).value = .ok outcome) :
    Tells confirm disk target overwrite outcome := by
  by_cases hkept : IsKept confirm disk target overwrite
  . rw [(run_write_of_isKept hkept).1] at h
    cases h
    exact hkept
  . rw [(run_write_of_not_isKept hkept).1] at h
    cases hreplace : ((replace target content).run confirm disk).value with
    | error fault =>
      rw [hreplace] at h
      cases h
    | ok =>
      rw [hreplace] at h
      have houtcome := Except.ok.inj h
      cases hpresent : disk.isPresent target with
      | false =>
        rw [hpresent, if_neg Bool.false_ne_true] at houtcome
        exact houtcome ▸ hpresent
      | true =>
        rw [hpresent, if_pos rfl] at houtcome
        rw [← houtcome]
        refine ⟨hpresent, ?_⟩
        rw [← Bool.not_eq_false]
        exact fun hrefused => hkept ⟨hpresent, hrefused⟩

end
end Target
end ApiTypings
