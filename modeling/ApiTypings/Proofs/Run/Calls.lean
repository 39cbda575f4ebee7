import ApiTypings.Proofs.Run.Reading

/-!
This module contains what is safe from calls that may not replace anything: whatever number of them is
made on a disk, links or not, an entry stays as it is unless one of the calls comes upon it where it
puts the file beside its target, or at a target that it did not find.
-/

namespace ApiTypings

inductive Job
  | write (target : Path) (content : Text) (overwrite : Overwrite)
  | generate (options : Options)
deriving DecidableEq, Repr

structure Call where
  job : Job
  confirm : Path → Bool

def Job.overwrite : Job → Overwrite
  | .write _ _ overwrite => overwrite
  | .generate options => options.overwrite

namespace Call

def Declines (call : Call) : Prop :=
  call.job.overwrite = .never
    ∨
  call.job.overwrite = .ask ∧ ∀ target, call.confirm target = false

def after (call : Call) (disk : Disk) : Disk :=
  match call.job with
  | .write target content overwrite =>
    ((Target.write target content overwrite).run call.confirm disk).disk
  | .generate options => ((Generation.run options).run call.confirm disk).disk

def afterAll (calls : List Call) (disk : Disk) : Disk :=
  calls.foldl (fun disk call => call.after disk) disk

def writing? (call : Call) (disk : Disk) : Option (Path × Text) :=
  match call.job with
  | .write target content _ => some (target, content)
  | .generate options => Generation.writing? call.confirm disk options

/-- The places that a write comes upon once the folders above its target are made: the one where it
    puts the content, which is where a link leads that is found beside the target, the one beside the
    target and that of the target. There are none if the content cannot be put anywhere. -/
def touched (made : Disk) (target : Path) : List Location :=
  match made.fileSpot (Target.temporary target) with
  | .error _ => []
  | .ok location =>
    location ::
      ((made.placeOf? (Target.temporary target)).toList ++ (made.placeOf? target).toList)

/-- The places where a call can replace something although it may not. There are none unless it
    writes to a target that it does not find. -/
def exposed (call : Call) (disk : Disk) : List Location :=
  match call.writing? disk with
  | none => []
  | some (target, _) =>
    if disk.isPresent target then [] else touched (Target.prepared disk target) target

section

variable {call : Call} {disk disk' made : Disk} {location : Location} {entry : Entry}
  {target : Path} {content : Text} {value : Except Fault Unit}

theorem after_eq (call : Call) (disk : Disk) :
    call.after disk =
      match call.writing? disk with
      | none => disk
      | some (target, content) =>
        ((Target.write target content call.job.overwrite).run call.confirm disk).disk := by
  obtain ⟨job, confirm⟩ := call
  cases job with
  | write => rfl
  | generate options => exact Generation.disk_run confirm disk options

theorem Declines.allows_eq_false (h : call.Declines) (target : Path) :
    Target.allows call.confirm target call.job.overwrite = false := by
  cases h with
  | inl hnever =>
    rw [hnever]
    rfl
  | inr hask =>
    rw [hask.1]
    exact hask.2 target

theorem at?_of_ends (h : Target.Ends made target content value disk')
    (hentry : made.at? location = some entry)
    (hsafe : entry ≠ .folder → location ∉ touched made target) :
    disk'.at? location = some entry := by
  have hapart {place : Location} (hfolder : made.at? place ≠ some .folder)
      (htouched : place ∈ touched made target) : location ≠ place := by
    rintro rfl
    apply hsafe _ htouched
    intro heq
    exact hfolder (heq ▸ hentry)
  cases h with
  | unmade => exact hentry
  | unopened => exact hentry
  | unnamed beside cause hfile =>
    have hbeside : location ≠ beside :=
      hapart (Disk.at?_of_fileSpot hfile).2.1 (by simp [touched, hfile])
    rw [Disk.at?_set_of_ne hbeside]
    exact hentry
  | named beside _ hfile hrename =>
    have hbeside : location ≠ beside :=
      hapart (Disk.at?_of_fileSpot hfile).2.1 (by simp [touched, hfile])
    have hfilled : (made.set beside (.file (.text content))).at? location = some entry := by
      rw [Disk.at?_set_of_ne hbeside]
      exact hentry
    obtain ⟨hways, hback⟩ := Disk.waysKept_set_fileSpot hfile (.text content)
    obtain ⟨folder, name, folder', name', moved, old, hsource, htarget, hfind, hfind', hmoved,
      ⟨_, hdisk⟩ | ⟨_, hold, hdisk⟩⟩ := Disk.rename_eq_ok hrename
    . rw [hdisk]
      exact hfilled
    . have hsource' := hback.placeOf?_eq_some (Disk.placeOf?_of_spot hsource)
      have htarget' := hback.placeOf?_eq_some (Disk.placeOf?_of_spot htarget)
      have hnotSource : location ≠ folder ++ [name] := by
        apply hapart _ (by simp [touched, hfile, hsource'])
        intro hfolder
        have hfound := hways.folder _ hfolder
        rw [(Disk.find_eq_ok_iff.1 hfind).2] at hfound
        exact hmoved (Option.some.inj hfound)
      have hnotTarget : location ≠ folder' ++ [name'] := by
        apply hapart _ (by simp [touched, hfile, htarget'])
        intro hfolder
        have hfound := hways.folder _ hfolder
        rw [(Disk.find_eq_ok_iff.1 hfind').2] at hfound
        exact hold hfound
      rw [hdisk, Disk.at?_set_of_ne hnotTarget, Disk.at?_erase_of_ne hnotSource]
      exact hfilled

theorem at?_after (hdeclines : call.Declines) (hentry : disk.at? location = some entry)
    (hsafe : entry ≠ .folder → location ∉ call.exposed disk) :
    (call.after disk).at? location = some entry := by
  rw [after_eq]
  unfold exposed at hsafe
  cases hwriting : call.writing? disk with
  | none => exact hentry
  | some writing =>
    obtain ⟨target, content⟩ := writing
    rw [hwriting] at hsafe
    simp only at hsafe ⊢
    cases hpresent : disk.isPresent target with
    | true =>
      rw [(Target.run_write_of_isKept ⟨hpresent, hdeclines.allows_eq_false target⟩).2]
      exact hentry
    | false =>
      have hnotKept :
          ¬Target.IsKept call.confirm disk target call.job.overwrite := by
        rintro ⟨htrue, _⟩
        rw [hpresent] at htrue
        cases htrue
      rw [hpresent] at hsafe
      rw [(Target.run_write_of_not_isKept hnotKept).2]
      apply at?_of_ends (Target.ends_replace call.confirm disk target content)
      . apply (Target.grown_prepared disk target).kept location entry hentry
      . exact hsafe

end

def exposedAll : List Call → Disk → List Location
  | [], _ => []
  | call :: rest, disk => call.exposed disk ++ exposedAll rest (call.after disk)

/-- Calls that may not replace anything leave what is on a disk as it is: folders always, and a file
    or link unless one of the calls comes upon it under the name of the file beside its target, or at
    its target although it did not find that. -/
theorem at?_afterAll {calls : List Call} (hcalls : ∀ call ∈ calls, call.Declines) {disk : Disk}
    {location : Location} {entry : Entry} (hentry : disk.at? location = some entry)
    (hsafe : entry ≠ .folder → location ∉ exposedAll calls disk) :
    (afterAll calls disk).at? location = some entry := by
  induction calls generalizing disk with
  | nil => exact hentry
  | cons call rest ih =>
    obtain ⟨hcall, hrest⟩ := List.forall_mem_cons.1 hcalls
    apply ih hrest
    . apply at?_after hcall hentry
      intro hfolder hmem
      exact hsafe hfolder (List.mem_append_left _ hmem)
    . intro hfolder hmem
      exact hsafe hfolder (List.mem_append_right _ hmem)

def littered : Disk :=
  ⟨[raw "home"],
    [([raw "home"], .folder),
      ([raw "home", raw "apis.json"], .file (.text ['{', '}'])),
      ([raw "home", raw "gone"], .link (.ofString "nowhere")),
      ([raw "home", raw "api.d.tmp"], .file (.text "mine".toList))]⟩

def careful : List Call :=
  [⟨.write (.ofString "api.d.ts") "new".toList .never, fun _ => true⟩,
    ⟨.generate { source := .ofString "apis.json" }, fun _ => false⟩]

theorem declines_careful : ∀ call ∈ careful, call.Declines := by
  intro call hmem
  simp only [careful, List.mem_cons, List.not_mem_nil, or_false] at hmem
  cases hmem with
  | inl heq => exact heq ▸ .inl rfl
  | inr heq => exact heq ▸ .inr ⟨rfl, fun _ => rfl⟩

theorem at?_afterAll_littered :
    (∀ call ∈ careful, call.Declines)
      ∧
    (afterAll careful littered).at? [raw "home", raw "apis.json"] =
      some (.file (.text ['{', '}']))
      ∧
    (afterAll careful littered).at? [raw "home", raw "gone"] =
      some (.link (.ofString "nowhere")) := by
  refine ⟨declines_careful, ?_, ?_⟩
  . exact at?_afterAll declines_careful (by decide) (fun _ => by decide +kernel)
  . exact at?_afterAll declines_careful (by decide) (fun _ => by decide +kernel)

/-- A file is lost to calls that may not replace anything, if it is where one of them puts the file
    beside its target. -/
theorem afterAll_loses_file :
    littered.IsTree
      ∧
    (∀ call ∈ careful, call.Declines)
      ∧
    littered.at? [raw "home", raw "api.d.tmp"] = some (.file (.text "mine".toList))
      ∧
    (afterAll careful littered).at? [raw "home", raw "api.d.tmp"] = none :=
  ⟨by decide, declines_careful, by decide, by decide +kernel⟩

end Call

end ApiTypings
