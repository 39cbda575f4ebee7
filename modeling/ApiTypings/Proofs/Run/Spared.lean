import ApiTypings.Proofs.Disk.Places
import ApiTypings.Proofs.Path.LastName
import ApiTypings.Proofs.Run.Replace

/-!
This module contains what a write can do to a file on a disk without links if the file has another
name than the target and what is beside that: nothing, whatever the folders are, and at no moment.
Neither the declaration file of a document nor the file beside that has the name of the document.
-/

namespace ApiTypings

def Action.Spares (name : RawText) : Action → Prop
  | .createFile path => path.lastName? ≠ some name
  | .fillFile path _ => path.lastName? ≠ some name
  | .rename source target => source.lastName? ≠ some name ∧ target.lastName? ≠ some name
  | _ => True

namespace Disk

section

variable {disk disk' between : Disk} {path : Path} {folder location : Location} {name last : RawText}
  {slash : Bool} {follows : Bool → Bool} {content : Content}

theorem IsLinkFree.lastName?_of_spot (hfree : disk.IsLinkFree)
    (h : disk.spot follows path = .ok (.entry folder name slash)) :
    path.lastName? = some name
      ∧
    name ≠ raw "."
      ∧
    name ≠ raw ".." := by
  obtain ⟨before, hnames, hdot, hdots, _, _⟩ := hfree.place_of_spot h
  unfold Path.lastName?
  rw [hnames, List.getLast?_concat]
  exact ⟨rfl, hdot, hdots⟩

theorem IsLinkFree.place_ne_of_spot (hfree : disk.IsLinkFree) (hlast : location.getLast? = some last)
    (hne : path.lastName? ≠ some last)
    (h : disk.spot follows path = .ok (.entry folder name slash)) : folder ++ [name] ≠ location := by
  intro heq
  apply hne
  rw [← heq, List.getLast?_concat] at hlast
  rw [(hfree.lastName?_of_spot h).1, hlast]

structure Survives (disk : Disk) (location : Location) (content : Content) (disk' : Disk) :
    Prop where
  ways : disk.WaysKept disk'
  file : disk'.at? location = some (.file content)

theorem Survives.set (h : Survives disk location content between) {place : Location} {entry : Entry}
    (hways : between.WaysKept (between.set place entry)) (hne : place ≠ location) :
    Survives disk location content (between.set place entry) := by
  refine ⟨h.ways.trans hways, ?_⟩
  rw [at?_set_of_ne hne.symm, h.file]

theorem Survives.content?_eq (h : Survives disk location content disk')
    (hstat : disk.stat path = .ok (location, .file content)) :
    disk'.content? path = some content := by
  obtain ⟨folder, name, hspot, hfind, hlocation⟩ := stat_eq_file hstat
  have hfile := h.file
  rw [hlocation] at hfile
  unfold content?
  rw [stat_of_spot (h.ways.spot_eq_ok hspot)
    (find_eq_ok_iff.2 ⟨(find_eq_ok_iff.1 hfind).1, hfile⟩)]

end

section

variable {disk disk' between : Disk} {location : Location} {name : RawText} {content : Content}
  {confirm : Path → Bool} {action : Action}
  (hfree : disk.IsLinkFree) (hlast : location.getLast? = some name)
  (h : Survives disk location content between)

include hfree hlast h

theorem Survives.fill {path : Path} {place : Location} {old new : Content}
    (hpath : path.lastName? ≠ some name) (hstat : between.stat path = .ok (place, .file old)) :
    Survives disk location content (between.set place (.file new)) := by
  obtain ⟨folder, other, hspot, hfind, hplace⟩ := stat_eq_file hstat
  have hfree' := h.ways.isLinkFree hfree
  rw [hplace]
  apply h.set
  . apply waysKept_set (by simp)
    . simp [(find_eq_ok_iff.1 hfind).2]
    . apply hfree'
    . exact fun _ => Entry.noConfusion
  . apply hfree'.place_ne_of_spot hlast hpath hspot

theorem Survives.rename {source target : Path} (hsource : source.lastName? ≠ some name)
    (htarget : target.lastName? ≠ some name) (hrename : between.rename source target = .ok disk') :
    Survives disk location content disk' := by
  obtain ⟨folder, other, folder', other', entry, old, hspot, hspot', hfind, hfind', hentry,
    ⟨_, hdisk⟩ | ⟨hne, hold, hdisk⟩⟩ := rename_eq_ok hrename
  . exact hdisk ▸ h
  . have hfree' := h.ways.isLinkFree hfree
    have hmoved := (find_eq_ok_iff.1 hfind).2
    rw [hdisk]
    constructor
    . apply h.ways.trans
      apply waysKept_move hfree'
      . rw [hmoved]
        exact fun heq => hentry (Option.some.inj heq)
      . rwa [(find_eq_ok_iff.1 hfind').2]
      . exact hne.symm
      . intro destination heq
        exact hfree' _ destination (heq ▸ hmoved)
    . rw [at?_set_of_ne (hfree'.place_ne_of_spot hlast htarget hspot').symm,
        at?_erase_of_ne (hfree'.place_ne_of_spot hlast hsource hspot).symm, h.file]

theorem Survives.perform (haction : action.Spares name) :
    Survives disk location content (action.perform confirm between).2 := by
  cases action with
  | makeFolder path =>
    apply Action.holds_change h
    intro disk' hmake
    have hgrown : Grown (fun _ => True) between disk' := grown_of_makeFolder trivial hmake
    exact ⟨h.ways.trans hgrown.waysKept, hgrown.kept _ _ h.file⟩
  | createFile path =>
    apply Action.holds_change h
    intro disk' hcreate
    obtain ⟨place, hfile, hdisk⟩ := createFile_eq_ok hcreate
    obtain ⟨folder, other, _, hspot, _, _, hplace⟩ := fileSpot_eq_ok hfile
    rw [hdisk]
    apply h.set (waysKept_set_fileSpot hfile _).1
    rw [hplace]
    apply (h.ways.isLinkFree hfree).place_ne_of_spot hlast haction hspot
  | fillFile path text =>
    apply Action.holds_change h
    intro disk' hfill
    obtain ⟨place, old, hstat, hdisk⟩ := fillFile_eq_ok hfill
    rw [hdisk]
    apply h.fill hfree hlast haction hstat
  | rename source target =>
    apply Action.holds_change h
    intro disk' hrename
    apply h.rename hfree hlast haction.1 haction.2 hrename
  | _ => exact h

theorem Survives.halfway (haction : action.Spares name) (hhalfway : action.Halfway between disk') :
    Survives disk location content disk' := by
  cases action with
  | fillFile path text =>
    obtain ⟨place, old, part, hstat, _, hdisk⟩ := hhalfway
    rw [hdisk]
    apply h.fill hfree hlast haction hstat
  | _ => cases hhalfway

theorem Survives.reaches {program rest : Program α} {deeds : List Deed}
    (htakes : program.Takes (Action.Spares name))
    (hreaches : program.Reaches confirm between deeds rest disk') :
    Survives disk location content disk' := by
  refine (hreaches.invariant ?_ ?_ htakes h).1
  . intro action between haction hsurvives
    apply hsurvives.perform hfree hlast haction
  . intro action between disk' haction hsurvives hhalfway
    apply hsurvives.halfway hfree hlast haction hhalfway

end
end Disk

namespace Target

def Avoids (target : Path) (name : RawText) : Prop :=
  target.lastName? ≠ some name ∧ (temporary target).lastName? ≠ some name

section

variable {document source target : Path} {name : RawText} {stem : Text}

theorem lastName?_temporary
    (h : target.lastName? = some (.ofText (stem ++ '.' :: extension.toList))) :
    (temporary target).lastName? = some (.ofText (stem ++ ".d.tmp".toList)) := by
  have hname : RawText.ofText (stem ++ '.' :: extension.toList) =
      .ofText (stem ++ ".d".toList) ++ .char '.' :: raw "ts" := by
    simp [extension, raw]
  have hsplit : Path.splitName (.ofText (stem ++ '.' :: extension.toList)) =
      (.ofText (stem ++ ".d".toList), some (raw "ts")) := by
    rw [hname]
    apply Path.splitName_append
    . simp
    . decide
  have hlength : 5 ≤ (RawText.ofText (stem ++ '.' :: extension.toList)).length := by
    simp [extension]
  have hstem : RawText.ofText (stem ++ ".d".toList) ≠ [.char '.'] := by
    intro heq
    have := congrArg List.length heq
    simp at this
  unfold temporary
  rw [Path.lastName?_withExtension h]
  . rw [hsplit]
    simp [temporaryExtension, raw]
  . intro heq
    rw [heq] at hlength
    exact absurd hlength (by decide)
  . intro heq
    rw [heq] at hlength
    exact absurd hlength (by decide)
  . decide
  . rw [hsplit]
    exact hstem

theorem avoids_of_lastName? (h : target.lastName? = some (.ofText (stem ++ '.' :: extension.toList)))
    (hname : .ofText (stem ++ '.' :: extension.toList) ≠ name)
    (hname' : .ofText (stem ++ ".d.tmp".toList) ≠ name) : Avoids target name := by
  unfold Avoids
  rw [h, lastName?_temporary h]
  exact ⟨fun heq => hname (Option.some.inj heq), fun heq => hname' (Option.some.inj heq)⟩

theorem notMem_slash_of_stem? (document : Path) :
    '/' ∉ (document.stem?.map RawText.shown).getD "index".toList := by
  unfold Path.stem? Path.fileName?
  cases hbackwards : document.backwards with
  | nil => decide
  | cons name before =>
    obtain ⟨silent, hsegments, _, _⟩ := Path.segments_of_backwards hbackwards
    have hmem : name ∈ document.segments := by simp [hsegments]
    have hname := Path.notMem_of_mem_segments hmem
    simp only
    split
    . decide
    . intro hslash
      exact hname (Path.mem_of_mem_stem (RawText.mem_of_mem_shown (by decide) hslash))

theorem lastName?_beside (document : Path) :
    (beside document).lastName? =
      some (.ofText ((document.stem?.map RawText.shown).getD "index".toList ++
        '.' :: extension.toList)) := by
  unfold beside
  apply Path.join_name
  . rw [RawText.mem_ofText, List.mem_append]
    rintro (hmem | hmem)
    . exact notMem_slash_of_stem? document hmem
    . exact absurd hmem (by decide)
  . simp

theorem avoids_beside (h : document.lastName? = some name) (hdot : name ≠ raw ".")
    (hdots : name ≠ raw "..") : Avoids (beside document) name := by
  have hbeside := lastName?_beside document
  rw [Path.stem?_of_lastName? h hdot hdots, Option.map_some, Option.getD_some] at hbeside
  apply avoids_of_lastName? hbeside
  . apply Path.ofText_stem_append_ne
    decide
  . have hdot : '.' ∈ "d.tmp".toList := by decide
    apply Path.ofText_stem_append_ne hdot

theorem avoids_index (h : target.lastName? = some (.ofText (stem ++ '.' :: extension.toList))) :
    Avoids target (raw "index.json") := by
  have hlast : (raw "index.json").getLast? = some (.char 'n') := rfl
  apply avoids_of_lastName? h
  . intro heq
    rw [← heq] at hlast
    simp [extension] at hlast
  . intro heq
    rw [← heq] at hlast
    simp at hlast

end

section

variable {target : Path} {name : RawText} {content : Text} (h : Avoids target name)

include h

theorem spares_replace : (replace target content).Takes (Action.Spares name) := by
  have himp (action : Action) (haction : Prepares target action) : action.Spares name := by
    cases action with
    | createFile path => exact (show path = temporary target from haction) ▸ h.2
    | fillFile path _ => exact (show path = temporary target from haction) ▸ h.2
    | rename => cases haction
    | _ => trivial
  unfold replace
  apply ((takes_makeParents target).imp himp).bind
  intro made
  split
  . trivial
  . apply (takes_writeFile.imp himp).bind
    intro written
    split
    . trivial
    . refine Program.Takes.bind ⟨⟨h.2, h.1⟩, fun _ => trivial⟩ ?_
      intro renamed
      split
      . trivial
      . trivial

theorem spares_publish (outcome : Outcome) :
    (publish target content outcome).Takes (Action.Spares name) := by
  unfold publish
  apply (spares_replace h).bind
  intro replaced
  split
  . trivial
  . exact ⟨trivial, fun _ => trivial⟩

theorem spares_write (overwrite : Overwrite) :
    (write target content overwrite).Takes (Action.Spares name) := by
  unfold write
  refine Program.Takes.bind ⟨trivial, fun _ => trivial⟩ ?_
  intro present
  split
  . have hmay : (mayReplace overwrite target).Takes (Action.Spares name) := by
      cases overwrite with
      | ask => exact ⟨trivial, fun _ => trivial⟩
      | always => trivial
      | never => trivial
    apply hmay.bind
    intro allowed
    split
    . apply spares_publish h
    . exact ⟨trivial, fun _ => trivial⟩
  . apply spares_publish h

end

end Target
end ApiTypings
