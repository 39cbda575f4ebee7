import ApiTypings.Proofs.Disk.Lookup
import ApiTypings.Proofs.Run.Effects

/-!
This module contains the proof that a target is replaced at once: whoever reads it while this goes
on finds what was there before or the whole new content, and the new content only from the moment on
when the file beside it was given its name.
-/

namespace ApiTypings
namespace Target

structure Keeps (disk : Disk) (target : Path) (disk' : Disk) : Prop where
  tree : disk'.IsTree
  linkFree : disk'.IsLinkFree
  home : disk'.home = disk.home
  file : ∀ content,
    disk'.at? (disk.locate target) = some (.file content) ↔
      disk.at? (disk.locate target) = some (.file content)

def Prepares (target : Path) : Action → Prop
  | .isFolder _ => True
  | .makeFolder _ => True
  | .createFile path => path = temporary target
  | .fillFile path _ => path = temporary target
  | _ => False

section

variable {disk disk' between : Disk} {target path : Path}

theorem Keeps.refl (htree : disk.IsTree) (hfree : disk.IsLinkFree) : Keeps disk target disk :=
  ⟨htree, hfree, rfl, fun _ => Iff.rfl⟩

theorem Keeps.locate_eq (h : Keeps disk target disk') (path : Path) :
    disk'.locate path = disk.locate path := by
  unfold Disk.locate
  rw [h.home]

theorem Keeps.content?_eq (h : Keeps disk target disk') (htree : disk.IsTree)
    (hfree : disk.IsLinkFree) (hdots : raw ".." ∉ target.names) :
    disk'.content? target = disk.content? target := by
  apply Option.ext
  intro content
  rw [h.linkFree.content?_eq_some_iff h.tree hdots, hfree.content?_eq_some_iff htree hdots,
    h.locate_eq, h.file]

theorem Keeps.change (h : Keeps disk target between) (hchange : between.Change disk')
    (hfile : ∀ content,
      disk'.at? (disk.locate target) = some (.file content) ↔
        between.at? (disk.locate target) = some (.file content)) :
    Keeps disk target disk' := by
  constructor
  . apply h.tree.change hchange
  . apply h.linkFree.change hchange
  . rw [hchange.home_eq, h.home]
  . intro content
    rw [hfile, h.file]

theorem Keeps.makeFolder (h : Keeps disk target between)
    (hmake : between.makeFolder path = .ok disk') : Keeps disk target disk' := by
  apply h.change (h.tree.change_of_makeFolder hmake)
  intro content
  obtain ⟨folder, name, slash, _, hfind, hdisk⟩ := Disk.makeFolder_eq_ok hmake
  rw [hdisk]
  by_cases heq : disk.locate target = folder ++ [name]
  -- the target may be where the folder is made, but then it is not there
  . rw [heq, Disk.at?_set_self (by simp), (Disk.find_eq_ok_iff.1 hfind).2]
    simp
  . rw [Disk.at?_set_of_ne heq]

end

section

variable {disk disk' between : Disk} {target : Path} (hdots : raw ".." ∉ target.names)
  (hextension : target.extension? ≠ some (raw temporaryExtension))

include hdots hextension

theorem spot_temporary {follows : Bool → Bool} {folder : Location} {name : RawText} {slash : Bool}
    (hfree : disk.IsLinkFree)
    (h : disk.spot follows (temporary target) = .ok (.entry folder name slash)) :
    folder ++ [name] = disk.locate (temporary target)
      ∧
    folder ++ [name] ≠ disk.locate target := by
  obtain ⟨hopen, _, _, hplace⟩ := hfree.spot_eq_entry h
  have hslash : RawChar.char '/' ∉ raw temporaryExtension := by decide
  cases Path.withExtension_names hslash (by decide) hdots hextension with
  | inl hends => exact absurd hends hopen
  | inr hnames =>
    obtain ⟨habsolute, above, last, other, htarget, htemporary, hne, hother⟩ := hnames
    have hdots' : raw ".." ∉ (temporary target).names := by
      unfold temporary
      rw [htemporary, List.mem_append, List.mem_singleton]
      rintro (hmem | heq)
      . exact hdots (htarget ▸ List.mem_append_left _ hmem)
      . apply hother heq.symm
    have heq := hplace hdots'
    refine ⟨heq, ?_⟩
    rw [heq]
    unfold Disk.locate temporary
    rw [habsolute, htarget, htemporary]
    intro hsame
    have hlast := List.append_cancel_left (List.append_cancel_left hsame)
    apply hne (List.cons.inj hlast).1

theorem Keeps.createFile (h : Keeps disk target between)
    (hcreate : between.createFile (temporary target) = .ok disk') :
    Keeps disk target disk' := by
  apply h.change (h.tree.change_of_createFile hcreate)
  intro content
  obtain ⟨location, hlocation, hdisk⟩ := Disk.createFile_eq_ok hcreate
  obtain ⟨folder, name, found, hspot, _, _, hplace⟩ := Disk.fileSpot_eq_ok hlocation
  have hne := (spot_temporary hdots hextension h.linkFree hspot).2
  rw [h.locate_eq] at hne
  rw [hdisk, hplace, Disk.at?_set_of_ne hne.symm]

theorem Keeps.fill (h : Keeps disk target between) {location : Location} {old : Content}
    (hstat : between.stat (temporary target) = .ok (location, .file old)) (content : Content) :
    Keeps disk target (between.set location (.file content)) := by
  apply h.change (h.tree.change_of_stat hstat content)
  intro other
  obtain ⟨folder, name, hspot, _, hplace⟩ := Disk.stat_eq_file hstat
  have hne := (spot_temporary hdots hextension h.linkFree hspot).2
  rw [h.locate_eq] at hne
  rw [hplace, Disk.at?_set_of_ne hne.symm]

theorem Keeps.perform (confirm : Path → Bool) {action : Action} (haction : Prepares target action)
    (h : Keeps disk target between) :
    Keeps disk target (action.perform confirm between).2 := by
  cases action with
  | isFolder => exact h
  | makeFolder path => exact Action.holds_change h fun _ hmake => h.makeFolder hmake
  | createFile path =>
    apply Action.holds_change h
    intro disk' hcreate
    rw [show path = temporary target from haction] at hcreate
    apply h.createFile hdots hextension hcreate
  | fillFile path content =>
    apply Action.holds_change h
    intro disk' hfill
    obtain ⟨location, old, hstat, hdisk⟩ := Disk.fillFile_eq_ok hfill
    rw [show path = temporary target from haction] at hstat
    rw [hdisk]
    apply h.fill hdots hextension hstat _
  | _ => cases haction

theorem Keeps.halfway {action : Action} (haction : Prepares target action)
    (h : Keeps disk target between) (hhalfway : action.Halfway between disk') :
    Keeps disk target disk' := by
  cases action with
  | fillFile path content =>
    obtain ⟨location, old, part, hstat, _, hdisk⟩ := hhalfway
    rw [show path = temporary target from haction] at hstat
    rw [hdisk]
    apply h.fill hdots hextension hstat _
  | _ => cases hhalfway

end

section

variable {confirm : Path → Bool} {disk disk' : Disk} {target : Path} {content : Text}
  {deeds : List Deed}

theorem takes_makeParents (path : Path) : (makeParents path).Takes (Prepares target) := by
  apply (makesFolders_makeParents path).imp
  intro action haction
  cases action with
  | isFolder => trivial
  | makeFolder => trivial
  | _ => cases haction

theorem takes_createFile :
    (Program.createFile (temporary target)).Takes (Prepares target) :=
  ⟨rfl, fun _ => trivial⟩

theorem takes_fillFile :
    (Program.fillFile (temporary target) content).Takes (Prepares target) :=
  ⟨rfl, fun _ => trivial⟩

theorem takes_writeFile :
    (writeFile (temporary target) content).Takes (Prepares target) := by
  unfold writeFile
  apply takes_createFile.bind
  intro created
  split
  . trivial
  . apply takes_fillFile.bind
    intro filled
    split
    . trivial
    . trivial

theorem rename_notMem (h : ∀ deed ∈ deeds, Prepares target deed.action) :
    ⟨.rename (temporary target) target, .ok ()⟩ ∉ deeds := by
  intro hmem
  have hkind : Prepares target (.rename (temporary target) target) := h _ hmem
  cases hkind

end

section

variable {confirm : Path → Bool} {disk disk' between : Disk} {target : Path} {content : Text}
  {deeds : List Deed} (hdots : raw ".." ∉ target.names)
  (hextension : target.extension? ≠ some (raw temporaryExtension))

include hdots hextension

theorem Keeps.reaches {program rest : Program α} (h : Keeps disk target between)
    (htakes : program.Takes (Prepares target))
    (hreaches : program.Reaches confirm between deeds rest disk') :
    Keeps disk target disk'
      ∧
    ∀ deed ∈ deeds, Prepares target deed.action := by
  refine hreaches.invariant ?_ ?_ htakes h
  . intro action between haction hkeeps
    apply hkeeps.perform hdots hextension confirm haction
  . intro action between disk' haction hkeeps hhalfway
    apply hkeeps.halfway hdots hextension haction hhalfway

theorem at?_of_fillFile (hfree : disk.IsLinkFree)
    (hfill : disk.fillFile (temporary target) content = .ok disk') :
    disk'.at? (disk.locate (temporary target)) = some (.file (.text content)) := by
  obtain ⟨location, old, hstat, hdisk⟩ := Disk.fillFile_eq_ok hfill
  obtain ⟨folder, name, hspot, _, hplace⟩ := Disk.stat_eq_file hstat
  have heq := (spot_temporary hdots hextension hfree hspot).1
  rw [hdisk, hplace, ← heq, Disk.at?_set_self (by simp)]

theorem Keeps.at?_of_writeFile (h : Keeps disk target between)
    (hreaches : (writeFile (temporary target) content).Reaches confirm between deeds
      (.done (.ok ())) disk') :
    disk'.at? (disk.locate (temporary target)) = some (.file (.text content)) := by
  obtain ⟨_, _, _, hfailed⟩ | ⟨disk₁, _, _, hcreate, hnext, _⟩ :=
    Program.reaches_bind_except hreaches (fun _ => ⟨_, rfl⟩)
  . exact absurd rfl hfailed
  . obtain ⟨h₁, _⟩ := h.reaches hdots hextension takes_createFile hcreate
    obtain ⟨_, _, _, hfailed⟩ | ⟨disk₂, _, _, hfill, hlast, _⟩ :=
      Program.reaches_bind_except hnext (fun _ => ⟨_, rfl⟩)
    . exact absurd rfl hfailed
    . obtain ⟨_, _, hdisk⟩ := Program.reaches_done hlast
      obtain ⟨disk₃, hbefore, hmade | ⟨fault, hrefused, _⟩⟩ := Program.reaches_step_done hfill
      . obtain ⟨h₃, _⟩ := h₁.reaches hdots hextension takes_fillFile hbefore
        rw [hdisk, ← h₃.locate_eq]
        apply at?_of_fillFile hdots hextension h₃.linkFree (Action.eq_ok_of_change hmade)
      . cases hrefused

theorem Keeps.content?_of_rename (h : Keeps disk target between) {entry : Content}
    (htemporary : between.at? (disk.locate (temporary target)) = some (.file entry))
    (hrename : between.rename (temporary target) target = .ok disk') :
    disk'.content? target = some entry := by
  have hchange := h.tree.change_of_rename hrename
  obtain ⟨folder, name, folder', name', moved, old, hsource, htarget, hfind, hfind', _, hmade⟩ :=
    Disk.rename_eq_ok hrename
  obtain ⟨hbeside, hne⟩ := spot_temporary hdots hextension h.linkFree hsource
  obtain ⟨_, hslash, hnames, hplace⟩ := h.linkFree.spot_eq_entry htarget
  have hmoved := (Disk.find_eq_ok_iff.1 hfind).2
  rw [hbeside, h.locate_eq, htemporary, Option.some.injEq] at hmoved
  rw [← hplace hdots] at hne
  obtain ⟨heq, _⟩ | ⟨_, _, hdisk⟩ := hmade
  . exact absurd heq hne
  . rw [(h.linkFree.change hchange).content?_eq_some_iff (h.tree.change hchange) hdots]
    refine ⟨hnames (Disk.find_eq_ok_iff.1 hfind').1, hslash.symm, ?_⟩
    have hlocate : disk'.locate target = between.locate target := by
      unfold Disk.locate
      rw [hchange.home_eq]
    rw [hlocate, ← hplace hdots, hdisk, Disk.at?_set_self (by simp), hmoved]

theorem Keeps.reaches_replace {rest : Program (Except Fault Unit)} (h : Keeps disk target between)
    (hreaches : (replace target content).Reaches confirm between deeds rest disk') :
    (Keeps disk target disk'
      ∧
    ⟨.rename (temporary target) target, .ok ()⟩ ∉ deeds
      ∧
    rest ≠ .done (.ok ()))
      ∨
    (disk'.content? target = some (.text content)
      ∧
    ⟨.rename (temporary target) target, .ok ()⟩ ∈ deeds
      ∧
    rest = .done (.ok ())) := by
  obtain ⟨_, hparents, _, hfailed⟩ | ⟨disk₁, deeds₁, _, hparents, hnext, hdeeds⟩ :=
    Program.reaches_bind_except hreaches (fun _ => ⟨_, rfl⟩)
  . obtain ⟨hkeeps, hkinds⟩ := h.reaches hdots hextension (takes_makeParents target) hparents
    exact .inl ⟨hkeeps, rename_notMem hkinds, hfailed⟩
  . obtain ⟨h₁, hkinds₁⟩ := h.reaches hdots hextension (takes_makeParents target) hparents
    obtain ⟨_, hwrite, _, hfailed⟩ | ⟨disk₂, deeds₂, deeds₃, hwrite, hlast, hdeeds'⟩ :=
      Program.reaches_bind_except hnext (fun _ => ⟨_, rfl⟩)
    . obtain ⟨hkeeps, hkinds⟩ := h₁.reaches hdots hextension takes_writeFile hwrite
      left
      refine ⟨hkeeps, ?_, hfailed⟩
      rw [hdeeds]
      apply rename_notMem (List.forall_mem_append.2 ⟨hkinds₁, hkinds⟩)
    . obtain ⟨h₂, hkinds₂⟩ := h₁.reaches hdots hextension takes_writeFile hwrite
      have htemporary := h₁.at?_of_writeFile hdots hextension hwrite
      have hbefore := rename_notMem (List.forall_mem_append.2 ⟨hkinds₁, hkinds₂⟩)
      rw [hdeeds, hdeeds', ← List.append_assoc, List.mem_append]
      obtain ⟨_, hrename, hnotDone, hfailed⟩ | ⟨disk₃, deeds₄, _, hrename, hend, hdeeds''⟩ :=
        Program.reaches_bind_except hlast (fun _ => ⟨_, rfl⟩)
      -- the name is given at once, so there is nothing between the two
      . obtain ⟨hdisk, hnone, _⟩ | ⟨_, _, hdone⟩ := Program.reaches_rename hrename
        . left
          refine ⟨hdisk ▸ h₂, ?_, hfailed⟩
          rintro (hmem | hmem)
          . apply hbefore hmem
          . apply hnone hmem
        . exact absurd hdone hnotDone
      . obtain ⟨_, _, hnotDone⟩ | ⟨hmade, hmem, _⟩ := Program.reaches_rename hrename
        . exact absurd rfl hnotDone
        . obtain ⟨_, hrest, hdisk⟩ := Program.reaches_done hend
          right
          rw [hdisk, hdeeds'']
          exact ⟨h₂.content?_of_rename hdots hextension htemporary hmade,
            .inr (List.mem_append_left _ hmem), hrest⟩

end

/-- A target is replaced at once. At every moment before the file beside it has been given its name,
    a reader finds in the target what was there at the start, and then the whole new content. So an
    error leaves the target as it was. -/
theorem replace_atomic {confirm : Path → Bool} {disk disk' : Disk} {target : Path} {content : Text}
    {deeds : List Deed} {rest : Program (Except Fault Unit)}
    (htree : disk.IsTree) (hfree : disk.IsLinkFree) (hdots : raw ".." ∉ target.components.2)
    (hextension : target.extension? ≠ some (raw temporaryExtension))
    (hreaches : (replace target content).Reaches confirm disk deeds rest disk') :
    (⟨.rename (temporary target) target, .ok ()⟩ ∉ deeds →
      disk'.content? target = disk.content? target)
      ∧
    (⟨.rename (temporary target) target, .ok ()⟩ ∈ deeds →
      disk'.content? target = some (.text content))
      ∧
    (∀ fault, rest = .done (.error fault) → disk'.content? target = disk.content? target)
      ∧
    (rest = .done (.ok ()) → disk'.content? target = some (.text content)) := by
  rw [Path.components_eq] at hdots
  have hstart : Keeps disk target disk := .refl htree hfree
  obtain ⟨hkeeps, hnot, hfailed⟩ | ⟨hcontent, hmem, hdone⟩ :=
    hstart.reaches_replace hdots hextension hreaches
  . have hsame := hkeeps.content?_eq htree hfree hdots
    exact ⟨fun _ => hsame, fun hmem => absurd hmem hnot, fun _ _ => hsame,
      fun hdone => absurd hdone hfailed⟩
  . refine ⟨fun hnot => absurd hmem hnot, fun _ => hcontent, ?_, fun _ => hcontent⟩
    intro fault herror
    rw [hdone] at herror
    cases herror

def settled : Disk :=
  ⟨[raw "home"],
    [([raw "home"], .folder),
      ([raw "home", raw "api.d.ts"], .file (.text "old".toList))]⟩

theorem replace_atomic_settled :
    (∃ deeds rest disk',
      (replace (.ofString "api.d.ts") "new".toList).Reaches (fun _ => true) settled deeds rest disk'
        ∧
      disk'.at? [raw "home", raw "api.d.tmp"] = some (.file (.ofBytes [110, 101]))
        ∧
      disk'.content? (.ofString "api.d.ts") = some (.text "old".toList))
      ∧
    (∃ deeds disk',
      (replace (.ofString "api.d.ts") "new".toList).Reaches (fun _ => true) settled deeds
        (.done (.ok ())) disk'
        ∧
      disk'.content? (.ofString "api.d.ts") = some (.text "new".toList)) := by
  have htree : settled.IsTree := by decide
  have hfree : settled.IsLinkFree := by decide
  have hdots : raw ".." ∉ (Path.ofString "api.d.ts").components.2 := by decide
  have hextension : (Path.ofString "api.d.ts").extension? ≠ some (raw temporaryExtension) := by
    decide
  constructor
  . have hreaches : (replace (.ofString "api.d.ts") "new".toList).Reaches (fun _ => true) settled
        _ _ _ :=
      .move (.perform (.createFile (.ofString "api.d.tmp")) _ _)
        (.move (.halfway (.fillFile (.ofString "api.d.tmp") "new".toList) _ _ _
          ⟨[raw "home", raw "api.d.tmp"], .text [], [110, 101], rfl, by decide, rfl⟩)
          (.start _ _))
    refine ⟨_, _, _, hreaches, by decide, ?_⟩
    rw [(replace_atomic htree hfree hdots hextension hreaches).1 (by simp)]
    decide
  . obtain ⟨deeds, hreaches⟩ := Program.reaches_run (fun _ => true)
      (replace (.ofString "api.d.ts") "new".toList) settled
    exact ⟨deeds, _, hreaches,
      (replace_atomic htree hfree hdots hextension hreaches).2.2.2 rfl⟩

end Target

end ApiTypings
