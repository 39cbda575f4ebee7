import ApiTypings.Proofs.Run.Reading

/-!
This module contains what a write that fails leaves on a disk, at whatever step it fails and for
whatever reason: the folders above the target that were made by then, and the file beside it if that
was opened. What this file holds is a first part of the content, and all of it once it is renamed.
-/

namespace ApiTypings
namespace Target

/-- The file beside a target has been opened on a disk, and some bytes have come to stand in it. -/
structure Begun (made : Disk) (target : Path) (content : Text) (part : List UInt8) (disk : Disk) :
    Prop where
  begins : part <+: content.bytes
  file : ∃ location,
    made.fileSpot (temporary target) = .ok location
      ∧
    disk = made.set location (.file (.ofBytes part))

section

variable {confirm : Path → Bool} {made disk disk' : Disk} {target : Path} {content : Text}
  {part : List UInt8} {deeds : List Deed} {fault : Fault}

theorem begun_of_createFile (h : made.createFile (temporary target) = .ok disk) :
    Begun made target content [] disk := by
  obtain ⟨location, hfile, hdisk⟩ := Disk.createFile_eq_ok h
  exact ⟨List.nil_prefix, location, hfile, hdisk⟩

theorem Begun.set (h : Begun made target content part disk) {location : Location} {old : Content}
    (hstat : disk.stat (temporary target) = .ok (location, .file old)) {part' : List UInt8}
    (hpart : part' <+: content.bytes) :
    Begun made target content part' (disk.set location (.file (.ofBytes part'))) := by
  obtain ⟨_, opened, hfile, hdisk⟩ := h
  have hplace := Disk.stat_set_fileSpot hfile (.ofBytes part)
  rw [← hdisk, hstat, Except.ok.injEq, Prod.mk.injEq] at hplace
  refine ⟨hpart, opened, hfile, ?_⟩
  rw [hplace.1, hdisk, Disk.set_set]

theorem Begun.fillFile (h : Begun made target content part disk)
    (hfill : disk.fillFile (temporary target) content = .ok disk') :
    Begun made target content content.bytes disk' := by
  obtain ⟨location, old, hstat, hdisk⟩ := Disk.fillFile_eq_ok hfill
  rw [hdisk, ← Content.ofBytes_bytes content]
  apply h.set hstat (List.prefix_refl _)

theorem Begun.reaches_fillFile {program rest : Program α}
    (htakes : program.Takes (· = .fillFile (temporary target) content))
    (hreaches : program.Reaches confirm disk deeds rest disk')
    (h : Begun made target content part disk) : ∃ part', Begun made target content part' disk' := by
  refine (@Program.Reaches.invariant _ _ _ (fun disk => ∃ part, Begun made target content part disk)
    ?_ ?_ _ _ _ _ _ hreaches htakes ⟨part, h⟩).1
  . rintro action disk haction ⟨part, h⟩
    subst haction
    exact @Action.holds_change (fun disk => ∃ part, Begun made target content part disk) _ _
      ⟨part, h⟩ fun _ hfill => ⟨_, h.fillFile hfill⟩
  . rintro action disk disk' haction ⟨part, h⟩ hhalfway
    subst haction
    obtain ⟨location, old, part', hstat, hpart, hdisk⟩ := hhalfway
    exact ⟨part', hdisk ▸ h.set hstat hpart⟩

theorem Begun.of_reaches_fillFile {filled : Except Disk.Fault Unit}
    (h : Begun made target content part disk)
    (hreaches : (Program.fillFile (temporary target) content).Reaches confirm disk deeds
      (.done filled) disk') :
    ∃ part',
      Begun made target content part' disk'
        ∧
      (filled = .ok () → part' = content.bytes) := by
  have htakes : (Program.fillFile (temporary target) content).Takes
      (· = .fillFile (temporary target) content) := ⟨rfl, fun _ => trivial⟩
  cases filled with
  | error cause =>
    obtain ⟨part', hbegun⟩ := h.reaches_fillFile htakes hreaches
    exact ⟨part', hbegun, nofun⟩
  | ok =>
    obtain ⟨before, hbefore, hfilled | ⟨_, hrefused, _⟩⟩ := Program.reaches_step_done hreaches
    . obtain ⟨part', hbegun⟩ := h.reaches_fillFile htakes hbefore
      exact ⟨_, hbegun.fillFile (Action.eq_ok_of_change hfilled), fun _ => rfl⟩
    . cases hrefused

theorem begun_of_writeFile {written : Except Fault Unit}
    (h : (writeFile (temporary target) content).Reaches confirm made deeds (.done written) disk) :
    (disk = made ∧ written ≠ .ok ())
      ∨
    (⟨.createFile (temporary target), .ok ()⟩ ∈ deeds
      ∧
    ∃ part,
      Begun made target content part disk
        ∧
      ((∃ cause, written = .error (.unwritable (temporary target).shown cause))
        ∨
      written = .ok () ∧ part = content.bytes)) := by
  obtain ⟨created, between, _, _, hcreate, hnext, hdeeds⟩ := Program.reaches_bind_done h
  obtain ⟨hcreated, hmade⟩ := Program.reaches_createFile hcreate
  cases created with
  | error cause =>
    obtain ⟨_, hdone, hdisk⟩ := Program.reaches_done hnext
    left
    rw [hdisk]
    refine ⟨?_, by cases hdone; nofun⟩
    obtain hmade | ⟨hsame, _⟩ := hmade
    . apply Action.eq_of_change_error hmade
    . exact hsame
  | ok =>
    obtain hmade | ⟨_, _, hrefused⟩ := hmade
    . right
      have hopened : Begun made target content [] between :=
        begun_of_createFile (Action.eq_ok_of_change hmade)
      obtain ⟨filled, disk', _, _, hfill, hlast, _⟩ := Program.reaches_bind_done hnext
      obtain ⟨part, hbegun, hwhole⟩ := hopened.of_reaches_fillFile hfill
      have hmem : ⟨.createFile (temporary target), .ok ()⟩ ∈ deeds := by
        rw [hdeeds, hcreated]
        exact List.mem_append_left _ (List.mem_singleton_self _)
      cases filled with
      | error cause =>
        obtain ⟨_, hdone, hdisk⟩ := Program.reaches_done hlast
        cases hdone
        exact ⟨hmem, part, hdisk ▸ hbegun, .inl ⟨cause, rfl⟩⟩
      | ok =>
        obtain ⟨_, hdone, hdisk⟩ := Program.reaches_done hlast
        cases hdone
        exact ⟨hmem, part, hdisk ▸ hbegun, .inr ⟨rfl, hwhole rfl⟩⟩
    . cases hrefused

theorem grown_of_reaches_makeParents {rest : Program (Except Fault Unit)}
    (h : (makeParents target).Reaches confirm disk deeds rest disk') :
    Disk.Grown target.IsBelow disk disk' := by
  refine (h.invariant (fun _ _ => grown_perform) ?_ (makesFolders_makeParents target)
    (.refl _ disk)).1
  intro action between disk' haction _ hhalfway
  cases action with
  | fillFile => cases haction
  | _ => cases hhalfway

theorem begun_of_replace_error
    (h : (replace target content).Reaches confirm disk deeds (.done (.error fault)) disk') :
    ∃ made,
      Disk.Grown target.IsBelow disk made
        ∧
      (disk' = made
        ∨
      (⟨.createFile (temporary target), .ok ()⟩ ∈ deeds
        ∧
      ∃ part,
        Begun made target content part disk'
          ∧
        ((∃ cause, fault = .unwritable (temporary target).shown cause)
          ∨
        (∃ cause, fault = .unwritable target.shown cause) ∧ part = content.bytes))) := by
  obtain ⟨above, made, _, _, habove, hnext, hdeeds⟩ := Program.reaches_bind_done h
  refine ⟨made, grown_of_reaches_makeParents habove, ?_⟩
  cases above with
  | error cause => exact .inl (Program.reaches_done hnext).2.2
  | ok =>
    obtain ⟨written, between, _, _, hwrite, hlast, hdeeds'⟩ := Program.reaches_bind_done hnext
    obtain ⟨hsame, hfailed⟩ | ⟨hopened, part, hbegun, hwritten⟩ := begun_of_writeFile hwrite
    . cases written with
      | error cause =>
        obtain ⟨_, _, hdisk⟩ := Program.reaches_done hlast
        exact .inl (hdisk.trans hsame)
      | ok => exact absurd rfl hfailed
    . right
      have hmem : ⟨.createFile (temporary target), .ok ()⟩ ∈ deeds := by
        rw [hdeeds, hdeeds']
        exact List.mem_append_right _ (List.mem_append_left _ hopened)
      refine ⟨hmem, part, ?_⟩
      obtain ⟨cause, heq⟩ | ⟨heq, hwhole⟩ := hwritten
      . rw [heq] at hlast
        obtain ⟨_, hdone, hdisk⟩ := Program.reaches_done hlast
        cases hdone
        exact ⟨hdisk ▸ hbegun, .inl ⟨cause, rfl⟩⟩
      . rw [heq] at hlast
        obtain ⟨named, after, _, _, hrename, hend, _⟩ := Program.reaches_bind_done hlast
        cases named with
        | error cause =>
          obtain ⟨_, hdone, hdisk⟩ := Program.reaches_done hend
          cases hdone
          obtain ⟨hkept, _⟩ | ⟨_, _, hnamed⟩ := Program.reaches_rename hrename
          . rw [hdisk, hkept]
            exact ⟨hbegun, .inr ⟨⟨cause, rfl⟩, hwhole⟩⟩
          . cases hnamed
        | ok =>
          obtain ⟨_, hdone, _⟩ := Program.reaches_done hend
          cases hdone

theorem takes_mayReplace (overwrite : Overwrite) :
    (mayReplace overwrite target).Takes (· = .ask target) := by
  cases overwrite with
  | ask => exact ⟨rfl, fun _ => trivial⟩
  | always => trivial
  | never => trivial

theorem disk_of_reaches_mayReplace {overwrite : Overwrite} {rest : Program Bool}
    (h : (mayReplace overwrite target).Reaches confirm disk deeds rest disk') : disk' = disk := by
  refine (h.invariant ?_ ?_ (takes_mayReplace overwrite) rfl).1.symm
  . intro action between haction hbetween
    subst haction
    exact hbetween
  . intro action between disk' haction _ hhalfway
    subst haction
    cases hhalfway

theorem replace_of_publish_error {outcome : Outcome}
    (h : (publish target content outcome).Reaches confirm disk deeds (.done (.error fault)) disk') :
    ∃ deeds',
      (replace target content).Reaches confirm disk deeds' (.done (.error fault)) disk'
        ∧
      deeds' ⊆ deeds := by
  obtain ⟨replaced, between, deeds', _, hreplace, hlast, hdeeds⟩ := Program.reaches_bind_done h
  cases replaced with
  | error cause =>
    obtain ⟨_, hdone, hdisk⟩ := Program.reaches_done hlast
    cases hdone
    rw [hdisk, hdeeds]
    exact ⟨deeds', hreplace, List.subset_append_left _ _⟩
  | ok =>
    obtain ⟨_, _, _, _, _, hend, _⟩ := Program.reaches_bind_done hlast
    obtain ⟨_, hdone, _⟩ := Program.reaches_done hend
    cases hdone

theorem replace_of_write_error {overwrite : Overwrite}
    (h : (write target content overwrite).Reaches confirm disk deeds (.done (.error fault)) disk') :
    ∃ deeds',
      (replace target content).Reaches confirm disk deeds' (.done (.error fault)) disk'
        ∧
      deeds' ⊆ deeds := by
  obtain ⟨present, between, _, _, hpresent, hnext, hdeeds⟩ := Program.reaches_bind_done h
  have hread : (Program.isPresent target).Takes Action.IsRead := ⟨trivial, fun _ => trivial⟩
  rw [Program.disk_of_reaches_isRead hread hpresent] at hnext
  have hsub : ∀ {deeds'' : List Deed}, deeds'' ⊆ _ → deeds'' ⊆ deeds := fun hsub =>
    hdeeds ▸ List.subset_append_of_subset_right _ hsub
  cases present with
  | false =>
    obtain ⟨deeds', hreplace, hmem⟩ := replace_of_publish_error hnext
    exact ⟨deeds', hreplace, hsub hmem⟩
  | true =>
    obtain ⟨allowed, between', _, _, hmay, hlast, hdeeds'⟩ := Program.reaches_bind_done hnext
    rw [disk_of_reaches_mayReplace hmay] at hlast
    cases allowed with
    | true =>
      obtain ⟨deeds', hreplace, hmem⟩ := replace_of_publish_error hlast
      refine ⟨deeds', hreplace, hsub ?_⟩
      rw [hdeeds']
      exact List.subset_append_of_subset_right _ hmem
    | false =>
      obtain ⟨_, _, _, _, _, hend, _⟩ := Program.reaches_bind_done hlast
      obtain ⟨_, hdone, _⟩ := Program.reaches_done hend
      cases hdone

/-- After a write that failed, at most the folders above the target are there that were not there
    before, and if the file beside the target was opened, a first part of the content in that file:
    all of it if only the last step failed. -/
theorem at?_of_write_error {overwrite : Overwrite}
    (h : (write target content overwrite).Reaches confirm disk deeds (.done (.error fault)) disk')
    (location : Location) :
    disk'.at? location = disk.at? location
      ∨
    (disk.at? location = none
      ∧
    disk'.at? location = some .folder
      ∧
    ∃ above, target.IsBelow above ∧ disk'.stat above = .ok (location, .folder))
      ∨
    (⟨.createFile (temporary target), .ok ()⟩ ∈ deeds
      ∧
    (disk.at? location = none ∨ ∃ old, disk.at? location = some (.file old))
      ∧
    ∃ part,
      part <+: content.bytes
        ∧
      disk'.stat (temporary target) = .ok (location, .file (.ofBytes part))
        ∧
      ((∃ cause, fault = .unwritable (temporary target).shown cause)
        ∨
      (∃ cause, fault = .unwritable target.shown cause) ∧ part = content.bytes)) := by
  obtain ⟨deeds', hreplace, hsub⟩ := replace_of_write_error h
  obtain ⟨made, hgrown, hsame | ⟨hopened, part, hbegun, hfault⟩⟩ := begun_of_replace_error hreplace
  . rw [hsame]
    exact (hgrown.at?_cases location).imp_right .inl
  . obtain ⟨hpart, place, hfile, hdisk⟩ := hbegun
    obtain ⟨_, hfolder, hlink⟩ := Disk.at?_of_fileSpot hfile
    have hways := (Disk.waysKept_set_fileSpot hfile (.ofBytes part)).1
    rw [hdisk]
    by_cases heq : location = place
    . right; right
      refine ⟨hsub hopened, ?_, part, hpart, heq ▸ Disk.stat_set_fileSpot hfile _, hfault⟩
      cases hold : disk.at? location with
      | none => exact .inl rfl
      | some entry =>
        have hkept := hgrown.kept location entry hold
        rw [heq] at hkept
        cases entry with
        | file old => exact .inr ⟨old, rfl⟩
        | folder => exact absurd hkept hfolder
        | link destination => exact absurd hkept (hlink destination)
    . rw [Disk.at?_set_of_ne heq]
      cases hgrown.at?_cases location with
      | inl hsame => exact .inl hsame
      | inr hnew =>
        obtain ⟨hold, hnew, above, habove, hstat⟩ := hnew
        exact .inr (.inl ⟨hold, hnew, above, habove, hways.stat_eq_folder hstat⟩)

end

-- a folder stands where a declaration file could be

def blocked : Disk :=
  ⟨[raw "home"],
    [([raw "home"], .folder),
      ([raw "home", raw "api.d.ts"], .folder)]⟩

theorem at?_of_write_error_blocked :
    (∃ deeds disk',
      (write (.ofString "new/api.d.ts/") "code".toList .never).Reaches (fun _ => false) blocked deeds
        (.done (.error (.unwritable "new/api.d.ts/".toList .notFolder))) disk'
        ∧
      disk'.at? [raw "home", raw "new"] = some .folder
        ∧
      disk'.stat (.ofString "new/api.d.tmp") =
        .ok ([raw "home", raw "new", raw "api.d.tmp"], .file (.text "code".toList))
        ∧
      disk'.at? [raw "home", raw "api.d.ts"] = some .folder)
      ∧
    (∃ deeds disk',
      (write (.ofString "my.d.ts") "code".toList .never).Reaches (fun _ => false) blocked deeds
        (.done (.error (.unwritable "my.d.tmp".toList (.other 28)))) disk'
        ∧
      disk'.stat (.ofString "my.d.tmp") =
        .ok ([raw "home", raw "my.d.tmp"], .file (.ofBytes [99, 111]))
        ∧
      disk'.at? [raw "home", raw "api.d.ts"] = some .folder) := by
  constructor
  -- the target is spelled as a folder, so the file beside it cannot be given that name
  . obtain ⟨deeds, hreaches⟩ : ∃ deeds,
        (write (.ofString "new/api.d.ts/") "code".toList .never).Reaches (fun _ => false) blocked
          deeds (.done (.error (.unwritable "new/api.d.ts/".toList .notFolder))) _ :=
      Program.reaches_run _ _ _
    have hleft := at?_of_write_error hreaches
    refine ⟨deeds, _, hreaches, ?_, ?_, ?_⟩
    . obtain hsame | ⟨_, hfolder, _⟩ | ⟨_, _, _, _, hfile, _⟩ := hleft [raw "home", raw "new"]
      . exact absurd hsame (by decide)
      . exact hfolder
      . cases hfile
    . obtain hsame | ⟨_, hfolder, _⟩ | ⟨_, _, part, _, hfile, hfault⟩ :=
        hleft [raw "home", raw "new", raw "api.d.tmp"]
      . exact absurd hsame (by decide)
      . exact absurd hfolder (by decide)
      . obtain ⟨cause, hcause⟩ | ⟨_, hwhole⟩ := hfault
        . exact absurd (Fault.unwritable.inj hcause).1 (by decide)
        . rw [hwhole, Content.ofBytes_bytes] at hfile
          exact hfile
    . obtain hsame | ⟨hnone, _⟩ | ⟨_, hnone | ⟨_, hold⟩, _⟩ := hleft [raw "home", raw "api.d.ts"]
      . exact hsame
      . exact absurd hnone (by decide)
      . exact absurd hnone (by decide)
      . cases hold
  -- no space is left after two bytes
  . have hreaches : (write (.ofString "my.d.ts") "code".toList .never).Reaches (fun _ => false)
        blocked _ (.done (.error (.unwritable "my.d.tmp".toList (.other 28)))) _ :=
      .move (.perform (.isPresent (.ofString "my.d.ts")) _ _)
        (.move (.perform (.createFile (.ofString "my.d.tmp")) _ _)
          (.move (.halfway (.fillFile (.ofString "my.d.tmp") "code".toList) _ _ _
            ⟨[raw "home", raw "my.d.tmp"], .text [], [99, 111], rfl, by decide, rfl⟩)
            (.move (.refuse (.fillFile (.ofString "my.d.tmp") "code".toList) _ _ (.other 28) _ rfl)
              (.start _ _))))
    refine ⟨_, _, hreaches, rfl, ?_⟩
    obtain hsame | ⟨hnone, _⟩ | ⟨_, hnone | ⟨_, hold⟩, _⟩ :=
      at?_of_write_error hreaches [raw "home", raw "api.d.ts"]
    . exact hsame
    . exact absurd hnone (by decide)
    . exact absurd hnone (by decide)
    . cases hold

/-- What was written beside the target stays there if the target cannot be replaced. -/
theorem write_error_leaves_file :
    blocked.IsTree
      ∧
    ((write (.ofString "api.d.ts") "new".toList .always).run (fun _ => true) blocked).value =
      .error (.unwritable "api.d.ts".toList .isFolder)
      ∧
    blocked.at? [raw "home", raw "api.d.tmp"] = none
      ∧
    ((write (.ofString "api.d.ts") "new".toList .always).run (fun _ => true) blocked).disk.at?
        [raw "home", raw "api.d.tmp"] =
      some (.file (.text "new".toList)) :=
  ⟨by decide, rfl, by decide, by decide⟩

end Target
end ApiTypings
