import ApiTypings.Proofs.Run.Reading
import ApiTypings.Proofs.Run.Spared

/-!
This module contains the proof that a run leaves the document that it reads as it is, at every moment
and however it ends: the names that it writes to are never the name of the document.
-/

namespace ApiTypings

section

variable {confirm : Path → Bool} {disk disk' : Disk} {source : Path} {deeds : List Deed}

-- a question to the disk may go unanswered, and then a source is taken for no folder

theorem Program.reaches_isFolder {folder : Bool}
    (h : (isFolder source).Reaches confirm disk deeds (.done folder) disk') :
    folder = disk.isFolder source
      ∨
    folder = false := by
  unfold isFolder at h
  obtain hperform | ⟨fault, hrefused⟩ := reaches_isRead h trivial
  . exact .inl hperform
  . exact .inr (Option.some.inj hrefused).symm

theorem Program.reaches_readText {text : Text}
    (h : (readText source).Reaches confirm disk deeds (.done (.ok text)) disk') :
    disk.readText source = .ok text := by
  unfold readText at h
  obtain hperform | ⟨fault, hrefused⟩ := reaches_isRead h trivial
  . exact hperform.symm
  . cases hrefused

theorem Document.reaches_locate {document : Path}
    (h : (locate source).Reaches confirm disk deeds (.done document) disk') :
    document = ((locate source).run confirm disk).value
      ∨
    document = source := by
  obtain ⟨folder, _, _, _, hfolder, hlast, _⟩ := Program.reaches_bind_done h
  obtain ⟨_, hdone, _⟩ := Program.reaches_done hlast
  rw [Program.done.injEq] at hdone
  rw [hdone]
  obtain heq | heq := Program.reaches_isFolder hfolder
  . exact .inl (by rw [heq, run_locate])
  . exact .inr (by rw [heq]; rfl)

theorem Target.reaches_derive {target : Path}
    (h : (derive source).Reaches confirm disk deeds (.done target) disk') :
    target = ((derive source).run confirm disk).value
      ∨
    target = beside source := by
  obtain ⟨folder, _, _, _, hfolder, hlast, _⟩ := Program.reaches_bind_done h
  obtain ⟨_, hdone, _⟩ := Program.reaches_done hlast
  rw [Program.done.injEq] at hdone
  rw [hdone]
  obtain heq | heq := Program.reaches_isFolder hfolder
  . exact .inl (by rw [heq, run_derive])
  . exact .inr (by rw [heq]; rfl)

end

namespace Document

section

variable {confirm : Path → Bool} {disk disk' : Disk} {source : Path} {deeds : List Deed}

theorem readText_of_reaches_read {value : Json.Value}
    (h : (read source).Reaches confirm disk deeds (.done (.ok value)) disk') :
    ∃ text, disk.readText ((locate source).run confirm disk).value = .ok text := by
  obtain ⟨document, disk₁, _, _, hlocate, hnext, _⟩ := Program.reaches_bind_done h
  obtain ⟨_, disk₂, _, _, hlog, hnext', _⟩ := Program.reaches_bind_done hnext
  obtain ⟨result, _, _, _, hread, hlast, _⟩ := Program.reaches_bind_done hnext'
  rw [Program.disk_of_reaches_isRead (Program.isRead_log rfl) hlog,
    Program.disk_of_reaches_isRead (isRead_locate source) hlocate] at hread
  cases result with
  | error cause =>
    obtain ⟨_, hdone, _⟩ := Program.reaches_done hlast
    cases hdone
  | ok text =>
    have htext := Program.reaches_readText hread
    obtain heq | heq := reaches_locate hlocate
    . exact ⟨text, heq ▸ htext⟩
    . rw [heq] at htext
      exact ⟨text, by rw [locate_of_readText htext, htext]⟩

theorem readText_of_reaches_load {apis : ApiMap}
    (h : (load source).Reaches confirm disk deeds (.done (.ok apis)) disk') :
    ∃ text, disk.readText ((locate source).run confirm disk).value = .ok text := by
  obtain ⟨fetched, _, _, _, hfetch, hlast, _⟩ := Program.reaches_bind_done h
  cases fetched with
  | error fault =>
    obtain ⟨_, _, _, _, _, hend, _⟩ := Program.reaches_bind_done hlast
    obtain ⟨_, hdone, _⟩ := Program.reaches_done hend
    cases hdone
  | ok =>
    obtain ⟨value, _, _, _, hread, hlast', _⟩ := Program.reaches_bind_done hfetch
    cases value with
    | error fault =>
      obtain ⟨_, hdone, _⟩ := Program.reaches_done hlast'
      cases hdone
    | ok => exact readText_of_reaches_read hread

end
end Document

namespace Generation

section

variable {confirm : Path → Bool} {disk disk' : Disk} {options : Options} {deeds : List Deed}

theorem readText_of_reaches_codeOf {source : Path} {code : Text}
    (h : (codeOf source).Reaches confirm disk deeds (.done (.ok code)) disk') :
    ∃ text, disk.readText ((Document.locate source).run confirm disk).value = .ok text := by
  obtain ⟨loaded, _, _, _, hload, hlast, _⟩ := Program.reaches_bind_done h
  cases loaded with
  | error fault =>
    obtain ⟨_, hdone, _⟩ := Program.reaches_done hlast
    cases hdone
  | ok => exact Document.readText_of_reaches_load hload

theorem reaches_run_cases {rest : Program (Except Fault Generation)}
    (h : (run options).Reaches confirm disk deeds rest disk') :
    disk' = disk
      ∨
    ∃ text code target deeds',
      disk.readText ((Document.locate options.source).run confirm disk).value = .ok text
        ∧
      (∃ deeds'', (Target.ofOptions options).Reaches confirm disk deeds'' (.done target) disk)
        ∧
      (do
        Program.log (.generated options.source target code.utf8Size)
        deliver options code target : Program _).Reaches confirm disk deeds' rest disk' := by
  obtain ⟨_, hcode, _⟩ | ⟨result, between, deeds₁, deeds₂, hcode, hnext, _⟩ :=
    Program.reaches_bind h
  . exact .inl (Program.disk_of_reaches_isRead (isRead_codeOf _) hcode)
  . have hbetween := Program.disk_of_reaches_isRead (isRead_codeOf _) hcode
    rw [hbetween] at hnext hcode
    cases result with
    | error fault => exact .inl (Program.reaches_done hnext).2.2
    | ok code =>
      obtain ⟨text, htext⟩ := readText_of_reaches_codeOf hcode
      obtain ⟨_, htarget, _⟩ | ⟨target, between', deeds₃, deeds₄, htarget, hlast, _⟩ :=
        Program.reaches_bind hnext
      . exact .inl (Program.disk_of_reaches_isRead (Target.isRead_ofOptions _) htarget)
      . have hbetween' := Program.disk_of_reaches_isRead (Target.isRead_ofOptions _) htarget
        rw [hbetween'] at hlast htarget
        exact .inr ⟨text, code, target, deeds₄, htext, ⟨deeds₃, htarget⟩, hlast⟩

variable {location : Location} {content : Content} {name : RawText}

theorem avoids_target {source target : Path} (hfree : disk.IsLinkFree)
    (hstat : disk.stat ((Document.locate source).run confirm disk).value =
      .ok (location, .file content))
    (htarget : target = ((Target.derive source).run confirm disk).value
      ∨ target = Target.beside source) :
    ∃ name, location.getLast? = some name ∧ Target.Avoids target name := by
  obtain ⟨folder, name, hspot, _, hlocation⟩ := Disk.stat_eq_file hstat
  obtain ⟨hlast, hdot, hdots⟩ := hfree.lastName?_of_spot hspot
  refine ⟨name, by rw [hlocation, List.getLast?_concat], ?_⟩
  rw [Document.run_locate] at hlast
  rw [Target.run_derive] at htarget
  cases hfolder : disk.isFolder source with
  -- the document is the source, and the target is named after it
  | false =>
    rw [hfolder] at hlast htarget
    simp only [Bool.false_eq_true, if_false, or_self] at hlast htarget
    rw [htarget]
    apply Target.avoids_beside hlast hdot hdots
  -- the document has a fixed name, which no declaration file has
  | true =>
    rw [hfolder] at hlast htarget
    simp only [if_true] at hlast htarget
    have hindex : name = raw "index.json" := by
      have hjoin : (source.join Document.indexName).lastName? = some (raw "index.json") :=
        Path.join_name (by decide) (by decide)
      rw [hlast] at hjoin
      exact Option.some.inj hjoin
    rw [hindex]
    obtain heq | heq := htarget
    . rw [heq]
      have hjoin : (source.join (.ofString "index.d.ts")).lastName? =
          some (.ofText ("index".toList ++ '.' :: Target.extension.toList)) :=
        Path.join_name (by decide) (by decide)
      apply Target.avoids_index hjoin
    . rw [heq]
      apply Target.avoids_index (Target.lastName?_beside source)

theorem survives_of_reaches {rest : Program (Except Fault Generation)} (hfree : disk.IsLinkFree)
    (houtput : options.output = none)
    (hstat : disk.stat ((Document.locate options.source).run confirm disk).value =
      .ok (location, .file content))
    (h : (run options).Reaches confirm disk deeds rest disk') :
    disk.Survives location content disk' := by
  have hstart : disk.Survives location content disk := by
    obtain ⟨folder, name, _, hfind, hlocation⟩ := Disk.stat_eq_file hstat
    exact ⟨.refl disk, hlocation ▸ (Disk.find_eq_ok_iff.1 hfind).2⟩
  obtain hsame | ⟨text, code, target, deeds', htext, ⟨deeds'', htarget⟩, hlater⟩ :=
    reaches_run_cases h
  . exact hsame ▸ hstart
  . unfold Target.ofOptions at htarget
    rw [houtput] at htarget
    obtain ⟨name, hlast, havoids⟩ := avoids_target hfree hstat (Target.reaches_derive htarget)
    apply hstart.reaches hfree hlast _ hlater
    refine Program.Takes.bind ⟨trivial, fun _ => trivial⟩ ?_
    intro _
    unfold deliver
    split
    . trivial
    . apply (Target.spares_write havoids options.overwrite).bind
      intro written
      split
      . trivial
      . trivial

theorem content?_of_reaches {rest : Program (Except Fault Generation)} (hfree : disk.IsLinkFree)
    (houtput : options.output = none)
    (h : (run options).Reaches confirm disk deeds rest disk') :
    disk'.content? ((Document.locate options.source).run confirm disk).value =
      disk.content? ((Document.locate options.source).run confirm disk).value := by
  cases hcontent : disk.content? ((Document.locate options.source).run confirm disk).value with
  | some content =>
    obtain ⟨location, hstat⟩ := Disk.content?_eq_some_iff.1 hcontent
    exact (survives_of_reaches hfree houtput hstat h).content?_eq hstat
  | none =>
    -- a document that cannot be read is the end of a run
    obtain hsame | ⟨text, _, _, _, htext, _⟩ := reaches_run_cases h
    . rw [hsame, hcontent]
    . rw [Disk.readText_eq_ok_iff, hcontent] at htext
      cases htext

end

/-- A run without an output of its own leaves the document that it reads as it is, at every moment
    and so at its end, and neither its target nor the file beside that is the document. -/
theorem document_survives {disk : Disk} {options : Options} (hfree : disk.IsLinkFree)
    (houtput : options.output = none) (confirm : Path → Bool) :
    let document := ((Document.locate options.source).run confirm disk).value
    let target := ((Target.derive options.source).run confirm disk).value
    ((run options).run confirm disk).disk.content? document = disk.content? document
      ∧
    ∀ deeds rest disk', (run options).Reaches confirm disk deeds rest disk' →
      disk'.content? document = disk.content? document
        ∧
      ∀ location content, disk.stat document = .ok (location, .file content) →
        ∀ path ∈ [target, Target.temporary target],
          disk'.placeOf? path ≠ some location
            ∧
          ∀ content', disk'.stat path ≠ .ok (location, .file content') := by
  intro document target
  constructor
  . obtain ⟨deeds, hreaches⟩ := Program.reaches_run confirm (run options) disk
    apply content?_of_reaches hfree houtput hreaches
  . intro deeds rest disk' hreaches
    refine ⟨content?_of_reaches hfree houtput hreaches, ?_⟩
    intro location content hstat path hpath
    obtain ⟨name, hlast, havoids⟩ := avoids_target hfree hstat (.inl rfl)
    have hfree' := (survives_of_reaches hfree houtput hstat hreaches).ways.isLinkFree hfree
    have hne : path.lastName? ≠ some name := by
      rw [List.mem_cons, List.mem_singleton] at hpath
      obtain heq | heq := hpath
      . exact heq ▸ havoids.1
      . exact heq ▸ havoids.2
    constructor
    . intro hplace
      obtain ⟨folder, other, slash, hspot, heq⟩ := Disk.spot_of_placeOf? hplace
      exact hfree'.place_ne_of_spot hlast hne hspot heq.symm
    . intro content' hstat'
      obtain ⟨folder, other, hspot, _, heq⟩ := Disk.stat_eq_file hstat'
      exact hfree'.place_ne_of_spot hlast hne hspot heq.symm

def userApi : Text :=
  '{' :: "\"user\":".toList ++ '{' :: "\"info\":".toList ++ '{' :: "\"params\":[\"id\"]".toList ++
    ['}', '}', '}']

def mislabelled : Disk :=
  ⟨[raw "home"],
    [([raw "home"], .folder),
      ([raw "home", raw "api.d.ts"], .file (.text userApi))]⟩

def relabelling : Options := { source := .ofString "./api.d.ts", overwrite := .always }

theorem document_survives_mislabelled :
    mislabelled.IsLinkFree
      ∧
    relabelling.output = none
      ∧
    ((run relabelling).run (fun _ => true) mislabelled).value.toOption.map Generation.outcome =
      some (some .created)
      ∧
    mislabelled.stat (.ofString "./api.d.ts") =
      .ok ([raw "home", raw "api.d.ts"], .file (.text userApi))
      ∧
    ((run relabelling).run (fun _ => true) mislabelled).disk.content? (.ofString "./api.d.ts") =
      mislabelled.content? (.ofString "./api.d.ts")
      ∧
    ((run relabelling).run (fun _ => true) mislabelled).disk.placeOf? (.ofString "./api.d.d.ts") ≠
      some [raw "home", raw "api.d.ts"] := by
  have hfree : mislabelled.IsLinkFree := by decide
  have hstat : mislabelled.stat (.ofString "./api.d.ts") =
      .ok ([raw "home", raw "api.d.ts"], .file (.text userApi)) := rfl
  have houtput : relabelling.output = none := rfl
  obtain ⟨hend, hmoments⟩ := document_survives hfree houtput (fun _ => true)
  obtain ⟨deeds, hreaches⟩ := Program.reaches_run (fun _ => true) (run relabelling) mislabelled
  obtain ⟨_, hother⟩ := hmoments deeds _ _ hreaches
  refine ⟨hfree, houtput, by decide +kernel, hstat, hend, ?_⟩
  exact (hother _ _ hstat (.ofString "./api.d.d.ts") (by decide)).1

end Generation
end ApiTypings
