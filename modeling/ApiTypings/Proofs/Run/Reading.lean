import ApiTypings.Proofs.Disk.Lookup
import ApiTypings.Proofs.Run.Effects
import ApiTypings.Run.Generate

/-!
This module contains the proof that a run only reads the disk until it writes its target: neither the
loading of the source nor the generation of the declarations changes anything.
-/

namespace ApiTypings

def Action.IsRead : Action → Prop
  | .isPresent _ => True
  | .isFolder _ => True
  | .readText _ => True
  | .log event => event.question? = none
  | _ => False

theorem Action.disk_of_isRead {action : Action} (h : action.IsRead) (confirm : Path → Bool)
    (disk : Disk) : (action.perform confirm disk).2 = disk := by
  cases action with
  | makeFolder => cases h
  | createFile => cases h
  | fillFile => cases h
  | rename => cases h
  | _ => rfl

theorem Action.question?_of_isRead {action : Action} (h : action.IsRead) :
    ∀ event ∈ action.events, event.question? = none := by
  cases action with
  | ask => cases h
  | log event => exact List.forall_mem_singleton.2 h
  | _ => simp [events]

namespace Program

theorem disk_of_isRead {program : Program α} (h : program.Takes Action.IsRead)
    (confirm : Path → Bool) (disk : Disk) : (program.run confirm disk).disk = disk := by
  induction program with
  | done a => rfl
  | step action next ih =>
    unfold run
    simp only
    rw [Action.disk_of_isRead h.1, ih _ (h.2 _)]

theorem disk_of_reaches_isRead {program rest : Program α} {confirm : Path → Bool}
    {disk disk' : Disk} {deeds : List Deed} (h : program.Takes Action.IsRead)
    (hreaches : program.Reaches confirm disk deeds rest disk') : disk' = disk := by
  induction hreaches with
  | start => rfl
  | move first later ih =>
    cases first with
    | perform action next disk => rw [ih (h.2 _), Action.disk_of_isRead h.1]
    | refuse => exact ih (h.2 _)
    | halfway action next disk disk' hhalfway =>
      have haction := h.1
      cases action with
      | fillFile => cases haction
      | _ => cases hhalfway

theorem reaches_isRead {action : Action} {confirm : Path → Bool} {disk disk' : Disk}
    {deeds : List Deed} {reply : action.Reply}
    (h : (Program.step action .done).Reaches confirm disk deeds (.done reply) disk')
    (haction : action.IsRead) :
    reply = (action.perform confirm disk).1
      ∨
    ∃ fault, action.refused fault = some reply := by
  obtain ⟨between, hbefore, hmade⟩ := reaches_step_done h
  have hreads : (Program.step action .done).Takes Action.IsRead := ⟨haction, fun _ => trivial⟩
  have hbetween := disk_of_reaches_isRead hreads hbefore
  rw [hbetween] at hmade
  cases hmade with
  | inl hperform => exact .inl (congrArg Prod.fst hperform)
  | inr hrefused =>
    obtain ⟨fault, hrefused, _⟩ := hrefused
    exact .inr ⟨fault, hrefused⟩

theorem question?_of_isRead {program : Program α} (h : program.Takes Action.IsRead)
    (confirm : Path → Bool) (disk : Disk) :
    ∀ event ∈ (program.run confirm disk).events, event.question? = none := by
  induction program generalizing disk with
  | done a => simp
  | step action next ih =>
    unfold run
    simp only [List.forall_mem_append]
    exact ⟨Action.question?_of_isRead h.1, ih _ (h.2 _) _⟩

theorem isRead_log {event : Event} (h : event.question? = none) :
    (log event).Takes Action.IsRead :=
  ⟨h, fun _ => trivial⟩

theorem isRead_logAll {events : List Event} (h : ∀ event ∈ events, event.question? = none) :
    (logAll events).Takes Action.IsRead := by
  induction events with
  | nil => trivial
  | cons event rest ih =>
    rw [List.forall_mem_cons] at h
    exact (isRead_log h.1).bind fun _ => ih h.2

end Program

namespace Document

theorem isRead_locate (source : Path) : (locate source).Takes Action.IsRead := by
  unfold locate
  exact ⟨trivial, fun _ => trivial⟩

theorem isRead_read (source : Path) : (read source).Takes Action.IsRead := by
  unfold read
  apply (isRead_locate source).bind
  intro document
  apply (Program.isRead_log rfl).bind
  intro _
  refine Program.Takes.bind ⟨trivial, fun _ => trivial⟩ ?_
  intro text
  split
  . trivial
  . split
    . trivial
    . trivial

theorem isRead_interpret (value : Json.Value) : (interpret value).Takes Action.IsRead := by
  unfold interpret
  refine Program.Takes.bind (Program.isRead_logAll ?_) ?_
  . intro event hmem
    obtain ⟨group, _, rfl⟩ := List.mem_map.1 hmem
    rfl
  intro _
  split
  . trivial
  . trivial

theorem isRead_fetch (source : Path) : (fetch source).Takes Action.IsRead := by
  unfold fetch
  apply (isRead_read source).bind
  intro value
  split
  . trivial
  . apply isRead_interpret

theorem isRead_load (source : Path) : (load source).Takes Action.IsRead := by
  unfold load
  apply (isRead_fetch source).bind
  intro apis
  split
  . apply (Program.isRead_log rfl).bind
    intro _
    trivial
  . trivial

theorem value_run_read (confirm : Path → Bool) (disk : Disk) (source : Path) :
    ((read source).run confirm disk).value =
      let document := ((locate source).run confirm disk).value
      match disk.readText document with
      | .error cause => .error (.unreadable document.shown cause)
      | .ok text =>
        match Json.parse text with
        | .error cause => .error (.unparsable document.shown cause)
        | .ok value => .ok value := by
  unfold read
  rw [Program.value_run_bind, Program.disk_of_isRead (isRead_locate source),
    Program.value_run_bind, Program.value_run_bind]
  simp only [Program.run_log, Program.run_readText]
  cases disk.readText ((locate source).run confirm disk).value with
  | error cause => rfl
  | ok text =>
    simp only
    cases Json.parse text <;> rfl

theorem value_run_interpret (confirm : Path → Bool) (disk : Disk) (value : Json.Value) :
    ((interpret value).run confirm disk).value =
      match ApiMap.ofJson value with
      | .error fault => .error (.malformed fault)
      | .ok apis => .ok apis := by
  unfold interpret
  rw [Program.value_run_bind]
  cases ApiMap.ofJson value <;> rfl

theorem value_run_fetch (confirm : Path → Bool) (disk : Disk) (source : Path) :
    ((fetch source).run confirm disk).value =
      match ((read source).run confirm disk).value with
      | .error fault => .error fault
      | .ok value => ((interpret value).run confirm disk).value := by
  unfold fetch
  rw [Program.value_run_bind, Program.disk_of_isRead (isRead_read source)]
  cases ((read source).run confirm disk).value <;> rfl

theorem value_run_load (confirm : Path → Bool) (disk : Disk) (source : Path) :
    ((load source).run confirm disk).value = ((fetch source).run confirm disk).value := by
  unfold load
  rw [Program.value_run_bind]
  cases ((fetch source).run confirm disk).value <;> rfl

theorem load_eq_ok_iff {confirm : Path → Bool} {disk : Disk} {source : Path} {apis : ApiMap} :
    ((load source).run confirm disk).value = .ok apis ↔
      ∃ text value,
        disk.readText ((locate source).run confirm disk).value = .ok text
          ∧
        Json.parse text = .ok value
          ∧
        ApiMap.ofJson value = .ok apis := by
  rw [value_run_load, value_run_fetch, value_run_read]
  simp only [value_run_interpret]
  cases disk.readText ((locate source).run confirm disk).value with
  | error cause => simp
  | ok text =>
    cases hparse : Json.parse text with
    | error cause => simp [hparse]
    | ok value => cases hread : ApiMap.ofJson value <;> simp [hparse, hread]

theorem locate_of_readText {confirm : Path → Bool} {disk : Disk} {source : Path} {text : Text}
    (h : disk.readText source = .ok text) :
    ((locate source).run confirm disk).value = source := by
  rw [run_locate, Disk.isFolder_of_readText h]
  rfl

end Document

namespace Target

theorem isRead_ofOptions (options : Options) : (ofOptions options).Takes Action.IsRead := by
  unfold ofOptions
  split
  . trivial
  . unfold derive
    exact ⟨trivial, fun _ => trivial⟩

end Target

namespace Generation

theorem isRead_codeOf (source : Path) : (codeOf source).Takes Action.IsRead := by
  unfold codeOf
  apply (Document.isRead_load source).bind
  intro apis
  split
  . trivial
  . unfold ofApiMap
    apply (Program.isRead_log rfl).bind
    intro _
    split
    . trivial
    . trivial

def writing? (confirm : Path → Bool) (disk : Disk) (options : Options) : Option (Path × Text) :=
  match ((codeOf options.source).run confirm disk).value with
  | .error _ => none
  | .ok code =>
    if options.dryRun then
      none
    else
      some (((Target.ofOptions options).run confirm disk).value, code)

theorem disk_run (confirm : Path → Bool) (disk : Disk) (options : Options) :
    ((run options).run confirm disk).disk =
      match writing? confirm disk options with
      | none => disk
      | some (target, code) =>
        ((Target.write target code options.overwrite).run confirm disk).disk := by
  have hcode := Program.disk_of_isRead (isRead_codeOf options.source) confirm disk
  have htarget := Program.disk_of_isRead (Target.isRead_ofOptions options) confirm disk
  unfold run writing?
  rw [Program.disk_run_bind, hcode]
  cases ((codeOf options.source).run confirm disk).value with
  | error fault => rfl
  | ok code =>
    simp only
    rw [Program.disk_run_bind, htarget, Program.disk_run_bind, Program.run_log]
    unfold deliver
    cases options.dryRun with
    | true => rfl
    | false =>
      simp only [Bool.false_eq_true, if_false]
      rw [Program.disk_run_bind]
      cases ((Target.write ((Target.ofOptions options).run confirm disk).value code
        options.overwrite).run confirm disk).value <;> rfl

theorem value_run (confirm : Path → Bool) (disk : Disk) (options : Options) :
    ((run options).run confirm disk).value =
      match ((codeOf options.source).run confirm disk).value with
      | .error fault => .error fault
      | .ok code =>
        let target := ((Target.ofOptions options).run confirm disk).value
        if options.dryRun then
          .ok ⟨code, target, none⟩
        else
          match ((Target.write target code options.overwrite).run confirm disk).value with
          | .error fault => .error fault
          | .ok outcome => .ok ⟨code, target, some outcome⟩ := by
  have hcode := Program.disk_of_isRead (isRead_codeOf options.source) confirm disk
  have htarget := Program.disk_of_isRead (Target.isRead_ofOptions options) confirm disk
  unfold run
  rw [Program.value_run_bind, hcode]
  cases ((codeOf options.source).run confirm disk).value with
  | error fault => rfl
  | ok code =>
    simp only
    rw [Program.value_run_bind, htarget, Program.value_run_bind, Program.run_log]
    unfold deliver
    cases options.dryRun with
    | true => rfl
    | false =>
      simp only [Bool.false_eq_true, if_false]
      rw [Program.value_run_bind]
      cases ((Target.write ((Target.ofOptions options).run confirm disk).value code
        options.overwrite).run confirm disk).value <;> rfl

section

variable {confirm : Path → Bool} {disk : Disk} {options : Options} {fault : Fault}
  {generation : Generation} {code : Text}

theorem run_eq_error_iff :
    ((run options).run confirm disk).value = .error fault ↔
      ((codeOf options.source).run confirm disk).value = .error fault
        ∨
      (options.dryRun = false
        ∧
      ∃ code,
        ((codeOf options.source).run confirm disk).value = .ok code
          ∧
        ((Target.write ((Target.ofOptions options).run confirm disk).value code
          options.overwrite).run confirm disk).value = .error fault) := by
  rw [value_run]
  cases ((codeOf options.source).run confirm disk).value with
  | error cause => simp
  | ok code =>
    cases options.dryRun with
    | true => simp
    | false =>
      simp only [Bool.false_eq_true, if_false, Except.ok.injEq, exists_eq_left', true_and,
        reduceCtorEq, false_or]
      cases ((Target.write ((Target.ofOptions options).run confirm disk).value code
        options.overwrite).run confirm disk).value <;> simp

theorem run_eq_ok_iff :
    ((run options).run confirm disk).value = .ok generation ↔
      ((codeOf options.source).run confirm disk).value = .ok generation.code
        ∧
      generation.target = ((Target.ofOptions options).run confirm disk).value
        ∧
      if options.dryRun then
        generation.outcome = none
      else
        ∃ outcome,
          generation.outcome = some outcome
            ∧
          ((Target.write generation.target generation.code options.overwrite).run confirm
            disk).value = .ok outcome := by
  obtain ⟨code, target, outcome⟩ := generation
  rw [value_run]
  cases ((codeOf options.source).run confirm disk).value with
  | error cause => simp
  | ok code' =>
    simp only [Except.ok.injEq]
    constructor
    . intro h
      split at h
      . next hdry =>
        cases h
        rw [if_pos hdry]
        exact ⟨rfl, rfl, rfl⟩
      . next hdry =>
        split at h
        . cases h
        . next outcome' hwrite =>
          cases h
          rw [if_neg hdry]
          exact ⟨rfl, rfl, outcome', rfl, hwrite⟩
    . rintro ⟨rfl, rfl, h⟩
      split at h
      . next hdry => rw [if_pos hdry, h]
      . next hdry =>
        obtain ⟨outcome', rfl, hwrite⟩ := h
        rw [if_neg hdry, hwrite]

theorem disk_run_of_error
    (hcode : ((codeOf options.source).run confirm disk).value = .error fault) :
    ((run options).run confirm disk).disk = disk := by
  rw [disk_run]
  unfold writing?
  rw [hcode]

theorem disk_run_of_ok (hcode : ((codeOf options.source).run confirm disk).value = .ok code)
    (hdry : options.dryRun = false) :
    ((run options).run confirm disk).disk =
      ((Target.write ((Target.ofOptions options).run confirm disk).value code
        options.overwrite).run confirm disk).disk := by
  rw [disk_run]
  unfold writing?
  rw [hcode, hdry]
  rfl

theorem write_of_outcome {outcome : Outcome}
    (h : ((run options).run confirm disk).value = .ok generation)
    (houtcome : generation.outcome = some outcome) :
    ((Target.write generation.target generation.code options.overwrite).run confirm disk).value =
      .ok outcome
      ∧
    ((run options).run confirm disk).disk =
      ((Target.write generation.target generation.code options.overwrite).run confirm
        disk).disk := by
  obtain ⟨hcode, htarget, hend⟩ := run_eq_ok_iff.1 h
  cases hdry : options.dryRun with
  | true =>
    rw [hdry, if_pos rfl, houtcome] at hend
    cases hend
  | false =>
    rw [hdry, if_neg Bool.false_ne_true] at hend
    obtain ⟨_, hsame, hwrite⟩ := hend
    rw [houtcome, Option.some.injEq] at hsame
    rw [hsame, disk_run_of_ok hcode hdry, ← htarget]
    exact ⟨hwrite, rfl⟩

end

theorem value_run_codeOf (confirm : Path → Bool) (disk : Disk) (source : Path) :
    ((codeOf source).run confirm disk).value =
      match ((Document.load source).run confirm disk).value with
      | .error fault => .error fault
      | .ok apis =>
        match Declaration.ofApiMap apis with
        | .error fault => .error (.template fault)
        | .ok code => .ok code := by
  unfold codeOf
  rw [Program.value_run_bind, Program.disk_of_isRead (Document.isRead_load source)]
  cases ((Document.load source).run confirm disk).value with
  | error fault => rfl
  | ok apis =>
    simp only
    unfold ofApiMap
    rw [Program.value_run_bind]
    cases Declaration.ofApiMap apis <;> rfl

theorem document_of_codeOf {confirm : Path → Bool} {disk : Disk} {source : Path} {code : Text}
    (h : ((codeOf source).run confirm disk).value = .ok code) :
    ∃ text value apis,
      disk.readText ((Document.locate source).run confirm disk).value = .ok text
        ∧
      Json.parse text = .ok value
        ∧
      ApiMap.ofJson value = .ok apis
        ∧
      Declaration.ofApiMap apis = .ok code := by
  rw [value_run_codeOf] at h
  split at h
  . cases h
  . next apis hload =>
    split at h
    . cases h
    . next hcode =>
      obtain ⟨text, value, hread, hparse, hshape⟩ := Document.load_eq_ok_iff.1 hload
      rw [Except.ok.inj h] at hcode
      exact ⟨text, value, apis, hread, hparse, hshape, hcode⟩

theorem value_run_codeOf_congr {confirm confirm' : Path → Bool} {disk disk' : Disk} {source : Path}
    (hlocate : ((Document.locate source).run confirm' disk').value =
      ((Document.locate source).run confirm disk).value)
    (hread : disk'.readText ((Document.locate source).run confirm disk).value =
      disk.readText ((Document.locate source).run confirm disk).value) :
    ((codeOf source).run confirm' disk').value = ((codeOf source).run confirm disk).value := by
  have hfetch : ((Document.fetch source).run confirm' disk').value =
      ((Document.fetch source).run confirm disk).value := by
    rw [Document.value_run_fetch, Document.value_run_fetch, Document.value_run_read,
      Document.value_run_read, hlocate]
    simp only [hread, Document.value_run_interpret]
  rw [value_run_codeOf, value_run_codeOf, Document.value_run_load, Document.value_run_load, hfetch]

end Generation
end ApiTypings
