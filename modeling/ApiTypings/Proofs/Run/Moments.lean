import ApiTypings.Run.Program

/-!
This module contains the moments of a run: what another program can find on the disk between two
steps of a program, in the middle of a step that takes time, and after a step that was refused.
-/

namespace ApiTypings

def Text.bytes (t : Text) : List UInt8 := t.flatMap String.utf8EncodeChar

theorem Content.ofBytes_bytes (t : Text) : Content.ofBytes t.bytes = .text t := by
  have hbytes : (⟨t.bytes.toArray⟩ : ByteArray) = t.utf8Encode := by
    unfold List.utf8Encode Text.bytes
    apply ByteArray.ext
    simp
  have htext : String.fromUTF8? t.utf8Encode = some (String.ofList t) := by
    unfold String.fromUTF8?
    rw [dif_pos (.intro t rfl)]
    rfl
  unfold Content.ofBytes
  rw [hbytes, htext]
  exact congrArg Content.text String.toList_ofList

structure Deed where
  action : Action
  reply : action.Reply

namespace Action

/-- The reply to a step that is refused for a reason that does not lie in the entries of the disk,
    such as a full or broken one. -/
def refused (fault : Disk.Fault) : (action : Action) → Option action.Reply
  | .isPresent _ => some false
  | .isFolder _ => some false
  | .readText _ => some (.error fault)
  | .makeFolder _ => some (.error fault)
  | .createFile _ => some (.error fault)
  | .fillFile _ _ => some (.error fault)
  | .rename _ _ => some (.error fault)
  | .ask _ => none
  | .log _ => none

/-- Whether a disk can be found in the middle of a step. Only filling a file takes time: its first
    bytes are there, and the others are not. -/
def Halfway (disk : Disk) : Action → Disk → Prop
  | .fillFile path content, disk' => ∃ location old part,
      disk.stat path = .ok (location, .file old)
        ∧
      part <+: content.bytes
        ∧
      disk' = disk.set location (.file (.ofBytes part))
  | _, _ => False

theorem holds_change {holds : Disk → Prop} {disk : Disk} {result : Except Disk.Fault Disk}
    (hrefused : holds disk) (hmade : ∀ disk', result = .ok disk' → holds disk') :
    holds (change disk result).2 := by
  cases result with
  | error fault => exact hrefused
  | ok disk' => exact hmade disk' rfl

theorem eq_ok_of_change {disk disk' : Disk} {result : Except Disk.Fault Disk}
    (h : (.ok (), disk') = change disk result) : result = .ok disk' := by
  cases result with
  | error fault => cases h
  | ok made =>
    cases h
    rfl

theorem eq_of_change_error {disk disk' : Disk} {result : Except Disk.Fault Disk} {fault : Disk.Fault}
    (h : (.error fault, disk') = change disk result) : disk' = disk := by
  cases result with
  | error fault =>
    cases h
    rfl
  | ok made => cases h

end Action

namespace Program

variable {confirm : Path → Bool}

inductive Moves (confirm : Path → Bool) :
    Program α → Disk → Option Deed → Program α → Disk → Prop
  | perform (action : Action) (next : action.Reply → Program α) (disk : Disk) :
    Moves confirm (.step action next) disk
      (some ⟨action, (action.perform confirm disk).1⟩)
      (next (action.perform confirm disk).1) (action.perform confirm disk).2
  | refuse (action : Action) (next : action.Reply → Program α) (disk : Disk)
    (fault : Disk.Fault) (reply : action.Reply) (h : action.refused fault = some reply) :
    Moves confirm (.step action next) disk (some ⟨action, reply⟩) (next reply) disk
  | halfway (action : Action) (next : action.Reply → Program α) (disk disk' : Disk)
    (h : action.Halfway disk disk') :
    Moves confirm (.step action next) disk none (.step action next) disk'

/-- The moments of a run: the steps that have been made so far, the program that is left and the
    disk. -/
inductive Reaches (confirm : Path → Bool) :
    Program α → Disk → List Deed → Program α → Disk → Prop
  | start (program : Program α) (disk : Disk) : Reaches confirm program disk [] program disk
  | move {program between rest : Program α} {disk disk' disk'' : Disk} {deed : Option Deed}
    {deeds : List Deed} (first : Moves confirm program disk deed between disk')
    (later : Reaches confirm between disk' deeds rest disk'') :
    Reaches confirm program disk (deed.toList ++ deeds) rest disk''

theorem reaches_run (confirm : Path → Bool) (program : Program α) (disk : Disk) :
    ∃ deeds,
      program.Reaches confirm disk deeds (.done (program.run confirm disk).value)
        (program.run confirm disk).disk := by
  induction program generalizing disk with
  | done a => exact ⟨[], .start _ _⟩
  | step action next ih =>
    obtain ⟨deeds, hlater⟩ := ih (action.perform confirm disk).1 (action.perform confirm disk).2
    exact ⟨_, .move (.perform action next disk) hlater⟩

theorem reaches_done {a : α} {disk disk' : Disk} {deeds : List Deed} {rest : Program α}
    (h : (Program.done a).Reaches confirm disk deeds rest disk') :
    deeds = []
      ∧
    rest = .done a
      ∧
    disk' = disk := by
  cases h with
  | start => exact ⟨rfl, rfl, rfl⟩
  | move first => cases first

theorem reaches_bind {program : Program α} {f : α → Program β} {disk disk' : Disk}
    {deeds : List Deed} {rest : Program β}
    (h : (program.bind f).Reaches confirm disk deeds rest disk') :
    (∃ rest',
      program.Reaches confirm disk deeds rest' disk'
        ∧
      rest = rest'.bind f)
      ∨
    (∃ a between deeds' deeds'',
      program.Reaches confirm disk deeds' (.done a) between
        ∧
      (f a).Reaches confirm between deeds'' rest disk'
        ∧
      deeds = deeds' ++ deeds'') := by
  generalize hwhole : program.bind f = whole at h
  -- the induction is on the moves: while the first program has steps left, each move is one of its
  induction h generalizing program with
  | start whole disk =>
    left
    exact ⟨program, .start _ _, hwhole.symm⟩
  | @move whole between rest disk disk' disk'' deed deeds first later ih =>
    cases program with
    | done a =>
      right
      refine ⟨a, disk, [], _, .start _ _, ?_, rfl⟩
      rw [show f a = whole from hwhole]
      exact .move first later
    | step action next =>
      have hstep : Program.step action (fun reply => (next reply).bind f) = whole := hwhole
      have hfirst : ∃ after, (Program.step action next).Moves confirm disk deed after disk'
          ∧ after.bind f = between := by
        rw [← hstep] at first
        cases first with
        | perform => exact ⟨_, .perform _ _ _, rfl⟩
        | refuse _ _ _ fault reply hrefused => exact ⟨_, .refuse _ _ _ fault reply hrefused, rfl⟩
        | halfway _ _ _ _ hhalfway => exact ⟨_, .halfway _ _ _ _ hhalfway, rfl⟩
      obtain ⟨after, hmoves, hafter⟩ := hfirst
      cases ih hafter with
      | inl h =>
        obtain ⟨rest', hreaches, hrest⟩ := h
        exact .inl ⟨rest', .move hmoves hreaches, hrest⟩
      | inr h =>
        obtain ⟨a, disk₁, deeds', deeds'', hreaches, hlater, hdeeds⟩ := h
        refine .inr ⟨a, disk₁, _, deeds'', .move hmoves hreaches, hlater, ?_⟩
        rw [hdeeds, List.append_assoc]

theorem bind_eq_done {program : Program α} {f : α → Program β} {b : β}
    (h : program.bind f = .done b) :
    ∃ a,
      program = .done a
        ∧
      f a = .done b := by
  cases program with
  | done a => exact ⟨a, rfl, h⟩
  | step => cases h

theorem reaches_bind_done {program : Program α} {f : α → Program β} {disk disk' : Disk}
    {deeds : List Deed} {b : β}
    (h : (program.bind f).Reaches confirm disk deeds (.done b) disk') :
    ∃ a between deeds' deeds'',
      program.Reaches confirm disk deeds' (.done a) between
        ∧
      (f a).Reaches confirm between deeds'' (.done b) disk'
        ∧
      deeds = deeds' ++ deeds'' := by
  cases reaches_bind h with
  | inl h =>
    obtain ⟨rest, hreaches, hrest⟩ := h
    obtain ⟨a, hdone, hlast⟩ := bind_eq_done hrest.symm
    exact ⟨a, disk', deeds, [], hdone ▸ hreaches, hlast ▸ .start _ _, (List.append_nil deeds).symm⟩
  | inr h => exact h

theorem reaches_bind_except {program : Program (Except ε Unit)}
    {next : Except ε Unit → Program (Except ε' Unit)}
    {disk disk' : Disk} {deeds : List Deed} {rest : Program (Except ε' Unit)}
    (h : (program.bind next).Reaches confirm disk deeds rest disk')
    (herror : ∀ fault, ∃ fault', next (.error fault) = .done (.error fault')) :
    (∃ rest',
      program.Reaches confirm disk deeds rest' disk'
        ∧
      rest' ≠ .done (.ok ())
        ∧
      rest ≠ .done (.ok ()))
      ∨
    (∃ between deeds' deeds'',
      program.Reaches confirm disk deeds' (.done (.ok ())) between
        ∧
      (next (.ok ())).Reaches confirm between deeds'' rest disk'
        ∧
      deeds = deeds' ++ deeds'') := by
  cases reaches_bind h with
  | inl h =>
    obtain ⟨rest', hreaches, hrest⟩ := h
    by_cases hdone : rest' = .done (.ok ())
    . right
      refine ⟨disk', deeds, [], hdone ▸ hreaches, ?_, (List.append_nil deeds).symm⟩
      rw [hrest, hdone]
      exact .start _ _
    . left
      refine ⟨rest', hreaches, hdone, ?_⟩
      intro hok
      rw [hok] at hrest
      obtain ⟨result, hresult, hnext⟩ := bind_eq_done hrest.symm
      cases result with
      | error fault =>
        obtain ⟨fault', hfault⟩ := herror fault
        rw [hfault] at hnext
        cases hnext
      | ok => exact hdone hresult
  | inr h =>
    obtain ⟨result, between, deeds', deeds'', hreaches, hlater, hdeeds⟩ := h
    cases result with
    | error fault =>
      obtain ⟨fault', hfault⟩ := herror fault
      rw [hfault] at hlater
      obtain ⟨hnone, hrest, hdisk⟩ := reaches_done hlater
      left
      rw [hdeeds, hnone, List.append_nil, hdisk, hrest]
      exact ⟨_, hreaches, by simp, by simp⟩
    | ok => exact .inr ⟨between, deeds', deeds'', hreaches, hlater, hdeeds⟩

theorem reaches_step_done {action : Action} {reply : action.Reply} {disk disk' : Disk}
    {deeds : List Deed}
    (h : (Program.step action .done).Reaches confirm disk deeds (.done reply) disk') :
    ∃ between,
      (Program.step action .done).Reaches confirm disk [] (.step action .done) between
        ∧
      ((reply, disk') = action.perform confirm between
        ∨
      ∃ fault, action.refused fault = some reply ∧ disk' = between) := by
  generalize hprogram : Program.step action .done = program at h
  generalize hrest : Program.done reply = rest at h
  induction h with
  | start =>
    rw [← hrest] at hprogram
    cases hprogram
  | @move program between rest disk disk' disk'' deed deeds first later ih =>
    subst hprogram
    subst hrest
    cases first with
    | perform =>
      obtain ⟨_, hreply, hdisk⟩ := reaches_done later
      cases hreply
      exact ⟨disk, .start _ _, .inl (by rw [hdisk])⟩
    | refuse _ _ _ fault other hrefused =>
      obtain ⟨_, hreply, hdisk⟩ := reaches_done later
      cases hreply
      exact ⟨disk, .start _ _, .inr ⟨fault, hrefused, hdisk⟩⟩
    | halfway _ _ _ _ hhalfway =>
      obtain ⟨between, hreaches, hmade⟩ := ih rfl rfl
      exact ⟨between, .move (.halfway _ _ _ _ hhalfway) hreaches, hmade⟩

theorem reaches_createFile {path : Path} {disk disk' : Disk} {deeds : List Deed}
    {reply : Except Disk.Fault Unit}
    (h : (Program.createFile path).Reaches confirm disk deeds (.done reply) disk') :
    deeds = [⟨.createFile path, reply⟩]
      ∧
    ((reply, disk') = Action.change disk (disk.createFile path)
      ∨
    disk' = disk ∧ ∃ fault, reply = .error fault) := by
  unfold Program.createFile at h
  cases h with
  | move first later =>
    cases first with
    | perform =>
      obtain ⟨hdeeds, hreply, hdisk⟩ := reaches_done later
      cases hreply
      exact ⟨by rw [hdeeds]; rfl, .inl (by rw [hdisk]; rfl)⟩
    | refuse _ _ _ fault other hrefused =>
      obtain ⟨hdeeds, hreply, hdisk⟩ := reaches_done later
      cases hreply
      exact ⟨by rw [hdeeds]; rfl, .inr ⟨hdisk, fault, (Option.some.inj hrefused).symm⟩⟩
    | halfway _ _ _ _ hhalfway => cases hhalfway

theorem reaches_rename {source target : Path} {disk disk' : Disk} {deeds : List Deed}
    {rest : Program (Except Disk.Fault Unit)}
    (h : (Program.rename source target).Reaches confirm disk deeds rest disk') :
    (disk' = disk
      ∧
    ⟨.rename source target, .ok ()⟩ ∉ deeds
      ∧
    rest ≠ .done (.ok ()))
      ∨
    (disk.rename source target = .ok disk'
      ∧
    ⟨.rename source target, .ok ()⟩ ∈ deeds
      ∧
    rest = .done (.ok ())) := by
  unfold Program.rename at h
  cases h with
  | start => exact .inl ⟨rfl, by simp, by simp⟩
  | move first later =>
    cases first with
    | perform =>
      obtain ⟨hdeeds, hrest, hdisk⟩ := reaches_done later
      have hperform : (Action.rename source target).perform confirm disk =
          Action.change disk (disk.rename source target) := rfl
      cases hrename : disk.rename source target with
      | error fault =>
        rw [hdeeds, hrest, hdisk, hperform, hrename]
        exact .inl ⟨rfl, by simp [Action.change], by simp [Action.change]⟩
      | ok made =>
        rw [hdeeds, hrest, hdisk, hperform, hrename]
        exact .inr ⟨rfl, List.mem_singleton.2 rfl, rfl⟩
    | refuse _ _ _ fault reply hrefused =>
      obtain ⟨hdeeds, hrest, hdisk⟩ := reaches_done later
      rw [hdeeds, hrest, hdisk]
      cases hrefused
      exact .inl ⟨rfl, by simp, by simp⟩
    | halfway _ _ _ _ hhalfway => cases hhalfway

def Takes (kind : Action → Prop) : Program α → Prop
  | .done _ => True
  | .step action next => kind action ∧ ∀ reply, (next reply).Takes kind

theorem Takes.bind {kind : Action → Prop} {program : Program α} {f : α → Program β}
    (h : program.Takes kind) (hf : ∀ a, (f a).Takes kind) : (program.bind f).Takes kind := by
  induction program with
  | done a => exact hf a
  | step action next ih => exact ⟨h.1, fun reply => ih reply (h.2 reply)⟩

theorem Takes.imp {kind kind' : Action → Prop} (himp : ∀ action, kind action → kind' action)
    {program : Program α} (h : program.Takes kind) : program.Takes kind' := by
  induction program with
  | done a => trivial
  | step action next ih => exact ⟨himp action h.1, fun reply => ih reply (h.2 reply)⟩

theorem Reaches.invariant {kind : Action → Prop} {holds : Disk → Prop}
    (hperform : ∀ action disk, kind action → holds disk →
      holds (action.perform confirm disk).2)
    (hhalfway : ∀ action disk disk', kind action → holds disk →
      action.Halfway disk disk' → holds disk')
    {program rest : Program α} {disk disk' : Disk} {deeds : List Deed}
    (h : program.Reaches confirm disk deeds rest disk')
    (htakes : program.Takes kind) (hholds : holds disk) :
    holds disk'
      ∧
    ∀ deed ∈ deeds, kind deed.action := by
  induction h with
  | start => exact ⟨hholds, fun _ hmem => by cases hmem⟩
  | move first later ih =>
    cases first with
    | perform =>
      obtain ⟨hlater, hdeeds⟩ := ih (htakes.2 _) (hperform _ _ htakes.1 hholds)
      exact ⟨hlater, List.forall_mem_cons.2 ⟨htakes.1, hdeeds⟩⟩
    | refuse =>
      obtain ⟨hlater, hdeeds⟩ := ih (htakes.2 _) hholds
      exact ⟨hlater, List.forall_mem_cons.2 ⟨htakes.1, hdeeds⟩⟩
    | halfway _ _ _ _ h => exact ih htakes (hhalfway _ _ _ htakes.1 hholds h)

end Program

end ApiTypings
