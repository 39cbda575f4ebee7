import Mathlib.Logic.Function.Basic
import ApiTypings.Proofs.Run.Replace

/-!
This module contains several writers of one target. They all write to the same file beside it, so
one of them can give its name to a file that another one has just emptied. If each waits for the file
beside the target until no other writer has it, then a reader of the target never finds such a file.
-/

namespace ApiTypings
namespace Program

/-- Several programs run on one disk, one move at a time. A program makes a move only if it may. To
    fill a file it looks for it by its path, where a process would write to the file that it opened.
    This is the same as long as no other program has given that file another name. -/
inductive Interleaves [DecidableEq ι] (confirm : Path → Bool)
    (may : (ι → Program α) → ι → Prop) :
    (ι → Program α) → Disk → (ι → Program α) → Disk → Prop
  | start (programs : ι → Program α) (disk : Disk) :
    Interleaves confirm may programs disk programs disk
  | move {programs rests : ι → Program α} {disk disk' disk'' : Disk} (i : ι)
    {deed : Option Deed} {next : Program α} (hmay : may programs i)
    (first : (programs i).Moves confirm disk deed next disk')
    (later : Interleaves confirm may (Function.update programs i next) disk' rests disk'') :
    Interleaves confirm may programs disk rests disk''

end Program

namespace Target

def proceed (path : Path) (rest : Program (Except Fault Unit)) :
    Except Disk.Fault Unit → Program (Except Fault Unit)
  | .error cause => .done (.error (.unwritable path.shown cause))
  | .ok () => rest

def naming (target : Path) : Program (Except Fault Unit) :=
  .step (.rename (temporary target) target) (proceed target (.done (.ok ())))

def filling (target : Path) (content : Text) : Program (Except Fault Unit) :=
  .step (.fillFile (temporary target) content) (proceed (temporary target) (naming target))

def opening (target : Path) (content : Text) : Program (Except Fault Unit) :=
  .step (.createFile (temporary target)) (proceed (temporary target) (filling target content))

def onceMade (target : Path) (content : Text) : Except Fault Unit → Program (Except Fault Unit)
  | .error fault => .done (.error fault)
  | .ok () => opening target content

def Opens (target : Path) : Program α → Prop
  | .step (.createFile path) _ => path = temporary target
  | _ => False

def HasOpened (target : Path) : Program α → Prop
  | .step (.fillFile path _) _ => path = temporary target
  | .step (.rename source _) _ => source = temporary target
  | _ => False

def WaitsForOthers (target : Path) (writers : ι → Program α) (i : ι) : Prop :=
  Opens target (writers i) → ∀ j, j ≠ i → ¬HasOpened target (writers j)

inductive Stage (target : Path) (content : Text) : Program (Except Fault Unit) → Prop
  | making {program : Program (Except Fault Unit)}
    (h : program.Takes (MakesFolders target.IsBelow)) :
    Stage target content (program.bind (onceMade target content))
  | filling : Stage target content (filling target content)
  | naming : Stage target content (naming target)
  | ended (result : Except Fault Unit) : Stage target content (.done result)

inductive Advances (target : Path) (content : Text) (disk : Disk) :
    Program (Except Fault Unit) → Program (Except Fault Unit) → Disk → Prop
  | make {action : Action} {next : action.Reply → Program (Except Fault Unit)}
    {reply : action.Reply} {disk' : Disk} (haction : MakesFolders target.IsBelow action)
    (hnext : (next reply).Takes (MakesFolders target.IsBelow))
    (hdisk : disk' = disk ∨ ∃ path, target.IsBelow path ∧ disk.makeFolder path = .ok disk') :
    Advances target content disk ((Program.step action next).bind (onceMade target content))
      ((next reply).bind (onceMade target content)) disk'
  | create {disk' : Disk} (hcreate : disk.createFile (temporary target) = .ok disk') :
    Advances target content disk (opening target content) (filling target content) disk'
  | part {disk' : Disk} (hpart : (Action.fillFile (temporary target) content).Halfway disk disk') :
    Advances target content disk (filling target content) (filling target content) disk'
  | fill {disk' : Disk} (hfill : disk.fillFile (temporary target) content = .ok disk') :
    Advances target content disk (filling target content) (naming target) disk'
  | name {disk' : Disk} (hrename : disk.rename (temporary target) target = .ok disk') :
    Advances target content disk (naming target) (.done (.ok ())) disk'
  | fail {action : Action} {next : action.Reply → Program (Except Fault Unit)} (fault : Fault) :
    Advances target content disk (.step action next) (.done (.error fault)) disk

section

variable {confirm : Path → Bool} {disk disk' : Disk} {target : Path} {content : Text}
  {program next : Program (Except Fault Unit)} {deed : Option Deed}

theorem replace_eq_bind (target : Path) (content : Text) :
    replace target content = (makeParents target).bind (onceMade target content) := by
  unfold replace
  show (makeParents target).bind _ = _
  congr 1
  funext made
  cases made with
  | error fault => rfl
  | ok =>
    show Program.step _ _ = Program.step _ _
    congr 1
    funext created
    cases created with
    | error cause => rfl
    | ok =>
      show Program.step _ _ = Program.step _ _
      congr 1
      funext filled
      cases filled with
      | error cause => rfl
      | ok =>
        show Program.step _ _ = Program.step _ _
        congr 1

theorem Stage.replace (target : Path) (content : Text) :
    Stage target content (replace target content) := by
  rw [replace_eq_bind]
  exact .making (makesFolders_makeParents target)

theorem advances_of_change {action : Action} {step : action.Reply → Program (Except Fault Unit)}
    {path : Path} {result : Except Disk.Fault Disk}
    (hmade : ∀ made, result = .ok made →
      Advances target content disk (.step action step) next made) :
    Advances target content disk (.step action step)
      (proceed path next (Action.change disk result).1) (Action.change disk result).2 := by
  cases result with
  | error cause => exact .fail _
  | ok made => exact hmade made rfl

theorem advances_of_opening
    (h : (opening target content).Moves confirm disk deed next disk') :
    Advances target content disk (opening target content) next disk' := by
  cases h with
  | perform => exact advances_of_change fun _ hcreate => .create hcreate
  | refuse _ _ _ fault reply hrefused =>
    cases hrefused
    exact .fail _
  | halfway _ _ _ _ hhalfway => cases hhalfway

theorem advances_of_filling
    (h : (filling target content).Moves confirm disk deed next disk') :
    Advances target content disk (filling target content) next disk' := by
  cases h with
  | perform => exact advances_of_change fun _ hfill => .fill hfill
  | refuse _ _ _ fault reply hrefused =>
    cases hrefused
    exact .fail _
  | halfway _ _ _ _ hhalfway => exact .part hhalfway

theorem advances_of_naming (h : (naming target).Moves confirm disk deed next disk') :
    Advances target content disk (naming target) next disk' := by
  cases h with
  | perform => exact advances_of_change fun _ hrename => .name hrename
  | refuse _ _ _ fault reply hrefused =>
    cases hrefused
    exact .fail _
  | halfway _ _ _ _ hhalfway => cases hhalfway

theorem advances_of_making {action : Action}
    {next : action.Reply → Program (Except Fault Unit)}
    {rest : Program (Except Fault Unit)}
    (htakes : (Program.step action next).Takes (MakesFolders target.IsBelow))
    (h : ((Program.step action next).bind (onceMade target content)).Moves confirm disk deed rest
      disk') :
    Advances target content disk ((Program.step action next).bind (onceMade target content)) rest
      disk' := by
  cases h with
  | perform =>
    refine .make htakes.1 (htakes.2 _) ?_
    cases action with
    | isFolder => exact .inl rfl
    | makeFolder path =>
      have hperform : (Action.makeFolder path).perform confirm disk =
          Action.change disk (disk.makeFolder path) := rfl
      rw [hperform]
      cases hmake : disk.makeFolder path with
      | error => exact .inl rfl
      | ok made => exact .inr ⟨path, htakes.1, hmake⟩
    | _ => cases htakes.1
  | refuse => exact .make htakes.1 (htakes.2 _) (.inl rfl)
  | halfway _ _ _ _ hhalfway =>
    cases action with
    | fillFile => cases htakes.1
    | _ => cases hhalfway

theorem Stage.advances (h : Stage target content program)
    (hmoves : program.Moves confirm disk deed next disk') :
    Advances target content disk program next disk' := by
  cases h with
  | @making program htakes =>
    cases program with
    | done made =>
      cases made with
      | error fault => cases hmoves
      | ok => exact advances_of_opening hmoves
    | step action next => exact advances_of_making htakes hmoves
  | filling => exact advances_of_filling hmoves
  | naming => exact advances_of_naming hmoves
  | ended => cases hmoves

theorem Advances.stage (h : Advances target content disk program next disk') :
    Stage target content next := by
  cases h with
  | make _ hnext => exact .making hnext
  | create => exact .filling
  | part => exact .filling
  | fill => exact .naming
  | name => exact .ended _
  | fail => exact .ended _

theorem Advances.ne_done (h : Advances target content disk program next disk')
    (result : Except Fault Unit) : program ≠ .done result := by
  intro hdone
  cases h <;> cases hdone

theorem bind_onceMade_ne_done (program : Program (Except Fault Unit)) :
    program.bind (onceMade target content) ≠ .done (.ok ()) := by
  intro hdone
  cases program with
  | done made => cases made <;> cases hdone
  | step => cases hdone

theorem not_hasOpened_of_making (htakes : program.Takes (MakesFolders target.IsBelow))
    (content : Text) :
    ¬HasOpened target (program.bind (onceMade target content)) := by
  intro hopened
  cases program with
  | done made => cases made <;> cases hopened
  | step action =>
    cases action with
    | fillFile => cases htakes.1
    | rename => cases htakes.1
    | _ => cases hopened

end

/-- What holds at every moment while several writers of one target wait for one another. -/
structure Coherent (start : Disk) (target : Path) (content : ι → Text)
    (writers : ι → Program (Except Fault Unit)) (disk : Disk) : Prop where
  tree : disk.IsTree
  linkFree : disk.IsLinkFree
  stage : ∀ i, Stage target (content i) (writers i)
  alone : ∀ i j, HasOpened target (writers i) → HasOpened target (writers j) → i = j
  filled : ∀ i, writers i = naming target →
    disk.at? (disk.locate (temporary target)) = some (.file (.text (content i)))
  published :
    (∀ i, writers i ≠ .done (.ok ())) ∧ disk.content? target = start.content? target
      ∨
    ∃ i, writers i = .done (.ok ()) ∧ disk.content? target = some (.text (content i))

section

variable [DecidableEq ι] {start disk disk' : Disk} {target : Path} {content : ι → Text}
  {writers : ι → Program (Except Fault Unit)} {next : Program (Except Fault Unit)} {i : ι}

theorem hasOpened_naming : HasOpened target (naming target) := rfl

theorem hasOpened_filling (text : Text) : HasOpened target (filling target text) := rfl

theorem Coherent.update (h : Coherent start target content writers disk)
    (hdots : raw ".." ∉ target.names) (hkeeps : Keeps disk target disk')
    (hrunning : writers i ≠ .done (.ok ())) (hstage : Stage target (content i) next)
    (hnext : next ≠ .done (.ok ()))
    (halone : HasOpened target next → ∀ j, j ≠ i → ¬HasOpened target (writers j))
    (hfilled : next = naming target →
      disk'.at? (disk.locate (temporary target)) = some (.file (.text (content i))))
    (hothers : ∀ j, j ≠ i → HasOpened target (writers j) →
      ∀ file, disk.at? (disk.locate (temporary target)) = some (.file file) →
        disk'.at? (disk.locate (temporary target)) = some (.file file)) :
    Coherent start target content (Function.update writers i next) disk' := by
  constructor
  . exact hkeeps.tree
  . exact hkeeps.linkFree
  . rw [Function.forall_update_iff writers fun j program => Stage target (content j) program]
    exact ⟨hstage, fun j _ => h.stage j⟩
  . intro j k hj hk
    by_cases hji : j = i
    . by_cases hki : k = i
      . rw [hji, hki]
      . rw [hji, Function.update_self] at hj
        rw [Function.update_of_ne hki] at hk
        exact absurd hk (halone hj k hki)
    . rw [Function.update_of_ne hji] at hj
      by_cases hki : k = i
      . rw [hki, Function.update_self] at hk
        exact absurd hj (halone hk j hji)
      . rw [Function.update_of_ne hki] at hk
        exact h.alone j k hj hk
  . rw [hkeeps.locate_eq, Function.forall_update_iff writers fun j program =>
      program = naming target →
        disk'.at? (disk.locate (temporary target)) = some (.file (.text (content j)))]
    refine ⟨hfilled, ?_⟩
    intro j hne hnaming
    apply hothers j hne (hnaming ▸ hasOpened_naming) _ (h.filled j hnaming)
  . rw [hkeeps.content?_eq h.tree h.linkFree hdots]
    obtain ⟨hnone, hcontent⟩ | ⟨j, hdone, hcontent⟩ := h.published
    . left
      rw [Function.forall_update_iff writers fun _ program => program ≠ .done (.ok ())]
      exact ⟨⟨hnext, fun j _ => hnone j⟩, hcontent⟩
    . right
      have hne : j ≠ i := by
        intro heq
        exact hrunning (heq ▸ hdone)
      exact ⟨j, by rw [Function.update_of_ne hne, hdone], hcontent⟩

theorem Coherent.name (h : Coherent start target content writers disk)
    (hdots : raw ".." ∉ target.names)
    (hextension : target.extension? ≠ some (raw temporaryExtension))
    (hnaming : writers i = naming target)
    (hrename : disk.rename (temporary target) target = .ok disk') :
    Coherent start target content (Function.update writers i (.done (.ok ()))) disk' := by
  have hchange := h.tree.change_of_rename hrename
  have hothers : ∀ j, j ≠ i → ¬HasOpened target (writers j) :=
    fun j hne hj => hne (h.alone j i hj (hnaming ▸ hasOpened_naming))
  constructor
  . exact h.tree.change hchange
  . exact h.linkFree.change hchange
  . rw [Function.forall_update_iff writers fun j program => Stage target (content j) program]
    exact ⟨.ended _, fun j _ => h.stage j⟩
  . -- no writer has opened the file any more
    rw [Function.forall_update_iff writers fun j program => ∀ k, HasOpened target program →
      HasOpened target (Function.update writers i (.done (.ok ())) k) → j = k]
    exact ⟨fun _ hopened => hopened.elim, fun j hne _ hopened => absurd hopened (hothers j hne)⟩
  . rw [Function.forall_update_iff writers fun j program => program = naming target →
      disk'.at? (disk'.locate (temporary target)) = some (.file (.text (content j)))]
    constructor
    . intro hnaming
      cases hnaming
    . intro j hne heq
      exact absurd (heq ▸ hasOpened_naming) (hothers j hne)
  . right
    refine ⟨i, Function.update_self _ _ _, ?_⟩
    apply (Keeps.refl h.tree h.linkFree).content?_of_rename hdots hextension
      (h.filled i hnaming) hrename

theorem Coherent.moves {confirm : Path → Bool} {deed : Option Deed}
    (h : Coherent start target content writers disk) (hdots : raw ".." ∉ target.names)
    (hextension : target.extension? ≠ some (raw temporaryExtension))
    (hwaits : WaitsForOthers target writers i)
    (hmoves : (writers i).Moves confirm disk deed next disk') :
    Coherent start target content (Function.update writers i next) disk' := by
  have hadvances := (h.stage i).advances hmoves
  have hstage := hadvances.stage
  have hrunning := hadvances.ne_done (.ok ())
  have hkeeps : Keeps disk target disk := .refl h.tree h.linkFree
  have hothers (hopened : HasOpened target (writers i)) (j : ι) (hne : j ≠ i) :
      ¬HasOpened target (writers j) := fun hj => hne (h.alone j i hj hopened)
  generalize hprogram : writers i = program at hadvances
  cases hadvances with
  | make haction hnext hdisk =>
    have hnot := not_hasOpened_of_making hnext (content i)
    refine h.update hdots ?_ hrunning hstage (bind_onceMade_ne_done _)
      (fun hopened => absurd hopened hnot) ?_ ?_
    . obtain hsame | ⟨path, _, hmake⟩ := hdisk
      . rw [hsame]
        exact hkeeps
      . exact hkeeps.makeFolder hmake
    . intro hnaming
      exact absurd (hnaming ▸ hasOpened_naming) hnot
    . intro _ _ _ file hfile
      obtain hsame | ⟨path, hpath, hmake⟩ := hdisk
      . rw [hsame]
        exact hfile
      . exact (Disk.grown_of_makeFolder hpath hmake).kept _ _ hfile
  | create hcreate =>
    have hopens : Opens target (writers i) := by
      rw [hprogram]
      rfl
    refine h.update hdots (hkeeps.createFile hdots hextension hcreate) hrunning hstage ?_
      (fun _ => hwaits hopens) ?_ (fun j hne hj => absurd hj (hwaits hopens j hne))
    . intro hdone
      cases hdone
    . intro hnaming
      cases hnaming
  | part hpart =>
    have hopened : HasOpened target (writers i) := hprogram ▸ hasOpened_filling (content i)
    have hprepares : Prepares target (.fillFile (temporary target) (content i)) := rfl
    refine h.update hdots (hkeeps.halfway hdots hextension hprepares hpart) hrunning hstage ?_
      (fun _ => hothers hopened) ?_ (fun j hne hj => absurd hj (hothers hopened j hne))
    . intro hdone
      cases hdone
    . intro hnaming
      cases hnaming
  | fill hfill =>
    have hopened : HasOpened target (writers i) := hprogram ▸ hasOpened_filling (content i)
    have hprepares : Prepares target (.fillFile (temporary target) (content i)) := rfl
    have hkept : Keeps disk target disk' := by
      have hperform := hkeeps.perform hdots hextension confirm hprepares
      simpa only [Action.perform, hfill, Action.change] using hperform
    refine h.update hdots hkept hrunning hstage ?_ (fun _ => hothers hopened)
      (fun _ => at?_of_fillFile hdots hextension h.linkFree hfill)
      (fun j hne hj => absurd hj (hothers hopened j hne))
    intro hdone
    cases hdone
  | name hrename => exact h.name hdots hextension hprogram hrename
  | fail fault =>
    refine h.update hdots hkeeps hrunning hstage ?_ (fun hopened => hopened.elim) ?_
      (fun _ _ _ _ hfile => hfile)
    . intro hdone
      cases hdone
    . intro hnaming
      cases hnaming

theorem Coherent.interleaves {confirm : Path → Bool}
    {writers' : ι → Program (Except Fault Unit)}
    (h : Coherent start target content writers disk) (hdots : raw ".." ∉ target.names)
    (hextension : target.extension? ≠ some (raw temporaryExtension))
    (hruns : Program.Interleaves confirm (WaitsForOthers target) writers disk writers' disk') :
    Coherent start target content writers' disk' := by
  induction hruns with
  | start => exact h
  | move i hwaits first later ih => exact ih (h.moves hdots hextension hwaits first)

end

/-- Several writers replace one target, whatever the order of their moves, but none opens the file
    beside it while another one has it. At every moment a reader finds in the target what was there
    at the start, as long as no writer is done, and after that the whole content of one that is. -/
theorem replace_interleaved [DecidableEq ι] {confirm : Path → Bool} {disk disk' : Disk}
    {target : Path} {content : ι → Text} {writers : ι → Program (Except Fault Unit)}
    (htree : disk.IsTree) (hfree : disk.IsLinkFree) (hdots : raw ".." ∉ target.components.2)
    (hextension : target.extension? ≠ some (raw temporaryExtension))
    (h : Program.Interleaves confirm (WaitsForOthers target)
      (fun i => replace target (content i)) disk writers disk') :
    (∀ i, writers i ≠ .done (.ok ())) ∧ disk'.content? target = disk.content? target
      ∨
    ∃ i, writers i = .done (.ok ()) ∧ disk'.content? target = some (.text (content i)) := by
  rw [Path.components_eq] at hdots
  have hstart : Coherent disk target content (fun i => replace target (content i)) disk := by
    have hnot (i : ι) : ¬HasOpened target (replace target (content i)) := by
      rw [replace_eq_bind]
      exact not_hasOpened_of_making (makesFolders_makeParents target) (content i)
    refine ⟨htree, hfree, fun i => .replace target (content i), ?_, ?_, .inl ⟨?_, rfl⟩⟩
    . exact fun i _ hi => absurd hi (hnot i)
    . exact fun i hnaming => absurd (hnaming ▸ hasOpened_naming) (hnot i)
    . intro i
      rw [replace_eq_bind]
      apply bind_onceMade_ne_done
  exact (hstart.interleaves hdots hextension h).published

def declarations : Path := .ofString "api.d.ts"

def rival (first : Bool) : Text := if first then "one".toList else "two".toList

theorem replace_interleaved_rivals :
    ∃ writers disk',
      Program.Interleaves (fun _ => true) (WaitsForOthers declarations)
        (fun first => replace declarations (rival first)) settled writers disk'
        ∧
      HasOpened declarations (writers false)
        ∧
      disk'.content? declarations = some (.text "one".toList) := by
  have htree : settled.IsTree := by decide
  have hfree : settled.IsLinkFree := by decide
  have hdots : raw ".." ∉ declarations.components.2 := by decide
  have hextension : declarations.extension? ≠ some (raw temporaryExtension) := by decide
  have hfirst : WaitsForOthers declarations
      (fun first => replace declarations (rival first)) true := by
    intro _ other hne
    cases other with
    | false => exact id
    | true => exact absurd rfl hne
  have hsecond (rest : Program (Except Fault Unit)) (programs : Bool → Program (Except Fault Unit))
      (hrest : ¬HasOpened declarations rest) :
      WaitsForOthers declarations (Function.update programs true rest) false := by
    intro _ other hne
    cases other with
    | false => exact absurd rfl hne
    | true => exact hrest
  have hruns : Program.Interleaves (fun _ => true) (WaitsForOthers declarations)
      (fun first => replace declarations (rival first)) settled _ _ :=
    .move true hfirst (.perform _ _ _)
      (.move true (fun hopens => hopens.elim) (.perform _ _ _)
        (.move true (fun hopens => hopens.elim) (.perform _ _ _)
          (.move false (hsecond _ _ id) (.perform _ _ _) (.start _ _))))
  refine ⟨_, _, hruns, rfl, ?_⟩
  obtain ⟨hnone, _⟩ | ⟨first, hdone, hcontent⟩ :=
    replace_interleaved htree hfree hdots hextension hruns
  . exact absurd rfl (hnone true)
  . cases first with
    | false => cases hdone
    | true => exact hcontent

/-- Without waiting, a writer gives its name to the file that the other one has just emptied. -/
theorem replace_interleaved_torn :
    settled.IsTree
      ∧
    settled.IsLinkFree
      ∧
    raw ".." ∉ declarations.components.2
      ∧
    declarations.extension? ≠ some (raw temporaryExtension)
      ∧
    ∃ writers disk',
      Program.Interleaves (fun _ => true) (fun _ _ => True)
        (fun first => replace declarations (rival first)) settled writers disk'
        ∧
      disk'.content? declarations = some (.text [])
        ∧
      disk'.content? declarations ≠ settled.content? declarations
        ∧
      ∀ first, disk'.content? declarations ≠ some (.text (rival first)) := by
  have hruns : Program.Interleaves (fun _ => true) (fun _ _ => True)
      (fun first => replace declarations (rival first)) settled _ _ :=
    .move true trivial (.perform _ _ _)
      (.move true trivial (.perform _ _ _)
        (.move false trivial (.perform _ _ _)
          (.move true trivial (.perform _ _ _) (.start _ _))))
  refine ⟨by decide, by decide, by decide, by decide, _, _, hruns, ?_⟩
  exact ⟨by decide, by decide, by decide⟩

end Target
end ApiTypings
