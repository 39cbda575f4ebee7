import ApiTypings.Run.Event
import ApiTypings.Disk.Operations

/-!
This module contains programs that act on a disk.

An action is one step: a question to the disk, a change of it, a question to the user, or a line for
the log. A program is an action and what follows each reply to it. So the states between the steps
of a program, and the ways to interleave two programs, are there to be spoken about, and one program
can be run on a modelled disk and on a real one.
-/

namespace ApiTypings

inductive Action
  | isPresent (path : Path)
  | isFolder (path : Path)
  | readText (path : Path)
  | makeFolder (path : Path)
  | createFile (path : Path)
  -- while this goes on, any first part of the text can be found in the file
  | fillFile (path : Path) (content : Text)
  | rename (source target : Path)
  | ask (target : Path)
  | log (event : Event)
deriving DecidableEq, Repr

namespace Action

abbrev Reply : Action → Type
  | .isPresent _ => Bool
  | .isFolder _ => Bool
  | .readText _ => Except Disk.Fault Text
  | .makeFolder _ => Except Disk.Fault Unit
  | .createFile _ => Except Disk.Fault Unit
  | .fillFile _ _ => Except Disk.Fault Unit
  | .rename _ _ => Except Disk.Fault Unit
  | .ask _ => Bool
  | .log _ => Unit

def change (disk : Disk) : Except Disk.Fault Disk → Except Disk.Fault Unit × Disk
  | .error fault => (.error fault, disk)
  | .ok disk => (.ok (), disk)

def perform (confirm : Path → Bool) (disk : Disk) : (action : Action) → action.Reply × Disk
  | .isPresent path => (disk.isPresent path, disk)
  | .isFolder path => (disk.isFolder path, disk)
  | .readText path => (disk.readText path, disk)
  | .makeFolder path => change disk (disk.makeFolder path)
  | .createFile path => change disk (disk.createFile path)
  | .fillFile path content => change disk (disk.fillFile path content)
  | .rename source target => change disk (disk.rename source target)
  | .ask target => (confirm target, disk)
  | .log _ => ((), disk)

def events : Action → List Event
  | .ask target => [.asked target]
  | .log event => [event]
  | _ => []

end Action

inductive Program (α : Type) : Type
  | done (result : α)
  | step (action : Action) (next : action.Reply → Program α)

structure Result (α : Type) where
  value : α
  disk : Disk
  events : List Event
deriving Repr

namespace Program

def bind : Program α → (α → Program β) → Program β
  | .done a, f => f a
  | .step action next, f => .step action fun reply => (next reply).bind f

instance : Monad Program where
  pure := .done
  bind := .bind

def isPresent (path : Path) : Program Bool := .step (.isPresent path) .done

def isFolder (path : Path) : Program Bool := .step (.isFolder path) .done

def readText (path : Path) : Program (Except Disk.Fault Text) := .step (.readText path) .done

def makeFolder (path : Path) : Program (Except Disk.Fault Unit) := .step (.makeFolder path) .done

def createFile (path : Path) : Program (Except Disk.Fault Unit) := .step (.createFile path) .done

def fillFile (path : Path) (content : Text) : Program (Except Disk.Fault Unit) :=
  .step (.fillFile path content) .done

def rename (source target : Path) : Program (Except Disk.Fault Unit) :=
  .step (.rename source target) .done

def ask (target : Path) : Program Bool := .step (.ask target) .done

def log (event : Event) : Program Unit := .step (.log event) .done

def logAll : List Event → Program Unit
  | [] => .done ()
  | event :: rest => .bind (log event) fun _ => logAll rest

def run (confirm : Path → Bool) : Program α → Disk → Result α
  | .done a, disk => ⟨a, disk, []⟩
  | .step action next, disk =>
    let performed := action.perform confirm disk
    let result := (next performed.1).run confirm performed.2
    { result with events := action.events ++ result.events }

@[simp]
theorem run_done (confirm : Path → Bool) (a : α) (disk : Disk) :
    (Program.done a).run confirm disk = ⟨a, disk, []⟩ := rfl

@[simp]
theorem run_pure (confirm : Path → Bool) (a : α) (disk : Disk) :
    (pure a : Program α).run confirm disk = ⟨a, disk, []⟩ := rfl

theorem run_bind (confirm : Path → Bool) (p : Program α) (f : α → Program β) (disk : Disk) :
    (p >>= f).run confirm disk =
      let first := p.run confirm disk
      let second := (f first.value).run confirm first.disk
      { second with events := first.events ++ second.events } := by
  show (p.bind f).run confirm disk = _
  induction p generalizing disk with
  | done a => simp [bind]
  | step action next ih => simp [bind, run, ih]

section

variable (confirm : Path → Bool) (disk : Disk)

@[simp]
theorem run_isPresent (path : Path) :
    (isPresent path).run confirm disk = ⟨disk.isPresent path, disk, []⟩ := rfl

@[simp]
theorem run_isFolder (path : Path) :
    (isFolder path).run confirm disk = ⟨disk.isFolder path, disk, []⟩ := rfl

@[simp]
theorem run_readText (path : Path) :
    (readText path).run confirm disk = ⟨disk.readText path, disk, []⟩ := rfl

@[simp]
theorem run_makeFolder (path : Path) :
    (makeFolder path).run confirm disk =
      ⟨(Action.change disk (disk.makeFolder path)).1,
        (Action.change disk (disk.makeFolder path)).2, []⟩ := rfl

@[simp]
theorem run_createFile (path : Path) :
    (createFile path).run confirm disk =
      ⟨(Action.change disk (disk.createFile path)).1,
        (Action.change disk (disk.createFile path)).2, []⟩ := rfl

@[simp]
theorem run_fillFile (path : Path) (content : Text) :
    (fillFile path content).run confirm disk =
      ⟨(Action.change disk (disk.fillFile path content)).1,
        (Action.change disk (disk.fillFile path content)).2, []⟩ := rfl

@[simp]
theorem run_rename (source target : Path) :
    (rename source target).run confirm disk =
      ⟨(Action.change disk (disk.rename source target)).1,
        (Action.change disk (disk.rename source target)).2, []⟩ := rfl

@[simp]
theorem run_ask (target : Path) :
    (ask target).run confirm disk = ⟨confirm target, disk, [.asked target]⟩ := rfl

@[simp]
theorem run_log (event : Event) : (log event).run confirm disk = ⟨(), disk, [event]⟩ := rfl

@[simp]
theorem run_logAll (events : List Event) :
    (logAll events).run confirm disk = ⟨(), disk, events⟩ := by
  induction events with
  | nil => rfl
  | cons event rest ih =>
    simp [logAll, log, bind, run, ih, Action.perform, Action.events]

end

end Program

namespace Result

def asked? (result : Result α) : Option Path := result.events.findSome? Event.question?

end Result

end ApiTypings
