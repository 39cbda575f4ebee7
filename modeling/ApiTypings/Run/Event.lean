import ApiTypings.Run.Fault
import ApiTypings.Run.Options

/-!
This module contains the events of a run that are worth a line in a log.
-/

namespace ApiTypings

inductive Event
  | started (options : Options)
  | reading (document : Path)
  | groupRead (name : Text) (functions : Nat)
  | loadFailed (source : Path) (fault : Fault)
  | generating (groups functions : Nat)
  -- the size is in bytes
  | generated (source target : Path) (size : Nat)
  | asked (target : Path)
  | left (target : Path)
  | wrote (target : Path) (outcome : Outcome)
deriving DecidableEq, Repr

namespace Event

def question? : Event → Option Path
  | .asked target => some target
  | _ => none

end Event

end ApiTypings
