import ApiTypings.Api.Shape
import ApiTypings.Json.Error
import ApiTypings.Layout
import ApiTypings.Disk.Fault

/-!
This module contains the ways in which a run can fail, and their wording.
-/

namespace ApiTypings

inductive Fault
  | malformed (fault : Api.Fault)
  -- a path is kept as it is shown
  | unreadable (document : Text) (cause : Disk.Fault)
  | unparsable (document : Text) (cause : Json.Error)
  | unwritable (path : Text) (cause : Disk.Fault)
  | template (fault : Layout.Fault)
deriving DecidableEq, Repr

namespace Fault

def cause? : Fault → Option Text
  | .malformed _ => none
  | .unreadable _ cause => some cause.message
  | .unparsable _ cause => some cause.message
  | .unwritable _ cause => some cause.message
  | .template _ => none

def about (phrase : String) (path reason : Text) : Text :=
  phrase.toList ++ " '".toList ++ path ++ "': ".toList ++ reason

def message : Fault → Text
  | .malformed fault => about "Malformed api map at" fault.location fault.reason
  | .unreadable document cause => about "Failed to read apis from" document cause.message
  | .unparsable document cause => about "Failed to parse apis from" document cause.message
  | .unwritable path cause => about "Failed to write output file" path cause.message
  | .template fault => "Invalid indentation template: ".toList ++ fault.message

end Fault

end ApiTypings
