import ApiTypings.Text.Basic

/-!
This module contains the ways in which a disk refuses an operation, with their numbers and wording.
-/

namespace ApiTypings

namespace Disk

inductive Fault
  | noEntry
  | busy
  | entryExists
  | notFolder
  | isFolder
  | nameTooLong
  | tooManyLinks
  -- a path holds the null character, which ends paths
  | nullInPath
  | notText
  -- any other refusal, by its number; a modelled disk gives none
  | other (number : Nat)
deriving DecidableEq, Repr

namespace Fault

def numbered (wording : String) (number : Nat) : Text :=
  wording.toList ++ " (os error ".toList ++ Text.ofNat number ++ ")".toList

def message : Fault → Text
  | .noEntry => numbered "No such file or directory" 2
  | .busy => numbered "Device or resource busy" 16
  | .entryExists => numbered "File exists" 17
  | .notFolder => numbered "Not a directory" 20
  | .isFolder => numbered "Is a directory" 21
  | .nameTooLong => numbered "File name too long" 36
  | .tooManyLinks => numbered "Too many levels of symbolic links" 40
  | .nullInPath => "file name contained an unexpected NUL byte".toList
  | .notText => "stream did not contain valid UTF-8".toList
  | .other number => numbered "Operation failed" number

end Fault

end Disk

end ApiTypings
