import ApiTypings.Disk.Basic
import ApiTypings.Disk.Fault

/-!
This module contains the way from a path to a place on a disk.

The names of a path are followed one by one, from the root or from the working folder. Each name but
the last has to be a folder, or a link that leads to one. A name at the end is where the operations
differ: some follow a link there and others do not.
-/

namespace ApiTypings

namespace Path

structure Route where
  fromRoot : Bool
  names : List RawText
  slash : Bool
deriving DecidableEq, Repr

def route (path : Path) : Route :=
  let parts := List.splitOn (.char '/') path.text
  let names := parts.filter (· ≠ [])
  ⟨path.isAbsolute, names, names ≠ [] ∧ parts.getLast? = some []⟩

end Path

namespace Disk

def maxName : Nat := 255

def maxPath : Nat := 4095

def maxLinks : Nat := 40

def find (disk : Disk) (folder : Location) (name : RawText) : Except Fault (Option Entry) :=
  if maxName < name.size then .error .nameTooLong else .ok (disk.at? (folder ++ [name]))

inductive Spot
  -- to a folder that the path does not end by naming, such as `/` or `..`
  | inside (folder : Location)
  | entry (folder : Location) (name : RawText) (slash : Bool)
deriving DecidableEq, Repr

abbrev Jump := Location → Path → List RawText → Bool → Except Fault Spot

-- whether a link at the end is followed depends on the slash

def descend (disk : Disk) (follows : Bool → Bool) (jump : Jump) (slash : Bool) :
    Location → List RawText → Except Fault Spot
  | folder, [] => .ok (.inside folder)
  | folder, name :: rest =>
    if name = raw "." then
      descend disk follows jump slash folder rest
    else if name = raw ".." then
      descend disk follows jump slash folder.dropLast rest
    else if rest = [] then
      if follows slash then
        match disk.find folder name with
        | .error fault => .error fault
        | .ok (some (.link destination)) => jump folder destination [] slash
        | .ok _ => .ok (.entry folder name slash)
      else
        .ok (.entry folder name slash)
    else
      match disk.find folder name with
      | .error fault => .error fault
      | .ok none => .error .noEntry
      | .ok (some .folder) => descend disk follows jump slash (folder ++ [name]) rest
      | .ok (some (.file _)) => .error .notFolder
      | .ok (some (.link destination)) => jump folder destination rest slash

def walk (disk : Disk) (follows : Bool → Bool) :
    (links : Nat) → (slash : Bool) → Location → List RawText → Except Fault Spot
  | 0 => descend disk follows fun _ _ _ _ => .error .tooManyLinks
  | links + 1 => descend disk follows fun folder destination rest slash =>
    let route := destination.route
    walk disk follows links (if rest = [] then slash || route.slash else slash)
      (if route.fromRoot then [] else folder) (route.names ++ rest)

def spot (disk : Disk) (follows : Bool → Bool) (path : Path) : Except Fault Spot :=
  if .char '\x00' ∈ path.text then
    .error .nullInPath
  else if path.text = [] then
    .error .noEntry
  else if maxPath < path.text.size then
    .error .nameTooLong
  else
    let route := path.route
    walk disk follows maxLinks route.slash (if route.fromRoot then [] else disk.home) route.names

def stat (disk : Disk) (path : Path) : Except Fault (Location × Entry) :=
  match disk.spot (fun _ => true) path with
  | .error fault => .error fault
  | .ok (.inside folder) => .ok (folder, .folder)
  | .ok (.entry folder name slash) =>
    match disk.find folder name with
    | .error fault => .error fault
    | .ok none => .error .noEntry
    | .ok (some (.file content)) =>
      if slash then .error .notFolder else .ok (folder ++ [name], .file content)
    | .ok (some .folder) => .ok (folder ++ [name], .folder)
    | .ok (some (.link _)) => .error .tooManyLinks

end Disk

end ApiTypings
