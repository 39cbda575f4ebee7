import ApiTypings.Disk.Operations

/-!
This module contains the ways to set up a disk before anything is run on it, and to list what is on
it after that. They are for whoever tries the programs of this library out: none of these programs
uses them, and nothing is proved about them.
-/

namespace ApiTypings

namespace Disk

def fresh (home : Location) : Disk :=
  ⟨home, (List.range home.length).map fun n => (home.take (n + 1), .folder)⟩

def beginnings (path : Path) : List Path :=
  (List.range path.segments.length).map fun n =>
    Path.build path.anchor (path.segments.take (n + 1))

def ensureFolder (disk : Disk) (path : Path) : Except Fault Disk :=
  if disk.isFolder path then .ok disk else disk.makeFolder path

def putFolder (disk : Disk) (path : Path) : Except Fault Disk :=
  if path.text = [] then .ok disk else (beginnings path).foldlM ensureFolder disk

def putParents (disk : Disk) (path : Path) : Except Fault Disk :=
  match path.parent? with
  | none => .ok disk
  | some parent => putFolder disk parent

def putFile (disk : Disk) (path : Path) (content : Content) : Except Fault Disk := do
  let disk ← putParents disk path
  let location ← disk.fileSpot path
  return disk.set location (.file content)

def putLink (disk : Disk) (path destination : Path) : Except Fault Disk := do
  let disk ← putParents disk path
  match ← disk.spot (fun _ => false) path with
  | .inside _ => .error .entryExists
  | .entry folder name slash =>
    match ← disk.find folder name with
    | some _ => .error .entryExists
    | none =>
      if slash then .error .noEntry else .ok (disk.set (folder ++ [name]) (.link destination))

def prune (disk : Disk) (location : Location) : Disk :=
  { disk with entries := disk.entries.filter fun (other, _) => !location.isPrefixOf other }

def remove (disk : Disk) (path : Path) : Disk :=
  match disk.spot (fun _ => false) path with
  | .ok (.entry folder name _) => disk.prune (folder ++ [name])
  | _ => disk

def listing (disk : Disk) : List (Text × Entry) :=
  let below := disk.entries.filterMap fun (location, entry) =>
    if disk.home.isPrefixOf location ∧ location ≠ disk.home then
      let path := (['/'] : Text).intercalate ((location.drop disk.home.length).map RawText.shown)
      some (if entry = .folder then path ++ ['/'] else path, entry)
    else
      none
  below.mergeSort fun (s, _) (t, _) => Text.le s t

end Disk

end ApiTypings
