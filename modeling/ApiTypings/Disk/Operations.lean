import ApiTypings.Disk.Resolve

/-!
This module contains the operations of a disk. Each is one step: it either does what it is for or
leaves the disk as it was.
-/

namespace ApiTypings

namespace Disk

def isPresent (disk : Disk) (path : Path) : Bool :=
  match disk.stat path with
  | .ok _ => true
  | .error _ => false

def isFolder (disk : Disk) (path : Path) : Bool :=
  match disk.stat path with
  | .ok (_, .folder) => true
  | _ => false

def readText (disk : Disk) (path : Path) : Except Fault Text :=
  match disk.stat path with
  | .error fault => .error fault
  | .ok (_, .file (.text t)) => .ok t
  | .ok (_, .file (.binary _)) => .error .notText
  | .ok (_, .folder) => .error .isFolder
  | .ok (_, .link _) => .error .tooManyLinks

def makeFolder (disk : Disk) (path : Path) : Except Fault Disk :=
  match disk.spot (fun _ => false) path with
  | .error fault => .error fault
  | .ok (.inside _) => .error .entryExists
  | .ok (.entry folder name _) =>
    match disk.find folder name with
    | .error fault => .error fault
    | .ok (some _) => .error .entryExists
    | .ok none => .ok (disk.set (folder ++ [name]) .folder)

/-- The place of the file that is opened for writing, whether it is there or not. A link at the end
    of the path is followed even if nothing is at its destination, and a slash there means that a
    folder is asked for. -/
def fileSpot (disk : Disk) (path : Path) : Except Fault Location :=
  match disk.spot (fun slash => !slash) path with
  | .error fault => .error fault
  | .ok (.inside _) => .error .isFolder
  | .ok (.entry folder name slash) =>
    if slash then
      .error .isFolder
    else
      match disk.find folder name with
      | .error fault => .error fault
      | .ok (some .folder) => .error .isFolder
      | .ok (some (.link _)) => .error .tooManyLinks
      | .ok _ => .ok (folder ++ [name])

def createFile (disk : Disk) (path : Path) : Except Fault Disk :=
  match disk.fileSpot path with
  | .error fault => .error fault
  | .ok location => .ok (disk.set location (.file (.text [])))

def fillFile (disk : Disk) (path : Path) (t : Text) : Except Fault Disk :=
  match disk.stat path with
  | .error fault => .error fault
  | .ok (location, .file _) => .ok (disk.set location (.file (.text t)))
  | .ok _ => .error .isFolder

/-- Gives a file or a link another place, in one step, in place of a file or link that is there.
    Links at the ends of the paths are not followed. Folders are not moved. -/
def rename (disk : Disk) (source target : Path) : Except Fault Disk :=
  match disk.spot (fun _ => false) source, disk.spot (fun _ => false) target with
  | .error fault, _ => .error fault
  | _, .error fault => .error fault
  | .ok (.inside _), .ok _ => .error .busy
  | .ok _, .ok (.inside _) => .error .busy
  | .ok (.entry folder name slash), .ok (.entry folder' name' slash') =>
    match disk.find folder name with
    | .error fault => .error fault
    | .ok none => .error .noEntry
    | .ok (some entry) =>
      match disk.find folder' name' with
      | .error fault => .error fault
      | .ok old =>
        if entry = .folder then
          .error .isFolder
        else if slash || slash' then
          .error .notFolder
        else if folder ++ [name] = folder' ++ [name'] then
          .ok disk
        else if old = some .folder then
          .error .isFolder
        else
          .ok ((disk.erase (folder ++ [name])).set (folder' ++ [name']) entry)

end Disk

end ApiTypings
