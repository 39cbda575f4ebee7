import ApiTypings.Run.Program
import ApiTypings.Json.Reader

/-!
This module contains the loading of api maps. The source is a JSON document, or a folder that holds
one under the name `index.json`.
-/

namespace ApiTypings

namespace Document

def indexName : Path := .ofString "index.json"

def locate (source : Path) : Program Path := do
  let folder ← Program.isFolder source
  return if folder then source.join indexName else source

@[simp]
theorem run_locate (confirm : Path → Bool) (disk : Disk) (source : Path) :
    (locate source).run confirm disk =
      ⟨if disk.isFolder source then source.join indexName else source, disk, []⟩ := rfl

def read (source : Path) : Program (Except Fault Json.Value) := do
  let document ← locate source
  Program.log (.reading document)
  match ← Program.readText document with
  | .error cause => return .error (.unreadable document.shown cause)
  | .ok text =>
    match Json.parse text with
    | .error cause => return .error (.unparsable document.shown cause)
    | .ok value => return .ok value

def interpret (value : Json.Value) : Program (Except Fault ApiMap) := do
  Program.logAll ((ApiMap.groupsRead value).map fun group =>
    .groupRead group.name group.functions.length)
  match ApiMap.ofJson value with
  | .error fault => return .error (.malformed fault)
  | .ok apis => return .ok apis

def fetch (source : Path) : Program (Except Fault ApiMap) := do
  match ← read source with
  | .error fault => return .error fault
  | .ok value => interpret value

def load (source : Path) : Program (Except Fault ApiMap) := do
  match ← fetch source with
  | .error fault =>
    Program.log (.loadFailed source fault)
    return .error fault
  | .ok apis => return .ok apis

end Document

end ApiTypings
