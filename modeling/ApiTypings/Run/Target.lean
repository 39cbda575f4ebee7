import ApiTypings.Run.Program

/-!
This module contains the writing of declaration files: where they go, what protects a file that is
there, and the write itself.

A file is written beside its target and then renamed, so that a reader of the target finds the old
text or the new one and nothing between them.
-/

namespace ApiTypings

namespace Target

def extension : String := "d.ts"

def temporaryExtension : String := "tmp"

-- named after the stem of the document, as that is shown

def beside (document : Path) : Path :=
  (document.parent?.getD ⟨[]⟩).join
    ⟨.ofText ((document.stem?.map RawText.shown).getD "index".toList ++ '.' :: extension.toList)⟩

def derive (source : Path) : Program Path := do
  let folder ← Program.isFolder source
  return if folder then source.join (.ofString "index.d.ts") else beside source

@[simp]
theorem run_derive (confirm : Path → Bool) (disk : Disk) (source : Path) :
    (derive source).run confirm disk =
      ⟨if disk.isFolder source then source.join (.ofString "index.d.ts") else beside source,
        disk, []⟩ := rfl

def ofOptions (options : Options) : Program Path :=
  match options.output with
  | some output => return output
  | none => derive options.source

def ancestors : Nat → Path → List Path
  | 0, _ => []
  | fuel + 1, path =>
    if path.text = [] then
      []
    else
      path :: match path.parent? with
        | none => []
        | some parent => ancestors fuel parent

-- given the path of the folder and those of the folders above it; it does no harm that it is there

def makeFolders : List Path → Program (Except Disk.Fault Unit)
  | [] => return .ok ()
  | path :: above => do
    match ← Program.makeFolder path with
    | .ok () => return .ok ()
    | .error .noEntry =>
      match ← makeFolders above with
      | .error fault => return .error fault
      | .ok () =>
        match ← Program.makeFolder path with
        | .ok () => return .ok ()
        | .error fault => accept path fault
    | .error fault => accept path fault
where
  accept (path : Path) (fault : Disk.Fault) : Program (Except Disk.Fault Unit) := do
    if ← Program.isFolder path then
      return .ok ()
    else
      return .error fault

def makeParents (path : Path) : Program (Except Fault Unit) :=
  match path.parent? with
  | none => return .ok ()
  | some parent => do
    match ← makeFolders (ancestors parent.text.length parent) with
    | .error cause => return .error (.unwritable parent.shown cause)
    | .ok () => return .ok ()

def temporary (target : Path) : Path := target.withExtension temporaryExtension

def writeFile (path : Path) (content : Text) : Program (Except Fault Unit) := do
  match ← Program.createFile path with
  | .error cause => return .error (.unwritable path.shown cause)
  | .ok () =>
    match ← Program.fillFile path content with
    | .error cause => return .error (.unwritable path.shown cause)
    | .ok () => return .ok ()

def replace (target : Path) (content : Text) : Program (Except Fault Unit) := do
  match ← makeParents target with
  | .error fault => return .error fault
  | .ok () =>
    match ← writeFile (temporary target) content with
    | .error fault => return .error fault
    | .ok () =>
      match ← Program.rename (temporary target) target with
      | .error cause => return .error (.unwritable target.shown cause)
      | .ok () => return .ok ()

def mayReplace (overwrite : Overwrite) (target : Path) : Program Bool :=
  match overwrite with
  | .always => return true
  | .never => return false
  | .ask => Program.ask target

def publish (target : Path) (content : Text) (outcome : Outcome) :
    Program (Except Fault Outcome) := do
  match ← replace target content with
  | .error fault => return .error fault
  | .ok () =>
    Program.log (.wrote target outcome)
    return .ok outcome

def write (target : Path) (content : Text) (overwrite : Overwrite) :
    Program (Except Fault Outcome) := do
  if ← Program.isPresent target then
    if ← mayReplace overwrite target then
      publish target content .overwritten
    else
      Program.log (.left target)
      return .ok .skipped
  else
    publish target content .created

end Target

end ApiTypings
