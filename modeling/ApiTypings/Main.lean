import ApiTypings.CommandLine.Session
import ApiTypings.Json.Printer

/-!
This module contains the program itself: it reads the arguments and the environment, performs the
steps of a run on the real disk, and prints the report. It decides nothing.
-/

namespace ApiTypings

namespace Main

def filterVariable : String := "RUST_LOG"

structure Logging where
  filter : Log.Filter
  json : Bool

def fieldText : Text × Json.Value → Text
  | (name, .string value) => ' ' :: name ++ '=' :: value
  | (name, value) => ' ' :: name ++ '=' :: value.text

def recordLine (logging : Logging) (record : Log.Record) : String :=
  if logging.json then
    String.ofList (Json.Value.text (.object
      [Log.field "level" record.level.name, ("fields".toList, .object record.fields),
        Log.field "target" record.target]))
  else
    String.ofList (record.level.name ++ ' ' :: record.target ++ ':' ::
      record.fields.flatMap fieldText)

def log (logging : Logging) (event : Event) : IO Unit := do
  let record := Log.ofEvent event
  if logging.filter.admits record then
    IO.eprintln (recordLine logging record)

-- some operations of the system give the number with a minus sign

def faultOfNumber (number : UInt32) : Disk.Fault :=
  match if number < 0x80000000 then number.toNat else (0 - number).toNat with
  | 2 => .noEntry
  | 16 => .busy
  | 17 => .entryExists
  | 20 => .notFolder
  | 21 => .isFolder
  | 36 => .nameTooLong
  | 40 => .tooManyLinks
  | number => .other number

def faultOf : IO.Error → Disk.Fault
  | .alreadyExists _ number _ => faultOfNumber number
  | .otherError number _ => faultOfNumber number
  | .resourceBusy number _ => faultOfNumber number
  | .unsatisfiedConstraints number _ => faultOfNumber number
  | .interrupted _ number _ => faultOfNumber number
  | .noFileOrDirectory _ _ _ => .noEntry
  | .invalidArgument _ number _ => faultOfNumber number
  | .permissionDenied _ number _ => faultOfNumber number
  | .resourceExhausted _ number _ => faultOfNumber number
  | .inappropriateType _ number _ => faultOfNumber number
  | .noSuchThing _ number _ => faultOfNumber number
  | _ => .other 5

def attempt (operation : IO α) : IO (Except Disk.Fault α) := do
  try
    return .ok (← operation)
  catch error =>
    return .error (faultOf error)

def opens (path : String) : IO Bool := do
  match ← attempt (IO.FS.Handle.mk path .read) with
  | .ok _ => return true
  | .error _ => return false

def spelling (path : Path) : String := String.ofList path.shown

def readText (path : Path) : IO (Except Disk.Fault Text) := do
  match ← attempt (IO.FS.readBinFile (spelling path)) with
  | .error fault => return .error fault
  | .ok bytes =>
    match Content.ofBytes bytes.toList with
    | .text t => return .ok t
    | .binary _ => return .error .notText

def ask (logging : Logging) (target : Path) : IO Bool := do
  let input ← IO.getStdin
  if ← input.isTty then
    IO.eprint s!"Target file exists. Continue? (y/N) [{spelling target}] "
    let reply ← input.getLine
    return reply.startsWith "y" || reply.startsWith "Y"
  else
    log logging (.asked target)
    return false

def perform (logging : Logging) : (action : Action) → IO action.Reply
  | .isPresent path => opens (spelling path)
  | .isFolder path => if path.text = [] then return false else opens (spelling path ++ "/.")
  | .readText path => readText path
  | .makeFolder path => attempt (IO.FS.createDir (spelling path))
  | .createFile path => attempt (do discard (IO.FS.Handle.mk (spelling path) .write))
  | .fillFile path content =>
    attempt (IO.FS.writeFile (spelling path) (String.ofList content))
  | .rename source target => attempt (IO.FS.rename (spelling source) (spelling target))
  | .ask target => ask logging target
  | .log event => log logging event

def execute (logging : Logging) : Program α → IO α
  | .done a => return a
  | .step action next => do
    let reply ← perform logging action
    execute logging (next reply)

def print (report : CommandLine.Report) : IO UInt32 := do
  IO.print (String.ofList report.output)
  for error in report.errors do
    IO.eprintln (String.ofList error)
  return UInt32.ofNat report.exitCode

def home : IO Location := do
  let path := Path.ofString (toString (← IO.currentDir))
  return path.segments.filter (· ≠ [])

end Main

end ApiTypings

open ApiTypings in
def main (line : List String) : IO UInt32 := do
  match CommandLine.read (line.map raw) with
  | .error halt => Main.print halt.report
  | .ok arguments =>
    let environment := (← IO.getEnv Main.filterVariable).map String.toList
    let logging : Main.Logging :=
      ⟨Log.Filter.ofRun environment arguments.verbosity, arguments.json⟩
    Main.print (← Main.execute logging (CommandLine.start (← Main.home) arguments.options))
