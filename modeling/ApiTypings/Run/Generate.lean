import ApiTypings.Run.Document
import ApiTypings.Run.Target
import ApiTypings.Declaration.Module

/-!
This module contains whole runs: from the source to the declarations, and on to their target.
-/

namespace ApiTypings

structure Generation where
  code : Text
  target : Path
  -- what became of the target; nothing does on a dry run
  outcome : Option Outcome
deriving DecidableEq, Repr

namespace Generation

def ofJson (value : Json.Value) : Except Fault Text :=
  match ApiMap.ofJson value with
  | .error fault => .error (.malformed fault)
  | .ok apis =>
    match Declaration.ofApiMap apis with
    | .error fault => .error (.template fault)
    | .ok code => .ok code

def ofApiMap (apis : ApiMap) : Program (Except Fault Text) := do
  Program.log (.generating apis.groups.length apis.functionCount)
  match Declaration.ofApiMap apis with
  | .error fault => return .error (.template fault)
  | .ok code => return .ok code

def codeOf (source : Path) : Program (Except Fault Text) := do
  match ← Document.load source with
  | .error fault => return .error fault
  | .ok apis => ofApiMap apis

def deliver (options : Options) (code : Text) (target : Path) :
    Program (Except Fault Generation) :=
  if options.dryRun then
    return .ok ⟨code, target, none⟩
  else do
    match ← Target.write target code options.overwrite with
    | .error fault => return .error fault
    | .ok outcome => return .ok ⟨code, target, some outcome⟩

def run (options : Options) : Program (Except Fault Generation) := do
  match ← codeOf options.source with
  | .error fault => return .error fault
  | .ok code =>
    let target ← Target.ofOptions options
    Program.log (.generated options.source target code.utf8Size)
    deliver options code target

end Generation

end ApiTypings
