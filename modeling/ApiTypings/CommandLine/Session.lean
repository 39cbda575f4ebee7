import ApiTypings.CommandLine.Arguments
import ApiTypings.Log.Filter
import ApiTypings.Run.Generate

/-!
This module contains what a call of the program does and what the user gets to see of it.
-/

namespace ApiTypings

namespace CommandLine

structure Report where
  exitCode : Nat
  output : Text := []
  -- what went wrong, and behind each entry what lies behind it
  errors : List Text := []
deriving DecidableEq, Repr

def versionText : Text := "declare 0.1.0\n".toList

def helpText : Text :=
  "Generate .d.ts api declarations from an apis document

Usage: declare [OPTIONS] [APIS_PATH]

Arguments:
  [APIS_PATH]  Apis JSON document, or a directory containing index.json [default: src/apis/index.json]

Options:
  -o, --output <FILE>  Declaration file to write [default: <APIS_DIR>/<NAME>.d.ts]
  -f, --force          Overwrite an existing declaration file without asking
      --no-clobber     Never overwrite an existing declaration file
      --dry-run        Print generated code without writing files
  -v...                Increase verbosity (-v, -vv, -vvv)
      --json           Output logs as JSON
  -h, --help           Print help
  -V, --version        Print version
".toList

def Halt.report : Halt → Report
  | .fault cause => { exitCode := 2, errors := ["error: ".toList ++ cause.message] }
  | .help => { exitCode := 0, output := helpText }
  | .version => { exitCode := 0, output := versionText }

def fromHome (home : Location) (target : Path) : Path := (target.below? home).getD target

def announcement : Outcome → Text
  | .created => "Generated api declarations -> ".toList
  | .overwritten => "Overwrote api declarations -> ".toList
  | .skipped => "Skipped existing api declarations -> ".toList

def outputOf (home : Location) (generation : Generation) : Text :=
  match generation.outcome with
  | none => generation.code ++ ['\n']
  | some outcome => announcement outcome ++ (fromHome home generation.target).shown ++ ['\n']

def reportOn (home : Location) (options : Options) : Except Fault Generation → Report
  | .error fault =>
    { exitCode := 1
      errors :=
        ["Failed to generate api declarations from ".toList ++ options.source.shown,
          fault.message] ++ fault.cause?.toList }
  | .ok generation => { exitCode := 0, output := outputOf home generation }

def start (home : Location) (options : Options) : Program Report := do
  Program.log (.started options)
  return reportOn home options (← Generation.run options)

-- standard input is no terminal, so questions are answered with no

def declines (_ : Path) : Bool := false

def perform (arguments : Arguments) (disk : Disk) : Result Report :=
  (start disk.home arguments.options).run declines disk

def call (line : List RawText) (disk : Disk) : Result Report :=
  match read line with
  | .error halt => ⟨halt.report, disk, []⟩
  | .ok arguments => perform arguments disk

def jsonLog (line : List RawText) (environment : Option Text) (events : List Event) :
    List Log.Record :=
  match read line with
  | .error _ => []
  | .ok arguments =>
    if arguments.json then
      (Log.Filter.ofRun environment arguments.verbosity).records events
    else
      []

end CommandLine

end ApiTypings
