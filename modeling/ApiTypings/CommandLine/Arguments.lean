import ApiTypings.Run.Options

/-!
This module contains the reading of command lines.

Arguments are read from left to right. An option acts when it is reached, but the source and a
detached output file are only taken when the next option acts or the line ends, so what is wrong with
them shows later than an argument that nothing is known about.
-/

namespace ApiTypings

namespace CommandLine

inductive Flag
  | force
  | noClobber
  | dryRun
  | json
deriving DecidableEq, Repr

inductive Switch
  | flag (flag : Flag)
  | verbose
  | help
  | version
  | output
deriving DecidableEq, Repr

def Switch.ofLong? (name : Text) : Option Switch :=
  if name = "output".toList then some .output
  else if name = "force".toList then some (.flag .force)
  else if name = "no-clobber".toList then some (.flag .noClobber)
  else if name = "dry-run".toList then some (.flag .dryRun)
  else if name = "json".toList then some (.flag .json)
  else if name = "help".toList then some .help
  else if name = "version".toList then some .version
  else none

def Switch.ofLetter? : Char → Option Switch
  | 'o' => some .output
  | 'f' => some (.flag .force)
  | 'v' => some .verbose
  | 'h' => some .help
  | 'V' => some .version
  | _ => none

def Flag.name : Flag → Text
  | .force => "--force".toList
  | .noClobber => "--no-clobber".toList
  | .dryRun => "--dry-run".toList
  | .json => "--json".toList

def outputName : Text := "--output <FILE>".toList

def Switch.name : Switch → Text
  | .flag known => known.name
  | .verbose => "-v...".toList
  | .help => "--help".toList
  | .version => "--version".toList
  | .output => outputName

def sourceName : Text := "[APIS_PATH]".toList

inductive UsageFault
  | unexpected (argument : Text)
  | unexpectedValue (value option : Text)
  | repeated (option : Text)
  | valueMissing (option : Text)
  | conflict (first second : Text)
deriving DecidableEq, Repr

def UsageFault.message : UsageFault → Text
  | .unexpected argument => "unexpected argument '".toList ++ argument ++ "' found".toList
  | .unexpectedValue value option =>
    "unexpected value '".toList ++ value ++ "' for '".toList ++ option ++
      "' found; no more were expected".toList
  | .repeated option =>
    "the argument '".toList ++ option ++ "' cannot be used multiple times".toList
  | .valueMissing option =>
    "a value is required for '".toList ++ option ++ "' but none was supplied".toList
  | .conflict first second =>
    "the argument '".toList ++ first ++ "' cannot be used with '".toList ++ second ++ "'".toList

structure Arguments where
  source : Option Path := none
  output : Option Path := none
  flags : List Flag := []
  verbosity : Nat := 0
deriving DecidableEq, Repr

namespace Arguments

def force (arguments : Arguments) : Bool := arguments.flags.contains .force

def noClobber (arguments : Arguments) : Bool := arguments.flags.contains .noClobber

def json (arguments : Arguments) : Bool := arguments.flags.contains .json

def options (arguments : Arguments) : Options where
  source := arguments.source.getD (.ofString "src/apis/index.json")
  output := arguments.output
  overwrite :=
    if arguments.force then .always else if arguments.noClobber then .never else .ask
  dryRun := arguments.flags.contains .dryRun

end Arguments

inductive Halt
  | fault (fault : UsageFault)
  | help
  | version
deriving DecidableEq, Repr

-- a value that has been reached and is not yet taken

inductive Pending
  | source (value : RawText)
  -- the option has been given, and perhaps its value
  | output (value : Option RawText)
deriving DecidableEq, Repr

structure State where
  taken : Arguments := {}
  pending : Option Pending := none
  sourceSeen : Bool := false
  ended : Bool := false
deriving DecidableEq, Repr

namespace State

def takeOutput (state : State) (value : RawText) : Except Halt State :=
  if state.taken.output.isSome then
    .error (.fault (.repeated outputName))
  else if value = [] then
    .error (.fault (.valueMissing outputName))
  else
    .ok { state with taken := { state.taken with output := some ⟨value⟩ } }

def settle (state : State) : Except Halt State :=
  let settled := { state with pending := none }
  match state.pending with
  | none => .ok state
  | some (.source []) => .error (.fault (.valueMissing sourceName))
  | some (.source value) =>
    .ok { settled with taken := { settled.taken with source := some ⟨value⟩ } }
  | some (.output none) => .error (.fault (.valueMissing outputName))
  | some (.output (some value)) => settled.takeOutput value

def takeFlag (state : State) (flag : Flag) : Except Halt State :=
  if state.taken.flags.contains flag then
    .error (.fault (.repeated flag.name))
  else
    .ok { state with taken := { state.taken with flags := state.taken.flags ++ [flag] } }

def act (state : State) (switch : Switch) : Except Halt State :=
  match state.settle with
  | .error halt => .error halt
  | .ok state =>
    match switch with
    | .flag flag => state.takeFlag flag
    | .verbose =>
      .ok { state with taken := { state.taken with verbosity := state.taken.verbosity + 1 } }
    | .help => .error .help
    | .version => .error .version
    | .output => .ok { state with pending := some (.output none) }

def actOutput (state : State) (value : RawText) : Except Halt State :=
  match state.settle with
  | .error halt => .error halt
  | .ok state => state.takeOutput value

def readLong (state : State) (t : RawText) : Except Halt State :=
  let name := RawText.shown (t.takeWhile (· ≠ .char '='))
  match Switch.ofLong? name, t.dropWhile (· ≠ .char '=') with
  | none, _ => .error (.fault (.unexpected ("--".toList ++ name)))
  | some switch, [] => state.act switch
  | some .output, _ :: value => state.actOutput value
  | some switch, _ :: value =>
    .error (.fault (.unexpectedValue (RawText.shown value) switch.name))

-- the letter of the file to write takes the rest as its value, less an equals sign in front

def readLetters (state : State) : RawText → Except Halt State
  | [] => .ok state
  | .stray first more :: rest =>
    .error (.fault (.unexpected ('-' :: RawText.shown (.stray first more :: rest))))
  | .char letter :: rest =>
    match Switch.ofLetter? letter, rest with
    | none, _ => .error (.fault (.unexpected ['-', letter]))
    | some .output, .char '=' :: value => state.actOutput value
    | some .output, c :: value => state.actOutput (c :: value)
    | some switch, rest =>
      match state.act switch with
      | .error halt => .error halt
      | .ok state => state.readLetters rest

def readValue (state : State) (t : RawText) : Except Halt State :=
  if !state.ended && state.pending = some (.output none) then
    .ok { state with pending := some (.output (some t)) }
  else if state.sourceSeen then
    .error (.fault (.unexpected t.shown))
  else
    match state.settle with
    | .error halt => .error halt
    | .ok state => .ok { state with pending := some (.source t), sourceSeen := true }

def read (state : State) (argument : RawText) : Except Halt State :=
  if state.ended then
    state.readValue argument
  else
    match argument with
    | [.char '-', .char '-'] => .ok { state with ended := true }
    | .char '-' :: .char '-' :: rest => state.readLong rest
    | .char '-' :: letter :: rest => state.readLetters (letter :: rest)
    | argument => state.readValue argument

def readAll (state : State) : List RawText → Except Halt State
  | [] => state.settle
  | argument :: rest =>
    match state.read argument with
    | .error halt => .error halt
    | .ok state => state.readAll rest

end State

-- the flag that is given first is named first

def conflict? (arguments : Arguments) : Option UsageFault :=
  match arguments.flags.filter fun flag => flag = .force ∨ flag = .noClobber with
  | first :: second :: _ => some (.conflict first.name second.name)
  | _ => none

def read (line : List RawText) : Except Halt Arguments :=
  match State.readAll {} line with
  | .error halt => .error halt
  | .ok state =>
    match conflict? state.taken with
    | some fault => .error (.fault fault)
    | none => .ok state.taken

end CommandLine

end ApiTypings
