import ApiTypings.Run.Event
import ApiTypings.Json.Value
import ApiTypings.Text.Quoted

/-!
This module contains log records: how severe an event is, which part of the program it comes from,
and what is written about it.
-/

namespace ApiTypings

namespace Log

inductive Level
  | error
  | warn
  | info
  | debug
  | trace
deriving DecidableEq, Repr

namespace Level

def rank : Level → Nat
  | .error => 1
  | .warn => 2
  | .info => 3
  | .debug => 4
  | .trace => 5

def name : Level → Text
  | .error => "ERROR".toList
  | .warn => "WARN".toList
  | .info => "INFO".toList
  | .debug => "DEBUG".toList
  | .trace => "TRACE".toList

end Level

structure Record where
  level : Level
  target : Text
  fields : Json.Members
deriving Repr

def field (name : String) (value : Text) : Text × Json.Value := (name.toList, .string value)

def count (name : String) (value : Nat) : Text × Json.Value := (name.toList, .number (.int value))

def outcomeName : Outcome → Text
  | .created => "Created".toList
  | .overwritten => "Overwritten".toList
  | .skipped => "Skipped".toList

def overwriteName : Overwrite → Text
  | .ask => "Prompt".toList
  | .always => "Force".toList
  | .never => "Skip".toList

def optionsText (options : Options) : Text :=
  let source := options.source.text.quoted
  let output := match options.output with
    | none => "None".toList
    | some output => "Some(".toList ++ output.text.quoted ++ ")".toList
  let dryRun := if options.dryRun then "true".toList else "false".toList
  "DeclareOptions ".toList ++ Text.braced
    ("source: ".toList ++ source ++ ", output: ".toList ++ output ++
    ", overwrite: ".toList ++ overwriteName options.overwrite ++ ", dry_run: ".toList ++ dryRun)

def record (level : Level) (target message : String) (fields : Json.Members) : Record :=
  ⟨level, target.toList, field "message" message.toList :: fields⟩

def ofEvent : Event → Record
  | .started options =>
    record .debug "declare" "Declare CLI starting" [field "options" (optionsText options)]
  | .reading document =>
    record .debug "declare_lib::loader" "Reading apis document." [field "document" document.shown]
  | .groupRead name functions =>
    record .trace "declare_lib::model" "Parsed api group."
      [field "group" name, count "functions" functions]
  | .loadFailed source fault =>
    record .error "declare_lib::loader" "Error loading apis."
      [field "source" source.shown, field "error" fault.message]
  | .generating groups functions =>
    record .debug "declare_lib::module" "Generating api declarations."
      [count "groups" groups, count "functions" functions]
  | .generated source target size =>
    record .debug "declare_lib::output" "Generated api declarations."
      [field "source" source.shown, field "target_path" target.shown, count "code_len" size]
  | .asked target =>
    record .warn "declare"
      "Target file exists and stdin is not a terminal; not overwriting."
      [field "target_path" target.shown]
  | .left target =>
    record .debug "declare_lib::output" "Target exists, leaving it untouched."
      [field "target_path" target.shown]
  | .wrote target outcome =>
    record .info "declare_lib::output" "Wrote api declarations."
      [field "target_path" target.shown, field "outcome" (outcomeName outcome)]

end Log

end ApiTypings
