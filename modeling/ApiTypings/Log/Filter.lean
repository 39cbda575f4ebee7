import ApiTypings.Log.Record

/-!
This module contains log filters. A filter is a list of directives, each of which sets the least
severe level that is let through, for all targets or for those that start with a given text. Of the
directives for a target the one with the longest text counts, and of several with one text the last.
-/

namespace ApiTypings

namespace Log

structure Directive where
  start : Text
  -- the least severe level that is let through; without one, nothing is
  level : Option Level
deriving DecidableEq, Repr

abbrev Filter := List Directive

namespace Filter

def lower (t : Text) : Text := t.map Char.toLower

def levelOf? (word : Text) : Option (Option Level) :=
  let word := lower word
  if word = "off".toList then some none
  else if word = "error".toList then some (some .error)
  else if word = "warn".toList then some (some .warn)
  else if word = "info".toList then some (some .info)
  else if word = "debug".toList then some (some .debug)
  else if word = "trace".toList then some (some .trace)
  else none

def directiveOf? (t : Text) : Option Directive :=
  match levelOf? t with
  | some level => some ⟨[], level⟩
  | none =>
    match t.splitOn '=' with
    | [target] => some ⟨target, some .trace⟩
    | [target, word] => (levelOf? word).map fun level => ⟨target, level⟩
    | _ => none

def ofText? (t : Text) : Option Filter :=
  ((t.splitOn ',').filter (· ≠ [])).mapM directiveOf?

def warnings : Filter := [⟨[], some .warn⟩]

def ofVerbosity : Nat → Filter
  | 0 => warnings
  | 1 => [⟨[], some .warn⟩, ⟨"declare_lib".toList, some .info⟩]
  | 2 => [⟨[], some .info⟩, ⟨"declare_lib".toList, some .debug⟩]
  | _ => [⟨[], some .debug⟩, ⟨"declare_lib".toList, some .trace⟩]

-- a text that stands for no filter counts as asking for warnings

def ofRun (environment : Option Text) (verbosity : Nat) : Filter :=
  match environment with
  | some t => (ofText? t).getD warnings
  | none => ofVerbosity verbosity

def prefer (first : Option Directive) (second : Directive) : Option Directive :=
  match first with
  | none => some second
  | some first => if first.start.length ≤ second.start.length then some second else some first

def directiveFor? (filter : Filter) (target : Text) : Option Directive :=
  (filter.filter fun directive => directive.start.isPrefixOf target).foldl prefer none

def admits (filter : Filter) (record : Record) : Bool :=
  match filter.directiveFor? record.target with
  | some ⟨_, some level⟩ => record.level.rank ≤ level.rank
  | _ => false

def records (filter : Filter) (events : List Event) : List Record :=
  (events.map ofEvent).filter filter.admits

end Filter

end Log

end ApiTypings
