import ApiTypings.Api.Basic
import ApiTypings.Json.Value

/-!
This module contains the reading of an api map from a JSON value.

The value is an object of groups, a group an object of functions, and a function an object whose
member `params`, if there, is an array of names or an object of descriptors. Every other member of a
function is passed over. The first node without the expected shape, in document order, is the fault.
-/

namespace ApiTypings

namespace Api

inductive Expectation
  | groups
  | functions
  | function
  | params
  | name
  | descriptor
deriving DecidableEq, Repr

def Expectation.phrase : Expectation → Text
  | .groups => "an object of api groups".toList
  | .functions => "an object of request functions".toList
  | .function => "a request function object".toList
  | .params => "an array of parameter names or an object of parameter descriptors".toList
  | .name => "a parameter name string".toList
  | .descriptor => "a parameter descriptor".toList

inductive Step
  | key (name : Text)
  | index (i : Nat)
deriving DecidableEq, Repr

def Step.text : Step → Text
  | .key name => name
  | .index i => Text.ofNat i

structure Fault where
  path : List Step
  expected : Expectation
  found : Json.Kind
deriving DecidableEq, Repr

namespace Fault

def here (expected : Expectation) (value : Json.Value) : Fault := ⟨[], expected, value.kind⟩

def below (step : Step) (fault : Fault) : Fault := { fault with path := step :: fault.path }

def location (fault : Fault) : Text :=
  "apis".toList ++ fault.path.flatMap fun step => '.' :: step.text

def reason (fault : Fault) : Text :=
  "expected ".toList ++ fault.expected.phrase ++ ", found ".toList ++ fault.found.name

end Fault

def atStep (step : Step) (result : Except Fault α) : Except Fault α :=
  match result with
  | .error fault => .error (fault.below step)
  | .ok a => .ok a

def readMembers (read : Text → Json.Value → Except Fault α) : Json.Members → Except Fault (List α)
  | [] => .ok []
  | (key, value) :: rest =>
    match atStep (.key key) (read key value) with
    | .error fault => .error fault
    | .ok a =>
      match readMembers read rest with
      | .error fault => .error fault
      | .ok as => .ok (a :: as)

def readNames (start : Nat) : List Json.Value → Except Fault (List Text)
  | [] => .ok []
  | .string name :: rest =>
    match readNames (start + 1) rest with
    | .error fault => .error fault
    | .ok names => .ok (name :: names)
  | value :: _ => .error ((Fault.here .name value).below (.index start))

def flag (key : String) (members : Json.Members) : Bool :=
  match Json.Members.get? members key.toList with
  | none => false
  | some value => value.truthy

/-- Reads the descriptor of a parameter. Only an object can say that the parameter is required, and
    it can say so by either of two keys; `null` is no descriptor. -/
def readDescriptor (name : Text) : Json.Value → Except Fault Parameter
  | .null => .error (.here .descriptor .null)
  | .object members => .ok ⟨name, flag "required" members || flag "isRequired" members⟩
  | _ => .ok ⟨name, false⟩

def readParams : Json.Value → Except Fault Params
  | .array items =>
    match readNames 0 items with
    | .error fault => .error fault
    | .ok names => .ok (.list names)
  | .object members =>
    match readMembers readDescriptor members with
    | .error fault => .error fault
    | .ok entries => .ok (.map entries)
  | value => .error (.here .params value)

def readFunction (name : Text) : Json.Value → Except Fault Function
  | .object members =>
    match Json.Members.get? members "params".toList with
    | none => .ok ⟨name, .none⟩
    | some value =>
      match atStep (.key "params".toList) (readParams value) with
      | .error fault => .error fault
      | .ok params => .ok ⟨name, params⟩
  | value => .error (.here .function value)

def readGroup (name : Text) : Json.Value → Except Fault Group
  | .object members =>
    match readMembers readFunction members with
    | .error fault => .error fault
    | .ok functions => .ok ⟨name, functions⟩
  | value => .error (.here .functions value)

def readBefore (read : Text → Json.Value → Except Fault α) : Json.Members → List α
  | [] => []
  | (key, value) :: rest =>
    match read key value with
    | .error _ => []
    | .ok a => a :: readBefore read rest

end Api

namespace ApiMap

def ofJson : Json.Value → Except Api.Fault ApiMap
  | .object members =>
    match Api.readMembers Api.readGroup members with
    | .error fault => .error fault
    | .ok groups => .ok ⟨groups⟩
  | value => .error (.here .groups value)

def groupsRead : Json.Value → List Group
  | .object members => Api.readBefore Api.readGroup members
  | _ => []

end ApiMap

end ApiTypings
