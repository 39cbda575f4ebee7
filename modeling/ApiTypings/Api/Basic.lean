import ApiTypings.Text.Basic

/-!
This module contains the api map: groups of request functions with their parameters, in the order
in which they are declared.
-/

namespace ApiTypings

structure Parameter where
  name : Text
  required : Bool
deriving DecidableEq, Repr

inductive Params
  | list (names : List Text)
  | map (entries : List Parameter)
deriving DecidableEq, Repr

namespace Params

def none : Params := .list []

def isEmpty : Params → Bool
  | .list names => names.isEmpty
  | .map entries => entries.isEmpty

def parameters : Params → List Parameter
  | .list names => names.map fun name => ⟨name, false⟩
  | .map entries => entries

theorem parameters_eq_nil_iff (params : Params) : params.parameters = [] ↔ params.isEmpty := by
  cases params <;> simp [parameters, isEmpty]

end Params

structure Function where
  name : Text
  params : Params
deriving DecidableEq, Repr

structure Group where
  name : Text
  functions : List Function
deriving DecidableEq, Repr

structure ApiMap where
  groups : List Group
deriving DecidableEq, Repr

def ApiMap.functionCount (apis : ApiMap) : Nat :=
  apis.groups.foldr (fun group count => group.functions.length + count) 0

end ApiTypings
