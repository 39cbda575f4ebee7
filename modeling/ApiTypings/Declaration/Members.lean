import ApiTypings.Api.Basic

/-!
This module contains the member list of the object type that describes a function's parameters,
such as `phone: any, code?: any`.
-/

namespace ApiTypings

namespace Declaration

def member (parameter : Parameter) : Text :=
  parameter.name ++ (if parameter.required then [] else ['?']) ++ ": any".toList

def memberList (params : Params) : Text :=
  (", ".toList).intercalate (params.parameters.map member)

theorem member_ne_nil (parameter : Parameter) : member parameter ≠ [] := by
  simp [member]

theorem memberList_eq_nil_iff (params : Params) : memberList params = [] ↔ params.isEmpty := by
  rw [← Params.parameters_eq_nil_iff, memberList]
  cases params.parameters with
  | nil => simp
  | cons head rest =>
    cases rest <;> simp [List.intercalate_cons_cons, member_ne_nil]

end Declaration

end ApiTypings
