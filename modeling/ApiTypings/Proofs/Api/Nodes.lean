import ApiTypings.Proofs.Declaration.Total
import ApiTypings.Run.Generate

/-!
This module contains the nodes of a document that the reading of an api map looks at, in document
order, and the law that the reading fails at the first of them that has not the expected shape.
-/

namespace ApiTypings
namespace Api

structure Node where
  path : List Step
  expected : Expectation
  value : Json.Value

def Expectation.admits : Expectation → Json.Kind → Bool
  | .groups, kind => kind == .object
  | .functions, kind => kind == .object
  | .function, kind => kind == .object
  | .params, kind => kind == .array || kind == .object
  | .name, kind => kind == .string
  | .descriptor, kind => kind != .null

def Expectation.depth : Expectation → Nat
  | .groups => 4
  | .functions => 3
  | .function => 2
  | .params => 1
  | .name => 0
  | .descriptor => 0

def memberNodes (expected : Expectation) (members : Json.Members) : List Node :=
  members.map fun (key, value) => ⟨[.key key], expected, value⟩

def elementNodes (expected : Expectation) (start : Nat) (items : List Json.Value) : List Node :=
  (items.zipIdx start).map fun (value, i) => ⟨[.index i], expected, value⟩

def children : Expectation → Json.Value → List Node
  | .groups, .object members => memberNodes .functions members
  | .functions, .object members => memberNodes .function members
  | .function, .object members =>
    match Json.Members.get? members "params".toList with
    | none => []
    | some value => [⟨[.key "params".toList], .params, value⟩]
  | .params, .array items => elementNodes .name 0 items
  | .params, .object members => memberNodes .descriptor members
  | _, _ => []

namespace Node

def fits (node : Node) : Bool := node.expected.admits node.value.kind

def fault (node : Node) : Fault := ⟨node.path, node.expected, node.value.kind⟩

def below (steps : List Step) (node : Node) : Node := { node with path := steps ++ node.path }

end Node

-- in document order: each node stands before those below it

def visit : (depth : Nat) → Expectation → Json.Value → List Node
  | 0, expected, value => [⟨[], expected, value⟩]
  | depth + 1, expected, value =>
    ⟨[], expected, value⟩ :: (children expected value).flatMap fun child =>
      (visit depth child.expected child.value).map (Node.below child.path)

def nodes (document : Json.Value) : List Node :=
  visit Expectation.groups.depth .groups document

def firstFault (nodes : List Node) : Option Fault :=
  (nodes.find? fun node => !node.fits).map Node.fault

def faultOf : Except Fault α → Option Fault
  | .error fault => some fault
  | .ok _ => none

theorem firstFault_cons (node : Node) (rest : List Node) :
    firstFault (node :: rest) = if node.fits then firstFault rest else some node.fault := by
  unfold firstFault
  rw [List.find?_cons]
  cases node.fits <;> rfl

theorem firstFault_append (ns ns' : List Node) :
    firstFault (ns ++ ns') = (firstFault ns).or (firstFault ns') := by
  unfold firstFault
  rw [List.find?_append]
  cases ns.find? fun node => !node.fits <;> rfl

theorem firstFault_map_below (step : Step) (ns : List Node) :
    firstFault (ns.map (Node.below [step])) = (firstFault ns).map (Fault.below step) := by
  induction ns with
  | nil => rfl
  | cons node rest ih =>
    rw [List.map_cons, firstFault_cons, firstFault_cons, ih]
    have hfits : (Node.below [step] node).fits = node.fits := rfl
    rw [hfits]
    cases node.fits <;> rfl

theorem faultOf_atStep (step : Step) (result : Except Fault α) :
    faultOf (atStep step result) = (faultOf result).map (Fault.below step) := by
  cases result <;> rfl

theorem faultOf_readMembers {read : Text → Json.Value → Except Fault α} {depth : Nat}
    {expected : Expectation}
    (hread : ∀ key value, faultOf (read key value) = firstFault (visit depth expected value))
    (members : Json.Members) :
    faultOf (readMembers read members) =
      firstFault ((memberNodes expected members).flatMap fun child =>
        (visit depth child.expected child.value).map (Node.below child.path)) := by
  -- both sides stop at the first member with a fault, and go on after one without
  induction members with
  | nil => rfl
  | cons head rest ih =>
    obtain ⟨key, value⟩ := head
    have hhead := faultOf_atStep (.key key) (read key value)
    rw [hread, ← firstFault_map_below] at hhead
    unfold memberNodes at ih ⊢
    rw [List.map_cons, List.flatMap_cons, firstFault_append, ← ih, ← hhead, readMembers]
    cases atStep (.key key) (read key value) with
    | error fault => rfl
    | ok a => cases readMembers read rest <;> rfl

theorem faultOf_readNames (start : Nat) (items : List Json.Value) :
    faultOf (readNames start items) = firstFault (elementNodes .name start items) := by
  induction items generalizing start with
  | nil => rfl
  | cons item rest ih =>
    unfold elementNodes at ih ⊢
    rw [List.zipIdx_cons, List.map_cons, firstFault_cons, ← ih]
    cases item with
    | string name =>
      rw [readNames]
      cases readNames (start + 1) rest <;> rfl
    | null => rfl
    | bool value => rfl
    | number value => rfl
    | array items => rfl
    | object members => rfl

theorem faultOf_readDescriptor (name : Text) (value : Json.Value) :
    faultOf (readDescriptor name value) = firstFault (visit 0 .descriptor value) := by
  cases value <;> rfl

theorem flatMap_visit_zero (ns : List Node) :
    (ns.flatMap fun child => (visit 0 child.expected child.value).map (Node.below child.path)) =
      ns := by
  induction ns with
  | nil => rfl
  | cons node rest ih =>
    rw [List.flatMap_cons, ih]
    simp [visit, Node.below]

theorem faultOf_readParams (value : Json.Value) :
    faultOf (readParams value) = firstFault (visit 1 .params value) := by
  rw [visit, flatMap_visit_zero]
  cases value with
  | array items =>
    have hnames := faultOf_readNames 0 items
    change _ = firstFault (elementNodes .name 0 items)
    rw [← hnames, readParams]
    cases readNames 0 items <;> rfl
  | object members =>
    have hmembers := faultOf_readMembers faultOf_readDescriptor members
    rw [flatMap_visit_zero] at hmembers
    change _ = firstFault (memberNodes .descriptor members)
    rw [← hmembers, readParams]
    cases readMembers readDescriptor members <;> rfl
  | null => rfl
  | bool value => rfl
  | number value => rfl
  | string value => rfl

theorem faultOf_readFunction (name : Text) (value : Json.Value) :
    faultOf (readFunction name value) = firstFault (visit 2 .function value) := by
  rw [visit]
  cases value with
  | object members =>
    change _ = firstFault ((children .function (.object members)).flatMap _)
    rw [readFunction, children]
    cases Json.Members.get? members "params".toList with
    | none => rfl
    | some params =>
      have hparams := faultOf_atStep (.key "params".toList) (readParams params)
      rw [faultOf_readParams, ← firstFault_map_below] at hparams
      simp only [List.flatMap_cons, List.flatMap_nil, List.append_nil]
      rw [← hparams]
      cases atStep (.key "params".toList) (readParams params) <;> rfl
  | null => rfl
  | bool value => rfl
  | number value => rfl
  | string value => rfl
  | array items => rfl

theorem faultOf_readGroup (name : Text) (value : Json.Value) :
    faultOf (readGroup name value) = firstFault (visit 3 .functions value) := by
  rw [visit]
  cases value with
  | object members =>
    have hmembers := faultOf_readMembers faultOf_readFunction members
    change _ = firstFault ((memberNodes .function members).flatMap _)
    rw [← hmembers, readGroup]
    cases readMembers readFunction members <;> rfl
  | null => rfl
  | bool value => rfl
  | number value => rfl
  | string value => rfl
  | array items => rfl

theorem faultOf_ofJson (document : Json.Value) :
    faultOf (ApiMap.ofJson document) = firstFault (nodes document) := by
  unfold nodes
  change _ = firstFault (visit (3 + 1) .groups document)
  rw [visit]
  cases document with
  | object members =>
    have hmembers := faultOf_readMembers faultOf_readGroup members
    change _ = firstFault ((memberNodes .functions members).flatMap _)
    rw [← hmembers, ApiMap.ofJson]
    cases readMembers readGroup members <;> rfl
  | null => rfl
  | bool value => rfl
  | number value => rfl
  | string value => rfl
  | array items => rfl

def IsParams (value : Json.Value) : Prop :=
  (∃ items, value = .array items ∧ ∀ item ∈ items, ∃ name, item = .string name) ∨
    ∃ members, value = .object members ∧ ∀ member ∈ members, member.2 ≠ .null

def IsFunction (value : Json.Value) : Prop :=
  ∃ members, value = .object members ∧
    ∀ params, Json.Members.get? members "params".toList = some params → IsParams params

def IsGroup (value : Json.Value) : Prop :=
  ∃ members, value = .object members ∧ ∀ member ∈ members, IsFunction member.2

def IsApiMap (value : Json.Value) : Prop :=
  ∃ members, value = .object members ∧ ∀ member ∈ members, IsGroup member.2

def AllFit (nodes : List Node) : Prop := ∀ node ∈ nodes, node.fits = true

theorem allFit_visit_zero_iff {expected : Expectation} {value : Json.Value} :
    AllFit (visit 0 expected value) ↔ expected.admits value.kind = true := by
  simp [AllFit, visit, Node.fits]

theorem allFit_visit_succ_iff {depth : Nat} {expected : Expectation} {value : Json.Value} :
    AllFit (visit (depth + 1) expected value) ↔
      expected.admits value.kind = true ∧
        ∀ child ∈ children expected value, AllFit (visit depth child.expected child.value) := by
  unfold AllFit
  rw [visit, List.forall_mem_cons]
  refine and_congr Iff.rfl ?_
  simp only [List.mem_flatMap, List.mem_map]
  constructor
  . intro h child hchild node hnode
    have hbelow := h (node.below child.path) ⟨child, hchild, node, hnode, rfl⟩
    exact hbelow
  . rintro h _ ⟨child, hchild, node, hnode, heq⟩
    rw [← heq]
    apply h child hchild node hnode

theorem forall_mem_memberNodes_iff (p : Expectation → Json.Value → Prop) (expected : Expectation)
    (members : Json.Members) :
    (∀ node ∈ memberNodes expected members, p node.expected node.value) ↔
      ∀ member ∈ members, p expected member.2 := by
  unfold memberNodes
  rw [List.forall_mem_map]

theorem forall_mem_elementNodes_iff (p : Expectation → Json.Value → Prop) (expected : Expectation)
    (start : Nat) (items : List Json.Value) :
    (∀ node ∈ elementNodes expected start items, p node.expected node.value) ↔
      ∀ item ∈ items, p expected item := by
  unfold elementNodes
  rw [List.forall_mem_map]
  constructor
  . intro h item hitem
    obtain ⟨i, hi, rfl⟩ := List.mem_iff_getElem.1 hitem
    apply h (items[i], start + i)
      (List.mk_add_mem_zipIdx_iff_getElem?.2 (List.getElem?_eq_getElem hi))
  . rintro h ⟨item, i⟩ hmem
    apply h item (List.fst_mem_of_mem_zipIdx hmem)

theorem admits_name_iff {value : Json.Value} :
    Expectation.name.admits value.kind = true ↔ ∃ name, value = .string name := by
  cases value <;> simp [Expectation.admits, Json.Value.kind]

theorem admits_descriptor_iff {value : Json.Value} :
    Expectation.descriptor.admits value.kind = true ↔ value ≠ .null := by
  cases value <;> simp [Expectation.admits, Json.Value.kind]

theorem allFit_params_iff {value : Json.Value} :
    AllFit (visit 1 .params value) ↔ IsParams value := by
  rw [allFit_visit_succ_iff]
  simp only [allFit_visit_zero_iff]
  unfold IsParams
  cases value with
  | array items =>
    have hitems := forall_mem_elementNodes_iff (fun e v => e.admits v.kind = true) .name 0 items
    simp only [admits_name_iff] at hitems
    simpa [children, Expectation.admits, Json.Value.kind] using hitems
  | object members =>
    have hmembers := forall_mem_memberNodes_iff (fun e v => e.admits v.kind = true) .descriptor
      members
    simp only [admits_descriptor_iff] at hmembers
    simpa [children, Expectation.admits, Json.Value.kind] using hmembers
  | null => simp [Expectation.admits, Json.Value.kind]
  | bool value => simp [Expectation.admits, Json.Value.kind]
  | number value => simp [Expectation.admits, Json.Value.kind]
  | string value => simp [Expectation.admits, Json.Value.kind]

theorem allFit_function_iff {value : Json.Value} :
    AllFit (visit 2 .function value) ↔ IsFunction value := by
  rw [allFit_visit_succ_iff]
  unfold IsFunction
  cases value with
  | object members =>
    rw [children]
    constructor
    . rintro ⟨_, hchildren⟩
      refine ⟨members, rfl, ?_⟩
      intro params hparams
      rw [hparams] at hchildren
      apply allFit_params_iff.1 (hchildren _ List.mem_cons_self)
    . rintro ⟨members', hmembers, hshape⟩
      rw [Json.Value.object.injEq] at hmembers
      refine ⟨rfl, ?_⟩
      cases hparams : Json.Members.get? members "params".toList with
      | none =>
        intro child hchild
        cases hchild
      | some params =>
        intro child hchild
        rw [List.mem_singleton.1 hchild]
        exact allFit_params_iff.2 (hshape params (hmembers ▸ hparams))
  | null => simp [Expectation.admits, Json.Value.kind]
  | bool value => simp [Expectation.admits, Json.Value.kind]
  | number value => simp [Expectation.admits, Json.Value.kind]
  | string value => simp [Expectation.admits, Json.Value.kind]
  | array items => simp [Expectation.admits, Json.Value.kind]

theorem allFit_object_iff {depth : Nat} {expected inner : Expectation}
    (hadmits : ∀ kind, expected.admits kind = (kind == .object))
    (hchildren : ∀ members, children expected (.object members) = memberNodes inner members)
    {value : Json.Value} :
    AllFit (visit (depth + 1) expected value) ↔
      ∃ members, value = .object members ∧ ∀ member ∈ members, AllFit (visit depth inner member.2) := by
  rw [allFit_visit_succ_iff, hadmits]
  cases value with
  | object members =>
    have hmembers := forall_mem_memberNodes_iff (fun e v => AllFit (visit depth e v)) inner members
    rw [hchildren]
    simpa [Json.Value.kind] using hmembers
  | null => simp [Json.Value.kind]
  | bool value => simp [Json.Value.kind]
  | number value => simp [Json.Value.kind]
  | string value => simp [Json.Value.kind]
  | array items => simp [Json.Value.kind]

theorem allFit_group_iff {value : Json.Value} :
    AllFit (visit 3 .functions value) ↔ IsGroup value := by
  rw [allFit_object_iff (fun _ => rfl) fun _ => rfl]
  simp only [allFit_function_iff]
  rfl

theorem allFit_nodes_iff {document : Json.Value} : AllFit (nodes document) ↔ IsApiMap document := by
  unfold nodes Expectation.depth
  rw [allFit_object_iff (fun _ => rfl) fun _ => rfl]
  simp only [allFit_group_iff]
  rfl

theorem firstFault_eq_none_iff {ns : List Node} : firstFault ns = none ↔ AllFit ns := by
  unfold firstFault AllFit
  rw [Option.map_eq_none_iff, List.find?_eq_none]
  simp

theorem firstFault_eq_some_iff {ns : List Node} {fault : Fault} :
    firstFault ns = some fault ↔
      ∃ before node after, ns = before ++ node :: after ∧ AllFit before ∧ node.fits = false ∧
        fault = node.fault := by
  unfold firstFault AllFit
  simp only [Option.map_eq_some_iff, List.find?_eq_some_iff_append]
  constructor
  . rintro ⟨node, ⟨hfits, before, after, hns, hbefore⟩, hfault⟩
    exact ⟨before, node, after, hns, by simpa using hbefore, by simpa using hfits, hfault.symm⟩
  . rintro ⟨before, node, after, hns, hbefore, hfits, hfault⟩
    exact ⟨node, ⟨by simpa using hfits, before, after, hns, by simpa using hbefore⟩, hfault.symm⟩

theorem ofJson_eq_error_iff {document : Json.Value} {fault : Fault} :
    ApiMap.ofJson document = .error fault ↔ firstFault (nodes document) = some fault := by
  rw [← faultOf_ofJson]
  cases ApiMap.ofJson document <;> simp [faultOf]

theorem exists_ofJson_eq_ok_iff {document : Json.Value} :
    (∃ apis, ApiMap.ofJson document = .ok apis) ↔ firstFault (nodes document) = none := by
  rw [← faultOf_ofJson]
  cases ApiMap.ofJson document <;> simp [faultOf]

theorem generation_ofJson_eq_error_iff {document : Json.Value} {fault : ApiTypings.Fault} :
    Generation.ofJson document = .error fault ↔
      ∃ cause, ApiMap.ofJson document = .error cause ∧ fault = .malformed cause := by
  unfold Generation.ofJson
  cases ApiMap.ofJson document with
  | error cause => simp [eq_comm]
  | ok apis => simp [Declaration.ofApiMap_eq]

end Api
end ApiTypings
