import Mathlib.Logic.Relation
import ApiTypings.Run.Generate

/-!
This module contains the edits of a document that have no influence on what is read from it: those
of request metadata, of what a descriptor says besides whether its parameter is required, and of the
way in which it says that. A document that has a fault has the same fault after them.
-/

namespace ApiTypings
namespace Json

inductive Value.IsFalsy : Value → Prop
  | null : IsFalsy .null
  | no : IsFalsy (.bool false)
  | zero {value : Number} (h : value.isZero = true) : IsFalsy (.number value)
  | empty : IsFalsy (.string [])

theorem Value.truthy_eq_true_iff {value : Value} : value.truthy = true ↔ ¬value.IsFalsy := by
  constructor
  . intro h hfalsy
    cases hfalsy with
    | null => cases h
    | no => cases h
    | zero hzero =>
      rw [truthy, hzero] at h
      cases h
    | empty => cases h
  . intro h
    cases value with
    | null => exact absurd .null h
    | bool value =>
      cases value with
      | false => exact absurd .no h
      | true => rfl
    | number value =>
      cases hzero : value.isZero with
      | true => exact absurd (.zero hzero) h
      | false => simp [truthy, hzero]
    | string value =>
      cases value with
      | nil => exact absurd .empty h
      | cons => rfl
    | array => rfl
    | object => rfl

namespace Members

/-- The edits of an object that spare the members with certain keys: any other member may be added,
    taken away or changed, and all of them may be put in another order. -/
inductive Edits (kept : List Text) : Members → Members → Prop
  | add (before after : Members) {key : Text} (value : Value) (h : key ∉ kept) :
    Edits kept (before ++ after) (before ++ (key, value) :: after)
  | remove (before after : Members) {key : Text} (value : Value) (h : key ∉ kept) :
    Edits kept (before ++ (key, value) :: after) (before ++ after)
  | change (before after : Members) {key : Text} (value value' : Value) (h : key ∉ kept) :
    Edits kept (before ++ (key, value) :: after) (before ++ (key, value') :: after)
  | reorder {members members' : Members} (h : members.Perm members')
    (hkeys : (keys members).Nodup) : Edits kept members members'

variable {members members' before after : Members} {key other : Text} {value : Value}

theorem get?_append_cons_of_ne (h : key ≠ other) :
    get? (before ++ (other, value) :: after) key = get? (before ++ after) key := by
  have hkey : (key == other) = false := by simpa using h
  unfold get?
  rw [List.lookup_append, List.lookup_append, List.lookup_cons, hkey]

theorem get?_eq_of_perm (h : members.Perm members') (hkeys : (keys members).Nodup) (key : Text) :
    get? members key = get? members' key := by
  induction h with
  | nil => rfl
  | cons member hrest ih =>
    have hrest' := ih (List.nodup_cons.1 hkeys).2
    unfold get? at hrest' ⊢
    rw [List.lookup_cons, List.lookup_cons, hrest']
  | swap member member' rest =>
    have hne : member'.1 ≠ member.1 := by
      intro heq
      simp [keys, heq] at hkeys
    unfold get?
    rw [List.lookup_cons, List.lookup_cons, List.lookup_cons, List.lookup_cons]
    by_cases hkey : key = member.1
    . have hother : (key == member'.1) = false := by simpa [hkey] using hne.symm
      rw [hother]
    . have hother : (key == member.1) = false := by simpa using hkey
      rw [hother]
  | trans hfirst hsecond ih ih' =>
    rw [ih hkeys]
    apply ih'
    apply (hfirst.map Prod.fst).nodup_iff.1 hkeys

theorem Edits.get?_eq {kept : List Text} (h : Edits kept members members') (hkey : key ∈ kept) :
    get? members key = get? members' key := by
  have hne {other : Text} (hother : other ∉ kept) : key ≠ other := fun heq => hother (heq ▸ hkey)
  cases h with
  | add before after value h => rw [get?_append_cons_of_ne (hne h)]
  | remove before after value h => rw [get?_append_cons_of_ne (hne h)]
  | change before after value value' h =>
    rw [get?_append_cons_of_ne (hne h), get?_append_cons_of_ne (hne h)]
  | reorder h hkeys => exact get?_eq_of_perm h hkeys key

end Members
end Json

namespace Api

def paramsKey : Text := "params".toList

def flagKeys : List Text := ["required".toList, "isRequired".toList]

def Requires (members : Json.Members) : Prop :=
  ∃ key ∈ flagKeys, ∃ value, Json.Members.get? members key = some value ∧ ¬value.IsFalsy

inductive EditsMember (edits : Json.Value → Json.Value → Prop) : Json.Value → Json.Value → Prop
  | edit (before after : Json.Members) (key : Text) {value value' : Json.Value}
    (h : edits value value') :
    EditsMember edits (.object (before ++ (key, value) :: after))
      (.object (before ++ (key, value') :: after))

inductive EditsDescriptor : Json.Value → Json.Value → Prop
  | others {members members' : Json.Members} (h : Json.Members.Edits flagKeys members members') :
    EditsDescriptor (.object members) (.object members')
  | flags {members members' : Json.Members}
    (hothers : members.filter (fun member => member.1 ∉ flagKeys) =
      members'.filter fun member => member.1 ∉ flagKeys)
    (h : Requires members ↔ Requires members') :
    EditsDescriptor (.object members) (.object members')
  | empty {value : Json.Value} (hnull : value ≠ .null)
    (hobject : ∀ members, value ≠ .object members) :
    EditsDescriptor value (.object [])

inductive EditsFunction : Json.Value → Json.Value → Prop
  | others {members members' : Json.Members} (h : Json.Members.Edits [paramsKey] members members') :
    EditsFunction (.object members) (.object members')
  | descriptor (before after : Json.Members) {params params' : Json.Value}
    (h : EditsMember EditsDescriptor params params') :
    EditsFunction (.object (before ++ (paramsKey, params) :: after))
      (.object (before ++ (paramsKey, params') :: after))

def EditsDocument : Json.Value → Json.Value → Prop := EditsMember (EditsMember EditsFunction)

def Equivalent : Json.Value → Json.Value → Prop := Relation.EqvGen EditsDocument

section

variable {value value' : Json.Value}

theorem flag_eq_true_iff {key : String} {members : Json.Members} :
    flag key members = true ↔
      ∃ value, Json.Members.get? members key.toList = some value ∧ ¬value.IsFalsy := by
  unfold flag
  cases Json.Members.get? members key.toList with
  | none => simp
  | some value => simp [Json.Value.truthy_eq_true_iff]

theorem flags_eq_true_iff {members : Json.Members} :
    (flag "required" members || flag "isRequired" members) = true ↔ Requires members := by
  rw [Bool.or_eq_true, flag_eq_true_iff, flag_eq_true_iff]
  simp [Requires, flagKeys]

theorem readDescriptor_object_eq {members members' : Json.Members}
    (h : Requires members ↔ Requires members') (name : Text) :
    readDescriptor name (.object members) = readDescriptor name (.object members') := by
  rw [← flags_eq_true_iff, ← flags_eq_true_iff, ← Bool.eq_iff_iff] at h
  rw [readDescriptor, readDescriptor, h]

theorem EditsDescriptor.readDescriptor_eq (h : EditsDescriptor value value') (name : Text) :
    readDescriptor name value = readDescriptor name value' := by
  cases h with
  | others h =>
    apply readDescriptor_object_eq
    unfold Requires
    apply exists_congr
    intro key
    apply and_congr_right
    intro hkey
    rw [h.get?_eq hkey]
  | flags _ h => exact readDescriptor_object_eq h name
  | empty hnull hobject =>
    cases value with
    | null => exact absurd rfl hnull
    | object members => exact absurd rfl (hobject members)
    | _ => rfl

theorem readMembers_edit {read : Text → Json.Value → Except Fault α}
    (before after : Json.Members) {key : Text} (h : read key value = read key value') :
    readMembers read (before ++ (key, value) :: after) =
      readMembers read (before ++ (key, value') :: after) := by
  induction before with
  | nil => rw [List.nil_append, List.nil_append, readMembers, readMembers, h]
  | cons member before ih =>
    obtain ⟨key', other⟩ := member
    rw [List.cons_append, List.cons_append, readMembers, readMembers, ih]

theorem readParams_eq (h : EditsMember EditsDescriptor value value') :
    readParams value = readParams value' := by
  cases h with
  | edit before after key h =>
    rw [readParams, readParams, readMembers_edit before after (h.readDescriptor_eq key)]

theorem readFunction_of_get? {members members' : Json.Members}
    (h : Json.Members.get? members paramsKey = Json.Members.get? members' paramsKey)
    (name : Text) : readFunction name (.object members) = readFunction name (.object members') := by
  unfold paramsKey at h
  rw [readFunction, readFunction, h]

theorem EditsFunction.readFunction_eq (h : EditsFunction value value') (name : Text) :
    readFunction name value = readFunction name value' := by
  cases h with
  | others h => exact readFunction_of_get? (h.get?_eq (List.mem_singleton.2 rfl)) name
  | @descriptor before after params params' h =>
    -- if the member stands behind another one with its key, then it is not looked at
    have hlookup (value : Json.Value) :
        Json.Members.get? (before ++ (paramsKey, value) :: after) paramsKey =
          (Json.Members.get? before paramsKey).or (some value) := by
      unfold Json.Members.get?
      rw [List.lookup_append, List.lookup_cons_self]
    cases hbefore : Json.Members.get? before paramsKey with
    | some other =>
      apply readFunction_of_get?
      rw [hlookup, hlookup, hbefore]
      rfl
    | none =>
      have hparams := hlookup params
      have hparams' := hlookup params'
      rw [hbefore] at hparams hparams'
      unfold paramsKey at hparams hparams'
      unfold paramsKey
      rw [readFunction, readFunction, hparams, hparams']
      simp only [Option.none_or, readParams_eq h]

theorem readGroup_eq (h : EditsMember EditsFunction value value') (name : Text) :
    readGroup name value = readGroup name value' := by
  cases h with
  | edit before after key h =>
    rw [readGroup, readGroup, readMembers_edit before after (h.readFunction_eq key)]

theorem ofJson_eq_of_edit (h : EditsDocument value value') :
    ApiMap.ofJson value = ApiMap.ofJson value' := by
  cases h with
  | edit before after key h =>
    rw [ApiMap.ofJson, ApiMap.ofJson, readMembers_edit before after (readGroup_eq h key)]

end

/-- Equivalent documents give the same api map and the same declarations, or the same fault. -/
theorem ofJson_eq_of_equivalent {document document' : Json.Value}
    (h : Equivalent document document') :
    ApiMap.ofJson document = ApiMap.ofJson document'
      ∧
    Generation.ofJson document = Generation.ofJson document' := by
  have hread : ApiMap.ofJson document = ApiMap.ofJson document' := by
    induction h with
    | rel value value' h => exact ofJson_eq_of_edit h
    | refl value => rfl
    | symm value value' _ ih => exact ih.symm
    | trans value value' value'' _ _ ih ih' => exact ih.trans ih'
  refine ⟨hread, ?_⟩
  unfold Generation.ofJson
  rw [hread]

def infoAlone (function : Json.Value) : Json.Value :=
  .object [("user".toList, .object [("info".toList, function)])]

def required : Json.Value := .object [("required".toList, .bool true)]

def commented : Json.Value :=
  .object [("isRequired".toList, .string "yes".toList), ("note".toList, .number (.int 1))]

def noted : Json.Value :=
  infoAlone (.object
    [("mock".toList, .null),
      ("params".toList,
        .object [("id".toList, required), ("name".toList, .string "text".toList)])])

def renoted : Json.Value :=
  infoAlone (.object
    [("params".toList, .object [("id".toList, commented), ("name".toList, .object [])]),
      ("url".toList, .string "/info".toList)])

theorem equivalent_of_edit {function function' : Json.Value}
    (h : EditsFunction function function') : Equivalent (infoAlone function) (infoAlone function') :=
  .rel _ _ (.edit [] [] _ (.edit [] [] _ h))

theorem equivalent_noted_renoted : Equivalent noted renoted := by
  have hmock : "mock".toList ∉ [paramsKey] := by decide
  have hurl : "url".toList ∉ [paramsKey] := by decide
  have hnote : "note".toList ∉ flagKeys := by decide
  have hflags : EditsDescriptor required
      (.object [("isRequired".toList, .string "yes".toList)]) := by
    refine .flags (by rfl) ?_
    rw [← flags_eq_true_iff, ← flags_eq_true_iff]
    decide
  have hempty : EditsDescriptor (.string "text".toList) (.object []) := .empty nofun nofun
  apply (equivalent_of_edit (.others (.reorder (.swap _ _ []) (by decide)))).trans
  apply (equivalent_of_edit (.others (.remove [_] [] .null hmock))).trans
  apply (equivalent_of_edit (.descriptor [] [] (.edit [] [_] _ hflags))).trans
  apply (equivalent_of_edit (.descriptor [] [] (.edit [] [_] _ (.others
    (.add [_] [] (.number (.int 1)) hnote))))).trans
  apply (equivalent_of_edit (.descriptor [] [] (.edit [_] [] _ hempty))).trans
  apply equivalent_of_edit (.others (.add [_] [] _ hurl))

theorem ofJson_noted_eq_ofJson_renoted :
    Equivalent noted renoted
      ∧
    ApiMap.ofJson noted = .ok ⟨[⟨"user".toList,
      [⟨"info".toList, .map [⟨"id".toList, true⟩, ⟨"name".toList, false⟩]⟩]⟩]⟩
      ∧
    ApiMap.ofJson noted = ApiMap.ofJson renoted
      ∧
    Generation.ofJson noted = Generation.ofJson renoted := by
  refine ⟨equivalent_noted_renoted, rfl, ?_⟩
  exact ofJson_eq_of_equivalent equivalent_noted_renoted

end Api
end ApiTypings
