import ApiTypings.Proofs.Declaration.Arrangement
import ApiTypings.Proofs.Declaration.Total
import ApiTypings.Proofs.Layout.Tabs

/-!
This module contains the closed form of a declaration module: the text that is generated for an api
map in which no name holds a separator, written without templates.
-/

namespace ApiTypings

def Function.AllNames (p : Text → Prop) (function : Function) : Prop :=
  p function.name ∧ ∀ parameter ∈ function.params.parameters, p parameter.name

def Group.AllNames (p : Text → Prop) (group : Group) : Prop :=
  p group.name ∧ ∀ function ∈ group.functions, function.AllNames p

theorem Function.AllNames.imp {p q : Text → Prop} (hpq : ∀ name, p name → q name)
    {function : Function} (h : function.AllNames p) : function.AllNames q :=
  ⟨hpq _ h.1, fun parameter hmem => hpq _ (h.2 parameter hmem)⟩

theorem Group.AllNames.imp {p q : Text → Prop} (hpq : ∀ name, p name → q name)
    {group : Group} (h : group.AllNames p) : group.AllNames q :=
  ⟨hpq _ h.1, fun function hmem => (h.2 function hmem).imp hpq⟩

def ApiMap.AllNames (p : Text → Prop) (apis : ApiMap) : Prop :=
  ∀ group ∈ apis.groups, group.AllNames p

instance (p : Text → Prop) [DecidablePred p] (function : Function) :
    Decidable (function.AllNames p) :=
  inferInstanceAs (Decidable (_ ∧ _))

instance (p : Text → Prop) [DecidablePred p] (group : Group) : Decidable (group.AllNames p) :=
  inferInstanceAs (Decidable (_ ∧ _))

instance (p : Text → Prop) [DecidablePred p] (apis : ApiMap) : Decidable (apis.AllNames p) :=
  List.decidableBAll _ apis.groups

namespace Declaration

def attributes (params : Params) : Text :=
  (", ".toList).intercalate (params.parameters.map fun parameter =>
    parameter.name ++ (if parameter.required then ": any" else "?: any").toList)

-- what stands between a name and attributes, and what stands behind them

def callOpening : Text :=
  "': ReqFn & ".toList ++ '{' :: "\n\t\t<T = Result>(\n\t\t\tparams: ".toList ++ ['{']

def callClosing : Text :=
  '}' :: ",\n\t\t\toptions?: RuntimeOptions\n\t\t): Promise<T>\n\t".toList ++ ['}']

def fragment (function : Function) : Text :=
  if function.params.isEmpty then
    "'".toList ++ function.name ++ "': ReqFnWithAnyParams".toList
  else
    Layout.tabs ("'".toList ++ function.name ++ callOpening ++ " ".toList ++
      attributes function.params ++ " ".toList ++ callClosing)

-- what stands between the name of a group and its signatures, and what stands behind them

def blockOpening : Text := ": ".toList ++ '{' :: "\n\t".toList

def blockClosing : Text := ['\n', '}']

def blockForm (name : Text) (fragments : List Text) : Text :=
  Layout.tabs ("export const ".toList ++ name ++ blockOpening ++
    ("\n\t".toList).intercalate fragments ++ blockClosing)

theorem member_eq (parameter : Parameter) : member parameter =
    parameter.name ++ (if parameter.required then ": any" else "?: any").toList := by
  unfold member
  cases parameter.required <;> simp

theorem memberList_eq_attributes (params : Params) : memberList params = attributes params := by
  unfold memberList attributes
  congr 2
  funext parameter
  apply member_eq parameter

section

variable {n : Nat} {function : Function} {group : Group}

theorem isSolid_attributes {params : Params}
    (h : ∀ parameter ∈ params.parameters, ¬ parameter.name.HasBreak n) :
    Layout.isSolid n (attributes params) = true := by
  unfold attributes
  apply Layout.isSolid_intercalate
  intro t ht
  obtain ⟨parameter, hmem, rfl⟩ := List.mem_map.1 ht
  have hname := h parameter hmem
  apply Layout.isSolid_append rfl
  cases parameter.required with
  | true => exact Layout.isSolid_append_cons hname (by decide) rfl
  | false => exact Layout.isSolid_append_cons hname (by decide) rfl

theorem strip_signatureTemplate {name members : Text} (hname : ¬ name.HasBreak (Layout.width level))
    (hmembers : Layout.isSolid (Layout.width level) members = true) :
    Layout.strip level (signatureTemplate name members) =
      Layout.tabs ("'".toList ++ name ++ callOpening ++ " ".toList ++ members ++ " ".toList ++
        callClosing) := by
  have htemplate : signatureTemplate name members =
      '\'' :: (name ++ "': ReqFn & ".toList ++ ['{']) ++
        [(2, "<T = Result>(".toList),
          (3, "params: ".toList ++ Text.braced members ++ ",".toList),
          (3, "options?: RuntimeOptions".toList), (2, "): Promise<T>".toList),
          (1, ['}'])].flatMap fun l => Layout.line (level + l.1) l.2 := by
    simp [signatureTemplate, level]
  have hfirst : Layout.isSolid (Layout.width level)
      ('\'' :: (name ++ "': ReqFn & ".toList ++ ['{'])) = true := by
    rw [List.append_assoc]
    exact Layout.isSolid_append_cons hname (by decide) (by decide)
  have hbraced : Layout.isSolid (Layout.width level) (Text.braced members) = true :=
    Layout.isSolid_append (s := ['{', ' ']) (by decide)
      (Layout.isSolid_append (t := [' ', '}']) hmembers (by decide))
  have hparams : Layout.isSolid (Layout.width level)
      ("params: ".toList ++ Text.braced members ++ ",".toList) = true :=
    Layout.isSolid_append (Layout.isSolid_append (by decide) hbraced) (by decide)
  rw [htemplate, Layout.strip_deeper_lines width_level hfirst]
  . unfold callOpening callClosing
    simp [List.intercalate_cons_cons, List.replicate, Text.braced]
  . simp only [List.forall_mem_cons]
    exact ⟨by decide, hparams, by decide, by decide, by decide, by simp⟩

theorem signatureText_eq_fragment
    (h : function.AllNames fun name => ¬ name.HasBreak (Layout.width level)) :
    signatureText function = fragment function := by
  unfold signatureText fragment
  simp only [memberList_eq_nil_iff]
  split
  . simp [looseSignature]
  . rw [memberList_eq_attributes]
    apply strip_signatureTemplate h.1 (isSolid_attributes h.2)

theorem exists_fragment_eq_cons (function : Function) : ∃ t, fragment function = '\'' :: t := by
  unfold fragment
  split
  . exact ⟨_, rfl⟩
  . exact ⟨_, Layout.tabs_cons_of_ne (by decide) _⟩

theorem isSolid_fragment (h : function.AllNames fun name => ¬ name.HasBreak (Layout.width level)) :
    Layout.isSolid (Layout.width level) (fragment function) = true := by
  have hname : Layout.isSolid (Layout.width level)
      (function.name ++ "': ReqFnWithAnyParams".toList) = true :=
    Layout.isSolid_append_cons h.1 (by decide) (by decide)
  have hname' : Layout.isSolid (Layout.width level) (function.name ++ callOpening) = true :=
    Layout.isSolid_append_cons h.1 (by decide) (by decide)
  unfold fragment
  split
  . rw [List.append_assoc]
    apply Layout.isSolid_append (by decide) hname
  . apply Layout.isSolid_tabs
    rw [List.append_assoc "'".toList]
    apply Layout.isSolid_append _ (by decide)
    apply Layout.isSolid_append _ (by decide)
    apply Layout.isSolid_append _ (isSolid_attributes h.2)
    apply Layout.isSolid_append _ (by decide)
    apply Layout.isSolid_append (by decide) hname'

theorem strip_blockTemplate {name table : Text} (hname : ¬ name.HasBreak (Layout.width level))
    (htable : Layout.isSolid (Layout.width level) table = true) :
    Layout.strip level (blockTemplate name table) =
      Layout.tabs ("export const ".toList ++ name ++ blockOpening ++ table ++ blockClosing) := by
  have htemplate : blockTemplate name table =
      [] ++ [(0, "export const ".toList ++ name ++ ": ".toList ++ ['{']), (1, table),
        (0, ['}'])].flatMap fun l => Layout.line (level + l.1) l.2 := by
    simp [blockTemplate, level]
  have hheader : Layout.isSolid (Layout.width level)
      ("export const ".toList ++ name ++ ": ".toList ++ ['{']) = true := by
    rw [List.append_assoc, List.append_assoc]
    apply Layout.isSolid_append (by decide)
      (Layout.isSolid_append_cons hname (by decide) (by decide))
  have hfirst : Layout.isSolid (Layout.width level) [] = true := rfl
  rw [htemplate, Layout.strip_deeper_lines width_level hfirst]
  . unfold blockOpening blockClosing
    simp [List.intercalate_cons_cons, List.replicate]
  . simp only [List.forall_mem_cons]
    exact ⟨hheader, htable, by decide, by simp⟩

theorem blockText_eq_blockForm
    (h : group.AllNames fun name => ¬ name.HasBreak (Layout.width level)) :
    blockText group = blockForm group.name (arrange (group.functions.map fragment)) := by
  have hfragments : group.functions.map signatureText = group.functions.map fragment := by
    apply List.map_congr_left
    intro function hmem
    exact signatureText_eq_fragment (h.2 function hmem)
  have htable : Layout.isSolid (Layout.width level)
      (("\n\t".toList).intercalate (arrange (group.functions.map fragment))) = true := by
    apply Layout.isSolid_intercalate
    intro t ht
    have hmem := (isArrangement_arrange _).perm.mem_iff.1 ht
    obtain ⟨function, hfunction, rfl⟩ := List.mem_map.1 hmem
    -- the quote that a signature opens with keeps a separator from starting at the line feed
    obtain ⟨t, hquote⟩ := exists_fragment_eq_cons function
    have hsolid := isSolid_fragment (h.2 function hfunction)
    rw [hquote, Layout.isSolid_cons, Bool.and_eq_true] at hsolid
    have hjoin : "\n\t".toList ++ '\'' :: t = "\n\t'".toList ++ t := by simp
    rw [hquote, hjoin]
    apply Layout.isSolid_append (by decide) hsolid.2
  unfold blockText tableText
  rw [hfragments, strip_blockTemplate h.1 htable]
  rfl

end

def spacedGroup : Group :=
  ⟨"   user".toList,
    [⟨"get\n  info".toList, .list ["   id".toList, "name\n".toList]⟩, ⟨"logout".toList, .none⟩]⟩

def spacedApi : ApiMap := ⟨[spacedGroup, ⟨[], []⟩]⟩

def spacedBlock : Text :=
  "export const\tuser: ".toList ++
    '{' :: "\n\t'logout': ReqFnWithAnyParams\n\t'get\n  info': ReqFn & ".toList ++
    '{' :: "\n\t\t<T = Result>(\n\t\t\tparams: ".toList ++
    '{' :: "\tid?: any, name\n?: any ".toList ++
    '}' :: ",\n\t\t\toptions?: RuntimeOptions\n\t\t): Promise<T>\n\t".toList ++
    '}' :: "\n".toList ++ ['}']

end Declaration
end ApiTypings
