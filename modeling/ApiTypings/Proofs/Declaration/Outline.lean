import ApiTypings.Proofs.Declaration.ClosedForm
import ApiTypings.Proofs.Layout.Sparse

/-!
This module contains what a declaration module says about its api map: its outline. Modules are
equal if and only if their outlines are, as long as no name holds a blank character or one of those
that the declarations are built with.
-/

namespace ApiTypings
namespace Text

def marks : Text := ['\'', ':', '?', ',', '{', '}']

def IsPlain (t : Text) : Prop := ∀ c ∈ t, isBlank c = false ∧ c ∉ marks

instance (t : Text) : Decidable t.IsPlain := List.decidableBAll _ t

end Text

namespace Declaration

def signatureLength (function : Function) : Nat :=
  match functionSignature function with
  | .error _ => 0
  | .ok text => text.length

def inOrder (functions : List Function) : List Function :=
  functions.mergeSort fun f g => signatureLength f ≤ signatureLength g

end Declaration

def Function.outline (function : Function) : Text × List Parameter :=
  (function.name, function.params.parameters)

def Group.outline (group : Group) : Text × List (Text × List Parameter) :=
  (group.name, (Declaration.inOrder group.functions).map Function.outline)

def ApiMap.outline (apis : ApiMap) : List (Text × List (Text × List Parameter)) :=
  apis.groups.map Group.outline

namespace Declaration

def plainFragment (function : Text × List Parameter) : Text :=
  "'".toList ++ function.1 ++
    if function.2 = [] then
      "': ReqFnWithAnyParams".toList
    else
      callOpening ++ " ".toList ++
        ((", ".toList).intercalate (function.2.map member) ++ ' ' :: callClosing)

def plainBlock (group : Text × List (Text × List Parameter)) : Text :=
  "export const ".toList ++ group.1 ++ blockOpening ++
    (("\n\t".toList).intercalate (group.2.map plainFragment) ++ blockClosing)

section

variable {name : Text} {parameter : Parameter} {function : Function} {group : Group}

theorem notMem_space_of_isPlain (h : name.IsPlain) : ' ' ∉ name := by
  intro hmem
  have hblank := (h ' ' hmem).1
  simp at hblank

theorem not_hasBreak_of_isPlain (n : Nat) (h : name.IsPlain) : ¬ name.HasBreak n := by
  rintro ⟨before, blanks, after, hname, _⟩
  have hblank := (h '\n' (by simp [hname])).1
  simp at hblank

theorem isSparse_of_isPlain (h : name.IsPlain) : Layout.isSparse name = true := by
  apply Layout.isSparse_of_notMem
  apply notMem_space_of_isPlain h

theorem head?_ne_space_of_isPlain (h : name.IsPlain) : name.head? ≠ some ' ' := by
  intro hhead
  apply notMem_space_of_isPlain h (List.mem_of_head? hhead)

theorem isTight_member (h : parameter.name.IsPlain) : Layout.IsTight (member parameter) := by
  have hsparse := isSparse_of_isPlain h
  have hhead := head?_ne_space_of_isPlain h
  rw [member_eq]
  refine ⟨?_, ?_, ?_, ?_⟩
  . apply Layout.isSparse_append hsparse
    . cases parameter.required <;> decide
    . right
      cases parameter.required <;> decide
  . cases parameter.required <;> simp
  . rw [List.head?_append]
    cases hname : parameter.name with
    | nil => cases parameter.required <;> decide
    | cons c rest =>
      rw [hname] at hhead
      exact hhead
  . rw [List.getLast?_append]
    cases parameter.required <;> simp

theorem isTight_memberList {params : Params} (hne : ¬ params.isEmpty = true)
    (h : ∀ parameter ∈ params.parameters, parameter.name.IsPlain) :
    Layout.IsTight (memberList params) := by
  unfold memberList
  apply Layout.IsTight.intercalate
  . decide
  . rw [← Params.parameters_eq_nil_iff] at hne
    simpa using hne
  . intro t ht
    obtain ⟨parameter, hmem, rfl⟩ := List.mem_map.1 ht
    apply isTight_member (h parameter hmem)

theorem isTight_typed {params : Params} (hname : name.IsPlain) (hne : ¬ params.isEmpty = true)
    (h : ∀ parameter ∈ params.parameters, parameter.name.IsPlain) :
    Layout.IsTight ("'".toList ++ name ++ callOpening ++ " ".toList ++ memberList params ++
      " ".toList ++ callClosing) := by
  have hquote : Layout.IsTight "'".toList := ⟨by decide, by decide, by decide, by decide⟩
  have hbefore : Layout.IsTight callOpening := ⟨by decide, by decide, by decide, by decide⟩
  have hafter : Layout.IsTight callClosing := ⟨by decide, by decide, by decide, by decide⟩
  have hspace : Layout.isSparse [' '] = true := by decide
  have htext := ((hquote.append (isSparse_of_isPlain hname) hbefore).append hspace
    (isTight_memberList hne h)).append hspace hafter
  simpa using htext

theorem isTight_loose (hname : name.IsPlain) :
    Layout.IsTight ("'".toList ++ name ++ "': ReqFnWithAnyParams".toList) := by
  have hquote : Layout.IsTight "'".toList := ⟨by decide, by decide, by decide, by decide⟩
  have hafter : Layout.IsTight "': ReqFnWithAnyParams".toList :=
    ⟨by decide, by decide, by decide, by decide⟩
  simpa using hquote.append (isSparse_of_isPlain hname) hafter

theorem isTight_fragment (h : function.AllNames Text.IsPlain) :
    Layout.IsTight (fragment function) := by
  unfold fragment
  split
  . apply isTight_loose h.1
  . next hne =>
    have htight := isTight_typed h.1 hne h.2
    rw [← memberList_eq_attributes, Layout.tabs_eq_self_of_isSparse htight.sparse]
    exact htight

theorem fragment_eq_plainFragment (h : function.AllNames Text.IsPlain) :
    fragment function = plainFragment function.outline := by
  unfold fragment plainFragment Function.outline
  simp only [Params.parameters_eq_nil_iff]
  split
  . simp
  . next hne =>
    have htight := isTight_typed h.1 hne h.2
    rw [← memberList_eq_attributes, Layout.tabs_eq_self_of_isSparse htight.sparse, memberList]
    simp

theorem blockForm_eq_plainBlock {name : Text} {functions : List Function} (hname : name.IsPlain)
    (h : ∀ function ∈ functions, function.AllNames Text.IsPlain) :
    blockForm name (functions.map fragment) =
      plainBlock (name, functions.map Function.outline) := by
  have hjoined : Layout.isSparse (("\n\t".toList).intercalate (functions.map fragment)) = true := by
    cases functions with
    | nil => rfl
    | cons function rest =>
      apply Layout.IsTight.sparse
      apply Layout.IsTight.intercalate (by decide) (by simp)
      intro t ht
      obtain ⟨function, hmem, rfl⟩ := List.mem_map.1 ht
      exact isTight_fragment (h function hmem)
  have hheader : Layout.IsTight "export const".toList := ⟨by decide, by decide, by decide, by decide⟩
  have hopen : Layout.IsTight blockOpening := ⟨by decide, by decide, by decide, by decide⟩
  have hclose : Layout.IsTight blockClosing := ⟨by decide, by decide, by decide, by decide⟩
  have hspaced : Layout.isSparse (' ' :: name) = true :=
    Layout.isSparse_append (by decide : Layout.isSparse [' '] = true) (isSparse_of_isPlain hname)
      (Or.inr (head?_ne_space_of_isPlain hname))
  have htight := (hheader.append hspaced hopen).append hjoined hclose
  have hfragments : functions.map fragment =
      (functions.map Function.outline).map plainFragment := by
    rw [List.map_map]
    apply List.map_congr_left
    intro function hmem
    exact fragment_eq_plainFragment (h function hmem)
  unfold blockForm plainBlock
  rw [Layout.tabs_eq_self_of_isSparse]
  . rw [hfragments]
    simp
  . simpa using htight.sparse

theorem signatureLength_eq (function : Function) :
    signatureLength function = (signatureText function).length := by
  unfold signatureLength
  rw [functionSignature_eq]

theorem arrange_map_signatureText (functions : List Function) :
    arrange (functions.map signatureText) = (inOrder functions).map signatureText := by
  unfold arrange inOrder
  symm
  apply List.map_mergeSort
  intro f _ g _
  rw [signatureLength_eq, signatureLength_eq]

theorem mem_inOrder {functions : List Function} :
    function ∈ inOrder functions ↔ function ∈ functions := by
  exact (List.mergeSort_perm functions _).mem_iff

theorem arrange_map_fragment
    (h : group.AllNames fun name => ¬ name.HasBreak (Layout.width level)) :
    arrange (group.functions.map fragment) = (inOrder group.functions).map fragment := by
  have heq {functions : List Function} (hsub : ∀ function ∈ functions, function ∈ group.functions) :
      functions.map fragment = functions.map signatureText := by
    apply List.map_congr_left
    intro function hmem
    exact (signatureText_eq_fragment (h.2 function (hsub function hmem))).symm
  rw [heq fun _ hmem => hmem, heq fun _ => mem_inOrder.1]
  apply arrange_map_signatureText

theorem blockText_eq_plainBlock (h : group.AllNames Text.IsPlain) :
    blockText group = plainBlock group.outline := by
  have hsolid := h.imp fun _ => not_hasBreak_of_isPlain (Layout.width level)
  rw [blockText_eq_blockForm hsolid, arrange_map_fragment hsolid]
  exact blockForm_eq_plainBlock h.1 fun function hmem => h.2 function (mem_inOrder.1 hmem)

end

def IsPlainFunction (function : Text × List Parameter) : Prop :=
  function.1.IsPlain ∧ ∀ parameter ∈ function.2, parameter.name.IsPlain

def IsPlainGroup (group : Text × List (Text × List Parameter)) : Prop :=
  group.1.IsPlain ∧ ∀ function ∈ group.2, IsPlainFunction function

theorem stop_eq_false_of_isPlain {name : Text} {stop : Char → Bool} (h : name.IsPlain)
    (hstop : ∀ c, stop c = true → c ∈ Text.marks) : ∀ c ∈ name, stop c = false := by
  intro c hc
  rw [Bool.eq_false_iff]
  exact fun hs => (h c hc).2 (hstop c hs)

theorem isDelimited_member :
    Text.IsDelimited (fun parameter : Parameter => parameter.name.IsPlain) member := by
  intro a b ha hb s t h
  obtain ⟨name, required⟩ := a
  obtain ⟨name', required'⟩ := b
  have hstop : ∀ c, (c == ':' || c == '?') = true → c ∈ Text.marks := by
    intro c hc
    simp only [Bool.or_eq_true, beq_iff_eq] at hc
    cases hc with
    | inl hc =>
      rw [hc]
      decide
    | inr hc =>
      rw [hc]
      decide
  rw [member_eq, member_eq, List.append_assoc, List.append_assoc] at h
  obtain ⟨hname, hmark⟩ := Text.append_inj_of_stop (stop_eq_false_of_isPlain ha hstop)
    (stop_eq_false_of_isPlain hb hstop) (by cases required <;> simp) (by cases required' <;> simp) h
  cases required with
  | true =>
    cases required' with
    | true => simp_all
    | false => simp at hmark
  | false =>
    cases required' with
    | true => simp at hmark
    | false => simp_all

theorem member_append_ne_space {parameter : Parameter} (h : parameter.name.IsPlain) (s t : Text) :
    member parameter ++ s ≠ ' ' :: callClosing ++ t := by
  intro heq
  have htight := isTight_member h
  have hhead := htight.head
  rw [List.head?_eq_some_head htight.ne_nil] at hhead
  have := congrArg List.head? heq
  rw [List.head?_append, List.head?_eq_some_head htight.ne_nil] at this
  apply hhead this

theorem isDelimited_plainFragment : Text.IsDelimited IsPlainFunction plainFragment := by
  intro a b ha hb s t h
  obtain ⟨name, parameters⟩ := a
  obtain ⟨name', parameters'⟩ := b
  have hstop : ∀ c, (c == '\'') = true → c ∈ Text.marks := by
    intro c hc
    rw [beq_iff_eq.1 hc]
    decide
  have hquote (parameters : List Parameter) : ((if parameters = [] then
      "': ReqFnWithAnyParams".toList
    else
      callOpening ++ (" ".toList ++
        ((", ".toList).intercalate (parameters.map member) ++ ' ' :: callClosing))).head?.any
          fun c => c == '\'') = true := by
    split <;> rfl
  unfold plainFragment at h
  simp only [List.append_assoc] at h
  obtain ⟨hname, htail⟩ := Text.append_inj_of_stop (stop_eq_false_of_isPlain ha.1 hstop)
    (stop_eq_false_of_isPlain hb.1 hstop) (Text.any_head?_append (hquote _) _)
    (Text.any_head?_append (hquote _) _) (List.append_cancel_left h)
  simp only [Prod.mk.injEq]
  by_cases hempty : parameters = []
  . by_cases hempty' : parameters' = []
    . rw [if_pos hempty, if_pos hempty'] at htail
      exact ⟨⟨hname, by rw [hempty, hempty']⟩, List.append_cancel_left htail⟩
    . rw [if_pos hempty, if_neg hempty', List.append_assoc] at htail
      exact absurd htail (Text.append_ne_append (by decide) (by decide) _ _)
  . by_cases hempty' : parameters' = []
    . rw [if_neg hempty, if_pos hempty', List.append_assoc] at htail
      exact absurd htail (Text.append_ne_append (by decide) (by decide) _ _)
    . rw [if_neg hempty, if_neg hempty'] at htail
      simp only [List.append_assoc] at htail
      obtain ⟨hparameters, hrest⟩ := isDelimited_member.intercalate_inj
        (Text.append_ne_append (by decide) (by decide)) (fun _ => member_append_ne_space) ha.2 hb.2
        (List.append_cancel_left (List.append_cancel_left htail))
      exact ⟨⟨hname, hparameters⟩, hrest⟩

theorem plainFragment_append_ne (function : Text × List Parameter) (s t : Text) :
    plainFragment function ++ s ≠ blockClosing ++ t := by
  unfold plainFragment
  simp only [List.append_assoc]
  apply Text.append_ne_append (by decide) (by decide) _ _

theorem isDelimited_plainBlock : Text.IsDelimited IsPlainGroup plainBlock := by
  intro a b ha hb s t h
  obtain ⟨name, functions⟩ := a
  obtain ⟨name', functions'⟩ := b
  have hstop : ∀ c, (c == ':') = true → c ∈ Text.marks := by
    intro c hc
    rw [beq_iff_eq.1 hc]
    decide
  have hcolon : (blockOpening.head?.any fun c => c == ':') = true := by decide
  unfold plainBlock at h
  simp only [List.append_assoc] at h
  obtain ⟨hname, htail⟩ := Text.append_inj_of_stop (stop_eq_false_of_isPlain ha.1 hstop)
    (stop_eq_false_of_isPlain hb.1 hstop) (Text.any_head?_append hcolon _)
    (Text.any_head?_append hcolon _) (List.append_cancel_left h)
  obtain ⟨hfunctions, hrest⟩ := isDelimited_plainFragment.intercalate_inj
    (Text.append_ne_append (by decide) (by decide)) (fun f _ => plainFragment_append_ne f) ha.2 hb.2
    (List.append_cancel_left htail)
  simp only [Prod.mk.injEq]
  exact ⟨⟨hname, hfunctions⟩, hrest⟩

theorem plainBlock_append_ne (group : Text × List (Text × List Parameter)) (s t : Text) :
    plainBlock group ++ s ≠ ['}'] ++ t := by
  unfold plainBlock
  simp only [List.append_assoc]
  apply Text.append_ne_append (by decide) (by decide) _ _

theorem isPlainGroup_outline {group : Group} (h : group.AllNames Text.IsPlain) :
    IsPlainGroup group.outline := by
  refine ⟨h.1, ?_⟩
  intro outline hmem
  obtain ⟨function, hfunction, rfl⟩ := List.mem_map.1 hmem
  exact h.2 function (mem_inOrder.1 hfunction)

theorem moduleText_eq_plainBlocks {apis : ApiMap} (h : apis.AllNames Text.IsPlain) :
    moduleText apis =
      preambleText ++ "\n\n".toList ++ ("\n\n".toList).intercalate (apis.outline.map plainBlock) := by
  have hblocks : apis.groups.map blockText = apis.outline.map plainBlock := by
    unfold ApiMap.outline
    rw [List.map_map]
    apply List.map_congr_left
    intro group hmem
    apply blockText_eq_plainBlock (h group hmem)
  unfold moduleText
  rw [hblocks]

theorem isPlainGroup_of_mem_outline {apis : ApiMap} (h : apis.AllNames Text.IsPlain) :
    ∀ outline ∈ apis.outline, IsPlainGroup outline := by
  intro outline hmem
  obtain ⟨group, hgroup, rfl⟩ := List.mem_map.1 hmem
  apply isPlainGroup_outline (h group hgroup)

theorem outline_eq_of_moduleText_eq {apis apis' : ApiMap} (h : apis.AllNames Text.IsPlain)
    (h' : apis'.AllNames Text.IsPlain) (heq : moduleText apis = moduleText apis') :
    apis.outline = apis'.outline := by
  rw [moduleText_eq_plainBlocks h, moduleText_eq_plainBlocks h'] at heq
  have hblocks := List.append_cancel_left heq
  -- the end of a module is no text of its own, so a brace is put there to close the blocks
  have hclosed : ("\n\n".toList).intercalate (apis.outline.map plainBlock) ++ (['}'] ++ []) =
      ("\n\n".toList).intercalate (apis'.outline.map plainBlock) ++ (['}'] ++ []) := by
    rw [hblocks]
  have houtline := isDelimited_plainBlock.intercalate_inj
    (Text.append_ne_append (by decide) (by decide)) (fun g _ => plainBlock_append_ne g)
    (isPlainGroup_of_mem_outline h) (isPlainGroup_of_mem_outline h') hclosed
  exact houtline.1

theorem moduleText_eq_of_outline_eq {apis apis' : ApiMap} (h : apis.AllNames Text.IsPlain)
    (h' : apis'.AllNames Text.IsPlain) (heq : apis.outline = apis'.outline) :
    moduleText apis = moduleText apis' := by
  rw [moduleText_eq_plainBlocks h, moduleText_eq_plainBlocks h', heq]

def listedApi : ApiMap :=
  ⟨[⟨"user".toList, [⟨"info".toList, .list ["id".toList, []]⟩, ⟨"out".toList, .none⟩]⟩, ⟨[], []⟩]⟩

def mappedApi : ApiMap :=
  ⟨[⟨"user".toList,
    [⟨"out".toList, .map []⟩, ⟨"info".toList, .map [⟨"id".toList, false⟩, ⟨[], false⟩]⟩]⟩, ⟨[], []⟩]⟩

end Declaration
end ApiTypings
