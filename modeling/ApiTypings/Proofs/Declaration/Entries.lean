import ApiTypings.Proofs.Declaration.Names
import ApiTypings.Proofs.Declaration.Ranking
import ApiTypings.Proofs.Text.Marks

/-!
This module contains how the signatures of a group stand in its block. The block can be cut into one
piece for each function, if no name holds a line feed. The pieces are the signatures with their tabs,
in the order that the table has put the signatures in. The lengths that this order goes by are those
without tabs, so that the pieces themselves are in order of length if no signature is still without
the tabs that it gets in the block: only a loose signature can be, because of its name.
-/

namespace ApiTypings
namespace Declaration

def bodyOf (code : Text) : Option Text :=
  match code.dropInfix? blockOpening with
  | none => none
  | some (_, rest) => rest.dropSuffix? blockClosing

-- the line feed and the tab in front of a quote belong to no piece

def entries (body : Text) : List Text :=
  match Text.cutBefore "\n\t'".toList body with
  | [] => []
  | first :: rest => first :: rest.map fun piece => piece.drop "\n\t".toList.length

def IsEntry (t : Text) : Prop :=
  ∃ rest, t = '\'' :: rest ∧ Text.isClearOf "\n\t'".toList rest = true

section

variable {function : Function} {group : Group}

theorem cutBefore_intercalate {t : Text} {rest : List Text} (h : ∀ u ∈ t :: rest, IsEntry u) :
    Text.cutBefore "\n\t'".toList (("\n\t".toList).intercalate (t :: rest)) =
      t :: rest.map ("\n\t".toList ++ ·) := by
  have hclear : ∀ u ∈ t :: rest, Text.isClearOf "\n\t'".toList u = true := by
    intro u hu
    obtain ⟨v, rfl, hv⟩ := h u hu
    exact Text.isClearOf_append (by decide : Text.isClearOf "\n\t'".toList ['\''] = true) hv
  have hrest : ∀ u ∈ rest.map ("\n\t".toList ++ ·), "\n\t'".toList.isPrefixOf u = true ∧
      Text.isClearOf "\n\t'".toList u.tail = true ∧ u ≠ [] := by
    intro u hu
    obtain ⟨v, hv, rfl⟩ := List.mem_map.1 hu
    have hmem := List.mem_cons_of_mem t hv
    obtain ⟨w, hw, _⟩ := h v hmem
    refine ⟨by simp [hw], ?_, by simp⟩
    exact Text.isClearOf_append (by decide : Text.isClearOf "\n\t'".toList ['\t'] = true)
      (hclear v hmem)
  rw [intercalate_cons, List.flatMap_def,
    Text.cutBefore_append (hclear t List.mem_cons_self), Text.cutBefore_flatten hrest]
  simp

theorem entries_intercalate {texts : List Text} (hne : texts ≠ []) (h : ∀ t ∈ texts, IsEntry t) :
    entries (("\n\t".toList).intercalate texts) = texts := by
  cases texts with
  | nil => exact absurd rfl hne
  | cons t rest =>
    unfold entries
    rw [cutBefore_intercalate h]
    simp [Function.comp_def]

theorem notMem_shownMember {parameter : Parameter} (h : '\n' ∉ parameter.name) :
    '\n' ∉ shownMember parameter := by
  unfold shownMember
  rw [List.mem_append, not_or]
  constructor
  . apply Layout.notMem_tabs (by decide)
    simp [h]
  . cases parameter.required <;> decide

theorem isEntry_shownFragment (h : function.AllNames fun name => '\n' ∉ name) :
    IsEntry (shownFragment function) := by
  have hname : Text.isClearOf "\n\t'".toList (Layout.tabs function.name) = true :=
    Text.isClearOf_of_notMem (Layout.notMem_tabs (by decide) h.1)
  have hmembers : Text.isClearOf "\n\t'".toList
      ((",".toList).intercalate (function.params.parameters.map shownMember)) = true := by
    apply Text.isClearOf_of_notMem
    apply Text.notMem_intercalate (by decide)
    intro t ht
    obtain ⟨parameter, hmem, rfl⟩ := List.mem_map.1 ht
    apply notMem_shownMember (h.2 parameter hmem)
  have hquote (t : Text) : "'".toList ++ t = '\'' :: t := rfl
  unfold shownFragment
  rw [List.append_assoc, hquote]
  refine ⟨_, rfl, Text.isClearOf_append hname ?_⟩
  split
  . decide
  . exact Text.isClearOf_append (Text.isClearOf_append (by decide) hmembers) (by decide)

theorem bodyOf_shownBlock {name : Text} (h : '\n' ∉ name) (functions : List Function) :
    bodyOf (shownBlock name functions) =
      some (("\n\t".toList).intercalate (functions.map shownFragment)) := by
  have hheader : '\n' ∉ "export const".toList ++ Layout.tabs (' ' :: name) := by
    rw [List.mem_append, not_or]
    refine ⟨by decide, Layout.notMem_tabs (by decide) ?_⟩
    simp [h]
  have hopening : '\n' ∉ ": ".toList ++ ['{'] := by decide
  have hblock : shownBlock name functions =
      "export const".toList ++ Layout.tabs (' ' :: name) ++
        (": ".toList ++ ['{'] ++ '\n' :: "\t".toList ++
          (("\n\t".toList).intercalate (functions.map shownFragment) ++ blockClosing)) := by
    unfold shownBlock blockOpening
    simp
  have hmark : blockOpening = ": ".toList ++ ['{'] ++ '\n' :: "\t".toList := rfl
  unfold bodyOf
  rw [hblock, hmark, Text.dropInfix?_append hopening hheader]
  rw [List.dropSuffix?_eq_some_iff]
  exact ⟨_, rfl, by simp⟩

theorem blockText_eq_shownBlock (h : group.AllNames fun name => '\n' ∉ name) :
    blockText group = shownBlock group.name (inOrder group.functions) := by
  have hsolid := h.imp fun _ => not_hasBreak_of_notMem (Layout.width level)
  rw [blockText_eq_blockForm hsolid, arrange_map_fragment hsolid, blockForm_eq_shownBlock]

theorem tabs_signatureText (h : function.AllNames fun name => '\n' ∉ name) :
    Layout.tabs (signatureText function) = shownFragment function := by
  have hsolid := h.imp fun _ => not_hasBreak_of_notMem (Layout.width level)
  rw [signatureText_eq_fragment hsolid, tabs_fragment]

theorem tabs_signatureText_eq_self
    (h : function.params.isEmpty → ¬Layout.HasRun function.name) :
    Layout.tabs (signatureText function) = signatureText function := by
  unfold signatureText
  simp only [memberList_eq_nil_iff]
  split
  . next hempty =>
    unfold looseSignature
    rw [Layout.tabs_cons_of_ne (by decide), Layout.tabs_append (.inr (by decide)),
      Layout.tabs_eq_self_of_not_hasRun (h hempty)]
    rfl
  . apply Layout.tabs_tabs

theorem inOrder_ne_nil {functions : List Function} (h : functions ≠ []) :
    inOrder functions ≠ [] := by
  intro hnil
  have hperm : (inOrder functions).Perm functions := List.mergeSort_perm functions _
  rw [hnil, List.nil_perm] at hperm
  apply h hperm

theorem map_shownFragment_inOrder (h : group.AllNames fun name => '\n' ∉ name) :
    (inOrder group.functions).map shownFragment =
      (rank (group.functions.map signatureText)).map fun t => Layout.tabs t.1 := by
  have hshown : (inOrder group.functions).map shownFragment =
      ((inOrder group.functions).map signatureText).map Layout.tabs := by
    rw [List.map_map]
    apply List.map_congr_left
    intro function hmem
    exact (tabs_signatureText (h.2 function (mem_inOrder.1 hmem))).symm
  rw [hshown, ← arrange_map_signatureText, ← map_fst_rank, List.map_map]
  rfl

theorem entries_of_block (hne : group.functions ≠ [])
    (h : group.AllNames fun name => '\n' ∉ name) :
    ∃ body,
      bodyOf (blockText group) = some body
        ∧
      entries body =
        (rank (group.functions.map signatureText)).map fun t => Layout.tabs t.1 := by
  refine ⟨_, blockText_eq_shownBlock h ▸ bodyOf_shownBlock h.1 _, ?_⟩
  rw [← map_shownFragment_inOrder h]
  apply entries_intercalate
  . rw [Ne, List.map_eq_nil_iff]
    apply inOrder_ne_nil hne
  . intro t ht
    obtain ⟨function, hmem, rfl⟩ := List.mem_map.1 ht
    apply isEntry_shownFragment (h.2 function (mem_inOrder.1 hmem))

end

/-- A block can be cut into its signatures with their tabs, one for each function. They stand in order
    of the lengths that they had without these tabs, and therefore in order of length if no name that
    a loose signature is made of holds a run of spaces. -/
theorem entries_eq_ranking (group : Group) (hne : group.functions ≠ [])
    (hnames : group.AllNames fun name => '\n' ∉ name) :
    ∃ (code body : Text) (fragments : List Text) (ranked : List (Text × Nat)),
      block group = .ok code
        ∧
      bodyOf code = some body
        ∧
      group.functions.map functionSignature = fragments.map .ok
        ∧
      IsRanking fragments.zipIdx ranked
        ∧
      entries body = ranked.map (fun t => Layout.tabs t.1)
        ∧
      ((∀ function ∈ group.functions, function.params.isEmpty → ¬Layout.HasRun function.name) →
        entries body = ranked.map Prod.fst) := by
  obtain ⟨body, hbody, hentries⟩ := entries_of_block hne hnames
  have hranked := isRanking_rank (group.functions.map signatureText)
  refine ⟨blockText group, body, _, _, block_eq group, hbody, ?_, hranked, hentries, ?_⟩
  . apply map_functionSignature
  . intro hloose
    rw [hentries]
    apply List.map_congr_left
    intro t ht
    have hmem : t.1 ∈ group.functions.map signatureText := by
      apply List.fst_mem_of_mem_zipIdx (hranked.perm.mem_iff.1 ht)
    obtain ⟨function, hfunction, heq⟩ := List.mem_map.1 hmem
    rw [← heq]
    apply tabs_signatureText_eq_self (hloose function hfunction)

def evenGroup : Group :=
  ⟨"shop    api".toList,
    [⟨"a   b".toList, .none⟩, ⟨"get    order".toList, .list ["    sku".toList]⟩, ⟨"c   d".toList, .none⟩]⟩

theorem entries_evenGroup :
    evenGroup.functions ≠ []
      ∧
    (evenGroup.AllNames fun name => '\n' ∉ name)
      ∧
    (∀ function ∈ evenGroup.functions, function.params.isEmpty → ¬Layout.HasRun function.name)
      ∧
    ∃ (code body : Text) (fragments : List Text) (ranked : List (Text × Nat)),
      block evenGroup = .ok code
        ∧
      bodyOf code = some body
        ∧
      evenGroup.functions.map functionSignature = fragments.map .ok
        ∧
      IsRanking fragments.zipIdx ranked
        ∧
      entries body = ranked.map Prod.fst := by
  have hloose : ∀ function ∈ evenGroup.functions, function.params.isEmpty →
      ¬Layout.HasRun function.name := by decide
  obtain ⟨code, body, fragments, ranked, hcode, hbody, hfragments, hranked, _, hentries⟩ :=
    entries_eq_ranking evenGroup (by decide) (by decide)
  exact ⟨by decide, by decide, hloose, code, body, fragments, ranked, hcode, hbody, hfragments,
    hranked, hentries hloose⟩

def unevenGroup : Group :=
  ⟨"api".toList, [⟨"a    b".toList, .none⟩, ⟨"abcd".toList, .none⟩]⟩

def sortedUnevenGroup : Group :=
  ⟨"api".toList, [⟨"abcd".toList, .none⟩, ⟨"a    b".toList, .none⟩]⟩

theorem tableText_unevenGroup : tableText unevenGroup =
    "'abcd': ReqFnWithAnyParams\n\t'a    b': ReqFnWithAnyParams".toList := by
  have hreordering : IsReordering sortedUnevenGroup.functions unevenGroup.functions :=
    isReordering_swap [] [] (by decide)
  have htable := table_eq_of_isReordering hreordering
  rw [table_eq, table_eq, Except.ok.injEq] at htable
  rw [htable, tableText, arrange, List.mergeSort_of_pairwise (by decide)]
  rfl

theorem entries_unevenGroup_not_ascending :
    unevenGroup.functions ≠ []
      ∧
    (unevenGroup.AllNames fun name => '\n' ∉ name)
      ∧
    ∃ code body,
      block unevenGroup = .ok code
        ∧
      bodyOf code = some body
        ∧
      entries body = ["'abcd': ReqFnWithAnyParams".toList, "'a\tb': ReqFnWithAnyParams".toList]
        ∧
      ¬(entries body).Pairwise fun s t => s.length ≤ t.length := by
  have hbody : bodyOf (blockText unevenGroup) =
      some "'abcd': ReqFnWithAnyParams\n\t'a\tb': ReqFnWithAnyParams".toList := by
    unfold blockText
    rw [tableText_unevenGroup]
    decide +kernel
  exact ⟨by decide, by decide, _, _, block_eq unevenGroup, hbody, by decide, by decide⟩

end Declaration
end ApiTypings
