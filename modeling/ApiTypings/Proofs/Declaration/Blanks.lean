import ApiTypings.Proofs.Declaration.Outline
import ApiTypings.Proofs.Layout.Blanks

/-!
This module contains what can be seen in a declaration module, whatever the names of an api map are
made of: the characters of the templates and of the names, in the order in which they were filled
in. The layout of a signature and then that of the block around it change only what is blank.
-/

namespace ApiTypings
namespace Declaration

def rawPreamble : Text :=
  "// default response result interface Result".toList ++
    '{' :: "code: number, data: any, msg?: string".toList ++
    '}' :: "interface ReqFn".toList ++
    '{' :: "key: string mock: any params: object | string[]".toList ++
    '}' :: "interface RuntimeOptions".toList ++
    '{' :: "// for jsonp callbackName?: string [key: string]: any".toList ++
    '}' :: "interface ReqFnWithAnyParams extends ReqFn".toList ++
    '{' :: "<T = Result>(params?: any, options?: RuntimeOptions): Promise<T>".toList ++ ['}']

def rawSignature (function : Function) : Text :=
  if function.params.isEmpty then
    "'".toList ++ function.name ++ "': ReqFnWithAnyParams".toList
  else
    "'".toList ++ function.name ++ callOpening ++ attributes function.params ++ callClosing

def rawBlock (group : Group) : Text :=
  "export const".toList ++ group.name ++ [':', '{'] ++
    (inOrder group.functions).flatMap rawSignature ++ ['}']

theorem withoutBlanks_line (level : Nat) (t : Text) :
    (Layout.line level t).withoutBlanks = t.withoutBlanks := by
  unfold Layout.line
  rw [Text.withoutBlanks_cons_of_isBlank (by decide), Text.withoutBlanks_append]
  have hspaces : Text.withoutBlanks (List.replicate (Layout.columns * level) ' ') = [] := by
    unfold Text.withoutBlanks
    rw [List.filter_replicate_of_neg (by decide)]
  rw [hspaces, List.nil_append]

theorem withoutBlanks_preambleTemplate :
    Text.withoutBlanks preambleTemplate = Text.withoutBlanks rawPreamble := by
  decide +kernel

theorem withoutBlanks_signatureTemplate (name members : Text) :
    (signatureTemplate name members).withoutBlanks =
      Text.withoutBlanks ("'".toList ++ name ++ callOpening ++ members ++ callClosing) := by
  have hcons (t : Text) : '\'' :: t = "'".toList ++ t := rfl
  have hbraced : (Text.braced members).withoutBlanks =
      Text.withoutBlanks ['{'] ++ (members.withoutBlanks ++ Text.withoutBlanks ['}']) := by
    have htext : Text.braced members = ['{', ' '] ++ (members ++ [' ', '}']) := rfl
    rw [htext, Text.withoutBlanks_append, Text.withoutBlanks_append]
    rfl
  unfold signatureTemplate
  rw [hcons]
  simp only [Text.withoutBlanks_append, withoutBlanks_line, hbraced, List.append_assoc]
  rfl

theorem withoutBlanks_signatureText (function : Function) :
    (signatureText function).withoutBlanks = (rawSignature function).withoutBlanks := by
  unfold signatureText rawSignature
  simp only [memberList_eq_nil_iff]
  split
  . simp [looseSignature]
  . rw [Layout.withoutBlanks_strip, withoutBlanks_signatureTemplate, memberList_eq_attributes]

theorem withoutBlanks_tableText (group : Group) :
    (tableText group).withoutBlanks =
      Text.withoutBlanks ((inOrder group.functions).flatMap rawSignature) := by
  unfold tableText
  rw [arrange_map_signatureText, Text.withoutBlanks_intercalate (by decide), ← List.flatMap_def,
    Text.withoutBlanks_flatMap, Text.withoutBlanks_flatMap]
  simp only [withoutBlanks_signatureText]

theorem withoutBlanks_blockText (group : Group) :
    (blockText group).withoutBlanks = (rawBlock group).withoutBlanks := by
  unfold blockText blockTemplate rawBlock
  rw [Layout.withoutBlanks_strip]
  simp only [Text.withoutBlanks_append, withoutBlanks_line, withoutBlanks_tableText,
    List.append_assoc]
  rfl

theorem withoutBlanks_moduleText (apis : ApiMap) :
    (moduleText apis).withoutBlanks =
      Text.withoutBlanks (rawPreamble ++ apis.groups.flatMap rawBlock) := by
  unfold moduleText preambleText
  have hblank : Text.withoutBlanks "\n\n".toList = [] := by decide
  rw [Text.withoutBlanks_append, Text.withoutBlanks_append, Layout.withoutBlanks_strip,
    withoutBlanks_preambleTemplate, hblank, List.append_nil, Text.withoutBlanks_intercalate hblank,
    ← List.flatMap_def, Text.withoutBlanks_append, Text.withoutBlanks_flatMap,
    Text.withoutBlanks_flatMap]
  simp only [withoutBlanks_blockText]

/-- A declaration module is always generated, and what can be seen in it is what can be seen in the
    templates and names before anything is laid out, with the functions of each group in the order
    in which their signatures stand in its table. -/
theorem withoutBlanks_ofApiMap (apis : ApiMap) :
    ∃ code,
      ofApiMap apis = .ok code
        ∧
      code.withoutBlanks = Text.withoutBlanks (rawPreamble ++ apis.groups.flatMap rawBlock)
        ∧
      ∀ group ∈ apis.groups,
        (inOrder group.functions).Perm group.functions
          ∧
        ∃ texts,
          signatures (inOrder group.functions) = .ok texts
            ∧
          table group = .ok (("\n\t".toList).intercalate texts) := by
  refine ⟨moduleText apis, ofApiMap_eq apis, withoutBlanks_moduleText apis, ?_⟩
  intro group _
  refine ⟨List.mergeSort_perm group.functions _, _, signatures_eq _, ?_⟩
  rw [table_eq, tableText, arrange_map_signatureText]

def scatteredApi : ApiMap :=
  ⟨[⟨"us\n              er".toList,
    [⟨"lo    gout".toList, .none⟩, ⟨"get\n\n\tinfo".toList, .list ["i\u00a0d".toList]⟩]⟩]⟩

theorem withoutBlanks_scatteredApi :
    ∃ code,
      ofApiMap scatteredApi = .ok code
        ∧
      code.withoutBlanks = Text.withoutBlanks rawPreamble ++
        "exportconstuser:".toList ++ '{' :: "'logout':ReqFnWithAnyParams".toList ++
        "'getinfo':ReqFn&".toList ++ '{' :: "<T=Result>(params:".toList ++
        '{' :: "id?:any".toList ++ '}' :: ",options?:RuntimeOptions):Promise<T>".toList ++
        ['}', '}'] := by
  obtain ⟨code, hcode, hblanks, _⟩ := withoutBlanks_ofApiMap scatteredApi
  refine ⟨code, hcode, ?_⟩
  have horder (functions : List Function) (h : functions.Pairwise fun f g =>
      decide (signatureLength f ≤ signatureLength g) = true) : inOrder functions = functions :=
    List.mergeSort_of_pairwise h
  unfold scatteredApi at hblanks
  rw [List.flatMap_singleton] at hblanks
  unfold rawBlock at hblanks
  rw [horder _ (by decide +kernel)] at hblanks
  rw [hblanks]
  decide +kernel

end Declaration
end ApiTypings
