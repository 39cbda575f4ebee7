import ApiTypings.Declaration.Module

/-!
This module contains the texts that the generation of declarations produces, without the faults: the
levels of its templates can always be laid out, so nothing that is generated can fail.
-/

namespace ApiTypings
namespace Declaration

def signatureText (function : Function) : Text :=
  if memberList function.params = [] then
    looseSignature function.name
  else
    Layout.strip level (signatureTemplate function.name (memberList function.params))

def tableText (group : Group) : Text :=
  ("\n\t".toList).intercalate (arrange (group.functions.map signatureText))

def blockText (group : Group) : Text :=
  Layout.strip level (blockTemplate group.name (tableText group))

def preambleText : Text := Layout.strip preambleLevel preambleTemplate

def moduleText (apis : ApiMap) : Text :=
  preambleText ++ "\n\n".toList ++ ("\n\n".toList).intercalate (apis.groups.map blockText)

theorem width_level : Layout.width level = Layout.columns * level := by
  decide

theorem normalize_level (t : Text) : Layout.normalize level t = .ok (Layout.strip level t) := by
  apply Layout.normalize_of_fault?_eq_none
  decide

theorem functionSignature_eq (function : Function) :
    functionSignature function = .ok (signatureText function) := by
  unfold functionSignature signature signatureText
  split
  . rfl
  . apply normalize_level _

theorem signatures_eq (functions : List Function) :
    signatures functions = .ok (functions.map signatureText) := by
  induction functions with
  | nil => rfl
  | cons function rest ih => simp [signatures, functionSignature_eq, ih]

theorem table_eq (group : Group) : table group = .ok (tableText group) := by
  unfold table
  rw [signatures_eq]
  rfl

theorem block_eq (group : Group) : block group = .ok (blockText group) := by
  unfold block
  rw [table_eq]
  apply normalize_level _

theorem blocks_eq (groups : List Group) : blocks groups = .ok (groups.map blockText) := by
  induction groups with
  | nil => rfl
  | cons group rest ih => simp [blocks, block_eq, ih]

theorem preamble_eq : preamble = .ok preambleText := by
  apply Layout.normalize_of_fault?_eq_none
  decide

theorem ofApiMap_eq (apis : ApiMap) : ofApiMap apis = .ok (moduleText apis) := by
  unfold ofApiMap
  rw [preamble_eq, blocks_eq]
  rfl

theorem head?_of_ofApiMap {apis : ApiMap} {code : Text}
    (h : ofApiMap apis = .ok code) : code.head? = some '/' := by
  have hpreamble : preambleText.head? = some '/' := by decide +kernel
  rw [ofApiMap_eq] at h
  rw [← Except.ok.inj h]
  unfold moduleText
  rw [List.append_assoc, List.head?_append, hpreamble]
  rfl

end Declaration
end ApiTypings
