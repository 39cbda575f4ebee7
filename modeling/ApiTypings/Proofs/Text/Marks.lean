import ApiTypings.Proofs.Text.Delimited
import Mathlib.Data.List.Infix

/-!
This module contains how a text is taken apart at a mark: what stands in front of its first
occurrence and behind it, and the pieces between all its occurrences.
-/

namespace ApiTypings
namespace Text

def cutBefore (mark : Text) : Text → List Text
  | [] => [[]]
  | c :: rest =>
    if mark.isPrefixOf (c :: rest) then
      [] :: (cutBefore mark rest).modifyHead (c :: ·)
    else
      (cutBefore mark rest).modifyHead (c :: ·)

def isClearOf (mark : Text) : Text → Bool
  | [] => true
  | c :: rest =>
    !mark.isPrefixOf (c :: rest) && !(c :: rest).isPrefixOf mark && isClearOf mark rest

section

variable {mark s t : Text} {c : Char}

theorem isClearOf_cons_iff : isClearOf mark (c :: t) = true ↔
    mark.isPrefixOf (c :: t) = false ∧ (c :: t).isPrefixOf mark = false ∧
      isClearOf mark t = true := by
  rw [isClearOf, Bool.and_eq_true, Bool.and_eq_true, Bool.not_eq_true', Bool.not_eq_true',
    and_assoc]

theorem isPrefixOf_append_eq_false (h : mark.isPrefixOf s = false) (h' : s.isPrefixOf mark = false)
    (t : Text) : mark.isPrefixOf (s ++ t) = false := by
  rw [Bool.eq_false_iff, Ne, List.isPrefixOf_iff_prefix]
  rintro ⟨rest, hrest⟩
  exact append_ne_append h h' rest t hrest

theorem isPrefixOf_eq_false_of_append (h : s.isPrefixOf mark = false) (t : Text) :
    (s ++ t).isPrefixOf mark = false := by
  rw [Bool.eq_false_iff, Ne, List.isPrefixOf_iff_prefix] at h ⊢
  intro hstart
  apply h ((List.prefix_append s t).trans hstart)

theorem isClearOf_append (hs : isClearOf mark s = true) (ht : isClearOf mark t = true) :
    isClearOf mark (s ++ t) = true := by
  induction s with
  | nil => exact ht
  | cons c rest ih =>
    rw [isClearOf_cons_iff] at hs
    rw [List.cons_append, isClearOf_cons_iff]
    refine ⟨?_, ?_, ih hs.2.2⟩
    . apply isPrefixOf_append_eq_false hs.1 hs.2.1
    . apply isPrefixOf_eq_false_of_append hs.2.1

theorem isClearOf_of_notMem (h : c ∉ t) : isClearOf (c :: mark) t = true := by
  induction t with
  | nil => rfl
  | cons d rest ih =>
    rw [List.mem_cons, not_or] at h
    rw [isClearOf_cons_iff]
    refine ⟨?_, ?_, ih h.2⟩
    . simp [List.isPrefixOf, h.1]
    . simp [List.isPrefixOf, Ne.symm h.1]

theorem cutBefore_append (hs : isClearOf mark s = true) (t : Text) :
    cutBefore mark (s ++ t) = (cutBefore mark t).modifyHead (s ++ ·) := by
  induction s with
  | nil =>
    rw [List.nil_append]
    cases cutBefore mark t <;> rfl
  | cons c rest ih =>
    rw [isClearOf_cons_iff] at hs
    have hnone := isPrefixOf_append_eq_false hs.1 hs.2.1 t
    rw [List.cons_append] at hnone
    rw [List.cons_append, cutBefore, hnone, if_neg Bool.false_ne_true, ih hs.2.2]
    cases cutBefore mark t <;> rfl

theorem cutBefore_flatten {texts : List Text}
    (h : ∀ t ∈ texts, mark.isPrefixOf t = true ∧ isClearOf mark t.tail = true ∧ t ≠ []) :
    cutBefore mark texts.flatten = [] :: texts := by
  induction texts with
  | nil => rfl
  | cons t rest ih =>
    obtain ⟨hmark, hclear, hne⟩ := h t List.mem_cons_self
    have hrest := ih fun u hu => h u (List.mem_cons_of_mem t hu)
    cases t with
    | nil => exact absurd rfl hne
    | cons c t =>
      have hstart : mark.isPrefixOf (c :: (t ++ rest.flatten)) = true := by
        rw [List.isPrefixOf_iff_prefix] at hmark ⊢
        apply hmark.trans (List.prefix_append (c :: t) rest.flatten)
      rw [List.tail_cons] at hclear
      rw [List.flatten_cons, List.cons_append, cutBefore, if_pos hstart, cutBefore_append hclear,
        hrest]
      simp

theorem length_le_of_append_cons {s' t' : Text} (h : s ++ c :: t = s' ++ c :: t') (hs : c ∉ s) :
    s.length ≤ s'.length := by
  apply Nat.le_of_not_lt
  intro hlt
  have hstart : s' ++ [c] <+: s := by
    apply List.prefix_of_prefix_length_le _ (List.prefix_append s (c :: t))
    . rw [List.length_append, List.length_singleton]
      omega
    . rw [h]
      exact ⟨t', by simp⟩
  apply hs (hstart.subset (by simp))

theorem dropInfix?_append {before : Text} (hbefore : c ∉ before) (hs : c ∉ s) (after t : Text) :
    (s ++ (before ++ c :: after ++ t)).dropInfix? (before ++ c :: after) = some (s, t) := by
  rw [List.dropInfix?_eq_some_iff]
  refine ⟨⟨before ++ c :: after, by simp, by simp⟩, ?_⟩
  intro s' mark' t' htext hmark
  rw [beq_iff_eq] at hmark
  have hparts : (s ++ before) ++ c :: (after ++ t) = (s' ++ before) ++ c :: (after ++ t') := by
    simpa [hmark] using htext
  have hlength := length_le_of_append_cons hparts (by simp [hs, hbefore])
  rw [List.length_append, List.length_append] at hlength
  omega

end

end Text
end ApiTypings
