import ApiTypings.Proofs.Layout.Tabs

/-!
This module contains the texts that tabs leave alone because no two spaces stand together in them,
and how such texts are put together.
-/

namespace ApiTypings
namespace Layout

def isSparse : Text → Bool
  | ' ' :: ' ' :: _ => false
  | _ :: rest => isSparse rest
  | [] => true

theorem tabs_eq_self_of_isSparse {t : Text} (h : isSparse t = true) : tabs t = t := by
  fun_induction isSparse t with
  | case1 => cases h
  | case2 c rest hpair ih =>
    rw [tabs, ih h]
    intro rest' hc hrest
    apply hpair _ hc hrest
  | case3 => rfl

theorem isSparse_cons (c : Char) (t : Text) :
    isSparse (c :: t) = (!(c == ' ' && t.head? == some ' ') && isSparse t) := by
  cases t with
  | nil => simp [isSparse]
  | cons d rest =>
    by_cases h : c = ' ' ∧ d = ' '
    . rw [h.1, h.2]
      rfl
    . have hpair : (c == ' ' && some d == some ' ') = false := by simpa using h
      rw [isSparse, List.head?_cons, hpair]
      . rfl
      . intro rest' hc hd
        rw [List.cons.injEq] at hd
        exact h ⟨hc, hd.1⟩

theorem isSparse_of_notMem {t : Text} (h : ' ' ∉ t) : isSparse t = true := by
  induction t with
  | nil => rfl
  | cons c rest ih =>
    rw [List.mem_cons, not_or] at h
    have hc : (c == ' ') = false := by simpa using Ne.symm h.1
    rw [isSparse_cons, ih h.2, hc]
    rfl

theorem isSparse_append {s t : Text} (hs : isSparse s = true) (ht : isSparse t = true)
    (hseam : s.getLast? ≠ some ' ' ∨ t.head? ≠ some ' ') : isSparse (s ++ t) = true := by
  induction s with
  | nil => exact ht
  | cons c rest ih =>
    rw [isSparse_cons, Bool.and_eq_true] at hs
    rw [List.cons_append, isSparse_cons, Bool.and_eq_true]
    cases rest with
    | nil => simpa [ht] using hseam
    | cons d rest =>
      rw [List.getLast?_cons_cons] at hseam
      exact ⟨hs.1, ih hs.2 hseam⟩

structure IsTight (t : Text) : Prop where
  sparse : isSparse t = true
  ne_nil : t ≠ []
  head : t.head? ≠ some ' '
  last : t.getLast? ≠ some ' '

namespace IsTight

theorem append {s t u : Text} (hs : IsTight s) (ht : isSparse t = true) (hu : IsTight u) :
    IsTight (s ++ (t ++ u)) where
  sparse := by
    apply isSparse_append hs.sparse _ (Or.inl hs.last)
    apply isSparse_append ht hu.sparse (Or.inr hu.head)
  ne_nil := List.append_ne_nil_of_left_ne_nil hs.ne_nil _
  head := by
    have hhead := hs.head
    rw [List.head?_eq_some_head hs.ne_nil] at hhead
    rw [List.head?_append, List.head?_eq_some_head hs.ne_nil]
    exact hhead
  last := by
    have hlast := hu.last
    rw [List.getLast?_eq_some_getLast hu.ne_nil] at hlast
    rw [← List.append_assoc, List.getLast?_append, List.getLast?_eq_some_getLast hu.ne_nil]
    exact hlast

theorem intercalate {sep : Text} {texts : List Text} (hsep : isSparse sep = true)
    (hne : texts ≠ []) (h : ∀ t ∈ texts, IsTight t) : IsTight (sep.intercalate texts) := by
  induction texts with
  | nil => exact absurd rfl hne
  | cons t rest ih =>
    have ht := h t List.mem_cons_self
    cases rest with
    | nil => simpa using ht
    | cons u rest =>
      have hrest := ih (by simp) fun v hv => h v (List.mem_cons_of_mem t hv)
      rw [List.intercalate_cons_cons, List.append_assoc]
      apply ht.append hsep hrest

end IsTight
end Layout
end ApiTypings
