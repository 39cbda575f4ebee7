import ApiTypings.Declaration.Signature

/-!
This module contains what it means that texts are arranged: they stand in order of length, and those
of one length in the order in which they were given.
-/

namespace ApiTypings
namespace Declaration

/-- One list of texts is the other one in order of length, ties in the order they had. -/
structure IsArrangement (texts arranged : List Text) : Prop where
  perm : arranged.Perm texts
  ascending : arranged.Pairwise fun s t => s.length ≤ t.length
  stable : ∀ n, arranged.filter (fun t => t.length = n) = texts.filter (fun t => t.length = n)

theorem shorter_trans (s t u : Text) (hst : decide (s.length ≤ t.length) = true)
    (htu : decide (t.length ≤ u.length) = true) : decide (s.length ≤ u.length) = true := by
  rw [decide_eq_true_eq] at *
  omega

theorem shorter_total (s t : Text) :
    (decide (s.length ≤ t.length) || decide (t.length ≤ s.length)) = true := by
  rw [Bool.or_eq_true, decide_eq_true_eq, decide_eq_true_eq]
  omega

theorem isArrangement_arrange (texts : List Text) : IsArrangement texts (arrange texts) where
  perm := List.mergeSort_perm texts _
  ascending := by
    have hsorted := List.pairwise_mergeSort shorter_trans shorter_total texts
    exact hsorted.imp fun h => of_decide_eq_true h
  stable := by
    intro n
    have hperm : ((arrange texts).filter fun t => t.length = n).Perm
        (texts.filter fun t => t.length = n) := (List.mergeSort_perm texts _).filter _
    -- texts of one length are in order already, so sorting keeps them as they are
    have hequal : (texts.filter fun t => t.length = n).Pairwise
        fun s t => decide (s.length ≤ t.length) = true := by
      rw [List.pairwise_filter]
      apply List.pairwise_of_forall
      intro s t hs ht
      simp_all
    have hsub : (texts.filter fun t => t.length = n).Sublist (arrange texts) :=
      List.sublist_mergeSort shorter_trans shorter_total hequal List.filter_sublist
    have hsub' := hsub.filter fun t => t.length = n
    rw [List.filter_filter] at hsub'
    simp only [Bool.and_self] at hsub'
    exact (hsub'.eq_of_length hperm.length_eq.symm).symm

section

variable {texts texts' arranged arranged' : List Text}

theorem mem_of_forall_filter_eq {t : Text}
    (h : ∀ n, texts.filter (fun t => t.length = n) = texts'.filter fun t => t.length = n)
    (ht : t ∈ texts) : t ∈ texts' := by
  have hmem : t ∈ texts'.filter fun s => s.length = t.length := by
    rw [← h, List.mem_filter]
    exact ⟨ht, by simp⟩
  exact (List.mem_filter.1 hmem).1

theorem eq_of_forall_filter_eq (hsorted : texts.Pairwise fun s t => s.length ≤ t.length)
    (hsorted' : texts'.Pairwise fun s t => s.length ≤ t.length)
    (h : ∀ n, texts.filter (fun t => t.length = n) = texts'.filter fun t => t.length = n) :
    texts = texts' := by
  induction texts generalizing texts' with
  | nil =>
    rw [eq_comm, List.eq_nil_iff_forall_not_mem]
    intro t ht
    have hmem := mem_of_forall_filter_eq (fun n => (h n).symm) ht
    cases hmem
  | cons s rest ih =>
    cases texts' with
    | nil =>
      have hmem := mem_of_forall_filter_eq h List.mem_cons_self
      cases hmem
    | cons t rest' =>
      rw [List.pairwise_cons] at hsorted hsorted'
      -- each head is in the other list, so none is shorter than the other
      have hlength : t.length = s.length := by
        have hs := mem_of_forall_filter_eq h List.mem_cons_self
        have ht := mem_of_forall_filter_eq (fun n => (h n).symm) List.mem_cons_self
        rw [List.mem_cons] at hs ht
        apply Nat.le_antisymm
        . cases hs with
          | inl heq => apply Nat.le_of_eq (congrArg List.length heq.symm)
          | inr hmem => apply hsorted'.1 s hmem
        . cases ht with
          | inl heq => apply Nat.le_of_eq (congrArg List.length heq.symm)
          | inr hmem => apply hsorted.1 t hmem
      have hhead := h s.length
      rw [List.filter_cons_of_pos (by simp), List.filter_cons_of_pos (by simp [hlength]),
        List.cons.injEq] at hhead
      have hrest : ∀ n, rest.filter (fun t => t.length = n) =
          rest'.filter fun t => t.length = n := by
        intro n
        have hn := h n
        by_cases hs : s.length = n
        . rw [List.filter_cons_of_pos (by simp [hs]),
            List.filter_cons_of_pos (by simp [hlength, hs]), List.cons.injEq] at hn
          exact hn.2
        . rw [List.filter_cons_of_neg (by simp [hs]),
            List.filter_cons_of_neg (by simp [hlength, hs])] at hn
          exact hn
      rw [hhead.1, ih hsorted.2 hsorted'.2 hrest]

theorem IsArrangement.unique (h : IsArrangement texts arranged)
    (h' : IsArrangement texts arranged') : arranged = arranged' := by
  apply eq_of_forall_filter_eq h.ascending h'.ascending
  intro n
  rw [h.stable, h'.stable]

theorem isArrangement_swap {s t : Text} (h : t.length < s.length) : IsArrangement [s, t] [t, s] where
  perm := .swap s t []
  ascending := List.pairwise_pair.2 (Nat.le_of_lt h)
  stable := by
    intro n
    by_cases hs : s.length = n
    . have ht : t.length ≠ n := by omega
      simp [hs, ht]
    . simp [List.filter_cons, hs]

theorem arrange_congr
    (h : ∀ n, texts.filter (fun t => t.length = n) = texts'.filter fun t => t.length = n) :
    arrange texts = arrange texts' := by
  have harranged := isArrangement_arrange texts
  have harranged' := isArrangement_arrange texts'
  apply eq_of_forall_filter_eq harranged.ascending harranged'.ascending
  intro n
  rw [harranged.stable, harranged'.stable, h]

end

end Declaration
end ApiTypings
