import ApiTypings.Proofs.Declaration.Outline

/-!
This module contains the order of the signatures in a table. There is one way only to put signatures
in order of length and those of one length in the order of their functions. So a table does not
depend on how functions with signatures of different lengths are mixed in a group, and functions that
are left out of a group leave nothing in its table but the other signatures as they stood.

Two signatures of a group may be the same text, so each is taken with the place of its function.
-/

namespace ApiTypings

def Group.keep (kept : Nat → Bool) (group : Group) : Group :=
  { group with
    functions := (group.functions.zipIdx.filter fun function => kept function.2).map Prod.fst }

namespace Declaration

/-- Texts with their places in order of length, and those of one length in the order of places. -/
structure IsRanking (numbered ranked : List (Text × Nat)) : Prop where
  perm : ranked.Perm numbered
  ascending : ranked.Pairwise fun s t => s.1.length ≤ t.1.length
  stable : ranked.Pairwise fun s t => s.1.length = t.1.length → s.2 < t.2

structure IsReordering (functions functions' : List Function) : Prop where
  perm : functions'.Perm functions
  stable : ∀ n, functions'.filter (fun function => signatureLength function = n) =
    functions.filter fun function => signatureLength function = n

section

variable {numbered ranked ranked' : List (Text × Nat)}

theorem IsRanking.unique (h : IsRanking numbered ranked) (h' : IsRanking numbered ranked') :
    ranked = ranked' := by
  have hranked := h.ascending.and h.stable
  have hranked' := h'.ascending.and h'.stable
  apply List.Perm.eq_of_pairwise _ hranked hranked' (h.perm.trans h'.perm.symm)
  -- of two different places one only can come first
  intro s t _ _ hst hts
  have hlength : s.1.length = t.1.length := Nat.le_antisymm hst.1 hts.1
  have hplace := hst.2 hlength
  have hplace' := hts.2 hlength.symm
  omega

theorem IsRanking.filter (p : Text × Nat → Bool) (h : IsRanking numbered ranked) :
    IsRanking (numbered.filter p) (ranked.filter p) where
  perm := h.perm.filter p
  ascending := h.ascending.filter p
  stable := h.stable.filter p

theorem IsRanking.isArrangement (hplaces : numbered.Pairwise fun s t => s.2 < t.2)
    (h : IsRanking numbered ranked) :
    IsArrangement (numbered.map Prod.fst) (ranked.map Prod.fst) where
  perm := h.perm.map Prod.fst
  ascending := by
    rw [List.pairwise_map]
    exact h.ascending
  stable := by
    intro n
    rw [List.filter_map, List.filter_map]
    congr 1
    have hstable : (ranked.filter ((fun t => t.length = n) ∘ Prod.fst)).Pairwise
        fun s t => s.2 < t.2 := by
      apply (h.stable.filter _).imp_of_mem
      intro s t hs ht hst
      rw [List.mem_filter] at hs ht
      apply hst
      simp_all
    apply List.Perm.eq_of_pairwise _ hstable (hplaces.filter _) (h.perm.filter _)
    intro s t _ _ hst hts
    omega

end

theorem pairwise_zipIdx (texts : List Text) : texts.zipIdx.Pairwise fun s t => s.2 < t.2 := by
  rw [← List.pairwise_map, List.zipIdx_map_snd]
  apply List.pairwise_lt_range' 1 (by decide)

def rank (texts : List Text) : List (Text × Nat) :=
  texts.zipIdx.mergeSort (List.zipIdxLE fun s t => s.length ≤ t.length)

theorem zipIdxLE_eq_true_iff {s t : Text × Nat} :
    List.zipIdxLE (fun s t => decide (s.length ≤ t.length)) s t = true ↔
      s.1.length ≤ t.1.length ∧ (s.1.length = t.1.length → s.2 ≤ t.2) := by
  unfold List.zipIdxLE
  by_cases hst : s.1.length ≤ t.1.length
  . by_cases hts : t.1.length ≤ s.1.length
    . have hlength : s.1.length = t.1.length := Nat.le_antisymm hst hts
      simp [hlength]
    . have hlength : s.1.length ≠ t.1.length := by omega
      simp [hst, hts, hlength]
  . simp [hst]

theorem isRanking_rank (texts : List Text) : IsRanking texts.zipIdx (rank texts) := by
  have hperm : (rank texts).Perm texts.zipIdx := List.mergeSort_perm _ _
  have hsorted := List.pairwise_mergeSort (List.zipIdxLE_trans shorter_trans)
    (List.zipIdxLE_total shorter_total) texts.zipIdx
  have hplaces : (rank texts).Pairwise fun s t => s.2 ≠ t.2 := by
    apply hperm.symm.pairwise _ fun h => h.symm
    apply (pairwise_zipIdx texts).imp fun h => Nat.ne_of_lt h
  refine ⟨hperm, ?_, ?_⟩
  . apply hsorted.imp
    intro s t hst
    exact (zipIdxLE_eq_true_iff.1 hst).1
  . apply (hsorted.and hplaces).imp
    intro s t hst hlength
    apply Nat.lt_of_le_of_ne _ hst.2
    apply (zipIdxLE_eq_true_iff.1 hst.1).2 hlength

theorem map_fst_filter_rank (texts : List Text) (p : Text × Nat → Bool) :
    ((rank texts).filter p).map Prod.fst = arrange ((texts.zipIdx.filter p).map Prod.fst) := by
  have hplaces := (pairwise_zipIdx texts).filter p
  have hranked := ((isRanking_rank texts).filter p).isArrangement hplaces
  apply hranked.unique (isArrangement_arrange _)

theorem map_fst_rank (texts : List Text) : (rank texts).map Prod.fst = arrange texts := by
  have hranked := (isRanking_rank texts).isArrangement (pairwise_zipIdx texts)
  rw [List.zipIdx_map_fst] at hranked
  apply hranked.unique (isArrangement_arrange texts)

theorem isReordering_swap (before after : List Function) {f g : Function}
    (h : signatureLength f ≠ signatureLength g) :
    IsReordering (before ++ f :: g :: after) (before ++ g :: f :: after) where
  perm := (List.Perm.swap f g after).append_left before
  stable := by
    intro n
    rw [List.filter_append, List.filter_append]
    by_cases hf : signatureLength f = n
    . have hg : signatureLength g ≠ n := fun hg => h (hf.trans hg.symm)
      simp [hf, hg]
    . simp [List.filter_cons, hf]

theorem map_functionSignature (functions : List Function) :
    functions.map functionSignature = (functions.map signatureText).map .ok := by
  rw [List.map_map]
  apply List.map_congr_left
  intro function _
  apply functionSignature_eq

theorem filter_length_map_signatureText (functions : List Function) (n : Nat) :
    (functions.map signatureText).filter (fun t => t.length = n) =
      (functions.filter fun function => signatureLength function = n).map signatureText := by
  rw [List.filter_map]
  congr 2
  funext function
  rw [Function.comp_apply, signatureLength_eq]

theorem table_eq_of_isReordering {group group' : Group}
    (h : IsReordering group.functions group'.functions) : table group' = table group := by
  have harranged : arrange (group'.functions.map signatureText) =
      arrange (group.functions.map signatureText) := by
    apply arrange_congr
    intro n
    rw [filter_length_map_signatureText, filter_length_map_signatureText, h.stable]
  rw [table_eq, table_eq, tableText, tableText, harranged]

theorem map_signatureText_keep (group : Group) (kept : Nat → Bool) :
    (group.keep kept).functions.map signatureText =
      ((group.functions.map signatureText).zipIdx.filter fun t => kept t.2).map Prod.fst := by
  unfold Group.keep
  rw [List.zipIdx_map, List.filter_map, List.map_map, List.map_map]
  rfl

theorem table_keep (group : Group) (kept : Nat → Bool) :
    table (group.keep kept) = .ok (("\n\t".toList).intercalate
      (((rank (group.functions.map signatureText)).filter fun t => kept t.2).map Prod.fst)) := by
  rw [table_eq, tableText, map_signatureText_keep, map_fst_filter_rank]

/-- The table of a group joins the signatures of its functions in the only order there is for them.
    Reordering functions keeps it, and functions that are left out leave the other signatures as
    they stood. -/
theorem table_eq_ranking (group : Group) :
    ∃ (fragments : List Text) (ranked : List (Text × Nat)),
      group.functions.map functionSignature = fragments.map .ok
        ∧
      IsRanking fragments.zipIdx ranked
        ∧
      (∀ ranked', IsRanking fragments.zipIdx ranked' → ranked' = ranked)
        ∧
      table group = .ok (("\n\t".toList).intercalate (ranked.map Prod.fst))
        ∧
      (∀ group', IsReordering group.functions group'.functions → table group' = table group)
        ∧
      ∀ kept, table (group.keep kept) =
        .ok (("\n\t".toList).intercalate ((ranked.filter fun t => kept t.2).map Prod.fst)) := by
  refine ⟨group.functions.map signatureText, rank (group.functions.map signatureText), ?_, ?_, ?_,
    ?_, ?_, ?_⟩
  . apply map_functionSignature
  . apply isRanking_rank
  . intro ranked' h
    apply h.unique (isRanking_rank _)
  . rw [table_eq, tableText, map_fst_rank]
  . intro group' h
    apply table_eq_of_isReordering h
  . intro kept
    apply table_keep

def tiedGroup : Group :=
  ⟨"shop".toList, [⟨"bé".toList, .none⟩, ⟨"order".toList, .list ["sku".toList]⟩, ⟨"aa".toList, .none⟩]⟩

def mixedGroup : Group :=
  ⟨[], [⟨"order".toList, .list ["sku".toList]⟩, ⟨"bé".toList, .none⟩, ⟨"aa".toList, .none⟩]⟩

theorem table_mixedGroup_eq :
    IsReordering tiedGroup.functions mixedGroup.functions
      ∧
    table mixedGroup = table tiedGroup := by
  have hlength : signatureLength ⟨"bé".toList, .none⟩ ≠
      signatureLength ⟨"order".toList, .list ["sku".toList]⟩ := by decide +kernel
  have hreordering : IsReordering tiedGroup.functions mixedGroup.functions :=
    isReordering_swap [] [⟨"aa".toList, .none⟩] hlength
  obtain ⟨_, _, _, _, _, _, hreordered, _⟩ := table_eq_ranking tiedGroup
  exact ⟨hreordering, hreordered mixedGroup hreordering⟩

end Declaration
end ApiTypings
