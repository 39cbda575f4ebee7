/-!
This module contains what is missing in the theory of cutting a list at an element and of joining the
pieces again.
-/

namespace ApiTypings

variable {α : Type}

section

variable [DecidableEq α]

theorem splitOn_cons_self (sep : α) (t : List α) : (sep :: t).splitOn sep = [] :: t.splitOn sep := by
  rw [List.splitOn_cons_eq_if_modifyHead, if_pos (beq_self_eq_true sep)]

theorem splitOn_cons_of_ne {sep c : α} (h : c ≠ sep) (t : List α) :
    ∃ piece pieces,
      t.splitOn sep = piece :: pieces
        ∧
      (c :: t).splitOn sep = (c :: piece) :: pieces := by
  obtain ⟨piece, pieces, hs⟩ := List.exists_cons_of_ne_nil (List.splitOn_ne_nil sep t)
  refine ⟨piece, pieces, hs, ?_⟩
  rw [List.splitOn_cons_eq_if_modifyHead, if_neg (by simpa using h), hs, List.modifyHead_cons]

theorem notMem_of_mem_splitOn {sep : α} {t piece : List α} (h : piece ∈ t.splitOn sep) :
    sep ∉ piece := by
  induction t generalizing piece with
  | nil =>
    rw [List.splitOn_nil, List.mem_singleton] at h
    simp [h]
  | cons c rest ih =>
    by_cases hc : c = sep
    . rw [hc, splitOn_cons_self] at h
      cases List.mem_cons.1 h with
      | inl hnil => simp [hnil]
      | inr hmem => exact ih hmem
    . obtain ⟨first, pieces, hrest, hcut⟩ := splitOn_cons_of_ne hc rest
      rw [hcut] at h
      cases List.mem_cons.1 h with
      | inl heq =>
        have hfirst : sep ∉ first := ih (hrest ▸ List.mem_cons_self)
        simp [heq, hfirst, Ne.symm hc]
      | inr hmem => exact ih (hrest ▸ List.mem_cons_of_mem _ hmem)

end

theorem intercalate_cons (sep t : List α) (rest : List (List α)) :
    sep.intercalate (t :: rest) = t ++ rest.flatMap (sep ++ ·) := by
  induction rest generalizing t with
  | nil => simp
  | cons t' rest ih =>
    rw [List.intercalate_cons_cons, ih, List.flatMap_cons, List.append_assoc, List.append_assoc]

theorem intercalate_prefix (sep : List α) (start rest : List (List α)) :
    sep.intercalate start <+: sep.intercalate (start ++ rest) := by
  cases start with
  | nil => exact List.nil_prefix
  | cons piece start =>
    rw [List.cons_append, intercalate_cons, intercalate_cons, List.flatMap_append,
      ← List.append_assoc]
    apply List.prefix_append

theorem intercalate_suffix (sep : List α) (pieces : List (List α)) {rest : List (List α)}
    (hrest : rest ≠ []) : sep.intercalate rest <:+ sep.intercalate (pieces ++ rest) := by
  induction pieces with
  | nil => exact List.suffix_refl _
  | cons piece pieces ih =>
    apply ih.trans
    rw [List.cons_append]
    cases hpieces : pieces ++ rest with
    | nil => exact absurd (List.append_eq_nil_iff.1 hpieces).2 hrest
    | cons next later =>
      rw [List.intercalate_cons_cons]
      apply List.suffix_append

end ApiTypings
