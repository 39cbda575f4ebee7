import ApiTypings.Proofs.Layout.Normalized
import ApiTypings.Proofs.Text.Pieces

/-!
This module contains the texts that are laid out already: those that come out as they went in. If the
separators of a level are wider than their line feed, they are the texts without a run of spaces and
without a separator, and else those without a run of spaces and without an empty line. At such a level
what comes out is always one of these texts.
-/

namespace ApiTypings
namespace Layout

def rejoined (level : Nat) (t : Text) : Text :=
  ['\n'].intercalate ((segments (width level) t).filter (· ≠ []))

section

variable {level n : Nat} {t : Text}

theorem rejoined_sublist (level : Nat) (t : Text) :
    (rejoined level t).Sublist (['\n'].intercalate (segments (width level) t)) := by
  unfold rejoined
  apply Text.intercalate_sublist
  apply List.filter_sublist

-- every separator that is passed over and every four spaces that become a tab make a text shorter

theorem strip_eq_self_iff : strip level t = t ↔ ¬HasRun t ∧ rejoined level t = t := by
  have hstrip : strip level t = tabs (rejoined level t) := rfl
  rw [hstrip]
  constructor
  . intro h
    have hsublist : (rejoined level t).Sublist t :=
      (rejoined_sublist level t).trans (intercalate_segmentsFrom_sublist (width level) 0 t)
    have hlength : t.length ≤ (rejoined level t).length := by
      calc
        t.length = (tabs (rejoined level t)).length := by rw [h]
        _ ≤ (rejoined level t).length := length_tabs_le _
    have hrejoined := hsublist.eq_of_length_le hlength
    rw [hrejoined] at h
    exact ⟨tabs_eq_self_iff.1 h, hrejoined⟩
  . rintro ⟨hrun, hrejoined⟩
    rw [hrejoined]
    apply tabs_eq_self_of_not_hasRun hrun

theorem segmentsFrom_of_not_hasBreak (h : ¬t.HasBreak n) : segmentsFrom n 0 t = [t] := by
  induction t with
  | nil => rfl
  | cons c rest ih =>
    rw [Text.hasBreak_cons_iff, not_or] at h
    rw [segmentsFrom, if_neg h.1, ih h.2, List.modifyHead_cons]

-- what a wide separator takes away is not made up for by joining what it separates

theorem length_lt_of_hasBreak (hpos : 0 < n) (h : t.HasBreak n) :
    (['\n'].intercalate (segmentsFrom n 0 t)).length < t.length := by
  induction t with
  | nil => exact absurd h (Text.not_hasBreak_nil n)
  | cons c rest ih =>
    rw [segmentsFrom]
    split
    . next hsep =>
      obtain ⟨m, rfl⟩ : ∃ m, n = m + 1 := ⟨n - 1, by omega⟩
      cases rest with
      | nil => cases hsep.2
      | cons d rest =>
        have hlength := (intercalate_segmentsFrom_sublist (m + 1) m rest).length_le
        rw [List.intercalate_cons_of_ne_nil (segmentsFrom_ne_nil _ _ _), segmentsFrom]
        simp only [List.nil_append, List.singleton_append, List.length_cons]
        omega
    . next hsep =>
      have hrest := (Text.hasBreak_cons_iff.1 h).resolve_left hsep
      have hlength := ih hrest
      rw [intercalate_modifyHead_cons c (segmentsFrom_ne_nil _ _ _), List.length_cons,
        List.length_cons]
      omega

theorem rejoined_eq_self_iff (hpos : 0 < width level) :
    rejoined level t = t ↔ ¬t.HasBreak (width level) := by
  constructor
  . intro h hbreak
    have hshorter := length_lt_of_hasBreak hpos hbreak
    have hlength := (rejoined_sublist level t).length_le
    unfold segments at hlength
    rw [h] at hlength
    omega
  . intro h
    unfold rejoined segments
    rw [segmentsFrom_of_not_hasBreak h]
    by_cases ht : t = []
    . rw [ht]
      rfl
    . rw [List.filter_cons_of_pos (by simpa using ht), List.filter_nil, List.intercalate_singleton]

-- a separator of width zero is a line feed

theorem segments_zero (t : Text) : segments 0 t = t.splitOn '\n' := by
  unfold segments
  induction t with
  | nil => rfl
  | cons c rest ih =>
    rw [segmentsFrom, List.splitOn_cons_eq_if_modifyHead, ih]
    simp only [Text.startsBlank_zero, and_true, beq_iff_eq]

theorem rejoined_of_width_eq_zero (hwidth : width level = 0) (t : Text) :
    rejoined level t = ['\n'].intercalate ((t.splitOn '\n').filter (· ≠ [])) := by
  rw [rejoined, hwidth, segments_zero]

theorem splitOn_rejoined (hwidth : width level = 0) (h : rejoined level t ≠ []) :
    (rejoined level t).splitOn '\n' = (t.splitOn '\n').filter (· ≠ []) := by
  rw [rejoined_of_width_eq_zero hwidth] at h ⊢
  apply List.splitOn_intercalate '\n'
  . intro piece hmem
    apply notMem_of_mem_splitOn (List.mem_of_mem_filter hmem)
  . intro hnone
    rw [hnone] at h
    exact h rfl

theorem rejoined_eq_self_iff_of_width_eq_zero (hwidth : width level = 0) :
    rejoined level t = t ↔ t = [] ∨ [] ∉ t.splitOn '\n' := by
  constructor
  . intro h
    by_cases ht : t = []
    . exact .inl ht
    . right
      have hcut := splitOn_rejoined hwidth (h ▸ ht)
      rw [h] at hcut
      rw [hcut]
      simp
  . intro h
    rw [rejoined_of_width_eq_zero hwidth]
    cases h with
    | inl ht =>
      rw [ht]
      rfl
    | inr hlines =>
      have hkept : (t.splitOn '\n').filter (· ≠ []) = t.splitOn '\n' := by
        rw [List.filter_eq_self]
        intro piece hmem
        simpa using fun heq : piece = [] => hlines (heq ▸ hmem)
      rw [hkept, List.intercalate_splitOn]

theorem tabs_eq_nil_iff : tabs t = [] ↔ t = [] := by
  constructor
  . intro h
    unfold tabs at h
    split at h
    . cases h
    . cases h
    . rfl
  . intro h
    rw [h, tabs_nil]

theorem splitOn_tabs (t : Text) : (tabs t).splitOn '\n' = (t.splitOn '\n').map tabs := by
  have htabs : tabs t = ['\n'].intercalate ((t.splitOn '\n').map tabs) := by
    rw [← tabs_intercalate, List.intercalate_splitOn]
  rw [htabs]
  apply List.splitOn_intercalate '\n'
  . intro line hmem
    obtain ⟨piece, hpiece, rfl⟩ := List.mem_map.1 hmem
    apply notMem_tabs (by decide) (notMem_of_mem_splitOn hpiece)
  . simp

theorem strip_strip (hwidth : width level = 0) (t : Text) :
    strip level (strip level t) = strip level t := by
  rw [strip_eq_self_iff, rejoined_eq_self_iff_of_width_eq_zero hwidth]
  refine ⟨not_hasRun_tabs (rejoined level t), ?_⟩
  by_cases h : rejoined level t = []
  . left
    exact tabs_eq_nil_iff.2 h
  . right
    have hstrip : strip level t = tabs (rejoined level t) := rfl
    rw [hstrip, splitOn_tabs, splitOn_rejoined hwidth h]
    intro hmem
    obtain ⟨piece, hpiece, hempty⟩ := List.mem_map.1 hmem
    rw [tabs_eq_nil_iff] at hempty
    simpa [hempty] using List.of_mem_filter hpiece

theorem fault?_of_width_eq_zero (hwidth : width level = 0) : fault? level = none := by
  rw [fault?, hwidth]
  decide

theorem normalize_eq_ok_iff (hlevel : fault? level = none) {s : Text} :
    normalize level t = .ok s ↔ strip level t = s := by
  rw [normalize_of_fault?_eq_none hlevel, Except.ok.injEq]

end

/-- The texts that stay as they are, for levels whose separators are wider than their line feed and for
    those where they are not. At one of those a text that has been laid out is laid out for good. -/
theorem normalize_eq_self_iff :
    (∀ level t, fault? level = none → 0 < 4 * level % wordSize →
      (normalize level t = .ok t ↔ ¬HasRun t ∧ ¬t.HasBreak (4 * level % wordSize)))
      ∧
    (∀ level t, 4 * level % wordSize = 0 →
      (normalize level t = .ok t ↔ ¬HasRun t ∧ (t = [] ∨ [] ∉ t.splitOn '\n')))
      ∧
    ∀ level t, 4 * level % wordSize = 0 → ∃ s,
      normalize level t = .ok s
        ∧
      normalize level s = .ok s := by
  refine ⟨?_, ?_, ?_⟩
  . intro level t hlevel hwidth
    rw [normalize_eq_ok_iff hlevel, strip_eq_self_iff]
    exact and_congr_right fun _ => rejoined_eq_self_iff hwidth
  . intro level t hwidth
    rw [normalize_eq_ok_iff (fault?_of_width_eq_zero hwidth), strip_eq_self_iff,
      rejoined_eq_self_iff_of_width_eq_zero hwidth]
  . intro level t hwidth
    have hlevel := fault?_of_width_eq_zero hwidth
    refine ⟨strip level t, normalize_of_fault?_eq_none hlevel t, ?_⟩
    rw [normalize_eq_ok_iff hlevel, strip_strip hwidth]

def nearlyBroken : Text := "(\n \t\u00a0\n  \u3000key\n\n   ".toList

def broken : Text := "(\n \t\u00a0\n  \u3000\tkey\n\n   ".toList

theorem normalize_nearlyBroken :
    fault? 2 = none
      ∧
    0 < 4 * 2 % wordSize
      ∧
    normalize 2 nearlyBroken = .ok nearlyBroken
      ∧
    normalize 2 broken ≠ .ok broken
      ∧
    4 * 0 % wordSize = 0
      ∧
    normalize 0 "a\n\nb".toList ≠ .ok "a\n\nb".toList := by
  obtain ⟨hwide, hnarrow, _⟩ := normalize_eq_self_iff
  have hlevel : fault? 2 = none := by decide
  have hpos : 0 < 4 * 2 % wordSize := by decide
  refine ⟨hlevel, hpos, ?_, ?_, rfl, ?_⟩
  . rw [hwide 2 nearlyBroken hlevel hpos]
    decide
  . intro h
    exact absurd ((hwide 2 broken hlevel hpos).1 h) (by decide)
  . intro h
    exact absurd ((hnarrow 0 _ rfl).1 h) (by decide)

theorem length_gt_of_hasBreak {n : Nat} {t : Text} (h : t.HasBreak n) : n < t.length := by
  obtain ⟨before, blanks, after, rfl, hlength, _⟩ := h
  simp only [List.length_append, List.length_cons]
  omega

/-- The width of this level does not fit into a word, and a text without a separator of that width
    loses an empty line. -/
theorem normalize_wrapped :
    1 ≤ 0x4000000000000000
      ∧
    fault? 0x4000000000000000 = none
      ∧
    normalize 0x4000000000000000 "a\n\nb".toList = .ok "a\nb".toList
      ∧
    ¬HasRun "a\n\nb".toList
      ∧
    ¬Text.HasBreak (4 * 0x4000000000000000) "a\n\nb".toList := by
  have hwidth : width 0x4000000000000000 = 0 := by decide
  have hlevel := fault?_of_width_eq_zero hwidth
  refine ⟨by decide, hlevel, ?_, by decide, ?_⟩
  . rw [normalize_of_fault?_eq_none hlevel, strip, hwidth]
    rfl
  . intro h
    exact absurd (length_gt_of_hasBreak h) (by decide)

end Layout
end ApiTypings
