import ApiTypings.Proofs.Layout.Lines

/-!
This module contains the laws of tabs: where a text can be cut so that its parts get their tabs
one by one, and what tabs leave alone.
-/

namespace ApiTypings
namespace Layout

theorem tabs_append_cons_of_ne {c : Char} (h : c ≠ ' ') (s t : Text) :
    tabs (s ++ c :: t) = tabs s ++ c :: tabs t := by
  fun_induction tabs s with
  | case1 rest ih =>
    simp only [List.cons_append]
    rw [tabs, ih]
  | case2 d rest hrun ih =>
    rw [List.cons_append, List.cons_append, ← ih]
    rw [tabs]
    intro rest' hd hrest
    -- the fourth space of a run would have to be the character `c`
    rcases rest with _ | ⟨_, _ | ⟨_, _ | ⟨_, _⟩⟩⟩
    . simp_all
    . simp_all
    . simp_all
    . simp_all
  | case3 => exact tabs_cons_of_ne h t

theorem tabs_replicate (n : Nat) (t : Text) :
    tabs (List.replicate (columns * n) ' ' ++ t) = List.replicate n '\t' ++ tabs t := by
  induction n with
  | zero => rfl
  | succ n ih =>
    have hcolumns : columns * (n + 1) = columns * n + 1 + 1 + 1 + 1 := by
      unfold columns
      omega
    rw [hcolumns, List.replicate_succ, List.replicate_succ, List.replicate_succ, List.replicate_succ]
    simp only [List.cons_append]
    rw [tabs, ih, List.replicate_succ, List.cons_append]

theorem tabs_replicate_tab (n : Nat) (t : Text) :
    tabs (List.replicate n '\t' ++ t) = List.replicate n '\t' ++ tabs t := by
  induction n with
  | zero => rfl
  | succ n ih =>
    rw [List.replicate_succ, List.cons_append, tabs_cons_of_ne (by decide), ih, List.cons_append]

theorem tabs_append {s t : Text} (hseam : s.getLast? ≠ some ' ' ∨ t.head? ≠ some ' ') :
    tabs (s ++ t) = tabs s ++ tabs t := by
  cases hseam with
  | inl hlast =>
    cases hs : s.getLast? with
    | none =>
      rw [List.getLast?_eq_none_iff.1 hs]
      rfl
    | some c =>
      have hc : c ≠ ' ' := fun heq => hlast (heq ▸ hs)
      obtain ⟨before, hbefore⟩ := List.getLast?_eq_some_iff.1 hs
      rw [hbefore, List.append_assoc, List.singleton_append, tabs_append_cons_of_ne hc,
        tabs_append_cons_of_ne hc, tabs_nil, List.append_assoc, List.singleton_append]
  | inr hhead =>
    cases t with
    | nil => simp
    | cons c rest =>
      have hc : c ≠ ' ' := by simpa using hhead
      rw [tabs_append_cons_of_ne hc, tabs_cons_of_ne hc]

theorem tabs_intercalate_of_ends {sep : Text} (hne : sep ≠ []) (hhead : sep.head? ≠ some ' ')
    (hlast : sep.getLast? ≠ some ' ') (texts : List Text) :
    tabs (sep.intercalate texts) = (tabs sep).intercalate (texts.map tabs) := by
  induction texts with
  | nil => rfl
  | cons t rest ih =>
    cases rest with
    | nil => simp
    | cons t' rest =>
      have hhead' : (sep ++ sep.intercalate (t' :: rest)).head? ≠ some ' ' := by
        rw [List.head?_append, List.head?_eq_some_head hne]
        rw [List.head?_eq_some_head hne] at hhead
        exact hhead
      rw [List.intercalate_cons_cons, List.append_assoc, tabs_append (.inr hhead'),
        tabs_append (.inl hlast), ih]
      simp [List.intercalate_cons_cons]

theorem tabs_intercalate (texts : List Text) :
    tabs (['\n'].intercalate texts) = ['\n'].intercalate (texts.map tabs) :=
  tabs_intercalate_of_ends (by decide) (by decide) (by decide) texts

theorem strip_deeper_lines {level : Nat} {first : Text} {lines : List (Nat × Text)}
    (hlevel : width level = columns * level) (hfirst : isSolid (width level) first = true)
    (hlines : ∀ l ∈ lines, isSolid (width level) l.2 = true) :
    strip level (first ++ lines.flatMap fun l => line (level + l.1) l.2) =
      tabs (['\n'].intercalate
        ((first :: lines.map fun l => List.replicate l.1 '\t' ++ l.2).filter (· ≠ []))) := by
  have hspaces : lines.flatMap (fun l => line (level + l.1) l.2) =
      (lines.map fun l => List.replicate (columns * l.1) ' ' ++ l.2).flatMap (line level) := by
    simp only [List.flatMap_map, line_add]
  have hsolid : ∀ t ∈ lines.map fun l => List.replicate (columns * l.1) ' ' ++ l.2,
      isSolid (width level) t = true := by
    intro t ht
    obtain ⟨l, hl, rfl⟩ := List.mem_map.1 ht
    apply isSolid_append (isSolid_replicate_space (width level) (columns * l.1)) (hlines l hl)
  have hempty : ∀ l : Nat × Text,
      List.replicate (columns * l.1) ' ' ++ l.2 ≠ [] ↔ List.replicate l.1 '\t' ++ l.2 ≠ [] := by
    intro l
    have hcolumns : columns * l.1 = 0 ↔ l.1 = 0 := by
      unfold columns
      omega
    rw [Ne, Ne, List.append_eq_nil_iff, List.append_eq_nil_iff, List.replicate_eq_nil_iff,
      List.replicate_eq_nil_iff, hcolumns]
  rw [hspaces, strip_template (.inr hlevel) hfirst hsolid, tabs_intercalate, tabs_intercalate]
  rw [List.filter_cons, List.filter_cons, List.filter_map, List.filter_map]
  simp only [Function.comp_def, hempty]
  congr 1
  split <;> simp [tabs_replicate, tabs_replicate_tab]

theorem notMem_tabs {c : Char} (hc : c ≠ '\t') {t : Text} (h : c ∉ t) : c ∉ tabs t := by
  fun_induction tabs t with
  | case1 rest ih => simp_all
  | case2 d rest hrun ih => simp_all
  | case3 => exact h

theorem breaksOff_tabs {n : Nat} {t : Text} (h : Text.breaksOff n t = true) :
    Text.breaksOff n (tabs t) = true := by
  fun_induction tabs t generalizing n with
  | case1 rest ih =>
    match n, h with
    | n + 4, h =>
      have hrest : Text.breaksOff n rest = true := by
        simpa only [Text.breaksOff_cons, Text.isBlank_space, Bool.not_true, Bool.false_or] using h
      rw [Text.breaksOff_cons, ih (Text.breaksOff_mono (by omega) hrest), Bool.or_true]
    | 0, h | 1, h | 2, h | 3, h => simp [Text.breaksOff_cons, Text.breaksOff_zero] at h
  | case2 c rest hrun ih =>
    cases n with
    | zero => simp [Text.breaksOff_zero] at h
    | succ n =>
      rw [Text.breaksOff_cons, Bool.or_eq_true] at h ⊢
      apply h.imp_right ih
  | case3 => exact h

theorem isSolid_tabs {width : Nat} {t : Text} (h : isSolid width t = true) :
    isSolid width (tabs t) = true := by
  fun_induction tabs t with
  | case1 rest ih =>
    have hrest : isSolid width rest = true := by
      simp only [isSolid_cons, Bool.and_eq_true] at h
      exact h.2.2.2.2
    rw [isSolid_cons, ih hrest]
    rfl
  | case2 c rest hrun ih =>
    rw [isSolid_cons, Bool.and_eq_true, Bool.or_eq_true] at h ⊢
    exact ⟨h.1.imp_right breaksOff_tabs, ih h.2⟩
  | case3 => rfl

end Layout
end ApiTypings
