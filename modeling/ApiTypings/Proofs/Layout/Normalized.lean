import ApiTypings.Proofs.Layout.Blanks
import ApiTypings.Proofs.Layout.Runs
import Mathlib.Data.List.Flatten

/-!
This module contains what comes out when a text is laid out at a usable level. If the text is made of
lines at this level, these lines come out, each with its tabs. Whatever else the text is, what comes
out shows the same characters, holds no run of spaces and is no longer than the text was.
-/

namespace ApiTypings
namespace Text

theorem intercalate_sublist_flatMap (sep : Text) (texts : List Text) :
    (sep.intercalate texts).Sublist (texts.flatMap (sep ++ ·)) := by
  cases texts with
  | nil => apply List.Sublist.refl
  | cons t rest =>
    rw [intercalate_cons, List.flatMap_cons, List.append_assoc]
    apply List.sublist_append_right

theorem intercalate_sublist (sep : Text) {kept texts : List Text} (h : kept.Sublist texts) :
    (sep.intercalate kept).Sublist (sep.intercalate texts) := by
  cases h with
  | slnil => apply List.Sublist.refl
  | cons t hrest =>
    rw [intercalate_cons]
    apply (intercalate_sublist_flatMap sep kept).trans
    apply (hrest.flatMap (sep ++ ·)).trans
    apply List.sublist_append_right
  | cons_cons t hrest =>
    rw [intercalate_cons, intercalate_cons]
    apply (List.Sublist.refl t).append (hrest.flatMap (sep ++ ·))

end Text

namespace Layout

def IsLine (t : Text) : Prop := t ≠ [] ∧ '\n' ∉ t

instance (t : Text) : Decidable (IsLine t) := inferInstanceAs (Decidable (_ ∧ _))

theorem isSolid_of_notMem {width : Nat} {t : Text} (h : '\n' ∉ t) : isSolid width t = true := by
  induction t with
  | nil => rfl
  | cons c rest ih =>
    rw [List.mem_cons, not_or] at h
    have hc : (c != '\n') = true := by simpa using Ne.symm h.1
    rw [isSolid_cons, hc, ih h.2]
    rfl

theorem filter_ne_nil_of_isLine {lines : List Text} (h : ∀ t ∈ lines, IsLine t) :
    lines.filter (· ≠ []) = lines := by
  rw [List.filter_eq_self]
  intro t ht
  simpa using (h t ht).1

theorem strip_lines {level : Nat} {first : Option Text} {lines : List Text}
    (hlevel : lines = [] ∨ width level = columns * level)
    (h : ∀ t ∈ first.toList ++ lines, IsLine t) :
    strip level (first.getD [] ++ lines.flatMap (line level)) =
      ['\n'].intercalate ((first.toList ++ lines).map tabs) := by
  have hlines : ∀ t ∈ lines, isSolid (width level) t = true := by
    intro t ht
    apply isSolid_of_notMem (h t (List.mem_append_right _ ht)).2
  cases first with
  | none =>
    rw [Option.toList_none, List.nil_append] at h ⊢
    rw [Option.getD_none, strip_template hlevel rfl hlines, List.filter_cons_of_neg (by simp),
      filter_ne_nil_of_isLine h, tabs_intercalate]
  | some t =>
    rw [Option.toList_some, List.singleton_append] at h ⊢
    have hfirst : isSolid (width level) t = true :=
      isSolid_of_notMem (h t List.mem_cons_self).2
    rw [Option.getD_some, strip_template hlevel hfirst hlines, filter_ne_nil_of_isLine h,
      tabs_intercalate]

theorem width_of_length_lt {level : Nat} {lines : List Text}
    (h : (lines.flatMap (line level)).length < wordSize) :
    lines = [] ∨ width level = columns * level := by
  cases lines with
  | nil =>
    left
    rfl
  | cons t rest =>
    right
    apply width_of_lt
    simp only [List.flatMap_cons, line, List.length_append, List.length_cons,
      List.length_replicate] at h
    omega

/-- The law of templates: lines at a usable level, below a first line or below nothing, are laid out
    as these lines, each with its tabs. Blank characters that a line starts or ends with stay. No
    machine holds a text whose length does not fit into a word. -/
theorem normalize_lines (level : Nat) (first : Option Text) (lines : List Text)
    (hlevel : fault? level = none) (h : ∀ t ∈ first.toList ++ lines, IsLine t)
    (hlength : (lines.flatMap fun t => '\n' :: (List.replicate (4 * level) ' ' ++ t)).length <
      wordSize) :
    normalize level
        (first.getD [] ++ lines.flatMap fun t => '\n' :: (List.replicate (4 * level) ' ' ++ t)) =
      .ok (['\n'].intercalate ((first.toList ++ lines).map (tabbed 0))) := by
  have htabs : tabs = tabbed 0 := funext tabs_eq_tabbed
  rw [normalize_of_fault?_eq_none hlevel, ← htabs]
  congr 1
  apply strip_lines (width_of_length_lt hlength) h

def ledgedFirst : Option Text := some "  \t( ".toList

def ledgedLines : List Text := ["     key  ".toList, "      ".toList, "\tmock    any".toList]

theorem normalize_ledgedLines :
    fault? 2 = none
      ∧
    (∀ t ∈ ledgedFirst.toList ++ ledgedLines, IsLine t)
      ∧
    normalize 2
        "  \t( \n             key  \n              \n        \tmock    any".toList =
      .ok "  \t( \n\t key  \n\t  \n\tmock\tany".toList := by
  have hlevel : fault? 2 = none := by decide
  have hlines : ∀ t ∈ ledgedFirst.toList ++ ledgedLines, IsLine t := by decide
  have htext : ['\n'].intercalate ((ledgedFirst.toList ++ ledgedLines).map (tabbed 0)) =
      "  \t( \n\t key  \n\t  \n\tmock\tany".toList := by decide
  refine ⟨hlevel, hlines, ?_⟩
  rw [← htext]
  exact normalize_lines 2 ledgedFirst ledgedLines hlevel hlines (by decide)

theorem intercalate_modifyHead_cons (c : Char) {pieces : List Text} (hne : pieces ≠ []) :
    ['\n'].intercalate (pieces.modifyHead (c :: ·)) = c :: ['\n'].intercalate pieces := by
  cases pieces with
  | nil => exact absurd rfl hne
  | cons piece rest =>
    rw [List.modifyHead_cons, intercalate_cons, intercalate_cons, List.cons_append]

theorem intercalate_segmentsFrom_sublist (width skip : Nat) (t : Text) :
    (['\n'].intercalate (segmentsFrom width skip t)).Sublist t := by
  fun_induction segmentsFrom width skip t with
  | case1 => apply List.Sublist.refl
  | case2 skip c rest ih => apply ih.cons
  | case3 c rest hsep ih =>
    rw [List.intercalate_cons_of_ne_nil (segmentsFrom_ne_nil _ _ _), hsep.1]
    apply ih.cons_cons
  | case4 c rest hsep ih =>
    rw [intercalate_modifyHead_cons c (segmentsFrom_ne_nil _ _ _)]
    apply ih.cons_cons

theorem length_tabs_le (t : Text) : (tabs t).length ≤ t.length := by
  fun_induction tabs t with
  | case1 rest ih =>
    simp only [List.length_cons]
    omega
  | case2 c rest hrun ih =>
    simp only [List.length_cons]
    omega
  | case3 => apply Nat.le_refl

theorem length_strip_le (level : Nat) (t : Text) : (strip level t).length ≤ t.length := by
  have hkept : ((segments (width level) t).filter (· ≠ [])).Sublist (segments (width level) t) :=
    List.filter_sublist
  have hjoined := (Text.intercalate_sublist ['\n'] hkept).trans
    (intercalate_segmentsFrom_sublist (width level) 0 t)
  unfold strip
  apply Nat.le_trans (length_tabs_le _) hjoined.length_le

/-- What can be said of any text that is laid out at a usable level. -/
theorem normalize_conserves (level : Nat) (t : Text) (hlevel : fault? level = none) :
    ∃ s,
      normalize level t = .ok s
        ∧
      s.withoutBlanks = t.withoutBlanks
        ∧
      ¬HasRun s
        ∧
      s.length ≤ t.length := by
  refine ⟨strip level t, normalize_of_fault?_eq_none hlevel t, ?_, ?_, ?_⟩
  . apply withoutBlanks_strip
  . apply not_hasRun_tabs
  . apply length_strip_le

def raggedText : Text := "\n\n\n\n\n\n a \u00a0\u2003\n\u3000\t \n    b   ".toList

theorem normalize_raggedText :
    fault? 1 = none
      ∧
    ∃ s : Text,
      s = "\n a \u00a0\u2003\n\tb   ".toList
        ∧
      normalize 1 raggedText = .ok s
        ∧
      s.withoutBlanks = raggedText.withoutBlanks
        ∧
      ¬HasRun s
        ∧
      s.length ≤ raggedText.length := by
  have hlevel : fault? 1 = none := by decide
  have htext : normalize 1 raggedText = .ok "\n a \u00a0\u2003\n\tb   ".toList := by
    rw [normalize_of_fault?_eq_none hlevel]
    rfl
  obtain ⟨s, hs, hconserved⟩ := normalize_conserves 1 raggedText hlevel
  exact ⟨hlevel, s, Except.ok.inj (hs.symm.trans htext), hs, hconserved⟩

end Layout
end ApiTypings
