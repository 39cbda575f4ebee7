import ApiTypings.Proofs.Text.Delimited
import ApiTypings.Proofs.Layout.Tabs

/-!
This module contains what is safe from the layout of a template: every character that is not blank.
Separators are blank, and so are the spaces that become tabs and the tabs that they become, so that
no other character comes, goes or moves.
-/

namespace ApiTypings
namespace Text

def withoutBlanks (t : Text) : Text := t.filter fun c => !isBlank c

theorem withoutBlanks_cons_of_isBlank {c : Char} (h : isBlank c = true) (t : Text) :
    withoutBlanks (c :: t) = withoutBlanks t := by
  unfold withoutBlanks
  rw [List.filter_cons_of_neg]
  simp [h]

@[simp]
theorem withoutBlanks_append (s t : Text) :
    withoutBlanks (s ++ t) = withoutBlanks s ++ withoutBlanks t := by
  unfold withoutBlanks
  apply List.filter_append

theorem withoutBlanks_cons (c : Char) (t : Text) :
    withoutBlanks (c :: t) = withoutBlanks [c] ++ withoutBlanks t := by
  rw [← withoutBlanks_append, List.singleton_append]

theorem withoutBlanks_flatMap (f : α → Text) (as : List α) :
    withoutBlanks (as.flatMap f) = as.flatMap fun a => withoutBlanks (f a) := by
  unfold withoutBlanks
  apply List.filter_flatMap

theorem withoutBlanks_intercalate {sep : Text} (hsep : withoutBlanks sep = []) (texts : List Text) :
    withoutBlanks (sep.intercalate texts) = withoutBlanks texts.flatten := by
  cases texts with
  | nil => rfl
  | cons t rest =>
    rw [intercalate_cons, withoutBlanks_append, withoutBlanks_flatMap, List.flatten_cons,
      withoutBlanks_append]
    simp only [withoutBlanks_append, hsep, List.nil_append]
    rw [← withoutBlanks_flatMap, List.flatMap_id']

end Text

namespace Layout

theorem withoutBlanks_tabs (t : Text) : (tabs t).withoutBlanks = t.withoutBlanks := by
  fun_induction tabs t with
  | case1 rest ih =>
    rw [Text.withoutBlanks_cons_of_isBlank (by decide), ih]
    rfl
  | case2 c rest hrun ih => rw [Text.withoutBlanks_cons, ih, ← Text.withoutBlanks_cons]
  | case3 => rfl

theorem segmentsFrom_ne_nil (width skip : Nat) (t : Text) : segmentsFrom width skip t ≠ [] := by
  fun_induction segmentsFrom width skip t with
  | case1 => simp
  | case2 skip c rest ih => exact ih
  | case3 => simp
  | case4 c rest hsep ih => simpa using ih

theorem flatten_modifyHead_cons (c : Char) {pieces : List Text} (hne : pieces ≠ []) :
    (pieces.modifyHead (c :: ·)).flatten = c :: pieces.flatten := by
  cases pieces with
  | nil => exact absurd rfl hne
  | cons piece rest => rfl

theorem withoutBlanks_segmentsFrom {width skip : Nat} {t : Text}
    (h : Text.startsBlank skip t = true) :
    Text.withoutBlanks (segmentsFrom width skip t).flatten = t.withoutBlanks := by
  fun_induction segmentsFrom width skip t with
  | case1 => rfl
  -- what is passed over is the rest of a separator
  | case2 skip c rest ih =>
    rw [Text.startsBlank, Bool.and_eq_true] at h
    rw [Text.withoutBlanks_cons_of_isBlank h.1, ih h.2]
  | case3 c rest hsep ih =>
    rw [hsep.1, Text.withoutBlanks_cons_of_isBlank (by decide), List.flatten_cons, List.nil_append,
      ih hsep.2]
  | case4 c rest hsep ih =>
    rw [flatten_modifyHead_cons c (segmentsFrom_ne_nil _ _ _), Text.withoutBlanks_cons,
      ih (Text.startsBlank_zero rest), ← Text.withoutBlanks_cons]

theorem withoutBlanks_strip (level : Nat) (t : Text) :
    (strip level t).withoutBlanks = t.withoutBlanks := by
  unfold strip segments
  rw [withoutBlanks_tabs, Text.withoutBlanks_intercalate (by decide), List.flatten_filter_ne_nil,
    withoutBlanks_segmentsFrom (Text.startsBlank_zero t)]

end Layout
end ApiTypings
