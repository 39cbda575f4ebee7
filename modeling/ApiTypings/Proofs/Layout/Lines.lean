import ApiTypings.Layout
import ApiTypings.Proofs.Text.Delimited

/-!
This module contains the law of templates: a text that is made of lines at a level falls into
exactly these lines, as long as no line holds a separator of its own.

A line may hold line feeds. What keeps a separator from starting at one of them is a character that
is not blank and stands close enough behind it.
-/

namespace ApiTypings
namespace Text

def breaksOff (n : Nat) (t : Text) : Bool := (t.take n).any fun c => !isBlank c

theorem breaksOff_zero (t : Text) : breaksOff 0 t = false := by
  simp [breaksOff]

theorem breaksOff_cons (n : Nat) (c : Char) (t : Text) :
    breaksOff (n + 1) (c :: t) = (!isBlank c || breaksOff n t) := by
  simp [breaksOff]

theorem breaksOff_append {n : Nat} {s : Text} (h : breaksOff n s = true) (t : Text) :
    breaksOff n (s ++ t) = true := by
  unfold breaksOff at h ⊢
  rw [List.take_append, List.any_append, h, Bool.true_or]

theorem breaksOff_mono {m n : Nat} (hmn : m ≤ n) {t : Text} (h : breaksOff m t = true) :
    breaksOff n t = true := by
  unfold breaksOff at h ⊢
  rw [List.any_eq_true] at h ⊢
  obtain ⟨c, hc, hblank⟩ := h
  exact ⟨c, (List.take_prefix_take_left hmn).subset hc, hblank⟩

theorem startsBlank_eq_not_breaksOff {n : Nat} {t : Text} (h : breaksOff n t = true) :
    startsBlank n t = false := by
  induction n generalizing t with
  | zero => simp [breaksOff_zero] at h
  | succ n ih =>
    cases t with
    | nil => rfl
    | cons c rest =>
      rw [breaksOff_cons] at h
      rw [startsBlank]
      by_cases hc : isBlank c = true
      . simp only [hc, Bool.not_true, Bool.false_or] at h
        simp [ih h]
      . simp [hc]

/-- Whether a line feed with `n` blank characters or more right after it stands in a text. -/
def HasBreak (n : Nat) (t : Text) : Prop :=
  ∃ before blanks after, t = before ++ '\n' :: (blanks ++ after) ∧ n ≤ blanks.length ∧
    ∀ c ∈ blanks, isBlank c = true

theorem startsBlank_iff {n : Nat} {t : Text} : startsBlank n t = true ↔
    ∃ blanks after, t = blanks ++ after ∧ n ≤ blanks.length ∧ ∀ c ∈ blanks, isBlank c = true := by
  induction n generalizing t with
  | zero =>
    rw [startsBlank_zero]
    exact ⟨fun _ => ⟨[], t, rfl, Nat.le_refl 0, by simp⟩, fun _ => rfl⟩
  | succ n ih =>
    cases t with
    | nil =>
      constructor
      . intro h
        cases h
      . rintro ⟨blanks, after, ht, hlength, _⟩
        rw [(List.append_eq_nil_iff.1 ht.symm).1] at hlength
        simp at hlength
    | cons c rest =>
      rw [startsBlank, Bool.and_eq_true, ih]
      constructor
      . rintro ⟨hc, blanks, after, hrest, hlength, hblanks⟩
        refine ⟨c :: blanks, after, by rw [hrest]; rfl, Nat.succ_le_succ hlength, ?_⟩
        exact List.forall_mem_cons.2 ⟨hc, hblanks⟩
      . rintro ⟨blanks, after, ht, hlength, hblanks⟩
        cases blanks with
        | nil => simp at hlength
        | cons d blanks =>
          rw [List.cons_append, List.cons.injEq] at ht
          rw [List.forall_mem_cons] at hblanks
          exact ⟨ht.1 ▸ hblanks.1, blanks, after, ht.2, Nat.le_of_succ_le_succ hlength, hblanks.2⟩

theorem not_hasBreak_nil (n : Nat) : ¬ HasBreak n [] := by
  rintro ⟨before, blanks, after, h, _⟩
  simp at h

theorem hasBreak_cons_iff {n : Nat} {c : Char} {t : Text} :
    HasBreak n (c :: t) ↔ (c = '\n' ∧ startsBlank n t = true) ∨ HasBreak n t := by
  rw [startsBlank_iff]
  constructor
  . rintro ⟨before, blanks, after, ht, h⟩
    cases before with
    | nil =>
      rw [List.nil_append, List.cons.injEq] at ht
      exact Or.inl ⟨ht.1, blanks, after, ht.2, h⟩
    | cons d before =>
      rw [List.cons_append, List.cons.injEq] at ht
      exact Or.inr ⟨before, blanks, after, ht.2, h⟩
  . intro h
    cases h with
    | inl h =>
      obtain ⟨hc, blanks, after, ht, h⟩ := h
      exact ⟨[], blanks, after, by rw [hc, ht]; rfl, h⟩
    | inr h =>
      obtain ⟨before, blanks, after, ht, h⟩ := h
      exact ⟨c :: before, blanks, after, by rw [ht]; rfl, h⟩

instance instDecidableHasBreak (n : Nat) : (t : Text) → Decidable (HasBreak n t)
  | [] => .isFalse (not_hasBreak_nil n)
  | _ :: t =>
    have := instDecidableHasBreak n t
    decidable_of_iff' _ hasBreak_cons_iff

theorem breaksOff_append_cons {n : Nat} {s : Text} (hs : startsBlank n s = false) {c : Char}
    (hc : isBlank c = false) (t : Text) : breaksOff n (s ++ c :: t) = true := by
  induction n generalizing s with
  | zero => simp at hs
  | succ n ih =>
    cases s with
    | nil =>
      rw [List.nil_append, breaksOff_cons, hc]
      rfl
    | cons d rest =>
      rw [List.cons_append, breaksOff_cons]
      by_cases hd : isBlank d = true
      . rw [startsBlank, hd, Bool.true_and] at hs
        rw [ih hs, Bool.or_true]
      . simp [hd]

end Text

namespace Layout

def isSolid (width : Nat) : Text → Bool
  | [] => true
  | c :: rest => (c != '\n' || Text.breaksOff width rest) && isSolid width rest

theorem isSolid_cons (width : Nat) (c : Char) (t : Text) :
    isSolid width (c :: t) = ((c != '\n' || Text.breaksOff width t) && isSolid width t) := rfl

theorem isSolid_append {width : Nat} {s t : Text} (hs : isSolid width s = true)
    (ht : isSolid width t = true) : isSolid width (s ++ t) = true := by
  induction s with
  | nil => exact ht
  | cons c rest ih =>
    rw [isSolid_cons, Bool.and_eq_true, Bool.or_eq_true] at hs
    rw [List.cons_append, isSolid_cons, Bool.and_eq_true, Bool.or_eq_true]
    refine ⟨?_, ih hs.2⟩
    exact hs.1.imp_right fun h => Text.breaksOff_append h t

theorem isSolid_append_cons {width : Nat} {s : Text} (hs : ¬ s.HasBreak width) {c : Char}
    (hc : Text.isBlank c = false) {t : Text} (ht : isSolid width (c :: t) = true) :
    isSolid width (s ++ c :: t) = true := by
  induction s with
  | nil => exact ht
  | cons d rest ih =>
    rw [Text.hasBreak_cons_iff, not_or, not_and] at hs
    rw [List.cons_append, isSolid_cons, Bool.and_eq_true, Bool.or_eq_true]
    refine ⟨?_, ih hs.2⟩
    by_cases hd : d = '\n'
    . right
      apply Text.breaksOff_append_cons _ hc
      apply Bool.eq_false_iff.2 (hs.1 hd)
    . simp [hd]

theorem isSolid_replicate_space (width n : Nat) :
    isSolid width (List.replicate n ' ') = true := by
  induction n with
  | zero => rfl
  | succ n ih =>
    rw [List.replicate_succ, isSolid_cons, ih]
    rfl

theorem isSolid_of_append {width : Nat} {s t : Text} (h : isSolid width (s ++ t) = true) :
    isSolid width t = true := by
  induction s with
  | nil => exact h
  | cons c rest ih =>
    rw [List.cons_append, isSolid_cons, Bool.and_eq_true] at h
    apply ih h.2

theorem isSolid_intercalate {width : Nat} {sep : Text} {texts : List Text}
    (h : ∀ t ∈ texts, isSolid width (sep ++ t) = true) :
    isSolid width (sep.intercalate texts) = true := by
  cases texts with
  | nil => rfl
  | cons t rest =>
    rw [intercalate_cons]
    apply isSolid_append (isSolid_of_append (h t List.mem_cons_self))
    induction rest with
    | nil => rfl
    | cons t' rest ih =>
      rw [List.flatMap_cons]
      apply isSolid_append (h t' (by simp))
      apply ih
      intro u hu
      apply h
      simp only [List.mem_cons] at hu ⊢
      exact hu.imp_right fun hu => Or.inr hu

theorem segmentsFrom_append_of_length {width skip : Nat} {s : Text} (h : s.length = skip)
    (t : Text) : segmentsFrom width skip (s ++ t) = segmentsFrom width 0 t := by
  induction s generalizing skip with
  | nil =>
    subst h
    rfl
  | cons c rest ih =>
    subst h
    rw [List.cons_append, List.length_cons, segmentsFrom]
    apply ih rfl

theorem segmentsFrom_append_of_isSolid {width : Nat} {s : Text} (h : isSolid width s = true)
    (t : Text) :
    segmentsFrom width 0 (s ++ t) = (segmentsFrom width 0 t).modifyHead (s ++ ·) := by
  induction s with
  | nil =>
    rw [List.nil_append]
    cases segmentsFrom width 0 t <;> rfl
  | cons c rest ih =>
    rw [isSolid_cons, Bool.and_eq_true, Bool.or_eq_true] at h
    have hsep : ¬ (c = '\n' ∧ Text.startsBlank width (rest ++ t) = true) := by
      rintro ⟨hc, hblank⟩
      have hoff : Text.breaksOff width rest = true := by simpa [hc] using h.1
      rw [Text.startsBlank_eq_not_breaksOff (Text.breaksOff_append hoff t)] at hblank
      cases hblank
    rw [List.cons_append, segmentsFrom, if_neg hsep, ih h.2]
    cases segmentsFrom width 0 t <;> rfl

theorem segmentsFrom_line {level : Nat} (hlevel : width level = columns * level) (t : Text) :
    segmentsFrom (width level) 0 (line level t) = [] :: segmentsFrom (width level) 0 t := by
  unfold line
  rw [← hlevel, segmentsFrom, if_pos ⟨rfl, Text.startsBlank_spaces (width level) t⟩]
  rw [segmentsFrom_append_of_length List.length_replicate]

theorem segments_template {level : Nat} {first : Text} {lines : List Text}
    (hlevel : lines = [] ∨ width level = columns * level) (hfirst : isSolid (width level) first = true)
    (hlines : ∀ t ∈ lines, isSolid (width level) t = true) :
    segments (width level) (first ++ lines.flatMap (line level)) = first :: lines := by
  unfold segments
  rw [segmentsFrom_append_of_isSolid hfirst]
  induction lines generalizing first with
  | nil => simp [segmentsFrom]
  | cons t rest ih =>
    have hwidth := hlevel.resolve_left (by simp)
    have ht := hlines t List.mem_cons_self
    have hline : line level t ++ rest.flatMap (line level) =
        line level (t ++ rest.flatMap (line level)) := by
      simp [line]
    rw [List.flatMap_cons, hline, segmentsFrom_line hwidth, segmentsFrom_append_of_isSolid ht]
    rw [ih (.inr hwidth) ht fun t' h' => hlines t' (List.mem_cons_of_mem t h')]
    simp

theorem strip_template {level : Nat} {first : Text} {lines : List Text}
    (hlevel : lines = [] ∨ width level = columns * level) (hfirst : isSolid (width level) first = true)
    (hlines : ∀ t ∈ lines, isSolid (width level) t = true) :
    strip level (first ++ lines.flatMap (line level)) =
      tabs (['\n'].intercalate ((first :: lines).filter (· ≠ []))) := by
  unfold strip
  rw [segments_template hlevel hfirst hlines]

theorem line_add (m n : Nat) (t : Text) :
    line (m + n) t = line m (List.replicate (columns * n) ' ' ++ t) := by
  unfold line
  rw [Nat.mul_add, ← List.replicate_append_replicate, List.append_assoc]

end Layout
end ApiTypings
