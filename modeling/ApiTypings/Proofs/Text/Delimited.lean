import ApiTypings.Proofs.Text.Pieces
import ApiTypings.Text.Basic

/-!
This module contains the theory of written values that can be told apart wherever they stand in a
text: what is written for a value says itself where it ends. Lists of such values have this property
again if they are joined by a separator and closed by a text that can be mistaken neither for the
separator nor for the start of a value.
-/

namespace ApiTypings
namespace Text

theorem notMem_intercalate {c : Char} {sep : Text} {texts : List Text} (hsep : c ∉ sep)
    (h : ∀ t ∈ texts, c ∉ t) : c ∉ sep.intercalate texts := by
  cases texts with
  | nil => simp
  | cons t rest =>
    rw [intercalate_cons, List.mem_append, List.mem_flatMap]
    rintro (ht | ⟨u, hu, hmem⟩)
    . apply h t List.mem_cons_self ht
    . rw [List.mem_append] at hmem
      apply hmem.elim hsep (h u (List.mem_cons_of_mem t hu))

theorem any_head?_append {stop : Char → Bool} {s : Text} (h : s.head?.any stop = true) (t : Text) :
    (s ++ t).head?.any stop = true := by
  cases s with
  | nil => cases h
  | cons c rest => exact h

theorem append_ne_append {s s' : Text} (h : s.isPrefixOf s' = false) (h' : s'.isPrefixOf s = false)
    (t t' : Text) : s ++ t ≠ s' ++ t' := by
  intro heq
  have hs : s <+: s' ++ t' := heq ▸ List.prefix_append s t
  cases List.prefix_or_prefix_of_prefix hs (List.prefix_append s' t') with
  | inl hle =>
    rw [List.isPrefixOf_iff_prefix.2 hle] at h
    cases h
  | inr hle =>
    rw [List.isPrefixOf_iff_prefix.2 hle] at h'
    cases h'

theorem append_inj_of_stop {stop : Char → Bool} {s s' t t' : Text}
    (hs : ∀ c ∈ s, stop c = false) (hs' : ∀ c ∈ s', stop c = false)
    (ht : t.head?.any stop = true) (ht' : t'.head?.any stop = true) (h : s ++ t = s' ++ t') :
    s = s' ∧ t = t' := by
  induction s generalizing s' with
  | nil =>
    cases s' with
    | nil => exact ⟨rfl, h⟩
    | cons c rest =>
      have hc := hs' c List.mem_cons_self
      rw [List.nil_append] at h
      rw [h, List.cons_append, List.head?_cons, Option.any_some, hc] at ht
      cases ht
  | cons c rest ih =>
    have hc := hs c List.mem_cons_self
    cases s' with
    | nil =>
      rw [List.nil_append] at h
      rw [← h, List.cons_append, List.head?_cons, Option.any_some, hc] at ht'
      cases ht'
    | cons c' rest' =>
      rw [List.cons_append, List.cons_append, List.cons.injEq] at h
      have hrest := ih (fun d hd => hs d (List.mem_cons_of_mem c hd))
        (fun d hd => hs' d (List.mem_cons_of_mem c' hd)) h.2
      exact ⟨by rw [h.1, hrest.1], hrest.2⟩

def IsDelimited (p : α → Prop) (write : α → Text) : Prop :=
  ∀ a b, p a → p b → ∀ s t, write a ++ s = write b ++ t → a = b ∧ s = t

namespace IsDelimited

variable {p : α → Prop} {write : α → Text} {sep stop : Text}

theorem flatMap_inj (hwrite : IsDelimited p write) (hsep : ∀ s t, sep ++ s ≠ stop ++ t)
    {as bs : List α} (has : ∀ a ∈ as, p a) (hbs : ∀ b ∈ bs, p b) {s t : Text}
    (h : as.flatMap (fun a => sep ++ write a) ++ (stop ++ s) =
      bs.flatMap (fun b => sep ++ write b) ++ (stop ++ t)) : as = bs ∧ s = t := by
  induction as generalizing bs with
  | nil =>
    cases bs with
    | nil => exact ⟨rfl, List.append_cancel_left h⟩
    | cons b rest =>
      simp only [List.flatMap_nil, List.nil_append, List.flatMap_cons, List.append_assoc] at h
      exact absurd h.symm (hsep _ _)
  | cons a rest ih =>
    cases bs with
    | nil =>
      simp only [List.flatMap_nil, List.nil_append, List.flatMap_cons, List.append_assoc] at h
      exact absurd h (hsep _ _)
    | cons b rest' =>
      simp only [List.flatMap_cons, List.append_assoc] at h
      have hvalue := hwrite a b (has a List.mem_cons_self) (hbs b List.mem_cons_self) _ _
        (List.append_cancel_left h)
      have hrest := ih (fun x hx => has x (List.mem_cons_of_mem a hx))
        (fun x hx => hbs x (List.mem_cons_of_mem b hx)) hvalue.2
      exact ⟨by rw [hvalue.1, hrest.1], hrest.2⟩

theorem intercalate_inj (hwrite : IsDelimited p write) (hsep : ∀ s t, sep ++ s ≠ stop ++ t)
    (hstop : ∀ a, p a → ∀ s t, write a ++ s ≠ stop ++ t) {as bs : List α} (has : ∀ a ∈ as, p a)
    (hbs : ∀ b ∈ bs, p b) {s t : Text}
    (h : sep.intercalate (as.map write) ++ (stop ++ s) =
      sep.intercalate (bs.map write) ++ (stop ++ t)) : as = bs ∧ s = t := by
  cases as with
  | nil =>
    cases bs with
    | nil => exact ⟨rfl, List.append_cancel_left h⟩
    | cons b rest =>
      simp only [List.map_nil, List.intercalate_nil, List.nil_append, List.map_cons,
        intercalate_cons, List.append_assoc] at h
      exact absurd h.symm (hstop b (hbs b List.mem_cons_self) _ _)
  | cons a rest =>
    cases bs with
    | nil =>
      simp only [List.map_nil, List.intercalate_nil, List.nil_append, List.map_cons,
        intercalate_cons, List.append_assoc] at h
      exact absurd h (hstop a (has a List.mem_cons_self) _ _)
    | cons b rest' =>
      simp only [List.map_cons, intercalate_cons, List.flatMap_map, List.append_assoc] at h
      have hvalue := hwrite a b (has a List.mem_cons_self) (hbs b List.mem_cons_self) _ _ h
      have hrest := hwrite.flatMap_inj hsep (fun x hx => has x (List.mem_cons_of_mem a hx))
        (fun x hx => hbs x (List.mem_cons_of_mem b hx)) hvalue.2
      exact ⟨by rw [hvalue.1, hrest.1], hrest.2⟩

end IsDelimited
end Text
end ApiTypings
