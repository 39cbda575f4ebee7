import ApiTypings.Proofs.Layout.Tabs
import Mathlib.Data.List.Infix

/-!
This module contains what tabs do to runs of spaces: each run becomes the tabs that fit into it and the
spaces that are left over. No run that is as wide as a tab is left, and a text that holds none stays
as it is.
-/

namespace ApiTypings
namespace Layout

def spaces (n : Nat) : Text := List.replicate (n / 4) '\t' ++ List.replicate (n % 4) ' '

-- the number is that of the spaces right before the text, which belong to its first run

def tabbed : Nat → Text → Text
  | n, [] => spaces n
  | n, ' ' :: rest => tabbed (n + 1) rest
  | n, c :: rest => spaces n ++ c :: tabbed 0 rest

theorem tabs_replicate_eq_spaces (n : Nat) : tabs (List.replicate n ' ') = spaces n := by
  have hshort : ∀ k < 4, tabs (List.replicate k ' ') = List.replicate k ' ' := by
    decide
  have hsplit : List.replicate n ' ' =
      List.replicate (columns * (n / 4)) ' ' ++ List.replicate (n % 4) ' ' := by
    rw [List.replicate_append_replicate, columns, Nat.div_add_mod]
  rw [hsplit, tabs_replicate, hshort _ (Nat.mod_lt n (by decide)), spaces]

theorem tabs_replicate_append (n : Nat) (t : Text) :
    tabs (List.replicate n ' ' ++ t) = tabbed n t := by
  fun_induction tabbed n t with
  | case1 n => rw [List.append_nil, tabs_replicate_eq_spaces]
  | case2 n rest ih => rw [← ih, List.replicate_succ', List.append_assoc, List.singleton_append]
  | case3 n c rest hc ih =>
    rw [tabs_append_cons_of_ne hc, tabs_replicate_eq_spaces, ← ih]
    rfl

theorem tabs_eq_tabbed (t : Text) : tabs t = tabbed 0 t := tabs_replicate_append 0 t

def HasRun (t : Text) : Prop := List.replicate columns ' ' <:+: t

instance (t : Text) : Decidable (HasRun t) :=
  inferInstanceAs (Decidable (List.replicate columns ' ' <:+: t))

theorem not_hasRun_nil : ¬HasRun [] := by
  decide

theorem hasRun_cons_iff {c : Char} {t : Text} :
    HasRun (c :: t) ↔ List.replicate columns ' ' <+: c :: t ∨ HasRun t := by
  exact List.infix_cons_iff

theorem hasRun_space_cons_iff {t : Text} :
    HasRun (' ' :: t) ↔ "   ".toList <+: t ∨ HasRun t := by
  rw [hasRun_cons_iff]
  have hstart : List.replicate columns ' ' <+: ' ' :: t ↔ "   ".toList <+: t := by
    rw [show List.replicate columns ' ' = ' ' :: "   ".toList from rfl, List.cons_prefix_cons]
    simp
  rw [hstart]

theorem replicate_prefix_of_tabs {n : Nat} {t : Text} (h : List.replicate n ' ' <+: tabs t) :
    List.replicate n ' ' <+: t := by
  induction n generalizing t with
  | zero => exact List.nil_prefix
  | succ n ih =>
    rw [List.replicate_succ] at h ⊢
    unfold tabs at h
    split at h
    -- a run has become a tab, which is no space
    . rw [List.cons_prefix_cons] at h
      exact absurd h.1 (by decide)
    . rw [List.cons_prefix_cons] at h ⊢
      exact ⟨h.1, ih h.2⟩
    . exact absurd h (by simp)

theorem not_hasRun_tabs (t : Text) : ¬HasRun (tabs t) := by
  fun_induction tabs t with
  | case1 rest ih =>
    rw [hasRun_cons_iff, not_or]
    refine ⟨?_, ih⟩
    rw [show List.replicate columns ' ' = ' ' :: "   ".toList from rfl, List.cons_prefix_cons]
    rintro ⟨heq, _⟩
    cases heq
  | case2 c rest hrun ih =>
    rw [hasRun_cons_iff, not_or]
    refine ⟨?_, ih⟩
    rw [show List.replicate columns ' ' = ' ' :: List.replicate 3 ' ' from rfl,
      List.cons_prefix_cons]
    rintro ⟨hc, hstart⟩
    obtain ⟨rest', hrest⟩ := replicate_prefix_of_tabs hstart
    exact hrun rest' hc.symm hrest.symm
  | case3 => exact not_hasRun_nil

theorem tabs_eq_self_of_not_hasRun {t : Text} (h : ¬HasRun t) : tabs t = t := by
  fun_induction tabs t with
  | case1 rest ih =>
    rw [hasRun_cons_iff, not_or] at h
    exact absurd ⟨rest, rfl⟩ h.1
  | case2 c rest hrun ih =>
    rw [hasRun_cons_iff, not_or] at h
    rw [ih h.2]
  | case3 => rfl

theorem tabs_eq_self_iff {t : Text} : tabs t = t ↔ ¬HasRun t := by
  constructor
  . intro h
    rw [← h]
    apply not_hasRun_tabs
  . apply tabs_eq_self_of_not_hasRun

theorem tabs_tabs (t : Text) : tabs (tabs t) = tabs t :=
  tabs_eq_self_of_not_hasRun (not_hasRun_tabs t)

end Layout
end ApiTypings
