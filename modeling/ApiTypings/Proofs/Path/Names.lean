import ApiTypings.Disk.Resolve
import ApiTypings.Proofs.Text.Pieces

/-!
This module contains the theory of the names that a path leads through, and of the names of a path
that is spelled with an anchor and segments.
-/

namespace ApiTypings

namespace Path

def names (path : Path) : List RawText := path.route.names.filter (· ≠ raw ".")

theorem filter_filter_dot (segments : List RawText) :
    (segments.filter (· ≠ [])).filter (· ≠ raw ".") =
      segments.filter fun segment => !isSilent segment := by
  rw [List.filter_filter]
  congr 1
  funext segment
  unfold isSilent
  rw [Bool.eq_iff_iff]
  simp [And.comm]

theorem names_eq_filter_splitOn (path : Path) :
    path.names = (List.splitOn (.char '/') path.text).filter fun segment => !isSilent segment := by
  unfold names route
  apply filter_filter_dot

theorem splitOn_dot_slash (rest : RawText) :
    List.splitOn (.char '/') (.char '.' :: .char '/' :: rest) =
      raw "." :: List.splitOn (.char '/') rest := by
  have hdot : .char '/' ∉ raw "." := by decide
  exact List.splitOn_append_cons_self_of_not_mem hdot rest

theorem components_eq (path : Path) : path.components.2 = path.names := by
  rw [names_eq_filter_splitOn]
  unfold components segments split
  split
  . next rest h => simp [h, splitOn_cons_self, isSilent]
  . next h =>
    rw [h]
    rfl
  . next rest h =>
    simp [h, splitOn_dot_slash, isSilent]
  . rfl

theorem isAbsolute_eq (path : Path) : path.isAbsolute = (path.text.head? == some (.char '/')) := by
  unfold isAbsolute anchor split
  split
  . next h => simp [h]
  . next h =>
    rw [h]
    rfl
  . next h =>
    rw [h]
    rfl
  . next hroot _ _ =>
    cases htext : path.text with
    | nil => rfl
    | cons c rest =>
      have hc : c ≠ .char '/' := by
        intro hc
        exact hroot rest (hc ▸ htext)
      rw [List.head?_cons, Option.some_beq_some, beq_false_of_ne hc]
      rfl

theorem segments_of_implied {path : Path} (h : path.anchor = .implied) :
    path.segments = List.splitOn (.char '/') path.text := by
  unfold anchor at h
  unfold segments
  unfold split at h ⊢
  split at h
  . cases h
  . cases h
  . cases h
  . rfl

theorem ne_nil_of_segments_of_implied {path : Path} (h : path.anchor = .implied) {first : RawText}
    {rest : List RawText} (hsegments : path.segments = first :: rest) (htext : path.text ≠ []) :
    first ≠ [] := by
  have habsolute : path.isAbsolute = false := by
    unfold isAbsolute
    rw [h]
    rfl
  rw [isAbsolute_eq] at habsolute
  rw [segments_of_implied h] at hsegments
  cases hcase : path.text with
  | nil => exact absurd hcase htext
  | cons c tail =>
    rw [hcase, List.head?_cons, Option.some_beq_some, beq_eq_false_iff_ne] at habsolute
    obtain ⟨piece, pieces, _, hcut⟩ := splitOn_cons_of_ne habsolute tail
    rw [hcase, hcut, List.cons.injEq] at hsegments
    rw [← hsegments.1]
    apply List.cons_ne_nil c piece

theorem isAbsolute_build (anchor : Anchor) {first : RawText} {rest : List RawText}
    (hfirst : anchor = .implied → first ≠ []) (hslash : .char '/' ∉ first) :
    (build anchor (first :: rest)).isAbsolute = (anchor == .root) := by
  rw [isAbsolute_eq]
  cases anchor with
  | root => rfl
  | here => rfl
  | implied =>
    cases first with
    | nil => exact absurd rfl (hfirst rfl)
    | cons c tail =>
      have hc : c ≠ .char '/' := fun hc => hslash (hc ▸ List.mem_cons_self)
      have hhead : (build .implied ((c :: tail) :: rest)).text.head? = some c := by
        show ([.char '/'].intercalate ((c :: tail) :: rest)).head? = some c
        cases rest with
        | nil => rfl
        | cons => rw [List.intercalate_cons_cons]; rfl
      rw [hhead, Option.some_beq_some, beq_false_of_ne hc]
      rfl

def Anchor.lead : Anchor → List RawText
  | .implied => []
  | .here => [[.char '.']]
  | .root => [[]]

theorem splitOn_build (anchor : Anchor) {segments : List RawText}
    (h : ∀ segment ∈ segments, .char '/' ∉ segment) (hne : segments ≠ []) :
    List.splitOn (.char '/') (build anchor segments).text = anchor.lead ++ segments := by
  have hcut := List.splitOn_intercalate _ h hne
  cases anchor with
  | implied => exact hcut
  | root =>
    unfold build
    rw [splitOn_cons_self, hcut]
    rfl
  | here =>
    cases segments with
    | nil => exact absurd rfl hne
    | cons first rest =>
      unfold build
      rw [splitOn_dot_slash, hcut]
      rfl

theorem names_build (anchor : Anchor) {segments : List RawText}
    (h : ∀ segment ∈ segments, .char '/' ∉ segment) (hne : segments ≠ []) :
    (build anchor segments).names = segments.filter fun segment => !isSilent segment := by
  rw [names_eq_filter_splitOn, splitOn_build anchor h hne, List.filter_append]
  cases anchor <;> rfl

theorem getLast?_route_build (anchor : Anchor) {before : List RawText} {name : RawText}
    (h : ∀ segment ∈ before ++ [name], .char '/' ∉ segment) (hname : name ≠ []) :
    (build anchor (before ++ [name])).route.names.getLast? = some name := by
  unfold route
  simp only
  rw [splitOn_build anchor h (by simp), ← List.append_assoc, List.filter_append]
  simp [hname]

end Path

end ApiTypings
