import ApiTypings.Proofs.Path.LastName
import ApiTypings.Proofs.Text.Delimited
import Mathlib.Data.List.DropRight

/-!
This module contains the theory of the paths to what is in a folder. Such a path is the path of the
folder, whatever that is spelled with at its end, and a name. Its parent is the path of the folder
without what says nothing at the end, and with another extension it is the same path and another
name.
-/

namespace ApiTypings

theorem RawChar.size_pos (c : RawChar) : 0 < c.size := by
  cases c with
  | char c => exact c.utf8Size_pos
  | stray first more => exact Nat.succ_pos more.length

theorem RawText.size_pos {t : RawText} (h : t ≠ []) : 0 < t.size := by
  cases t with
  | nil => exact absurd rfl h
  | cons c rest =>
    have hc := c.size_pos
    rw [size_cons]
    omega

namespace Path

theorem split_of_splitOn {t first : RawText} {rest : List RawText}
    (hcut : List.splitOn (.char '/') t = first :: rest)
    (hfirst : isSilent first = false) : split ⟨t⟩ = (.implied, first :: rest) := by
  unfold split
  split
  . next tail heq =>
    simp only at heq
    rw [heq, splitOn_cons_self] at hcut
    rw [← (List.cons.inj hcut).1] at hfirst
    cases hfirst
  . next heq =>
    simp only at heq
    rw [heq, List.splitOn_eq_singleton (by decide)] at hcut
    rw [← (List.cons.inj hcut).1] at hfirst
    cases hfirst
  . next tail heq =>
    simp only at heq
    rw [heq, ← List.singleton_append, List.splitOn_append_cons_self,
      List.splitOn_eq_singleton (by decide)] at hcut
    rw [← (List.cons.inj hcut).1] at hfirst
    cases hfirst
  . rw [hcut]

theorem isSilent_of_implied {path : Path} {first : RawText} {rest : List RawText}
    (himplied : path.anchor = .implied) (htext : path.text ≠ [])
    (hsegments : path.segments = first :: rest) : isSilent first = false := by
  have hcut := segments_of_implied himplied
  have hne := ne_nil_of_segments_of_implied himplied hsegments htext
  rw [hsegments] at hcut
  unfold isSilent
  rw [Bool.or_eq_false_iff, beq_eq_false_iff_ne, beq_eq_false_iff_ne]
  refine ⟨hne, ?_⟩
  rintro rfl
  -- a single dot at the start would be the anchor
  have hbuild : [RawChar.char '/'].intercalate (path.text.splitOn (.char '/')) = path.text :=
    List.intercalate_splitOn _
  rw [← hcut, intercalate_cons] at hbuild
  unfold anchor split at himplied
  rw [← hbuild] at himplied
  cases rest <;> cases himplied

theorem split_build (anchor : Anchor) {segments : List RawText}
    (hslashes : ∀ segment ∈ segments, .char '/' ∉ segment) (hne : segments ≠ [])
    (hfirst : anchor = .implied → ∀ first rest, segments = first :: rest →
      isSilent first = false) : (build anchor segments).split = (anchor, segments) := by
  have hcut := List.splitOn_intercalate _ hslashes hne
  cases segments with
  | nil => exact absurd rfl hne
  | cons first rest =>
    cases anchor with
    | root =>
      show (Anchor.root, List.splitOn (RawChar.char '/') _) = _
      rw [hcut]
    | here =>
      show (Anchor.here, List.splitOn (RawChar.char '/') _) = _
      rw [hcut]
    | implied => exact split_of_splitOn hcut (hfirst rfl first rest rfl)

theorem split_append_slash {s : RawText} (hs : s ≠ []) (t : RawText) :
    split ⟨s ++ .char '/' :: t⟩ = (anchor ⟨s⟩, segments ⟨s⟩ ++ List.splitOn (.char '/') t) := by
  have hcut := List.splitOn_append_cons_self (a := RawChar.char '/') s t
  cases hanchor : anchor ⟨s⟩ with
  | root =>
    unfold anchor split at hanchor
    unfold segments
    split at hanchor
    . next rest heq =>
      simp only at heq
      rw [heq]
      show (Anchor.root, List.splitOn (RawChar.char '/') (rest ++ .char '/' :: t)) = _
      rw [List.splitOn_append_cons_self]
      rfl
    . cases hanchor
    . cases hanchor
    . cases hanchor
  | here =>
    unfold anchor split at hanchor
    unfold segments
    split at hanchor
    . cases hanchor
    . next heq =>
      simp only at heq
      rw [heq]
      rfl
    . next rest heq =>
      simp only at heq
      rw [heq]
      show (Anchor.here, List.splitOn (RawChar.char '/') (rest ++ .char '/' :: t)) = _
      rw [List.splitOn_append_cons_self]
      rfl
    . cases hanchor
  | implied =>
    have hsegments := segments_of_implied hanchor
    cases hcase : segments ⟨s⟩ with
    | nil => exact absurd (hsegments.symm.trans hcase) (List.splitOn_ne_nil (.char '/') s)
    | cons first rest =>
      rw [← hsegments, hcase] at hcut
      exact split_of_splitOn hcut (isSilent_of_implied hanchor hs hcase)

-- all segments but the one that a slash at the end opens

def leading (path : Path) : List RawText :=
  if path.text.getLast? = some (.char '/') then path.segments.dropLast else path.segments

def trimmed (path : Path) : Path := build path.anchor path.backwards.reverse

section

variable {path : Path} {name : RawText}

theorem text_join_name (hslash : .char '/' ∉ name) :
    (path.join ⟨name⟩).text =
      if path.text = [] ∨ path.text.getLast? = some (.char '/') then path.text ++ name
      else path.text ++ .char '/' :: name := by
  have hbelow : isAbsolute ⟨name⟩ = false := by
    rw [isAbsolute_eq, beq_eq_false_iff_ne]
    intro hhead
    exact hslash (List.mem_of_head? hhead)
  unfold join
  rw [hbelow, if_neg Bool.false_ne_true]
  split <;> rfl

theorem exists_eq_append_slash (h : path.text.getLast? = some (.char '/')) :
    ∃ s, path = ⟨s ++ [.char '/']⟩ := by
  obtain ⟨s, hs⟩ := List.getLast?_eq_some_iff.1 h
  exact ⟨s, congrArg Path.mk hs⟩

theorem split_join_name (htext : path.text ≠ []) (hslash : .char '/' ∉ name) :
    (path.join ⟨name⟩).split = (path.anchor, path.leading ++ [name]) := by
  have hname := List.splitOn_eq_singleton hslash
  have hpath : path.join ⟨name⟩ = ⟨(path.join ⟨name⟩).text⟩ := rfl
  rw [hpath, text_join_name hslash]
  unfold leading
  by_cases hend : path.text.getLast? = some (.char '/')
  . rw [if_pos (.inr hend), if_pos hend]
    obtain ⟨s, rfl⟩ := exists_eq_append_slash hend
    rw [List.append_assoc, List.singleton_append]
    unfold anchor segments
    by_cases hempty : s = []
    . rw [hempty]
      show (Anchor.root, List.splitOn (RawChar.char '/') name) = _
      rw [hname]
      rfl
    . rw [split_append_slash hempty, split_append_slash hempty, hname]
      simp
  . rw [if_neg (by simp [htext, hend]), if_neg hend, split_append_slash htext, hname]

theorem segments_join_name (htext : path.text ≠ []) (hslash : .char '/' ∉ name) :
    (path.join ⟨name⟩).segments = path.leading ++ [name] := by
  unfold segments
  rw [split_join_name htext hslash]

theorem anchor_join_name (htext : path.text ≠ []) (hslash : .char '/' ∉ name) :
    (path.join ⟨name⟩).anchor = path.anchor := by
  show (path.join ⟨name⟩).split.1 = path.anchor
  rw [split_join_name htext hslash]

theorem segments_eq_leading (path : Path) :
    path.segments = path.leading ∨ path.segments = path.leading ++ [[]] := by
  unfold leading
  split
  . next hend =>
    right
    obtain ⟨s, rfl⟩ := exists_eq_append_slash hend
    unfold segments
    by_cases hempty : s = []
    . rw [hempty]
      rfl
    . rw [split_append_slash hempty]
      simp
  . left
    rfl

theorem dropWhile_leading (path : Path) :
    path.leading.reverse.dropWhile isSilent = path.backwards := by
  unfold backwards
  obtain heq | heq := path.segments_eq_leading
  . rw [heq]
  . rw [heq, List.reverse_append, List.reverse_singleton, List.singleton_append,
      List.dropWhile_cons_of_pos (by rfl)]

theorem filter_leading (path : Path) :
    path.leading.filter (fun segment => !isSilent segment) = path.components.2 := by
  unfold components
  obtain heq | heq := path.segments_eq_leading
  . rw [heq]
  . rw [heq, List.filter_append]
    simp [isSilent]

theorem backwards_join_name (htext : path.text ≠ []) (hslash : .char '/' ∉ name)
    (hname : isSilent name = false) :
    (path.join ⟨name⟩).backwards = name :: path.leading.reverse := by
  unfold backwards
  rw [segments_join_name htext hslash, List.reverse_append, List.reverse_singleton,
    List.singleton_append, List.dropWhile_cons_of_neg (by simp [hname])]

theorem endsInName_join_name (htext : path.text ≠ []) (hslash : .char '/' ∉ name)
    (hname : isSilent name = false) : (path.join ⟨name⟩).endsInName = true := by
  unfold endsInName
  rw [segments_join_name htext hslash, List.getLast?_concat]
  simp [hname]

theorem components_join_name (htext : path.text ≠ []) (hslash : .char '/' ∉ name)
    (hname : isSilent name = false) :
    (path.join ⟨name⟩).components = (path.components.1, path.components.2 ++ [name]) := by
  rw [← filter_leading]
  unfold components
  rw [anchor_join_name htext hslash, segments_join_name htext hslash, List.filter_append]
  simp [hname]

theorem parent?_join_name (htext : path.text ≠ []) (hslash : .char '/' ∉ name)
    (hname : isSilent name = false) : (path.join ⟨name⟩).parent? = some path.trimmed := by
  unfold parent? trimmed
  rw [backwards_join_name htext hslash hname, anchor_join_name htext hslash]
  simp only
  rw [dropWhile_leading]

theorem withExtension_join_name {extension : String} (htext : path.text ≠ [])
    (hslash : .char '/' ∉ name)
    (hname : isSilent name = false) (hdots : name ≠ raw "..")
    (hstem : (splitName name).1 ≠ [.char '.']) (hextension : .char '/' ∉ raw extension) :
    (path.join ⟨name⟩).withExtension extension =
      path.join ⟨(splitName name).1 ++ .char '.' :: raw extension⟩ := by
  have hother : .char '/' ∉ (splitName name).1 ++ .char '.' :: raw extension := by
    simp only [List.mem_append, List.mem_cons]
    rintro (hmem | heq | hmem)
    . exact hslash (mem_of_mem_stem hmem)
    . cases heq
    . exact hextension hmem
  unfold withExtension
  rw [backwards_join_name htext hslash hname, anchor_join_name htext hslash]
  simp only [if_neg hdots, hstem, false_and, if_false, List.reverse_reverse]
  have hbuild := build_split (path.join ⟨(splitName name).1 ++ .char '.' :: raw extension⟩)
  rw [split_join_name htext hother] at hbuild
  exact hbuild

end

theorem text_build_prefix (anchor : Anchor) (start rest : List RawText) :
    (build anchor start).text <+: (build anchor (start ++ rest)).text := by
  have hstart := intercalate_prefix [.char '/'] start rest
  cases anchor with
  | implied => exact hstart
  | root => exact List.cons_prefix_cons.2 ⟨rfl, hstart⟩
  | here =>
    cases start with
    | nil => cases rest <;> exact List.cons_prefix_cons.2 ⟨rfl, List.nil_prefix⟩
    | cons => exact List.cons_prefix_cons.2 ⟨rfl, List.cons_prefix_cons.2 ⟨rfl, hstart⟩⟩

section

variable {path other : Path} {name : RawText}

theorem text_trimmed_prefix (path : Path) : path.trimmed.text <+: path.text := by
  obtain ⟨silent, hsegments, _⟩ := path.exists_segments_eq
  have hstart := text_build_prefix path.anchor path.backwards.reverse silent
  rw [← hsegments] at hstart
  have hbuild := build_split path
  exact (congrArg Path.text hbuild) ▸ hstart

theorem isSilent_of_backwards (himplied : path.anchor = .implied) (htext : path.text ≠ []) :
    ∃ first rest,
      path.backwards.reverse = first :: rest
        ∧
      isSilent first = false := by
  obtain ⟨silent, hsegments, hsilent⟩ := path.exists_segments_eq
  cases hbackwards : path.backwards.reverse with
  | nil =>
    rw [hbackwards, List.nil_append] at hsegments
    cases hcase : silent with
    | nil =>
      rw [hcase, segments_of_implied himplied] at hsegments
      exact absurd hsegments (List.splitOn_ne_nil (.char '/') path.text)
    | cons first rest =>
      rw [hcase] at hsegments hsilent
      have hfirst := isSilent_of_implied himplied htext hsegments
      rw [hsilent first List.mem_cons_self] at hfirst
      cases hfirst
  | cons first rest =>
    rw [hbackwards, List.cons_append] at hsegments
    exact ⟨first, rest, rfl, isSilent_of_implied himplied htext hsegments⟩

theorem text_trimmed_ne_nil (htext : path.text ≠ []) : path.trimmed.text ≠ [] := by
  unfold trimmed
  cases hanchor : path.anchor with
  | root => exact List.cons_ne_nil _ _
  | here => cases path.backwards.reverse <;> exact List.cons_ne_nil _ _
  | implied =>
    obtain ⟨first, rest, hbackwards, hfirst⟩ := isSilent_of_backwards hanchor htext
    show [.char '/'].intercalate path.backwards.reverse ≠ []
    rw [hbackwards, intercalate_cons]
    intro hnil
    rw [(List.append_eq_nil_iff.1 hnil).1] at hfirst
    cases hfirst

theorem anchor_trimmed (htext : path.text ≠ []) :
    path.trimmed.anchor = path.anchor
      ∧
    path.trimmed.backwards = path.backwards := by
  unfold trimmed
  by_cases hnone : path.backwards = []
  . rw [hnone]
    cases hanchor : path.anchor with
    | root => exact ⟨rfl, rfl⟩
    | here => exact ⟨rfl, rfl⟩
    | implied =>
      obtain ⟨first, rest, hbackwards, _⟩ := isSilent_of_backwards hanchor htext
      rw [hnone] at hbackwards
      cases hbackwards
  . obtain ⟨silent, hsegments, _⟩ := path.exists_segments_eq
    have hslashes : ∀ segment ∈ path.backwards.reverse, .char '/' ∉ segment := by
      intro segment hmem
      apply notMem_of_mem_segments
      rw [hsegments]
      apply List.mem_append_left _ hmem
    have hsplit := split_build path.anchor hslashes (by simpa using hnone) (by
      intro himplied first rest heq
      obtain ⟨first', rest', hbackwards, hfirst⟩ := isSilent_of_backwards himplied htext
      rw [heq] at hbackwards
      rwa [(List.cons.inj hbackwards).1])
    constructor
    . show (build path.anchor path.backwards.reverse).split.1 = path.anchor
      rw [hsplit]
    . show ((build path.anchor path.backwards.reverse).split.2.reverse).dropWhile isSilent = _
      rw [hsplit, List.reverse_reverse]
      apply List.dropWhile_idempotent

theorem trimmed_trimmed (htext : path.text ≠ []) : path.trimmed.trimmed = path.trimmed := by
  obtain ⟨hanchor, hbackwards⟩ := anchor_trimmed htext
  rw [trimmed, hanchor, hbackwards]
  rfl

theorem components_trimmed (htext : path.text ≠ []) : path.trimmed.components = path.components := by
  obtain ⟨hanchor, hbackwards⟩ := anchor_trimmed htext
  have hnames : path.trimmed.components.2 = path.components.2 := by
    rw [components_eq, components_eq, names_eq_filter_backwards, hbackwards,
      ← names_eq_filter_backwards]
  exact Prod.ext hanchor hnames

theorem size_join_name_le {name' : RawText} (hslash : .char '/' ∉ name) (hslash' : .char '/' ∉ name')
    (h : other.text <+: path.text) (hname : name.size ≤ name'.size) :
    (other.join ⟨name⟩).text.size ≤ (path.join ⟨name'⟩).text.size := by
  rw [text_join_name hslash, text_join_name hslash']
  obtain ⟨rest, hrest⟩ := h
  cases rest with
  | nil =>
    rw [List.append_nil] at hrest
    rw [hrest]
    split <;> simp only [RawText.size_append, RawText.size_cons] <;> omega
  | cons c rest =>
    -- what is cut off makes up for a slash
    have hslashSize : (RawChar.char '/').size = 1 := by decide
    have hshorter : other.text.size < path.text.size := by
      have hcut := RawText.size_pos (List.cons_ne_nil c rest)
      rw [← hrest, RawText.size_append]
      omega
    split <;> split <;> simp only [RawText.size_append, RawText.size_cons] <;> omega

theorem notMem_join_name {c : RawChar} (hslash : .char '/' ∉ name) (hc : c ≠ .char '/')
    (hpath : c ∉ path.text)
    (hname : c ∉ name) : c ∉ (path.join ⟨name⟩).text := by
  rw [text_join_name hslash]
  split <;> simp [hpath, hname, hc]

theorem route_of_endsInName (h : path.endsInName = true) :
    path.route.slash = false
      ∧
    path.route.names.getLast? ≠ some (raw ".")
      ∧
    path.text ≠ [] := by
  unfold endsInName at h
  split at h
  . cases h
  . next last hlast =>
    rw [Bool.not_eq_true'] at h
    have hne : last ≠ [] := by
      intro heq
      rw [heq] at h
      cases h
    obtain ⟨before, hsegments⟩ := List.getLast?_eq_some_iff.1 hlast
    have hcut := splitOn_eq_segments path (by simp [hsegments])
    rw [hsegments, ← List.append_assoc] at hcut
    refine ⟨?_, ?_, ?_⟩
    . unfold route
      simp [hcut, hne]
    . unfold route
      simp only [hcut, List.filter_append]
      rw [List.filter_cons_of_pos (by simpa using hne), List.filter_nil, List.getLast?_concat]
      intro heq
      rw [Option.some.inj heq] at h
      cases h
    . intro htext
      rw [htext, List.splitOn_nil] at hcut
      have hends := congrArg List.getLast? hcut
      rw [List.getLast?_concat] at hends
      exact hne (Option.some.inj hends).symm

end
end Path
end ApiTypings
