import ApiTypings.Proofs.Path.Names

/-!
This module contains the theory of paths that get another extension: such a path names another place
in the same folder, or it has no name at its end and so denotes no file.
-/

namespace ApiTypings
namespace Path

theorem eq_of_splitName_none {name stem : RawText} (h : splitName name = (stem, none)) :
    stem = name := by
  unfold splitName at h
  split at h
  . exact (Prod.mk.inj h).1.symm
  . exact (Prod.mk.inj h).1.symm
  . cases (Prod.mk.inj h).2

theorem eq_of_splitName_some {name stem extension : RawText}
    (h : splitName name = (stem, some extension)) :
    stem ≠ []
      ∧
    name = stem ++ .char '.' :: extension := by
  unfold splitName at h
  split at h
  . cases (Prod.mk.inj h).2
  . cases (Prod.mk.inj h).2
  . next c rest hne hdrop =>
    obtain ⟨hstem, hextension⟩ := Prod.mk.inj h
    rw [Option.some.injEq] at hextension
    rw [← hstem, ← hextension]
    constructor
    . intro hnil
      apply hne (List.reverse_eq_nil_iff.1 hnil)
    . have hc : c = .char '.' := by
        have := List.head?_dropWhile_not (fun c : RawChar => c ≠ .char '.') name.reverse
        rw [hdrop] at this
        simpa using this
      have hreverse := congrArg List.reverse
        (List.takeWhile_append_dropWhile (p := (· ≠ .char '.')) (l := name.reverse))
      rw [hdrop, hc, List.reverse_append, List.reverse_reverse, List.reverse_cons,
        List.append_assoc] at hreverse
      exact hreverse.symm

theorem mem_of_mem_stem {name : RawText} {c : RawChar} (h : c ∈ (splitName name).1) : c ∈ name := by
  cases hs : splitName name with
  | mk stem old =>
    rw [hs] at h
    cases old with
    | none => rwa [eq_of_splitName_none hs] at h
    | some old =>
      rw [(eq_of_splitName_some hs).2]
      apply List.mem_append_left _ h

theorem stem_ne_nil {name : RawText} (h : name ≠ []) : (splitName name).1 ≠ [] := by
  cases hs : splitName name with
  | mk stem old =>
    cases old with
    | none => exact eq_of_splitName_none hs ▸ h
    | some old => exact (eq_of_splitName_some hs).1

theorem splitName_append_ne {name extension : RawText} (h : (splitName name).2 ≠ some extension) :
    (splitName name).1 ++ .char '.' :: extension ≠ name := by
  intro heq
  cases hs : splitName name with
  | mk stem old =>
    rw [hs] at h heq
    cases old with
    | none =>
      rw [eq_of_splitName_none hs] at heq
      have := congrArg List.length heq
      simp at this
    | some old =>
      have hname := (eq_of_splitName_some hs).2
      rw [hname] at heq
      apply h
      rw [(List.cons.inj (List.append_cancel_left heq)).2]

theorem exists_segments_eq (path : Path) :
    ∃ silent,
      path.segments = path.backwards.reverse ++ silent
        ∧
      ∀ segment ∈ silent, isSilent segment = true := by
  refine ⟨(path.segments.reverse.takeWhile isSilent).reverse, ?_, ?_⟩
  . have hreverse := congrArg List.reverse
      (List.takeWhile_append_dropWhile (p := isSilent) (l := path.segments.reverse))
    rw [List.reverse_append, List.reverse_reverse] at hreverse
    exact hreverse.symm
  . intro segment hmem
    have hall := List.all_takeWhile (p := isSilent) (l := path.segments.reverse)
    apply List.all_eq_true.1 hall segment (List.mem_reverse.1 hmem)

theorem segments_of_backwards {path : Path} {name : RawText} {before : List RawText}
    (h : path.backwards = name :: before) :
    ∃ silent,
      path.segments = before.reverse ++ name :: silent
        ∧
      (∀ segment ∈ silent, isSilent segment = true)
        ∧
      isSilent name = false := by
  obtain ⟨silent, hsegments, hsilent⟩ := path.exists_segments_eq
  rw [h, List.reverse_cons, List.append_assoc, List.singleton_append] at hsegments
  refine ⟨silent, hsegments, hsilent, ?_⟩
  have hhead := List.head?_dropWhile_not isSilent path.segments.reverse
  unfold backwards at h
  rw [h] at hhead
  simpa using hhead

theorem names_eq_filter_backwards (path : Path) :
    path.names = path.backwards.reverse.filter fun segment => !isSilent segment := by
  obtain ⟨silent, hsegments, hsilent⟩ := path.exists_segments_eq
  have hnone : silent.filter (fun segment => !isSilent segment) = [] := by
    rw [List.filter_eq_nil_iff]
    intro segment hmem
    simp [hsilent segment hmem]
  rw [← components_eq]
  unfold components
  rw [hsegments, List.filter_append, hnone, List.append_nil]

theorem names_of_backwards_nil {path : Path} (h : path.backwards = []) : path.names = [] := by
  rw [names_eq_filter_backwards, h]
  rfl

theorem notMem_of_mem_segments {path : Path} {segment : RawText} (h : segment ∈ path.segments) :
    .char '/' ∉ segment := by
  unfold segments split at h
  split at h
  . apply notMem_of_mem_splitOn h
  . cases h
  . apply notMem_of_mem_splitOn h
  . apply notMem_of_mem_splitOn h

theorem splitOn_eq_segments (path : Path) (hne : path.segments ≠ []) :
    List.splitOn (.char '/') path.text = path.anchor.lead ++ path.segments := by
  have hbuild : path.text = (build path.anchor path.segments).text :=
    congrArg Path.text (build_split path).symm
  rw [hbuild]
  apply splitOn_build path.anchor (fun _ => notMem_of_mem_segments) hne

def EndsOpen (path : Path) : Prop :=
  ∀ name, path.route.names.getLast? = some name → name = raw "." ∨ name = raw ".."

theorem endsOpen_of_names_eq_nil {path : Path} (h : path.names = []) : path.EndsOpen := by
  intro name hlast
  have hall := List.filter_eq_nil_iff.1 h name (List.mem_of_getLast? hlast)
  left
  simpa using hall

section

variable {path : Path} {name : RawText} {before : List RawText}

theorem names_of_backwards (h : path.backwards = name :: before) :
    path.names = (before.reverse.filter fun segment => !isSilent segment) ++ [name] := by
  obtain ⟨_, _, _, hname⟩ := segments_of_backwards h
  rw [names_eq_filter_backwards, h, List.reverse_cons, List.filter_append]
  simp [hname]

theorem notMem_of_mem_sibling (h : path.backwards = name :: before) {other segment : RawText}
    (hother : .char '/' ∉ other) (hmem : segment ∈ before.reverse ++ [other]) :
    .char '/' ∉ segment := by
  obtain ⟨silent, hsegments, _, _⟩ := segments_of_backwards h
  rw [List.mem_append, List.mem_singleton] at hmem
  cases hmem with
  | inl hbefore =>
    have hsegment : segment ∈ path.segments := by
      rw [hsegments]
      apply List.mem_append_left _ hbefore
    apply notMem_of_mem_segments hsegment
  | inr heq => exact heq ▸ hother

theorem isAbsolute_build_sibling (h : path.backwards = name :: before) {other : RawText}
    (hother : .char '/' ∉ other) (hne : other ≠ []) :
    (build path.anchor (before.reverse ++ [other])).isAbsolute = path.isAbsolute := by
  obtain ⟨silent, hsegments, _, hname⟩ := segments_of_backwards h
  have htext : path.text ≠ [] := by
    intro htext
    unfold segments split at hsegments
    rw [htext] at hsegments
    cases hbefore : before.reverse with
    | nil =>
      rw [hbefore] at hsegments
      rw [← (List.cons.inj hsegments).1] at hname
      cases hname
    | cons first rest =>
      rw [hbefore] at hsegments
      have := (List.cons.inj hsegments).2
      simp at this
  cases hbefore : before.reverse with
  | nil => exact isAbsolute_build path.anchor (fun _ => hne) hother
  | cons first rest =>
    apply isAbsolute_build
    . intro himplied
      rw [hbefore] at hsegments
      apply ne_nil_of_segments_of_implied himplied hsegments htext
    . apply notMem_of_mem_sibling h hother (by simp [hbefore])

theorem names_build_sibling (h : path.backwards = name :: before) {other : RawText}
    (hother : .char '/' ∉ other) (hne : isSilent other = false) :
    (build path.anchor (before.reverse ++ [other])).names =
      (before.reverse.filter fun segment => !isSilent segment) ++ [other] := by
  rw [names_build path.anchor (fun _ => notMem_of_mem_sibling h hother) (by simp),
    List.filter_append]
  simp [hne]

end

theorem withExtension_names {path : Path} {extension : String} (hslash : .char '/' ∉ raw extension)
    (hne : raw extension ≠ []) (hdots : raw ".." ∉ path.names)
    (hold : path.extension? ≠ some (raw extension)) :
    (path.withExtension extension).EndsOpen
      ∨
    (path.withExtension extension).isAbsolute = path.isAbsolute
      ∧
    ∃ folder name other,
      path.names = folder ++ [name]
        ∧
      (path.withExtension extension).names = folder ++ [other]
        ∧
      other ≠ name
        ∧
      other ≠ raw ".." := by
  cases hbackwards : path.backwards with
  | nil =>
    left
    unfold withExtension
    rw [hbackwards]
    apply endsOpen_of_names_eq_nil (names_of_backwards_nil hbackwards)
  | cons name before =>
    have hnames := names_of_backwards hbackwards
    obtain ⟨silent, hsegments, _, hname⟩ := segments_of_backwards hbackwards
    have hnameDots : name ≠ raw ".." := by
      intro heq
      apply hdots (by simp [hnames, heq])
    have hmem : name ∈ path.segments := by simp [hsegments]
    have hnameSlash := notMem_of_mem_segments hmem
    have hstem : (splitName name).1 ≠ [] := by
      apply stem_ne_nil
      intro heq
      rw [heq] at hname
      cases hname
    unfold withExtension
    rw [hbackwards]
    simp only [if_neg hnameDots]
    split
    -- the one case in which a name turns into two dots, and the path leads out of the folder
    . left
      intro last hlast
      rw [getLast?_route_build path.anchor
        (fun _ => notMem_of_mem_sibling hbackwards (by decide)) (by decide)] at hlast
      apply Or.inr (Option.some.inj hlast).symm
    . right
      have hother : .char '/' ∉ (splitName name).1 ++ .char '.' :: raw extension := by
        simp only [List.mem_append, List.mem_cons]
        rintro (hmem | heq | hmem)
        . apply hnameSlash (mem_of_mem_stem hmem)
        . cases heq
        . apply hslash hmem
      have hlength := List.length_pos_iff.2 hstem
      have hlength' := List.length_pos_iff.2 hne
      have hotherSilent : isSilent ((splitName name).1 ++ .char '.' :: raw extension) = false := by
        unfold isSilent
        rw [Bool.or_eq_false_iff, beq_eq_false_iff_ne, beq_eq_false_iff_ne]
        constructor
        . simp
        . intro heq
          have := congrArg List.length heq
          simp [raw_dot] at this
          omega
      refine ⟨?_, _, name, _, hnames, names_build_sibling hbackwards hother hotherSilent, ?_, ?_⟩
      . apply isAbsolute_build_sibling hbackwards hother
        simp
      . apply splitName_append_ne
        unfold extension? fileName? at hold
        rw [hbackwards] at hold
        simpa only [if_neg hnameDots, Option.bind_some] using hold
      . intro heq
        have := congrArg List.length heq
        simp [raw_dots] at this
        omega

theorem segments_of_last {path : Path} {name last : RawText} {before : List RawText}
    (hbackwards : path.backwards = name :: before) (hslash : path.route.slash = false)
    (hlast : path.route.names.getLast? = some last) (hdot : last ≠ raw ".") :
    path.segments = before.reverse ++ [name]
      ∧
    name = last := by
  obtain ⟨silent, hsegments, hsilent, hname⟩ := segments_of_backwards hbackwards
  have hne : name ≠ [] := by
    intro heq
    rw [heq] at hname
    cases hname
  have hcut := splitOn_eq_segments path (by simp [hsegments])
  cases hend : silent.reverse with
  | nil =>
    rw [List.reverse_eq_nil_iff.1 hend] at hsegments
    refine ⟨hsegments, ?_⟩
    unfold route at hlast
    simpa [hcut, hsegments, hne, List.filter_append] using hlast
  | cons other rest =>
    -- what is spelled after the last name is a slash or a dot, and neither is there
    have hrest : silent = rest.reverse ++ [other] := by
      rw [← List.reverse_reverse silent, hend, List.reverse_cons]
    have hother := hsilent other (by simp [hrest])
    unfold isSilent at hother
    rw [Bool.or_eq_true, beq_iff_eq, beq_iff_eq] at hother
    exfalso
    cases hother with
    | inl hempty =>
      unfold route at hslash
      simp [hcut, hsegments, hrest, hempty, hne, List.filter_append] at hslash
      exact hslash (by rw [← List.cons_append, List.getLast?_concat])
    | inr heq =>
      unfold route at hlast
      simp [hcut, hsegments, hrest, heq, raw_dot, List.filter_append] at hlast
      exact hdot hlast.symm

theorem withExtension_eq_self {path : Path} {extension : String} {last : RawText}
    (hextension : .char '/' ∉ raw extension) (hslash : path.route.slash = false)
    (hlast : path.route.names.getLast? = some last) (hdot : last ≠ raw ".")
    (hdots : last ≠ raw "..")
    (hlast' : (path.withExtension extension).route.names.getLast? = some last) :
    path.withExtension extension = path := by
  unfold withExtension at hlast' ⊢
  split
  . rfl
  . next name before hbackwards =>
    rw [hbackwards] at hlast'
    obtain ⟨hsegments, hname⟩ := segments_of_last hbackwards hslash hlast hdot
    simp only [hname, if_neg hdots] at hlast' ⊢
    split at hlast'
    . rw [getLast?_route_build path.anchor
        (fun _ => notMem_of_mem_sibling hbackwards (by decide)) (by decide)] at hlast'
      exact absurd (Option.some.inj hlast').symm hdots
    . next hopen =>
      have hmem : last ∈ path.segments := by simp [hsegments, hname]
      have hother : .char '/' ∉ (splitName last).1 ++ .char '.' :: raw extension := by
        simp only [List.mem_append, List.mem_cons]
        rintro (hmem' | heq | hmem')
        . exact notMem_of_mem_segments hmem (mem_of_mem_stem hmem')
        . cases heq
        . exact hextension hmem'
      rw [getLast?_route_build path.anchor
        (fun _ => notMem_of_mem_sibling hbackwards hother) (by simp)] at hlast'
      rw [if_neg hopen, Option.some.inj hlast', ← hname, ← hsegments]
      exact build_split path

end Path

end ApiTypings
