import ApiTypings.Proofs.Path.Extension

/-!
This module contains the theory of the name that a path is spelled with last: what it is of a path
below another one and of a path that gets another extension.
-/

namespace ApiTypings

namespace Path

theorem splitName_append {stem extension : RawText} (hstem : stem ≠ [])
    (hdot : .char '.' ∉ extension) :
    splitName (stem ++ .char '.' :: extension) = (stem, some extension) := by
  have hall : ∀ c ∈ extension.reverse, (decide (c ≠ .char '.')) = true := by
    intro c hc
    rw [decide_eq_true_eq]
    intro heq
    exact hdot (heq ▸ List.mem_reverse.1 hc)
  have hreverse : (stem ++ .char '.' :: extension).reverse =
      extension.reverse ++ .char '.' :: stem.reverse := by
    simp
  unfold splitName
  rw [hreverse, List.dropWhile_append_of_pos hall, List.takeWhile_append_of_pos hall,
    List.dropWhile_cons_of_neg (by simp), List.takeWhile_cons_of_neg (by simp)]
  split
  . next h => cases h
  . next h => exact absurd (List.reverse_eq_nil_iff.1 (List.cons.inj h).2) hstem
  . next h =>
    rw [← (List.cons.inj h).2]
    simp

theorem notMem_of_splitName {name extension : RawText} (h : (splitName name).2 = some extension) :
    .char '.' ∉ extension := by
  unfold splitName at h
  split at h
  . cases h
  . cases h
  . intro hmem
    rw [← Option.some.inj h, List.mem_reverse] at hmem
    have hall := List.all_takeWhile (p := fun c : RawChar => c ≠ .char '.') (l := name.reverse)
    simpa using List.all_eq_true.1 hall _ hmem

-- an extension of a name has one part only

theorem stem_append_ne {name extension : RawText} (hdot : .char '.' ∈ extension) :
    (splitName name).1 ++ .char '.' :: extension ≠ name := by
  apply splitName_append_ne
  intro h
  exact notMem_of_splitName h hdot

-- such a name would be shown as it is, and so would be its stem

theorem ofText_stem_append_ne {name : RawText} {extension : Text} (hdot : '.' ∈ extension) :
    .ofText ((splitName name).1.shown ++ '.' :: extension) ≠ name := by
  intro heq
  have hname : RawText.ofText name.shown = name := by
    rw [← heq, RawText.shown_ofText]
  have hstem : RawText.ofText (splitName name).1.shown = (splitName name).1 := by
    rw [RawText.ofText_shown_eq_self_iff] at hname ⊢
    exact fun c hc => hname c (mem_of_mem_stem hc)
  rw [RawText.ofText_append, hstem] at heq
  exact stem_append_ne (RawText.mem_ofText.2 hdot) heq

def lastName? (path : Path) : Option RawText := path.route.names.getLast?

section

variable {path below : Path} {name : RawText}

theorem route_names_join (h : below.isAbsolute = false) :
    (path.join below).route.names = path.route.names ++ below.route.names := by
  unfold join
  rw [h]
  simp only [Bool.false_eq_true, if_false]
  unfold route
  simp only
  split
  . next hend =>
    cases hend with
    | inl hnone =>
      rw [hnone]
      rfl
    | inr hslash =>
      obtain ⟨start, htext⟩ := List.getLast?_eq_some_iff.1 hslash
      rw [htext, List.append_assoc, List.singleton_append, List.splitOn_append_cons_self,
        List.splitOn_append_cons_self]
      simp
  . rw [List.splitOn_append_cons_self, List.filter_append]

theorem lastName?_join (h : below.isAbsolute = false) (hname : below.lastName? = some name) :
    (path.join below).lastName? = some name := by
  unfold lastName? at hname ⊢
  rw [route_names_join h, List.getLast?_append, hname]
  rfl

theorem join_name (hslash : .char '/' ∉ name) (hne : name ≠ []) :
    (path.join ⟨name⟩).lastName? = some name := by
  apply lastName?_join
  . rw [isAbsolute_eq, beq_eq_false_iff_ne]
    intro hhead
    exact hslash (List.mem_of_head? hhead)
  . have hbuild : (build .implied ([] ++ [name])).route.names.getLast? = some name :=
      getLast?_route_build .implied (by simpa) hne
    unfold lastName?
    simpa [build] using hbuild

theorem backwards_of_lastName? (h : path.lastName? = some name) (hdot : name ≠ raw ".") :
    ∃ before, path.backwards = name :: before := by
  obtain ⟨before, hroute⟩ := List.getLast?_eq_some_iff.1 h
  have hnames : path.names = before.filter (· ≠ raw ".") ++ [name] := by
    unfold names
    rw [hroute, List.filter_append, List.filter_cons_of_pos (by simpa using hdot), List.filter_nil]
  cases hbackwards : path.backwards with
  | nil =>
    rw [names_of_backwards_nil hbackwards] at hnames
    simp at hnames
  | cons other before' =>
    rw [names_of_backwards hbackwards] at hnames
    have hlast := (List.append_inj' hnames rfl).2
    exact ⟨before', by rw [(List.cons.inj hlast).1]⟩

variable (h : path.lastName? = some name) (hdot : name ≠ raw ".")
  (hdots : name ≠ raw "..")

include h hdot hdots

theorem stem?_of_lastName? : path.stem? = some (splitName name).1 := by
  obtain ⟨before, hbackwards⟩ := backwards_of_lastName? h hdot
  unfold stem? fileName?
  simp only [hbackwards, if_neg hdots]
  rfl

theorem lastName?_withExtension {extension : String} (hslash : .char '/' ∉ raw extension)
    (hstem : (splitName name).1 ≠ [.char '.']) :
    (path.withExtension extension).lastName? =
      some ((splitName name).1 ++ .char '.' :: raw extension) := by
  obtain ⟨before, hbackwards⟩ := backwards_of_lastName? h hdot
  obtain ⟨silent, hsegments, _, _⟩ := segments_of_backwards hbackwards
  have hmem : name ∈ path.segments := by simp [hsegments]
  have hname := notMem_of_mem_segments hmem
  have hother : .char '/' ∉ (splitName name).1 ++ .char '.' :: raw extension := by
    simp only [List.mem_append, List.mem_cons]
    rintro (hstem | heq | hextension)
    . exact hname (mem_of_mem_stem hstem)
    . cases heq
    . exact hslash hextension
  unfold withExtension
  simp only [hbackwards, if_neg hdots, hstem, false_and, if_false]
  apply getLast?_route_build path.anchor (fun _ => notMem_of_mem_sibling hbackwards hother)
  simp

end
end Path

end ApiTypings
