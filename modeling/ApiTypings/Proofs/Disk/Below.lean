import ApiTypings.Proofs.Disk.Lookup
import ApiTypings.Proofs.Disk.Ways
import ApiTypings.Proofs.Path.LastName

/-!
This module contains the theory of paths that are spelled again from the working folder on: on a
disk without links the shorter spelling of a file leads to that file.
-/

namespace ApiTypings

theorem RawText.size_le_of_suffix {s t : RawText} (h : s <:+ t) : s.size ≤ t.size := by
  obtain ⟨before, heq⟩ := h
  rw [← heq, size_append]
  omega

namespace Path

section

variable {names segments rest : List RawText}

theorem isSilent_of_dropWhile {segment : RawText} {later : List RawText}
    (h : segments.dropWhile isSilent = segment :: later) : isSilent segment = false := by
  have hhead := List.head?_dropWhile_not isSilent segments
  rw [h] at hhead
  simpa using hhead

theorem filter_takeWhile_isSilent (segments : List RawText) :
    (segments.takeWhile isSilent).filter (fun segment => !isSilent segment) = [] := by
  rw [List.filter_eq_nil_iff]
  intro segment hmem
  have hall := List.all_takeWhile (p := isSilent) (l := segments)
  simp [List.all_eq_true.1 hall segment hmem]

theorem dropNames_eq_some (h : dropNames names segments = some rest) :
    (∃ dropped,
      segments = dropped ++ rest
        ∧
      dropped.filter (fun segment => !isSilent segment) = names)
      ∧
    ∀ first later, rest = first :: later → isSilent first = false := by
  induction names generalizing segments with
  | nil =>
    unfold dropNames at h
    rw [← Option.some.inj h]
    exact ⟨⟨_, List.takeWhile_append_dropWhile.symm, filter_takeWhile_isSilent segments⟩,
      fun _ _ heq => isSilent_of_dropWhile heq⟩
  | cons name names ih =>
    unfold dropNames at h
    split at h
    . cases h
    . next segment later hdrop =>
      split at h
      . next heq =>
        obtain ⟨⟨dropped, hlater, hnames⟩, hfirst⟩ := ih h
        refine ⟨⟨segments.takeWhile isSilent ++ segment :: dropped, ?_, ?_⟩, hfirst⟩
        . rw [List.append_assoc, List.cons_append, ← hlater, ← hdrop,
            List.takeWhile_append_dropWhile]
        . rw [List.filter_append, filter_takeWhile_isSilent, List.nil_append,
            List.filter_cons_of_pos (by simp [isSilent_of_dropWhile hdrop]), hnames, heq]
      . cases h

end

theorem splitOn_of_isAbsolute {path : Path} (h : path.isAbsolute = true) :
    List.splitOn (.char '/') path.text = [] :: path.segments := by
  rw [isAbsolute_eq, beq_iff_eq, List.head?_eq_some_iff] at h
  obtain ⟨t, htext⟩ := h
  unfold segments split
  rw [htext, splitOn_cons_self]
  rfl

structure Shortens (names : List RawText) (path rest : Path) : Prop where
  fromRoot : path.route.fromRoot = true
  below : rest.route.fromRoot = false
  slash : rest.route.slash = false
  text : rest.text ≠ []
  suffix : rest.text <:+ path.text
  left : rest.route.names ≠ []
  route : ∃ before,
    path.route.names = before ++ rest.route.names
      ∧
    before.filter (· ≠ raw ".") = names

theorem shortens_build {names dropped start : List RawText} {path : Path} {last : RawText}
    (habsolute : path.isAbsolute = true) (hsegments : path.segments = dropped ++ (start ++ [last]))
    (hnames : dropped.filter (fun segment => !isSilent segment) = names)
    (hfirst : ∀ first later, start ++ [last] = first :: later → isSilent first = false)
    (hlast : isSilent last = false) :
    Shortens names path (build .implied (start ++ [last])) := by
  have hempty {segment : RawText} (hsegment : isSilent segment = false) : segment ≠ [] := by
    intro heq
    rw [heq] at hsegment
    cases hsegment
  have hslashes : ∀ segment ∈ start ++ [last], .char '/' ∉ segment := by
    intro segment hmem
    apply notMem_of_mem_segments
    rw [hsegments]
    apply List.mem_append_right _ hmem
  have hparts := splitOn_of_isAbsolute habsolute
  have hparts' := splitOn_build .implied hslashes (by simp)
  rw [show Anchor.lead .implied = [] from rfl, List.nil_append] at hparts'
  constructor
  . exact habsolute
  . cases hcase : start ++ [last] with
    | nil => simp at hcase
    | cons first later =>
      apply isAbsolute_build
      . intro _
        apply hempty (hfirst first later hcase)
      . apply hslashes first
        rw [hcase]
        exact List.mem_cons_self
  . unfold route
    simp [hparts', hempty hlast]
  . intro htext
    rw [htext, List.splitOn_nil] at hparts'
    have hends := congrArg List.getLast? hparts'
    rw [List.getLast?_concat] at hends
    exact hempty hlast (Option.some.inj hends).symm
  . have htext : [RawChar.char '/'].intercalate (path.text.splitOn (.char '/')) = path.text :=
      List.intercalate_splitOn _
    rw [hparts, hsegments, ← List.cons_append] at htext
    rw [← htext]
    apply intercalate_suffix
    simp
  . unfold route
    simp [hparts', hempty hlast]
  . refine ⟨dropped.filter (· ≠ []), ?_, ?_⟩
    . unfold route
      simp only
      rw [hparts, hparts', hsegments, List.filter_cons_of_neg (by simp), List.filter_append]
    . rw [filter_filter_dot, hnames]

theorem shortens_of_below? {names : List RawText} {path rest : Path} {last : RawText}
    (h : path.below? names = some rest) (hslash : path.route.slash = false)
    (hlast : path.lastName? = some last) (hdot : last ≠ raw ".") :
    path.isAbsolute = true ∧ path.names = names
      ∨
    Shortens names path rest := by
  unfold below? at h
  split at h
  . next habsolute =>
    obtain ⟨pieces, hdrop, hbuild⟩ := Option.map_eq_some_iff.1 h
    obtain ⟨⟨dropped, hsegments, hnames⟩, hfirst⟩ := dropNames_eq_some hdrop
    obtain ⟨above, hbackwards⟩ := backwards_of_lastName? hlast hdot
    obtain ⟨hends, _⟩ := segments_of_last hbackwards hslash hlast hdot
    obtain ⟨_, _, _, hsilent⟩ := segments_of_backwards hbackwards
    have hparts := splitOn_of_isAbsolute habsolute
    cases pieces.eq_nil_or_concat with
    | inl hnil =>
      left
      rw [hnil, List.append_nil] at hsegments
      rw [← components_eq]
      unfold components
      exact ⟨habsolute, by rw [hsegments, hnames]⟩
    | inr hconcat =>
      right
      obtain ⟨start, final, hpieces⟩ := hconcat
      have hfinal : final = last := by
        rw [hsegments, hpieces, List.concat_eq_append, ← List.append_assoc] at hends
        exact (List.cons.inj (List.append_inj' hends rfl).2).1
      rw [hfinal, List.concat_eq_append] at hpieces
      rw [hpieces] at hsegments hfirst hbuild
      -- the last name is spelled last, so nothing is cut off after it
      have hrest : build .implied (start ++ [last]) = rest := by
        rw [← hbuild, List.reverse_append, List.reverse_singleton, List.singleton_append,
          List.dropWhile_cons_of_neg (by simp [hsilent])]
        simp
      exact hrest ▸ shortens_build habsolute hsegments hnames hfirst hsilent
  . cases h

end Path

namespace Disk

section

variable {disk : Disk} {follows : Bool → Bool} {jump : Jump} {slash : Bool}
  {folder : Location} {before rest : List RawText} {spot : Spot}

theorem IsLinkFree.leads_append (hfree : disk.IsLinkFree) (hdots : raw ".." ∉ before)
    (hrest : rest ≠ []) (h : Leads disk follows jump slash folder (before ++ rest) spot) :
    Leads disk follows jump slash (folder ++ before.filter (· ≠ raw ".")) rest spot := by
  induction before generalizing folder with
  | nil =>
    rw [List.filter_nil, List.append_nil]
    exact h
  | cons name before ih =>
    have hdots' : raw ".." ∉ before := fun hmem => hdots (List.mem_cons_of_mem _ hmem)
    rw [List.cons_append] at h
    generalize hnames : name :: (before ++ rest) = names at h
    cases h with
    | arrive => cases hnames
    | stay later =>
      obtain ⟨rfl, rfl⟩ := List.cons.inj hnames
      rw [List.filter_cons_of_neg (by simp)]
      exact ih hdots' later
    | leave later =>
      obtain ⟨rfl, _⟩ := List.cons.inj hnames
      exact absurd List.mem_cons_self hdots
    | enter hname hnext hfind later =>
      obtain ⟨rfl, rfl⟩ := List.cons.inj hnames
      have hlater := ih hdots' later
      rw [List.append_assoc] at hlater
      rw [List.filter_cons_of_pos (by simpa using hname.1)]
      exact hlater
    | stop =>
      obtain ⟨_, hnone⟩ := List.cons.inj hnames
      exact absurd (List.append_eq_nil_iff.1 hnone).2 hrest
    | jump hname hfollows hfind hlater => exact absurd (find_eq_ok_iff.1 hfind).2 (hfree _ _)

variable {path shorter : Path} {location : Location} {content : Content}

theorem IsLinkFree.spot_of_shortens (hfree : disk.IsLinkFree) (hhome : raw ".." ∉ disk.home)
    (h : Path.Shortens disk.home path shorter) (hslash : path.route.slash = false)
    (hspot : disk.spot follows path = .ok spot) : disk.spot follows shorter = .ok spot := by
  obtain ⟨hnull, _, hfits, hwalk⟩ := spot_eq_ok_iff.1 hspot
  obtain ⟨before, hroute, hnames⟩ := h.route
  have hdots : raw ".." ∉ before := by
    intro hmem
    apply hhome
    rw [← hnames]
    exact List.mem_filter.2 ⟨hmem, by decide⟩
  obtain ⟨jump, hdescend⟩ := disk.walk_eq_descend follows maxLinks
  rw [spot_eq_ok_iff]
  refine ⟨fun hmem => hnull (h.suffix.subset hmem), h.text,
    Nat.le_trans (RawText.size_le_of_suffix h.suffix) hfits, ?_⟩
  rw [hdescend, h.fromRoot, if_pos rfl, hslash, descend_eq_ok_iff, hroute] at hwalk
  rw [hdescend, h.below, if_neg Bool.false_ne_true, h.slash, descend_eq_ok_iff, ← hnames]
  apply hfree.leads_append hdots h.left hwalk

theorem IsLinkFree.stat_of_below? (hfree : disk.IsLinkFree)
    (hfolder : disk.at? disk.home = some .folder) (hhome : raw ".." ∉ disk.home)
    (h : path.below? disk.home = some shorter)
    (hstat : disk.stat path = .ok (location, .file content)) :
    shorter.text <:+ path.text ∧ disk.stat shorter = .ok (location, .file content) := by
  obtain ⟨folder, name, hspot, hfind, hlocation⟩ := stat_eq_file hstat
  obtain ⟨before, hnames, hdot, _, _, hslash, _⟩ := hfree.place_of_spot hspot
  have hlast : path.lastName? = some name := by
    unfold Path.lastName?
    rw [hnames, List.getLast?_concat]
  obtain ⟨habsolute, hsame⟩ | hshortens := Path.shortens_of_below? h hslash.symm hlast hdot
  -- the working folder itself is no file
  . obtain ⟨_, _, _, hplace⟩ := hfree.spot_eq_entry hspot
    have hfile := (find_eq_ok_iff.1 hfind).2
    rw [hplace (hsame ▸ hhome)] at hfile
    unfold locate at hfile
    rw [habsolute, if_pos rfl, List.nil_append, hsame, hfolder] at hfile
    cases hfile
  . refine ⟨hshortens.suffix, ?_⟩
    rw [hlocation]
    apply stat_of_spot (hfree.spot_of_shortens hhome hshortens hslash.symm hspot) hfind

end

end Disk
end ApiTypings
