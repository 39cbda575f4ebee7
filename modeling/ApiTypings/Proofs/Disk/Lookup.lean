import ApiTypings.Proofs.Disk.Changes
import ApiTypings.Proofs.Path.Extension

/-!
This module contains the theory of paths on a disk without links: a path without two dots leads to
the place that its names spell, and a file is found by it exactly if it is at that place.
-/

namespace ApiTypings

structure Path.NamesEntry (path : Path) : Prop where
  noNull : .char '\x00' ∉ path.text
  fits : path.text.size ≤ Disk.maxPath
  short : ∀ name ∈ path.route.names, name.size ≤ Disk.maxName
  last : ∃ before name, path.route.names = before ++ [name] ∧ name ≠ raw "."

def Location.enter (folder : Location) (name : RawText) : Location :=
  if name = raw "." then folder
  else if name = raw ".." then folder.dropLast
  else folder ++ [name]

theorem Location.enter_of_isEntryName {folder : Location} {name : RawText}
    (h : Disk.IsEntryName name) : folder.enter name = folder ++ [name] := by
  unfold enter
  rw [if_neg h.1, if_neg h.2]

theorem Location.foldl_enter {names : List RawText} (h : raw ".." ∉ names) (folder : Location) :
    names.foldl enter folder = folder ++ names.filter (· ≠ raw ".") := by
  induction names generalizing folder with
  | nil => simp
  | cons name rest ih =>
    rw [List.mem_cons, not_or] at h
    rw [List.foldl_cons, ih h.2]
    unfold enter
    by_cases hdot : name = raw "."
    . rw [if_pos hdot, List.filter_cons_of_neg (by simpa using hdot)]
    . rw [if_neg hdot, if_neg (Ne.symm h.1), List.filter_cons_of_pos (by simpa using hdot),
        List.append_assoc]
      rfl

namespace Disk

def locate (disk : Disk) (path : Path) : Location :=
  (if path.isAbsolute then [] else disk.home) ++ path.names

-- a path that denotes no file has no content to be found

def content? (disk : Disk) (path : Path) : Option Content :=
  match disk.stat path with
  | .ok (_, .file content) => some content
  | _ => none

theorem content?_eq_some_iff {disk : Disk} {path : Path} {content : Content} :
    disk.content? path = some content ↔
      ∃ location, disk.stat path = .ok (location, .file content) := by
  unfold content?
  split
  . next location found hstat => simp [hstat]
  . next hnot =>
    simp only [reduceCtorEq, false_iff, not_exists]
    exact fun location hstat => hnot location content hstat

theorem readText_eq_ok_iff {disk : Disk} {path : Path} {t : Text} :
    disk.readText path = .ok t ↔ disk.content? path = some (.text t) := by
  unfold readText content?
  cases disk.stat path with
  | error fault => simp
  | ok found =>
    obtain ⟨location, entry⟩ := found
    cases entry with
    | file content => cases content <;> simp
    | folder => simp
    | link => simp

theorem stat_of_readText {disk : Disk} {path : Path} {t : Text} (h : disk.readText path = .ok t) :
    ∃ location, disk.stat path = .ok (location, .file (.text t)) :=
  content?_eq_some_iff.1 (readText_eq_ok_iff.1 h)

theorem isFolder_of_readText {disk : Disk} {path : Path} {t : Text}
    (h : disk.readText path = .ok t) : disk.isFolder path = false := by
  obtain ⟨location, hstat⟩ := stat_of_readText h
  unfold isFolder
  rw [hstat]

theorem isPresent_of_readText {disk : Disk} {path : Path} {t : Text}
    (h : disk.readText path = .ok t) : disk.isPresent path = true := by
  obtain ⟨location, hstat⟩ := stat_of_readText h
  unfold isPresent
  rw [hstat]

section

variable {disk : Disk} {follows : Bool → Bool} {jump : Jump} {slash slash' : Bool}
  {folder place : Location} {name : RawText} {names : List RawText}

theorem IsLinkFree.descend_eq_entry (hfree : disk.IsLinkFree)
    (h : descend disk follows jump slash folder names = .ok (.entry place name slash')) :
    ∃ before,
      names = before ++ [name]
        ∧
      name ≠ raw "."
        ∧
      name ≠ raw ".."
        ∧
      slash' = slash
        ∧
      (∀ other ∈ before, other.size ≤ maxName)
        ∧
      place = before.foldl Location.enter folder := by
  -- one more name before the others, and the folder that it leads to
  have hstep {folder folder' : Location} {first : RawText} {rest : List RawText}
      (henter : Location.enter folder first = folder') (hfirst : first.size ≤ maxName)
      (h : ∃ before,
        rest = before ++ [name] ∧ name ≠ raw "." ∧ name ≠ raw ".." ∧
          slash' = slash ∧ (∀ other ∈ before, other.size ≤ maxName) ∧
          place = before.foldl Location.enter folder') :
      ∃ before,
        first :: rest = before ++ [name] ∧ name ≠ raw "." ∧ name ≠ raw ".." ∧
          slash' = slash ∧ (∀ other ∈ before, other.size ≤ maxName) ∧
          place = before.foldl Location.enter folder := by
    obtain ⟨before, hrest, hname, hname', hslash, hshort, hplace⟩ := h
    refine ⟨first :: before, by rw [hrest]; rfl, hname, hname', hslash, ?_, ?_⟩
    . exact List.forall_mem_cons.2 ⟨hfirst, hshort⟩
    . rw [List.foldl_cons, henter, hplace]
  rw [descend_eq_ok_iff] at h
  generalize hspot : Spot.entry place name slash' = spot at h
  induction h with
  | arrive => cases hspot
  | stay later ih => exact hstep rfl (by decide) (ih hspot)
  | leave later ih => exact hstep rfl (by decide) (ih hspot)
  | enter hname hrest hfind later ih =>
    exact hstep (Location.enter_of_isEntryName hname) (find_eq_ok_iff.1 hfind).1 (ih hspot)
  | stop hname hfollows =>
    cases hspot
    exact ⟨[], rfl, hname.1, hname.2, rfl, by simp, rfl⟩
  | jump hname hlast hfind hlater => exact absurd (find_eq_ok_iff.1 hfind).2 (hfree _ _)

theorem IsLinkFree.descend_to_entry (hfree : disk.IsLinkFree) (htree : disk.IsTree)
    {before : List RawText} {entry : Entry} (hname : name ≠ raw ".")
    (hdots : raw ".." ∉ before ++ [name])
    (hshort : ∀ other ∈ before ++ [name], other.size ≤ maxName)
    (h : disk.at? (folder ++ (before.filter (· ≠ raw ".") ++ [name])) = some entry) :
    descend disk follows jump slash folder (before ++ [name]) =
      .ok (.entry (folder ++ before.filter (· ≠ raw ".")) name slash) := by
  rw [descend_eq_ok_iff]
  induction before generalizing folder with
  | nil =>
    have hname' : name ≠ raw ".." := fun heq => hdots (by simp [heq])
    have hfound : disk.find folder name = .ok (disk.at? (folder ++ [name])) :=
      find_eq_ok_iff.2 ⟨hshort name (by simp), rfl⟩
    rw [List.filter_nil, List.append_nil]
    exact .stop ⟨hname, hname'⟩ fun _ => ⟨_, hfound, hfree _⟩
  | cons first before ih =>
    have hdots' : raw ".." ∉ before ++ [name] :=
      fun hmem => hdots (List.mem_cons_of_mem _ hmem)
    have hshort' : ∀ other ∈ before ++ [name], other.size ≤ maxName :=
      fun other hmem => hshort other (List.mem_cons_of_mem _ hmem)
    have hfirst : first ≠ raw ".." := fun heq => hdots (by simp [heq])
    rw [List.cons_append]
    by_cases hdot : first = raw "."
    . rw [List.filter_cons_of_neg (by simpa using hdot)] at h ⊢
      rw [hdot]
      exact .stay (ih hdots' hshort' h)
    -- what is at the end of the names makes every name before it that of a folder
    . rw [List.filter_cons_of_pos (by simpa using hdot)] at h ⊢
      have happend : folder ++ (first :: before.filter (· ≠ raw ".") ++ [name]) =
          folder ++ [first] ++ (before.filter (· ≠ raw ".") ++ [name]) := by simp
      rw [happend] at h
      have hfind : disk.find folder first = .ok (some .folder) :=
        find_eq_ok_iff.2 ⟨hshort first (by simp), htree.at?_of_append (by simp) h⟩
      have hlater := ih hdots' hshort' h
      rw [List.append_assoc, List.singleton_append] at hlater
      exact .enter ⟨hdot, hfirst⟩ (by simp) hfind hlater

theorem notMem_route_of_notMem_names {path : Path} (h : raw ".." ∉ path.names) :
    raw ".." ∉ path.route.names := by
  intro hmem
  exact h (List.mem_filter.2 ⟨hmem, by decide⟩)

theorem locate_eq {path : Path} {before : List RawText}
    (hnames : path.route.names = before ++ [name]) (hname : name ≠ raw ".") :
    disk.locate path =
      (if path.isAbsolute then [] else disk.home) ++ before.filter (· ≠ raw ".") ++ [name] := by
  unfold locate Path.names
  rw [hnames, List.filter_append, List.filter_cons_of_pos (by simpa using hname),
    List.filter_nil, List.append_assoc]

variable {path : Path} {entry : Entry}

theorem IsLinkFree.place_of_spot (hfree : disk.IsLinkFree)
    (h : disk.spot follows path = .ok (.entry place name slash)) :
    ∃ before,
      path.route.names = before ++ [name]
        ∧
      name ≠ raw "."
        ∧
      name ≠ raw ".."
        ∧
      place = before.foldl Location.enter (if path.route.fromRoot then [] else disk.home)
        ∧
      slash = path.route.slash
        ∧
      ∀ other ∈ before, other.size ≤ maxName := by
  obtain ⟨_, _, _, hwalk⟩ := spot_eq_ok_iff.1 h
  obtain ⟨jump, hdescend⟩ := disk.walk_eq_descend follows maxLinks
  rw [hdescend] at hwalk
  obtain ⟨before, hnames, hname, hname', hslash, hshort, hplace⟩ := hfree.descend_eq_entry hwalk
  exact ⟨before, hnames, hname, hname', hplace, hslash, hshort⟩

theorem IsLinkFree.spot_eq_entry (hfree : disk.IsLinkFree)
    (h : disk.spot follows path = .ok (.entry folder name slash)) :
    ¬path.EndsOpen
      ∧
    slash = path.route.slash
      ∧
    (name.size ≤ maxName → path.NamesEntry)
      ∧
    (raw ".." ∉ path.names → folder ++ [name] = disk.locate path) := by
  obtain ⟨hnull, _, hfits, _⟩ := spot_eq_ok_iff.1 h
  obtain ⟨before, hnames, hname, hname', hplace, hslash, hshort⟩ := hfree.place_of_spot h
  refine ⟨?_, hslash, ?_, ?_⟩
  . intro hopen
    cases hopen name (by rw [hnames, List.getLast?_concat]) with
    | inl heq => exact hname heq
    | inr heq => exact hname' heq
  . intro hlast
    refine ⟨hnull, hfits, ?_, before, name, hnames, hname⟩
    rw [hnames, List.forall_mem_append]
    exact ⟨hshort, List.forall_mem_singleton.2 hlast⟩
  . intro hdots
    have hdots' := notMem_route_of_notMem_names hdots
    rw [hnames, List.mem_append] at hdots'
    rw [locate_eq hnames hname, hplace, Location.foldl_enter (fun hmem => hdots' (.inl hmem))]
    rfl

theorem IsLinkFree.spot_to_entry (hfree : disk.IsLinkFree) (htree : disk.IsTree)
    (hnames : path.NamesEntry) (hdots : raw ".." ∉ path.names)
    (h : disk.at? (disk.locate path) = some entry) (follows : Bool → Bool) :
    ∃ folder name,
      disk.spot follows path = .ok (.entry folder name path.route.slash)
        ∧
      folder ++ [name] = disk.locate path
        ∧
      name.size ≤ maxName := by
  obtain ⟨before, name, hroute, hname⟩ := hnames.last
  have hdots' := notMem_route_of_notMem_names hdots
  have hshort := hnames.short
  have htext : path.text ≠ [] := by
    intro htext
    unfold Path.route at hroute
    rw [htext] at hroute
    cases before <;> cases hroute
  obtain ⟨jump, hdescend⟩ := disk.walk_eq_descend follows maxLinks
  have hwalk := hdescend path.route.slash (if path.route.fromRoot then [] else disk.home)
    path.route.names
  rw [locate_eq hroute hname] at h ⊢
  rw [hroute] at hdots' hshort hwalk
  refine ⟨_, name, ?_, rfl, hshort name (by simp)⟩
  rw [spot_eq_ok_iff, hroute, hwalk]
  refine ⟨hnames.noNull, htext, hnames.fits, ?_⟩
  apply hfree.descend_to_entry htree hname hdots' hshort (by rwa [← List.append_assoc])

theorem IsLinkFree.content?_eq_some_iff (hfree : disk.IsLinkFree) (htree : disk.IsTree)
    (hdots : raw ".." ∉ path.names) {content : Content} :
    disk.content? path = some content ↔
      path.NamesEntry
        ∧
      path.route.slash = false
        ∧
      disk.at? (disk.locate path) = some (.file content) := by
  constructor
  . intro h
    unfold content? at h
    split at h
    . next location found hstat =>
      cases h
      obtain ⟨folder, name, hspot, hfind, _⟩ := stat_eq_file hstat
      obtain ⟨_, hslash, hnames, hplace⟩ := hfree.spot_eq_entry hspot
      obtain ⟨hshort, hfile⟩ := find_eq_ok_iff.1 hfind
      exact ⟨hnames hshort, hslash.symm, hplace hdots ▸ hfile⟩
    . cases h
  . rintro ⟨hnames, hslash, hfile⟩
    obtain ⟨folder, name, hspot, hplace, hshort⟩ :=
      hfree.spot_to_entry htree hnames hdots hfile (fun _ => true)
    have hfind : disk.find folder name = .ok (some (.file content)) :=
      find_eq_ok_iff.2 ⟨hshort, hplace ▸ hfile⟩
    unfold content? stat
    simp only [hspot, hfind, hslash]
    rfl

end

end Disk

end ApiTypings
