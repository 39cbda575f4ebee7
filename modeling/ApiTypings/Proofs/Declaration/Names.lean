import ApiTypings.Proofs.Declaration.Outline
import ApiTypings.Proofs.Layout.Runs

/-!
This module contains what becomes of names in a declaration module: a name without line feeds stands
there character for character, except that a run of spaces as wide as a tab becomes a tab. A space
that a template puts before a name counts for such a run.
-/

namespace ApiTypings
namespace Declaration

def shownMember (parameter : Parameter) : Text :=
  Layout.tabs (' ' :: parameter.name) ++ (if parameter.required then ": any" else "?: any").toList

def shownFragment (function : Function) : Text :=
  "'".toList ++ Layout.tabs function.name ++
    if function.params.isEmpty then
      "': ReqFnWithAnyParams".toList
    else
      callOpening ++ (",".toList).intercalate (function.params.parameters.map shownMember) ++
        ' ' :: callClosing

def shownBlock (name : Text) (functions : List Function) : Text :=
  "export const".toList ++ Layout.tabs (' ' :: name) ++ blockOpening ++
    ("\n\t".toList).intercalate (functions.map shownFragment) ++ blockClosing

theorem not_hasBreak_of_notMem {name : Text} (n : Nat) (h : '\n' ∉ name) : ¬name.HasBreak n := by
  rintro ⟨before, blanks, after, hname, _⟩
  exact h (by simp [hname])

theorem tabs_member (parameter : Parameter) :
    Layout.tabs (' ' :: (parameter.name ++
        (if parameter.required then ": any" else "?: any").toList)) =
      shownMember parameter := by
  unfold shownMember
  rw [← List.cons_append]
  cases parameter.required with
  | true =>
    rw [Layout.tabs_append (.inr (by decide))]
    rfl
  | false =>
    rw [Layout.tabs_append (.inr (by decide))]
    rfl

theorem cons_space_intercalate {texts : List Text} (hne : texts ≠ []) :
    ' ' :: (", ".toList).intercalate texts = (",".toList).intercalate (texts.map (' ' :: ·)) := by
  cases texts with
  | nil => exact absurd rfl hne
  | cons t rest =>
    rw [List.map_cons, intercalate_cons, intercalate_cons, List.flatMap_map]
    rfl

theorem tabs_attributes {params : Params} (hne : ¬params.isEmpty = true) :
    Layout.tabs (' ' :: attributes params) =
      (",".toList).intercalate (params.parameters.map shownMember) := by
  rw [← Params.parameters_eq_nil_iff] at hne
  unfold attributes
  rw [cons_space_intercalate (by simpa using hne)]
  rw [Layout.tabs_intercalate_of_ends (by decide) (by decide) (by decide), List.map_map,
    List.map_map]
  congr 2
  funext parameter
  exact tabs_member parameter

theorem getLast?_intercalate {sep : Text} {texts : List Text} {c : Char} (hne : texts ≠ [])
    (h : ∀ t ∈ texts, t.getLast? = some c) : (sep.intercalate texts).getLast? = some c := by
  induction texts with
  | nil => exact absurd rfl hne
  | cons t rest ih =>
    cases rest with
    | nil => simpa using h
    | cons t' rest =>
      have hrest := ih (by simp) fun u hu => h u (List.mem_cons_of_mem t hu)
      rw [List.intercalate_cons_cons, List.getLast?_append, hrest]
      rfl

theorem getLast?_attributes {params : Params} (hne : ¬params.isEmpty = true) :
    (attributes params).getLast? = some 'y' := by
  rw [← Params.parameters_eq_nil_iff] at hne
  unfold attributes
  apply getLast?_intercalate (by simpa using hne)
  intro t ht
  obtain ⟨parameter, _, rfl⟩ := List.mem_map.1 ht
  rw [List.getLast?_append]
  cases parameter.required <;> rfl

theorem tabs_fragment (function : Function) :
    Layout.tabs (fragment function) = shownFragment function := by
  unfold fragment shownFragment
  split
  . rw [List.append_assoc, Layout.tabs_append (.inl (by decide)),
      Layout.tabs_append (.inr (by decide))]
    rfl
  . next hne =>
    have hspace (text : Text) : " ".toList ++ text = ' ' :: text := rfl
    have hopening : callOpening.head? = some '\'' := rfl
    have hclosing : Layout.tabs (' ' :: callClosing) = ' ' :: callClosing := rfl
    have hlast : (' ' :: attributes function.params).getLast? ≠ some ' ' := by
      rw [List.getLast?_cons, getLast?_attributes hne]
      decide
    simp only [List.append_assoc, hspace]
    rw [Layout.tabs_tabs, Layout.tabs_append (.inl (by decide)),
      Layout.tabs_append (.inr (by simp [hopening])), Layout.tabs_append (.inl (by decide)),
      Layout.tabs_append (.inl hlast), tabs_attributes hne, hclosing]
    rfl

theorem blockForm_eq_shownBlock (name : Text) (functions : List Function) :
    blockForm name (functions.map fragment) = shownBlock name functions := by
  have hspace : "export const ".toList ++ name = "export const".toList ++ ' ' :: name := by
    simp
  have hfragments : (functions.map fragment).map Layout.tabs = functions.map shownFragment := by
    rw [List.map_map]
    congr 1
    funext function
    exact tabs_fragment function
  unfold blockForm shownBlock
  have hopening : blockOpening.head? = some ':' := rfl
  rw [hspace]
  simp only [List.append_assoc, List.cons_append]
  rw [Layout.tabs_append (.inl (by decide)), ← List.cons_append,
    Layout.tabs_append (.inr (by simp [hopening])), Layout.tabs_append (.inl (by decide)),
    Layout.tabs_append (.inr (by decide)),
    Layout.tabs_intercalate_of_ends (by decide) (by decide) (by decide), hfragments]
  rfl

def gappedGroup : Group :=
  ⟨"user    api".toList, [⟨"get    info".toList, .list ["   id".toList]⟩]⟩

def gappedGroupApi : ApiMap := ⟨[⟨"user    api".toList, []⟩]⟩

end Declaration
end ApiTypings
