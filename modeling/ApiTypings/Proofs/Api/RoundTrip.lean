import ApiTypings.Proofs.Json.Reading
import ApiTypings.Proofs.Run.Reading

/-!
This module contains the writing of an api map as a JSON value, and the proof that the loading of a
source undoes it: the api maps that can be loaded are those whose names are distinct, and each of
them is loaded from every text of its value.
-/

namespace ApiTypings

def Parameter.toJson (parameter : Parameter) : Json.Value :=
  .object [("required".toList, .bool parameter.required)]

def Params.toJson : Params → Json.Value
  | .list names => .array (names.map .string)
  | .map entries => .object (entries.map fun entry => (entry.name, entry.toJson))

def Function.toJson (function : Function) : Json.Value :=
  .object [("params".toList, function.params.toJson)]

def Group.toJson (group : Group) : Json.Value :=
  .object (group.functions.map fun function => (function.name, function.toJson))

def ApiMap.toJson (apis : ApiMap) : Json.Value :=
  .object (apis.groups.map fun group => (group.name, group.toJson))

def Params.HasDistinctNames : Params → Prop
  | .list _ => True
  | .map entries => (entries.map Parameter.name).Nodup

def Group.HasDistinctNames (group : Group) : Prop :=
  (group.functions.map Function.name).Nodup ∧
    ∀ function ∈ group.functions, function.params.HasDistinctNames

def ApiMap.HasDistinctNames (apis : ApiMap) : Prop :=
  (apis.groups.map Group.name).Nodup ∧ ∀ group ∈ apis.groups, group.HasDistinctNames

namespace Api

section

variable {α : Type} {name : α → Text} {toJson : α → Json.Value}
  {read : Text → Json.Value → Except Fault α}

theorem readMembers_map (as : List α) (h : ∀ a ∈ as, read (name a) (toJson a) = .ok a) :
    readMembers read (as.map fun a => (name a, toJson a)) = .ok as := by
  induction as with
  | nil => rfl
  | cons a rest ih =>
    obtain ⟨ha, hrest⟩ := List.forall_mem_cons.1 h
    rw [List.map_cons, readMembers, ha, ih hrest]
    rfl

theorem isRegular_map {as : List α} {depth : Nat} (hdistinct : (as.map name).Nodup)
    (h : ∀ a ∈ as, Json.IsRegular depth (toJson a)) :
    Json.IsRegular (depth + 1) (.object (as.map fun a => (name a, toJson a))) := by
  refine ⟨?_, ?_⟩
  . unfold Json.Members.keys
    rw [List.map_map]
    exact hdistinct
  . intro member hmember
    obtain ⟨a, ha, rfl⟩ := List.mem_map.1 hmember
    exact h a ha

theorem readMembers_eq_ok (hname : ∀ key value a, read key value = .ok a → name a = key)
    {members : Json.Members} {as : List α} (h : readMembers read members = .ok as) :
    as.map name = Json.Members.keys members ∧
      ∀ a ∈ as, ∃ member ∈ members, read member.1 member.2 = .ok a := by
  induction members generalizing as with
  | nil =>
    cases h
    exact ⟨rfl, by simp⟩
  | cons head rest ih =>
    obtain ⟨key, value⟩ := head
    rw [readMembers] at h
    cases hread : read key value with
    | error fault =>
      rw [hread] at h
      cases h
    | ok a =>
      rw [hread] at h
      cases hrest : readMembers read rest with
      | error fault =>
        rw [hrest] at h
        cases h
      | ok as' =>
        rw [hrest] at h
        cases h
        obtain ⟨hnames, hmembers⟩ := ih hrest
        refine ⟨?_, ?_⟩
        . simp only [List.map_cons, Json.Members.keys, hname key value a hread] at hnames ⊢
          rw [hnames]
        . intro b hb
          cases hb with
          | head => exact ⟨(key, value), List.mem_cons_self, hread⟩
          | tail _ hb =>
            obtain ⟨member, hmember, hbread⟩ := hmembers b hb
            exact ⟨member, List.mem_cons_of_mem _ hmember, hbread⟩

end

theorem readNames_map (start : Nat) (names : List Text) :
    readNames start (names.map .string) = .ok names := by
  induction names generalizing start with
  | nil => rfl
  | cons name rest ih => rw [List.map_cons, readNames, ih]

theorem readDescriptor_toJson (parameter : Parameter) :
    readDescriptor parameter.name parameter.toJson = .ok parameter := by
  obtain ⟨name, required⟩ := parameter
  cases required <;> rfl

theorem readParams_toJson (params : Params) : readParams params.toJson = .ok params := by
  cases params with
  | list names =>
    rw [Params.toJson, readParams, readNames_map]
  | map entries =>
    rw [Params.toJson, readParams, readMembers_map entries fun entry _ => readDescriptor_toJson entry]

theorem readFunction_toJson (function : Function) :
    readFunction function.name function.toJson = .ok function := by
  have hparams := readParams_toJson function.params
  have hfound : Json.Members.get? [("params".toList, function.params.toJson)] "params".toList =
      some function.params.toJson := rfl
  rw [Function.toJson, readFunction, hfound]
  simp only
  rw [hparams]
  rfl

theorem readGroup_toJson (group : Group) : readGroup group.name group.toJson = .ok group := by
  rw [Group.toJson, readGroup, readMembers_map _ fun function _ => readFunction_toJson function]

theorem ofJson_toJson (apis : ApiMap) : ApiMap.ofJson apis.toJson = .ok apis := by
  rw [ApiMap.toJson, ApiMap.ofJson, readMembers_map _ fun group _ => readGroup_toJson group]

theorem isRegular_params {params : Params} (h : params.HasDistinctNames) (depth : Nat) :
    Json.IsRegular (depth + 2) params.toJson := by
  cases params with
  | list names =>
    intro item hitem
    obtain ⟨name, _, rfl⟩ := List.mem_map.1 hitem
    trivial
  | map entries =>
    apply isRegular_map h
    intro entry _
    refine ⟨by simp [Json.Members.keys], ?_⟩
    intro member hmember
    rw [List.mem_singleton.1 hmember]
    cases depth <;> trivial

theorem isRegular_function {function : Function} (h : function.params.HasDistinctNames)
    (depth : Nat) : Json.IsRegular (depth + 3) function.toJson := by
  refine ⟨by simp [Json.Members.keys], ?_⟩
  intro member hmember
  rw [List.mem_singleton.1 hmember]
  exact isRegular_params h depth

theorem isRegular_toJson {apis : ApiMap} (h : apis.HasDistinctNames) (depth : Nat) :
    Json.IsRegular (depth + 5) apis.toJson := by
  apply isRegular_map h.1
  intro group hgroup
  obtain ⟨hnames, hfunctions⟩ := h.2 group hgroup
  apply isRegular_map hnames
  intro function hfunction
  exact isRegular_function (hfunctions function hfunction) depth

theorem name_of_readDescriptor {name : Text} {value : Json.Value} {parameter : Parameter}
    (h : readDescriptor name value = .ok parameter) : parameter.name = name := by
  unfold readDescriptor at h
  split at h <;> cases h <;> rfl

theorem name_of_readFunction {name : Text} {value : Json.Value} {function : Function}
    (h : readFunction name value = .ok function) : function.name = name := by
  unfold readFunction at h
  split at h
  . split at h
    . cases h
      rfl
    . split at h <;> cases h
      rfl
  . cases h

theorem name_of_readGroup {name : Text} {value : Json.Value} {group : Group}
    (h : readGroup name value = .ok group) : group.name = name := by
  unfold readGroup at h
  split at h
  . split at h <;> cases h
    rfl
  . cases h

theorem hasDistinctNames_of_readParams {depth : Nat} {value : Json.Value} {params : Params}
    (hregular : Json.IsRegular depth value) (h : readParams value = .ok params) :
    params.HasDistinctNames := by
  unfold readParams at h
  split at h
  . split at h <;> cases h
    trivial
  . split at h
    . cases h
    . next hentries =>
      cases h
      have hnames := (readMembers_eq_ok (fun _ _ _ => name_of_readDescriptor) hentries).1
      change (List.map Parameter.name _).Nodup
      rw [hnames]
      exact hregular.of_object.1
  . cases h

theorem mem_of_get? {members : Json.Members} {key : Text} {value : Json.Value}
    (h : Json.Members.get? members key = some value) : (key, value) ∈ members := by
  obtain ⟨before, after, rfl, _⟩ := List.lookup_eq_some_iff.1 h
  simp

theorem eq_ok_of_atStep {step : Step} {result : Except Fault α} {a : α}
    (h : atStep step result = .ok a) : result = .ok a := by
  cases result with
  | error fault => cases h
  | ok b => exact h

theorem hasDistinctNames_of_readFunction {depth : Nat} {name : Text} {value : Json.Value}
    {function : Function} (hregular : Json.IsRegular depth value)
    (h : readFunction name value = .ok function) : function.params.HasDistinctNames := by
  unfold readFunction at h
  split at h
  . obtain ⟨_, depth, hmembers⟩ := hregular.of_object
    split at h
    . cases h
      trivial
    . next hvalue =>
      split at h
      . cases h
      . next hparams =>
        cases h
        have hmember := hmembers _ (mem_of_get? hvalue)
        exact hasDistinctNames_of_readParams hmember (eq_ok_of_atStep hparams)
  . cases h

theorem hasDistinctNames_of_readGroup {depth : Nat} {name : Text} {value : Json.Value}
    {group : Group} (hregular : Json.IsRegular depth value)
    (h : readGroup name value = .ok group) : group.HasDistinctNames := by
  unfold readGroup at h
  split at h
  . obtain ⟨hkeys, depth, hmembers⟩ := hregular.of_object
    split at h
    . cases h
    . next hfunctions =>
      cases h
      obtain ⟨hnames, hread⟩ := readMembers_eq_ok (fun _ _ _ => name_of_readFunction) hfunctions
      refine ⟨hnames ▸ hkeys, ?_⟩
      intro function hfunction
      obtain ⟨member, hmember, hfunction⟩ := hread function hfunction
      exact hasDistinctNames_of_readFunction (hmembers member hmember) hfunction
  . cases h

theorem hasDistinctNames_of_ofJson {depth : Nat} {value : Json.Value} {apis : ApiMap}
    (hregular : Json.IsRegular depth value) (h : ApiMap.ofJson value = .ok apis) :
    apis.HasDistinctNames := by
  unfold ApiMap.ofJson at h
  split at h
  . obtain ⟨hkeys, depth, hmembers⟩ := hregular.of_object
    split at h
    . cases h
    . next hgroups =>
      cases h
      obtain ⟨hnames, hread⟩ := readMembers_eq_ok (fun _ _ _ => name_of_readGroup) hgroups
      refine ⟨hnames ▸ hkeys, ?_⟩
      intro group hgroup
      obtain ⟨member, hmember, hgroup⟩ := hread group hgroup
      exact hasDistinctNames_of_readGroup (hmembers member hmember) hgroup
  . cases h

end Api

/-- An api map with distinct names is loaded from every text of its value, and no other api map is
    loaded from any text. -/
theorem ApiMap.load_toJson (confirm : Path → Bool) (disk : Disk) (source : Path) :
    (∀ (apis : ApiMap) (text : Text),
      apis.HasDistinctNames
        →
      Json.SpellsDocument apis.toJson text
        →
      disk.readText source = .ok text
        →
      ((Document.load source).run confirm disk).value = .ok apis)
      ∧
    (∀ apis, ((Document.load source).run confirm disk).value = .ok apis → apis.HasDistinctNames) := by
  refine ⟨?_, ?_⟩
  . intro apis text hdistinct hspells htext
    have hregular : Json.IsRegular Json.maxDepth apis.toJson := Api.isRegular_toJson hdistinct 122
    have hparse := Json.parse_of_spellsDocument hregular hspells
    rw [Document.load_eq_ok_iff, Document.locate_of_readText htext]
    exact ⟨text, apis.toJson, htext, hparse, Api.ofJson_toJson apis⟩
  . intro apis h
    obtain ⟨text, value, _, hparse, hread⟩ := Document.load_eq_ok_iff.1 h
    exact Api.hasDistinctNames_of_ofJson (Json.isRegular_of_parse hparse) hread

def oddApis : ApiMap :=
  ⟨[⟨"net".toList,
    [⟨"go".toList, .map [⟨"😀".toList, true⟩]⟩, ⟨"a\"b".toList, .list [[]]⟩]⟩]⟩

def oddText : Text :=
  '{' :: " \"net\":\t".toList ++ '{' :: "\"go\" :".toList ++ '{' :: "\"params\":".toList ++
    '{' :: "\"\\uD83D\\ude00\":".toList ++ '{' :: "\"required\": true".toList ++ ['}', '}', '}'] ++
    ",\r\n\"a\\\"b\":".toList ++ '{' :: "\"params\":[ \"\"]".toList ++ ['}', '}', '}', '\n']

def oddDisk : Disk :=
  ⟨[raw "home"],
    [([raw "home"], .folder), ([raw "home", raw "apis.json"], .file (.text oddText))]⟩

theorem hasDistinctNames_oddApis : oddApis.HasDistinctNames := by
  refine ⟨by decide, ?_⟩
  intro group hgroup
  rw [List.mem_singleton.1 hgroup]
  refine ⟨by decide, ?_⟩
  intro function hfunction
  cases hfunction with
  | head => exact List.nodup_cons.2 ⟨by simp, List.nodup_nil⟩
  | tail _ hfunction =>
    rw [List.mem_singleton.1 hfunction]
    trivial

section

open Json

theorem spellsString_smiley : SpellsString "😀".toList "\\uD83D\\ude00".toList := by
  have hhigh := IsHex.digits (show IsHexDigit 13 'D' from .inr rfl)
    (show IsHexDigit 8 '8' from .inl rfl) (show IsHexDigit 3 '3' from .inl rfl)
    (show IsHexDigit 13 'D' from .inr rfl)
  have hlow := IsHex.digits (show IsHexDigit 13 'd' from .inl rfl)
    (show IsHexDigit 14 'e' from .inl rfl) (show IsHexDigit 0 '0' from .inl rfl)
    (show IsHexDigit 0 '0' from .inl rfl)
  exact .cons (.surrogates (by decide) (by decide) (by decide) hhigh hlow) .nil

theorem spellsString_quote : SpellsString "a\"b".toList "a\\\"b".toList := by
  have ha : SpellsChar 'a' ['a'] := .plain (by decide) (by decide) (by decide)
  have hquote : SpellsChar '"' ['\\', '"'] := .short (by decide)
  have hb : SpellsChar 'b' ['b'] := .plain (by decide) (by decide) (by decide)
  exact .cons ha (.cons hquote (.cons hb .nil))

theorem spellsDocument_oddText : SpellsDocument oddApis.toJson oddText := by
  have hnone : IsGap [] := by simp [IsGap]
  have hspace : IsGap [' '] := by simp [IsGap]
  have htab : IsGap ['\t'] := by simp [IsGap]
  have hnewline : IsGap ['\n'] := by simp [IsGap]
  have hline : IsGap ['\r', '\n'] := by simp [IsGap]
  have hrequired : SpellsString "required".toList "required".toList := spellsString_self (by simp)
  have hparams : SpellsString "params".toList "params".toList := spellsString_self (by simp)
  have hgo : SpellsString "go".toList "go".toList := spellsString_self (by simp)
  have hnet : SpellsString "net".toList "net".toList := spellsString_self (by simp)
  have hdescriptor := Spells.object (.listed hnone (.last (.member hrequired hnone hspace .true) hnone))
  have hmap := Spells.object
    (.listed hnone (.last (.member spellsString_smiley hnone hnone hdescriptor) hnone))
  have hlist := Spells.array (.listed hspace (.last (.string .nil) hnone))
  have hfirst := Spells.object (.listed hnone (.last (.member hparams hnone hnone hmap) hnone))
  have hsecond := Spells.object (.listed hnone (.last (.member hparams hnone hnone hlist) hnone))
  have hgroup := Spells.object (.listed hnone
    (.more (.member hgo hspace hnone hfirst) hnone hline
      (.last (.member spellsString_quote hnone hnone hsecond) hnone)))
  have hgroups := Spells.object (.listed hspace
    (.last (.member hnet hnone htab hgroup) hnone))
  have hdocument := SpellsDocument.document hnone hgroups hnewline
  exact hdocument

end

theorem ApiMap.load_toJson_oddApis :
    oddApis.HasDistinctNames
      ∧
    Json.SpellsDocument oddApis.toJson oddText
      ∧
    oddDisk.readText (.ofString "apis.json") = .ok oddText
      ∧
    ((Document.load (.ofString "apis.json")).run (fun _ => false) oddDisk).value = .ok oddApis := by
  have hread : oddDisk.readText (.ofString "apis.json") = .ok oddText := by rfl
  obtain ⟨hloads, hdistinct⟩ :=
    ApiMap.load_toJson (fun _ => false) oddDisk (.ofString "apis.json")
  have hload := hloads oddApis oddText hasDistinctNames_oddApis spellsDocument_oddText hread
  exact ⟨hdistinct oddApis hload, spellsDocument_oddText, hread, hload⟩

end ApiTypings
