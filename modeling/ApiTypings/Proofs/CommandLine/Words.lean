import Mathlib.Data.List.Perm.Basic
import Mathlib.Data.List.TakeWhile
import ApiTypings.CommandLine.Session

/-!
This module contains the proof that every run can be asked for on a command line. Its options are
read back from the words for them, in whatever order these stand, and in no order is a line accepted
that both forces and forbids to overwrite a file.
-/

namespace ApiTypings

namespace CommandLine

inductive Word
  | output (value : RawText)
  | flag (known : Flag)
  | forceLetter
  | verbose
deriving DecidableEq, Repr

namespace Word

def text : Word → RawText
  | output value => raw "--output=" ++ value
  | flag known => .ofText known.name
  | forceLetter => raw "-f"
  | verbose => raw "-v"

def output? : Word → Option RawText
  | output value => some value
  | _ => none

def flag? : Word → Option Flag
  | flag known => some known
  | forceLetter => some .force
  | _ => none

end Word

-- this does not follow the reading of words, so that it can be compared for lists in another order

def Arguments.ofWords (words : List Word) : Arguments where
  output := (words.filterMap Word.output?).head?.map Path.mk
  flags := words.filterMap Word.flag?
  verbosity := words.count .verbose

structure IsReadable (words : List Word) : Prop where
  outputs : (words.filterMap Word.output?).length ≤ 1
  filled : [] ∉ words.filterMap Word.output?
  flags : (words.filterMap Word.flag?).Nodup

structure Arguments.Alike (arguments arguments' : Arguments) : Prop where
  source : arguments.source = arguments'.source
  output : arguments.output = arguments'.output
  flags : arguments.flags.Perm arguments'.flags
  verbosity : arguments.verbosity = arguments'.verbosity

theorem Flag.exists_name (flag : Flag) : ∃ name,
    flag.name = '-' :: '-' :: name ∧ '=' ∉ name ∧ Switch.ofLong? name = some (.flag flag) := by
  cases flag with
  | force => exact ⟨"force".toList, rfl, by decide, by decide⟩
  | noClobber => exact ⟨"no-clobber".toList, rfl, by decide, by decide⟩
  | dryRun => exact ⟨"dry-run".toList, rfl, by decide, by decide⟩
  | json => exact ⟨"json".toList, rfl, by decide, by decide⟩

namespace State

variable {state : State} {name : Text} {value : RawText} {switch : Switch}

theorem read_long {t : RawText} (hended : state.ended = false) (ht : t ≠ []) :
    state.read (.char '-' :: .char '-' :: t) = state.readLong t := by
  cases t with
  | nil => contradiction
  | cons c rest =>
    unfold read
    rw [hended]
    rfl

theorem ne_equals (hname : '=' ∉ name) :
    ∀ c ∈ RawText.ofText name, decide (c ≠ .char '=') = true := by
  intro c hc
  apply decide_eq_true
  rintro rfl
  exact hname (RawText.mem_ofText.1 hc)

theorem readLong_of_notMem (hname : '=' ∉ name) (hswitch : Switch.ofLong? name = some switch) :
    state.readLong (.ofText name) = state.act switch := by
  unfold readLong
  rw [List.takeWhile_eq_self_iff.2 (ne_equals hname), List.dropWhile_eq_nil_iff.2 (ne_equals hname),
    RawText.shown_ofText]
  simp only [hswitch]

theorem readLong_of_output (hname : '=' ∉ name) (hswitch : Switch.ofLong? name = some .output) :
    state.readLong (.ofText name ++ .char '=' :: value) = state.actOutput value := by
  unfold readLong
  rw [List.takeWhile_append_of_pos (ne_equals hname),
    List.dropWhile_append_of_pos (ne_equals hname)]
  simp [hswitch]

theorem read_letter {letter : Char} (hended : state.ended = false)
    (hswitch : Switch.ofLetter? letter = some switch) (hother : switch ≠ .output) :
    state.read [.char '-', .char letter] = state.act switch := by
  have hdash : letter ≠ '-' := by
    rintro rfl
    cases hswitch
  have hread : state.read [.char '-', .char letter] = state.readLetters [.char letter] := by
    simp [read, hended, hdash]
  rw [hread]
  unfold readLetters
  rw [hswitch]
  cases switch with
  | output => contradiction
  | _ =>
    simp only [readLetters]
    split
    . next hact => exact hact.symm
    . next hact => exact hact.symm

theorem read_output (hended : state.ended = false) (value : RawText) :
    state.read (Word.output value).text = state.actOutput value := by
  have htext : (Word.output value).text =
      .char '-' :: .char '-' :: (RawText.ofText "output".toList ++ .char '=' :: value) := rfl
  rw [htext, read_long hended (List.append_ne_nil_of_right_ne_nil _ (List.cons_ne_nil _ _))]
  apply readLong_of_output
  . decide
  . decide

theorem read_flag (hended : state.ended = false) (flag : Flag) :
    state.read (.ofText flag.name) = state.act (.flag flag) := by
  obtain ⟨name, hname, hnotMem, hswitch⟩ := flag.exists_name
  have hne : RawText.ofText name ≠ [] := by
    intro hnil
    rw [List.map_eq_nil_iff.1 hnil] at hswitch
    cases hswitch
  rw [hname, RawText.ofText_cons, RawText.ofText_cons, read_long hended hne]
  exact readLong_of_notMem hnotMem hswitch

end State

section

variable {before words words' : List Word} {word : Word} {arguments arguments' : Arguments}
  {source : RawText} {line : List RawText}

theorem IsReadable.perm (h : IsReadable words) (hperm : words'.Perm words) : IsReadable words' where
  outputs := (hperm.filterMap _).length_eq ▸ h.outputs
  filled hmem := h.filled ((hperm.filterMap _).mem_iff.1 hmem)
  flags := (hperm.filterMap _).nodup_iff.2 h.flags

theorem IsReadable.sublist (h : IsReadable words) (hsublist : words'.Sublist words) :
    IsReadable words' where
  outputs := (hsublist.filterMap _).length_le.trans h.outputs
  filled hmem := h.filled ((hsublist.filterMap _).subset hmem)
  flags := h.flags.sublist (hsublist.filterMap _)

theorem ofWords_append_flag {flag : Flag} (hflag : word.flag? = some flag) :
    Arguments.ofWords (before ++ [word]) =
      { Arguments.ofWords before with flags := (Arguments.ofWords before).flags ++ [flag] } := by
  cases word with
  | output value => cases hflag
  | verbose => cases hflag
  | flag known => simp [Arguments.ofWords, hflag, Word.output?]
  | forceLetter => simp [Arguments.ofWords, hflag, Word.output?]

theorem takeFlag_ofWords {flag : Flag} (h : IsReadable (before ++ [word]))
    (hflag : word.flag? = some flag) :
    State.takeFlag { taken := .ofWords before } flag =
      .ok { taken := .ofWords (before ++ [word]) } := by
  have hnew : (Arguments.ofWords before).flags.contains flag = false := by
    have hflags := h.flags
    rw [List.filterMap_append, List.filterMap_cons_some hflag] at hflags
    rw [Bool.eq_false_iff, Ne, List.contains_iff_mem]
    intro hmem
    exact (List.nodup_append.1 hflags).2.2 flag hmem flag List.mem_cons_self rfl
  unfold State.takeFlag
  rw [ofWords_append_flag hflag]
  simp only [hnew]
  rfl

theorem takeOutput_ofWords {value : RawText} (h : IsReadable (before ++ [.output value])) :
    State.takeOutput { taken := .ofWords before } value =
      .ok { taken := .ofWords (before ++ [.output value]) } := by
  have hnone : before.filterMap Word.output? = [] := by
    have houtputs := h.outputs
    rw [List.filterMap_append, List.length_append] at houtputs
    apply List.eq_nil_of_length_eq_zero
    simp only [List.filterMap_cons, Word.output?, List.filterMap_nil, List.length_singleton]
      at houtputs
    omega
  have hfilled : value ≠ [] := by
    rintro rfl
    apply h.filled
    simp [Word.output?]
  simp [State.takeOutput, Arguments.ofWords, hnone, hfilled, Word.output?, Word.flag?]

theorem read_word (h : IsReadable (before ++ [word])) :
    State.read { taken := .ofWords before } word.text =
      .ok { taken := .ofWords (before ++ [word]) } := by
  cases word with
  | output value =>
    rw [State.read_output rfl]
    exact takeOutput_ofWords h
  | flag known =>
    refine (State.read_flag rfl known).trans ?_
    exact takeFlag_ofWords h rfl
  | forceLetter =>
    have hletter : Switch.ofLetter? 'f' = some (.flag .force) := rfl
    refine (State.read_letter rfl hletter nofun).trans ?_
    exact takeFlag_ofWords h rfl
  | verbose =>
    have hletter : Switch.ofLetter? 'v' = some .verbose := rfl
    refine (State.read_letter rfl hletter nofun).trans ?_
    simp [State.act, State.settle, Arguments.ofWords, Word.output?, Word.flag?]

theorem readAll_words {rest : List RawText} (h : IsReadable (before ++ words)) :
    State.readAll { taken := .ofWords before } (words.map Word.text ++ rest) =
      State.readAll { taken := .ofWords (before ++ words) } rest := by
  induction words generalizing before with
  | nil => rw [List.append_nil, List.map_nil, List.nil_append]
  | cons word words ih =>
    rw [List.append_cons] at h
    rw [List.map_cons, List.cons_append, State.readAll,
      read_word (h.sublist (List.sublist_append_left _ _))]
    simp only
    rw [ih h, ← List.append_cons]

theorem readAll_source (hsource : source ≠ []) :
    State.readAll { taken := arguments } [raw "--", source] =
      .ok ⟨{ arguments with source := some ⟨source⟩ }, none, true, true⟩ := by
  cases source with
  | nil => contradiction
  | cons c rest => rfl

theorem conflict?_eq_none_iff (hflags : arguments.flags.Nodup) :
    conflict? arguments = none ↔ ¬(arguments.force = true ∧ arguments.noClobber = true) := by
  have hmem (flag : Flag) :
      flag ∈ arguments.flags.filter (fun flag => flag = .force ∨ flag = .noClobber) ↔
        flag ∈ arguments.flags ∧ (flag = .force ∨ flag = .noClobber) := by
    rw [List.mem_filter, decide_eq_true_iff]
  have hnodup := hflags.filter fun flag => flag = .force ∨ flag = .noClobber
  unfold conflict? Arguments.force Arguments.noClobber
  rw [List.contains_iff_mem, List.contains_iff_mem]
  generalize arguments.flags.filter (fun flag => flag = .force ∨ flag = .noClobber) = clashing
    at hmem hnodup ⊢
  obtain _ | ⟨first, _ | ⟨second, rest⟩⟩ := clashing
  . exact iff_of_true rfl fun h => List.not_mem_nil ((hmem .force).2 ⟨h.1, .inl rfl⟩)
  . refine iff_of_true rfl fun h => ?_
    have hforce := List.mem_singleton.1 ((hmem .force).2 ⟨h.1, .inl rfl⟩)
    have hnoClobber := List.mem_singleton.1 ((hmem .noClobber).2 ⟨h.2, .inr rfl⟩)
    cases hforce.trans hnoClobber.symm
  -- two different ones among two are both of them
  . obtain ⟨hfirst, hfirst'⟩ := (hmem first).1 List.mem_cons_self
    obtain ⟨hsecond, hsecond'⟩ := (hmem second).1 (List.mem_cons_of_mem _ List.mem_cons_self)
    have hne : first ≠ second := List.ne_of_not_mem_cons (List.nodup_cons.1 hnodup).1
    refine iff_of_false (Option.some_ne_none _) (not_not_intro ?_)
    obtain rfl | rfl := hfirst' <;> obtain rfl | rfl := hsecond'
    . contradiction
    . exact ⟨hfirst, hsecond⟩
    . exact ⟨hsecond, hfirst⟩
    . contradiction

theorem Arguments.Alike.contains_eq (h : arguments.Alike arguments') (flag : Flag) :
    arguments.flags.contains flag = arguments'.flags.contains flag := by
  rw [Bool.eq_iff_iff, List.contains_iff_mem, List.contains_iff_mem]
  exact h.flags.mem_iff

theorem Arguments.Alike.options_eq (h : arguments.Alike arguments') :
    arguments.options = arguments'.options := by
  unfold Arguments.options Arguments.force Arguments.noClobber
  simp only [h.source, h.output, h.contains_eq]

theorem Arguments.Alike.conflict?_eq_none_iff (h : arguments.Alike arguments')
    (hflags : arguments'.flags.Nodup) : conflict? arguments = none ↔ conflict? arguments' = none := by
  rw [CommandLine.conflict?_eq_none_iff (h.flags.nodup_iff.2 hflags),
    CommandLine.conflict?_eq_none_iff hflags]
  unfold Arguments.force Arguments.noClobber
  rw [h.contains_eq, h.contains_eq]

theorem alike_ofWords (h : IsReadable words) (hperm : words'.Perm words) (source : Option Path) :
    Arguments.Alike { Arguments.ofWords words' with source := source }
      { Arguments.ofWords words with source := source } where
  source := rfl
  output := by
    have hvalues : words'.filterMap Word.output? = words.filterMap Word.output? := by
      have hperm := hperm.filterMap Word.output?
      match houtput : words.filterMap Word.output?, h.outputs with
      | [], _ => exact (houtput ▸ hperm).eq_nil
      | [value], _ => exact List.perm_singleton.1 (houtput ▸ hperm)
    unfold Arguments.ofWords
    rw [hvalues]
  flags := hperm.filterMap _
  verbosity := hperm.count_eq _

def judged (arguments : Arguments) : Except Halt Arguments :=
  match conflict? arguments with
  | some fault => .error (.fault fault)
  | none => .ok arguments

theorem read_words (h : IsReadable words) (hsource : source ≠ []) :
    read (words.map Word.text ++ [raw "--", source]) =
      judged { Arguments.ofWords words with source := some ⟨source⟩ } := by
  have hempty : IsReadable ([] ++ words) := h
  have hall : State.readAll {} (words.map Word.text ++ [raw "--", source]) =
      .ok ⟨{ Arguments.ofWords words with source := some ⟨source⟩ }, none, true, true⟩ :=
    (readAll_words hempty).trans (readAll_source hsource)
  unfold read
  rw [hall]
  rfl

theorem exists_alike_of_perm (h : IsReadable words) (hsource : source ≠ [])
    (hline : line.Perm (words.map Word.text)) :
    ∃ arguments,
      arguments.Alike { Arguments.ofWords words with source := some ⟨source⟩ }
        ∧
      read (line ++ [raw "--", source]) = judged arguments := by
  have hcomp := congrFun (congrFun (List.eq_map_comp_perm Word.text) line) words
  obtain ⟨words', rfl, hperm⟩ := hcomp.mpr hline
  exact ⟨_, alike_ofWords h hperm _, read_words (h.perm hperm) hsource⟩

end

def plainFlags (options : Options) (json : Bool) : List Flag :=
  (if options.dryRun then [.dryRun] else []) ++ (if json then [.json] else [])

def overwriteFlags : Overwrite → List Flag
  | .ask => []
  | .always => [.force]
  | .never => [.noClobber]

def Arguments.ofOptions (options : Options) (json : Bool) (verbosity : Nat) : Arguments where
  source := some options.source
  output := options.output
  flags := overwriteFlags options.overwrite ++ plainFlags options json
  verbosity := verbosity

def settings (options : Options) (json : Bool) (verbosity : Nat) : List Word :=
  options.output.toList.map (fun output => .output output.text) ++
    (plainFlags options json).map .flag ++ List.replicate verbosity .verbose

def forceWord (byLetter : Bool) : Word := if byLetter then .forceLetter else .flag .force

def overwriteWords (byLetter : Bool) : Overwrite → List Word
  | .ask => []
  | .always => [forceWord byLetter]
  | .never => [.flag .noClobber]

section

variable {options : Options} {json byLetter : Bool} {verbosity : Nat}

theorem filterMap_output?_settings :
    (settings options json verbosity).filterMap Word.output? =
      options.output.toList.map Path.text := by
  simp [settings, List.filterMap_map, List.filterMap_replicate, Function.comp_def, Word.output?]

theorem filterMap_flag?_settings :
    (settings options json verbosity).filterMap Word.flag? = plainFlags options json := by
  simp [settings, List.filterMap_map, List.filterMap_replicate, Function.comp_def, Word.flag?]

theorem count_settings : (settings options json verbosity).count .verbose = verbosity := by
  simp [settings, List.count_eq_zero_of_not_mem]

theorem filterMap_flag?_overwriteWords (overwrite : Overwrite) :
    (overwriteWords byLetter overwrite).filterMap Word.flag? = overwriteFlags overwrite := by
  cases overwrite <;> cases byLetter <;> rfl

theorem filterMap_output?_overwriteWords (overwrite : Overwrite) :
    (overwriteWords byLetter overwrite).filterMap Word.output? = [] := by
  cases overwrite <;> cases byLetter <;> rfl

theorem count_overwriteWords (overwrite : Overwrite) :
    (overwriteWords byLetter overwrite).count .verbose = 0 := by
  cases overwrite <;> cases byLetter <;> rfl

theorem flag?_forceWord : (forceWord byLetter).flag? = some .force := by
  cases byLetter <;> rfl

theorem output?_forceWord : (forceWord byLetter).output? = none := by
  cases byLetter <;> rfl

theorem filterMap_flag?_both (words : List Word) :
    (forceWord byLetter :: .flag .noClobber :: words).filterMap Word.flag? =
      .force :: .noClobber :: words.filterMap Word.flag? := by
  have hnoClobber : (Word.flag .noClobber).flag? = some .noClobber := rfl
  rw [List.filterMap_cons_some flag?_forceWord, List.filterMap_cons_some hnoClobber]

theorem isReadable_settings (houtput : options.output ≠ some ⟨[]⟩) :
    IsReadable (forceWord byLetter :: .flag .noClobber :: settings options json verbosity) where
  outputs := by
    rw [List.filterMap_cons_none output?_forceWord, List.filterMap_cons_none rfl,
      filterMap_output?_settings]
    cases options.output <;> simp
  filled := by
    rw [List.filterMap_cons_none output?_forceWord, List.filterMap_cons_none rfl,
      filterMap_output?_settings]
    intro hmem
    obtain ⟨⟨text⟩, hpath, rfl⟩ := List.mem_map.1 hmem
    exact houtput (Option.mem_toList.1 hpath)
  flags := by
    rw [filterMap_flag?_both, filterMap_flag?_settings]
    unfold plainFlags
    cases options.dryRun <;> cases json <;> decide

theorem overwriteWords_sublist (overwrite : Overwrite) :
    (overwriteWords byLetter overwrite).Sublist [forceWord byLetter, .flag .noClobber] := by
  cases overwrite with
  | ask => exact List.nil_sublist _
  | always => exact List.sublist_append_left [_] [_]
  | never => exact List.sublist_append_right [_] [_]

theorem ofWords_settings :
    { Arguments.ofWords
        (overwriteWords byLetter options.overwrite ++ settings options json verbosity) with
      source := some options.source } = Arguments.ofOptions options json verbosity := by
  unfold Arguments.ofWords Arguments.ofOptions
  rw [List.filterMap_append, List.filterMap_append, List.count_append, filterMap_output?_settings,
    filterMap_flag?_settings, count_settings, filterMap_output?_overwriteWords,
    filterMap_flag?_overwriteWords, count_overwriteWords, List.nil_append, Nat.zero_add]
  cases options.output <;> rfl

theorem options_ofOptions : (Arguments.ofOptions options json verbosity).options = options := by
  obtain ⟨source, output, overwrite, dryRun⟩ := options
  cases overwrite <;> cases dryRun <;> cases json <;> rfl

theorem json_ofOptions : (Arguments.ofOptions options json verbosity).json = json := by
  obtain ⟨source, output, overwrite, dryRun⟩ := options
  cases overwrite <;> cases dryRun <;> cases json <;> rfl

theorem conflict?_ofOptions : conflict? (Arguments.ofOptions options json verbosity) = none := by
  obtain ⟨source, output, overwrite, dryRun⟩ := options
  cases overwrite <;> cases dryRun <;> cases json <;> rfl

end

/-- Every run can be asked for on a command line, with its options in any order. A line that both
    forces and forbids to overwrite a file is rejected in each order, and nothing is done. -/
theorem read_of_perm (options : Options) (json : Bool) (verbosity : Fin 256) (byLetter : Bool)
    (hsource : options.source.text ≠ []) (houtput : options.output ≠ some ⟨[]⟩) :
    let others := settings options json verbosity
    let behind := [raw "--", options.source.text]
    (∀ line : List RawText,
      line.Perm ((overwriteWords byLetter options.overwrite ++ others).map Word.text) →
      ∃ arguments,
        read (line ++ behind) = .ok arguments
          ∧
        arguments.options = options
          ∧
        arguments.json = json
          ∧
        arguments.verbosity = verbosity)
      ∧
    (∀ line : List RawText,
      line.Perm ((forceWord byLetter :: .flag .noClobber :: others).map Word.text) → ∀ disk,
      (call (line ++ behind) disk).value.exitCode = 2 ∧ (call (line ++ behind) disk).disk = disk) := by
  intro others behind
  have hboth : IsReadable (forceWord byLetter :: .flag .noClobber :: others) :=
    isReadable_settings houtput
  -- both words about an existing file can be read, so either or none of them can
  have hone : IsReadable (overwriteWords byLetter options.overwrite ++ others) :=
    hboth.sublist ((overwriteWords_sublist _).append (List.Sublist.refl _))
  constructor
  . intro line hline
    obtain ⟨arguments, halike, hread⟩ := exists_alike_of_perm hone hsource hline
    have hnone := (halike.conflict?_eq_none_iff hone.flags).2
    rw [ofWords_settings] at halike hnone
    refine ⟨arguments, ?_, halike.options_eq.trans options_ofOptions,
      (halike.contains_eq .json).trans json_ofOptions, halike.verbosity⟩
    rw [hread]
    unfold judged
    rw [hnone conflict?_ofOptions]
  . intro line hline disk
    obtain ⟨arguments, halike, hread⟩ := exists_alike_of_perm hboth hsource hline
    have hsome : conflict? arguments ≠ none := by
      rw [Ne, halike.conflict?_eq_none_iff hboth.flags, conflict?_eq_none_iff hboth.flags]
      simp [Arguments.force, Arguments.noClobber, Arguments.ofWords, filterMap_flag?_both]
    obtain ⟨fault, hfault⟩ := Option.ne_none_iff_exists'.1 hsome
    unfold call
    rw [hread]
    unfold judged
    rw [hfault]
    exact ⟨rfl, rfl⟩

def disguised : Options where
  source := .ofString "--json"
  output := some (.ofString "-o=a.d.ts")
  overwrite := .always
  dryRun := true

theorem read_of_perm_disguised :
    disguised.source.text ≠ []
      ∧
    disguised.output ≠ some ⟨[]⟩
      ∧
    (∃ arguments,
      read (["-v", "--dry-run", "-f", "--output=-o=a.d.ts", "-v", "--", "--json"].map raw) =
        .ok arguments
        ∧
      arguments.options = disguised
        ∧
      arguments.json = false
        ∧
      arguments.verbosity = 2)
      ∧
    (let result := call (["--no-clobber", "-v", "--output=-o=a.d.ts", "--dry-run", "-v", "-f", "--",
      "--json"].map raw) ⟨[], []⟩
    result.value.exitCode = 2 ∧ result.disk = ⟨[], []⟩) := by
  have hsource : disguised.source.text ≠ [] := by decide
  have houtput : disguised.output ≠ some ⟨[]⟩ := by decide
  obtain ⟨hread, hcall⟩ := read_of_perm disguised false 2 true hsource houtput
  refine ⟨hsource, houtput,
    hread (["-v", "--dry-run", "-f", "--output=-o=a.d.ts", "-v"].map raw) ?_,
    hcall (["--no-clobber", "-v", "--output=-o=a.d.ts", "--dry-run", "-v", "-f"].map raw) ?_ _⟩
  . decide
  . decide

end CommandLine
end ApiTypings
