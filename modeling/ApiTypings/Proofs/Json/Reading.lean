import ApiTypings.Proofs.Json.Regular
import ApiTypings.Proofs.Json.Spelling

/-!
This module contains the proof that the reader of JSON texts reads each of the texts of a regular
value as that value, whatever follows it.
-/

namespace ApiTypings
namespace Json
namespace Reader

theorem isGap_of_isGap {gap : Text} (h : IsGap gap) : ∀ c ∈ gap, isGap c = true := by
  intro c hc
  have hmem := h c hc
  simp only [List.mem_cons, List.not_mem_nil, or_false] at hmem
  obtain rfl | rfl | rfl | rfl := hmem <;> rfl

theorem skipGap_append {gap : Text} (h : IsGap gap) (t : Text) : skipGap (gap ++ t) = skipGap t := by
  unfold skipGap
  rw [List.dropWhile_append_of_pos (isGap_of_isGap h)]

theorem skipGap_cons {c : Char} (h : isGap c = false) (t : Text) : skipGap (c :: t) = c :: t := by
  unfold skipGap
  rw [List.dropWhile_cons_of_neg (by simp [h])]

theorem skipGap_append_cons {gap : Text} (hgap : IsGap gap) {c : Char} (hc : isGap c = false)
    (t : Text) : skipGap (gap ++ c :: t) = c :: t := by
  rw [skipGap_append hgap, skipGap_cons hc]

theorem hexDigit?_of_isHexDigit {n : Nat} {c : Char} (h : IsHexDigit n c) :
    hexDigit? c = some n := by
  have hlower : ∀ n < 16, hexDigit? ("0123456789abcdef".toList.getD n '0') = some n := by decide
  have hupper : ∀ n < 16, hexDigit? ("0123456789ABCDEF".toList.getD n '0') = some n := by decide
  cases h with
  | inl h =>
    have hread := hlower n (List.getElem?_eq_some_iff.1 h).1
    rwa [List.getD_eq_getElem?_getD, h] at hread
  | inr h =>
    have hread := hupper n (List.getElem?_eq_some_iff.1 h).1
    rwa [List.getD_eq_getElem?_getD, h] at hread

theorem readHex_of_isHex {n : Nat} {digits : Text} (h : IsHex n digits) (rest : Text) :
    readHex (digits ++ rest) = .ok (n, rest) := by
  cases h with
  | digits h₁ h₂ h₃ h₄ =>
    simp only [List.cons_append, List.nil_append]
    unfold readHex
    simp only [hexDigit?_of_isHexDigit h₁, hexDigit?_of_isHexDigit h₂, hexDigit?_of_isHexDigit h₃,
      hexDigit?_of_isHexDigit h₄]

theorem not_isSurrogate (c : Char) :
    isHighSurrogate c.toNat = false ∧ isLowSurrogate c.toNat = false := by
  have hvalid := c.valid
  have hval : c.toNat = c.val.toNat := rfl
  unfold isHighSurrogate isLowSurrogate
  simp only [UInt32.isValidChar, Nat.isValidChar] at hvalid
  simp only [Bool.and_eq_false_iff, decide_eq_false_iff_not]
  omega

theorem readCodePoint_of_isHex {c : Char} {digits : Text} (h : IsHex c.toNat digits) (rest : Text) :
    readCodePoint (digits ++ rest) = .ok (c, rest) := by
  obtain ⟨hhigh, hlow⟩ := not_isSurrogate c
  unfold readCodePoint
  simp only [readHex_of_isHex h, hhigh, hlow, Bool.false_eq_true, if_false, Char.ofNat_toNat]

theorem readCodePoint_of_surrogates {c : Char} {high low : Nat} {digits digits' : Text}
    (hhigh : 0xD800 ≤ high ∧ high ≤ 0xDBFF) (hlow : 0xDC00 ≤ low ∧ low ≤ 0xDFFF)
    (hc : c.toNat = 0x10000 + (high - 0xD800) * 0x400 + (low - 0xDC00))
    (h : IsHex high digits) (h' : IsHex low digits') (rest : Text) :
    readCodePoint (digits ++ '\\' :: 'u' :: (digits' ++ rest)) = .ok (c, rest) := by
  have hisHigh : isHighSurrogate high = true := by simp [isHighSurrogate, hhigh]
  have hisLow : isLowSurrogate low = true := by simp [isLowSurrogate, hlow]
  have hnotLow : isLowSurrogate high = false := by
    unfold isLowSurrogate
    simp only [Bool.and_eq_false_iff, decide_eq_false_iff_not]
    omega
  have hchar : ofSurrogates high low = c := by
    have hcode : (high - 0xD800) * 0x400 + (low - 0xDC00) + 0x10000 = c.toNat := by omega
    rw [ofSurrogates, hcode, Char.ofNat_toNat]
  unfold readCodePoint
  simp only [readHex_of_isHex h, readHex_of_isHex h', readMark, hisHigh, hisLow, hnotLow, hchar,
    Bool.false_eq_true, if_false, if_true]

theorem readEscape_of_short {c mark : Char} (h : (c, mark) ∈ shortEscapes) (rest : Text) :
    readEscape (mark :: rest) = .ok (c, rest) := by
  simp only [shortEscapes, List.mem_cons, Prod.mk.injEq, List.not_mem_nil, or_false] at h
  obtain ⟨rfl, rfl⟩ | ⟨rfl, rfl⟩ | ⟨rfl, rfl⟩ | ⟨rfl, rfl⟩ | ⟨rfl, rfl⟩ | ⟨rfl, rfl⟩ |
    ⟨rfl, rfl⟩ | ⟨rfl, rfl⟩ := h <;> rfl

theorem readStringWith_of_escape {c : Char} {t rest s rest' : Text} {fuel : Nat}
    (h : readEscape t = .ok (c, rest)) (hrest : readStringWith fuel rest = .ok (s, rest')) :
    readStringWith (fuel + 1) ('\\' :: t) = .ok (c :: s, rest') := by
  rw [readStringWith]
  simp only [h, hrest]
  rfl

theorem readStringWith_of_spellsChar {c : Char} {t t' s rest : Text} {fuel : Nat}
    (h : SpellsChar c t) (hrest : readStringWith fuel t' = .ok (s, rest)) :
    readStringWith (fuel + 1) (t ++ t') = .ok (c :: s, rest) := by
  cases h with
  | plain hquote hbackslash hcontrol =>
    have hnot : ¬ c.toNat < 0x20 := by omega
    rw [List.singleton_append, readStringWith, if_neg hquote, if_neg hbackslash, if_neg hnot, hrest]
  | short h => exact readStringWith_of_escape (readEscape_of_short h t') hrest
  | code h => exact readStringWith_of_escape (readCodePoint_of_isHex h t') hrest
  | surrogates hhigh hlow hc h h' =>
    rename_i high low digits digits'
    have hread := readCodePoint_of_surrogates hhigh hlow hc h h' t'
    rw [show '\\' :: 'u' :: digits ++ '\\' :: 'u' :: digits' ++ t' =
      '\\' :: ('u' :: (digits ++ '\\' :: 'u' :: (digits' ++ t'))) by simp]
    exact readStringWith_of_escape hread hrest

theorem length_pos_of_spellsChar {c : Char} {t : Text} (h : SpellsChar c t) : 0 < t.length := by
  cases h <;> simp

theorem readStringWith_of_spellsString {s t : Text} (h : SpellsString s t) (rest : Text) {fuel : Nat}
    (hfuel : t.length < fuel) : readStringWith fuel (t ++ '"' :: rest) = .ok (s, rest) := by
  induction h generalizing fuel with
  | nil =>
    cases fuel with
    | zero => cases hfuel
    | succ fuel => rfl
  | cons h hrest ih =>
    have hlength := length_pos_of_spellsChar h
    rw [List.length_append] at hfuel
    cases fuel with
    | zero => omega
    | succ fuel =>
      rw [List.append_assoc]
      exact readStringWith_of_spellsChar h (ih (by omega))

theorem readString_of_spellsString {s t : Text} (h : SpellsString s t) (rest : Text) :
    readString (t ++ '"' :: rest) = .ok (s, rest) := by
  unfold readString
  apply readStringWith_of_spellsString h
  rw [List.length_append]
  omega

theorem exists_cons_of_spells {value : Value} {t : Text} (h : Spells value t) :
    ∃ c rest, t = c :: rest ∧ isGap c = false ∧ c ≠ ']' := by
  cases h with
  | null => exact ⟨'n', "ull".toList, rfl, by decide, by decide⟩
  | true => exact ⟨'t', "rue".toList, rfl, by decide, by decide⟩
  | false => exact ⟨'f', "alse".toList, rfl, by decide, by decide⟩
  | string h => exact ⟨'"', _, rfl, by decide, by decide⟩
  | array h => exact ⟨'[', _, rfl, by decide, by decide⟩
  | object h => exact ⟨'{', _, rfl, by decide, by decide⟩

theorem exists_cons_of_listed {items : List Value} {t : Text} (h : Listed Spells items t) :
    ∃ c rest, t = c :: rest ∧ isGap c = false ∧ c ≠ ']' := by
  cases h with
  | last h =>
    obtain ⟨c, rest, rfl, hc⟩ := exists_cons_of_spells h
    exact ⟨c, _, rfl, hc⟩
  | more h =>
    obtain ⟨c, rest, rfl, hc⟩ := exists_cons_of_spells h
    exact ⟨c, _, rfl, hc⟩

theorem length_le_of_listed {spells : α → Text → Prop} {as : List α} {t : Text}
    (h : Listed spells as t) : as.length ≤ t.length + 1 := by
  induction h with
  | last => simp
  | more h hgap hgap' hrest ih =>
    simp only [List.length_cons, List.length_append]
    omega

def Reads (readItem : Text → Read Value) (value : Value) : Prop :=
  ∀ gap t rest, IsGap gap → Spells value t → readItem (gap ++ (t ++ rest)) = .ok (value, rest)

section

variable {readItem : Text → Read Value}

theorem Reads.readItem_eq {value : Value} (hread : Reads readItem value) {t : Text}
    (h : Spells value t) (rest : Text) : readItem (t ++ rest) = .ok (value, rest) :=
  hread [] t rest (by simp [IsGap]) h

theorem readItems_of_listed {items : List Value} {t : Text} (h : Listed Spells items t)
    (hread : ∀ item ∈ items, Reads readItem item) (rest : Text) {fuel : Nat}
    (hfuel : items.length ≤ fuel) :
    readItems readItem fuel (t ++ ']' :: rest) = .ok (items, rest) := by
  induction h generalizing fuel with
  | last h hgap =>
    cases fuel with
    | zero => simp at hfuel
    | succ fuel =>
      rw [List.append_assoc, readItems, (hread _ List.mem_cons_self).readItem_eq h]
      simp only [skipGap_append_cons hgap (show isGap ']' = false by decide)]
  | more h hgap hgap' hrest ih =>
    rename_i item items t gap gap' t'
    cases fuel with
    | zero => simp at hfuel
    | succ fuel =>
      have hitems := ih (fun item hitem => hread item (List.mem_cons_of_mem _ hitem))
        (Nat.le_of_succ_le_succ hfuel)
      -- after a comma the reader looks for a bracket before it reads on
      obtain ⟨c, u, rfl, hgapc, hc⟩ := exists_cons_of_listed hrest
      rw [show t ++ gap ++ ',' :: (gap' ++ c :: u) ++ ']' :: rest =
        t ++ (gap ++ ',' :: (gap' ++ c :: (u ++ ']' :: rest))) by simp]
      rw [readItems, (hread _ List.mem_cons_self).readItem_eq h]
      simp only [skipGap_append_cons hgap (show isGap ',' = false by decide),
        skipGap_append_cons hgap' hgapc]
      split
      . next heq => exact absurd (List.cons.inj heq).1 hc
      . rw [List.cons_append] at hitems
        rw [hitems]

theorem readArray_of_enclosed {items : List Value} {t : Text} (h : Enclosed Spells items t)
    (hread : ∀ item ∈ items, Reads readItem item) (rest : Text) :
    readArray readItem (t ++ ']' :: rest) = .ok (.array items, rest) := by
  unfold readArray
  cases h with
  | empty hgap => simp only [skipGap_append_cons hgap (show isGap ']' = false by decide)]
  | listed hgap h =>
    rename_i gap t
    have hlength : items.length ≤ (t ++ ']' :: rest).length := by
      have hle := length_le_of_listed h
      simp only [List.length_append, List.length_cons]
      omega
    have hitems := readItems_of_listed h hread rest hlength
    obtain ⟨c, u, rfl, hgapc, hc⟩ := exists_cons_of_listed h
    rw [List.append_assoc, List.cons_append, skipGap_append_cons hgap hgapc]
    rw [List.cons_append] at hitems
    split
    . next heq => cases heq
    . next heq => exact absurd (List.cons.inj heq).1 hc
    . rw [hitems]

theorem readMember_of_spellsMember {member : Text × Value} {t : Text}
    (h : SpellsMember Spells member ('"' :: t)) (hread : Reads readItem member.2) (rest : Text) :
    readMember readItem (t ++ rest) = .ok (member, rest) := by
  cases h with
  | member hkey hgap hgap' h =>
    rename_i key value k gap gap' u
    have hvalue := hread gap' u rest hgap' h
    rw [show k ++ '"' :: (gap ++ ':' :: (gap' ++ u)) ++ rest =
      k ++ '"' :: (gap ++ ':' :: (gap' ++ (u ++ rest))) by simp]
    rw [readMember, readString_of_spellsString hkey]
    simp only [skipGap_append_cons hgap (show isGap ':' = false by decide), hvalue]

theorem exists_cons_of_spellsMember {member : Text × Value} {t : Text}
    (h : SpellsMember Spells member t) : ∃ rest, t = '"' :: rest := by
  cases h with
  | member => exact ⟨_, rfl⟩

theorem readMembers_of_listed {members : Members} {t : Text}
    (h : Listed (SpellsMember Spells) members t)
    (hread : ∀ member ∈ members, Reads readItem member.2) :
    ∃ u, t = '"' :: u ∧ ∀ rest fuel, members.length ≤ fuel →
      readMembers readItem fuel (u ++ '}' :: rest) = .ok (members, rest) := by
  induction h with
  | last h hgap =>
    rename_i member t gap
    obtain ⟨u, rfl⟩ := exists_cons_of_spellsMember h
    refine ⟨u ++ gap, rfl, ?_⟩
    intro rest fuel hfuel
    cases fuel with
    | zero => simp at hfuel
    | succ fuel =>
      rw [List.append_assoc, readMembers, readMember_of_spellsMember h (hread _ List.mem_cons_self)]
      simp only [skipGap_append_cons hgap (show isGap '}' = false by decide)]
  | more h hgap hgap' hrest ih =>
    rename_i member members t gap gap' t'
    obtain ⟨u, rfl⟩ := exists_cons_of_spellsMember h
    obtain ⟨u', rfl, hmembers⟩ := ih fun member hmember =>
      hread member (List.mem_cons_of_mem _ hmember)
    refine ⟨u ++ gap ++ ',' :: (gap' ++ '"' :: u'), rfl, ?_⟩
    intro rest fuel hfuel
    cases fuel with
    | zero => simp at hfuel
    | succ fuel =>
      rw [show u ++ gap ++ ',' :: (gap' ++ '"' :: u') ++ '}' :: rest =
        u ++ (gap ++ ',' :: (gap' ++ '"' :: (u' ++ '}' :: rest))) by simp]
      rw [readMembers, readMember_of_spellsMember h (hread _ List.mem_cons_self)]
      simp only [skipGap_append_cons hgap (show isGap ',' = false by decide),
        skipGap_append_cons hgap' (show isGap '"' = false by decide),
        hmembers rest fuel (Nat.le_of_succ_le_succ hfuel)]

theorem readObject_of_enclosed {members : Members} {t : Text}
    (h : Enclosed (SpellsMember Spells) members t)
    (hread : ∀ member ∈ members, Reads readItem member.2) (rest : Text) :
    readObject readItem (t ++ '}' :: rest) =
      .ok (.object (Members.ofPairs members), rest) := by
  unfold readObject
  cases h with
  | empty hgap =>
    simp only [skipGap_append_cons hgap (show isGap '}' = false by decide)]
    rfl
  | listed hgap h =>
    rename_i gap t
    have hlength := length_le_of_listed h
    obtain ⟨u, rfl, hmembers⟩ := readMembers_of_listed h hread
    have hfuel : members.length ≤ (u ++ '}' :: rest).length + 1 := by
      simp only [List.length_append, List.length_cons] at hlength ⊢
      omega
    rw [List.append_assoc, List.cons_append]
    simp only [skipGap_append_cons hgap (show isGap '"' = false by decide), hmembers rest _ hfuel]

end

theorem readWord_append (word : Text) (value : Value) (rest : Text) :
    readWord word value (word ++ rest) = .ok (value, rest) := by
  induction word with
  | nil => cases rest <;> rfl
  | cons c word ih => rw [List.cons_append, readWord, if_pos rfl, ih]

theorem readValue_eq_readScalar {c : Char} {t u : Text} (h : skipGap t = c :: u) (harray : c ≠ '[')
    (hobject : c ≠ '{') (depth : Nat) : readValue depth t = readScalar (c :: u) := by
  cases depth with
  | zero =>
    rw [readValue, h]
    split
    . next heq => exact absurd (List.cons.inj heq).1 harray
    . next heq => exact absurd (List.cons.inj heq).1 hobject
    . rfl
  | succ depth =>
    rw [readValue, h]
    split
    . next heq => exact absurd (List.cons.inj heq).1 harray
    . next heq => exact absurd (List.cons.inj heq).1 hobject
    . rfl

theorem readValue_of_readScalar {gap t : Text} {c : Char} {result : Read Value} (hgap : IsGap gap)
    (hc : isGap c = false) (harray : c ≠ '[') (hobject : c ≠ '{')
    (hread : readScalar (c :: t) = result) (depth : Nat) :
    readValue depth (gap ++ c :: t) = result := by
  rw [readValue_eq_readScalar (skipGap_append_cons hgap hc t) harray hobject, hread]

theorem readValue_of_scalar {value : Value} {t gap : Text} (h : Spells value t)
    (harray : ∀ items, value ≠ .array items) (hobject : ∀ members, value ≠ .object members)
    (hgap : IsGap gap) (rest : Text) (depth : Nat) :
    readValue depth (gap ++ (t ++ rest)) = .ok (value, rest) := by
  cases h with
  | null =>
    have hread : readScalar ('n' :: ("ull".toList ++ rest)) = .ok (.null, rest) :=
      readWord_append _ _ rest
    exact readValue_of_readScalar hgap (by decide) (by decide) (by decide) hread depth
  | true =>
    have hread : readScalar ('t' :: ("rue".toList ++ rest)) = .ok (.bool true, rest) :=
      readWord_append _ _ rest
    exact readValue_of_readScalar hgap (by decide) (by decide) (by decide) hread depth
  | false =>
    have hread : readScalar ('f' :: ("alse".toList ++ rest)) = .ok (.bool false, rest) :=
      readWord_append _ _ rest
    exact readValue_of_readScalar hgap (by decide) (by decide) (by decide) hread depth
  | string h =>
    rename_i s t
    have hread : readScalar ('"' :: (t ++ ['"'] ++ rest)) = .ok (.string s, rest) := by
      rw [List.append_assoc, List.singleton_append]
      simp only [readScalar, readString_of_spellsString h]
    exact readValue_of_readScalar hgap (by decide) (by decide) (by decide) hread depth
  | array => exact absurd rfl (harray _)
  | object => exact absurd rfl (hobject _)

theorem reads_of_isRegular {depth : Nat} {value : Value} (h : IsRegular depth value) :
    Reads (readValue depth) value := by
  -- the reader of a list reads its items one level deeper
  induction depth generalizing value with
  | zero =>
    intro gap t rest hgap ht
    cases value with
    | array items => cases h
    | object members => cases h
    | _ => exact readValue_of_scalar ht (by simp) (by simp) hgap rest 0
  | succ depth ih =>
    intro gap t rest hgap ht
    cases value with
    | array items =>
      cases ht with
      | array ht =>
        rename_i t
        rw [show '[' :: (t ++ [']']) ++ rest = '[' :: (t ++ ']' :: rest) by simp]
        rw [readValue, skipGap_append_cons hgap (by decide)]
        exact readArray_of_enclosed ht (fun item hitem => ih (h item hitem)) rest
    | object members =>
      cases ht with
      | object ht =>
        rename_i t
        rw [show '{' :: (t ++ ['}']) ++ rest = '{' :: (t ++ '}' :: rest) by simp]
        rw [readValue, skipGap_append_cons hgap (by decide)]
        have hread := readObject_of_enclosed ht (fun member hmember => ih (h.2 member hmember)) rest
        rwa [Members.ofPairs_eq_self h.1] at hread
    | _ => exact readValue_of_scalar ht (by simp) (by simp) hgap rest (depth + 1)

end Reader

theorem parse_of_spellsDocument {value : Value} {t : Text} (hregular : IsRegular maxDepth value)
    (h : SpellsDocument value t) : parse t = .ok value := by
  cases h with
  | document hgap h hgap' =>
    rename_i gap t gap'
    have hread := Reader.reads_of_isRegular hregular gap t gap' hgap h
    have hend := Reader.skipGap_append hgap' []
    rw [List.append_nil] at hend
    unfold parse parseWithin Reader.readWhole
    rw [List.append_assoc]
    simp only [hread, hend]
    rfl

end Json
end ApiTypings
