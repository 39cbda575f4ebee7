import ApiTypings.Json.Reader

/-!
This module contains the values that a JSON text can have, and the proof that the reader gives no
others: their lists are nested no deeper than the reader goes, and no object has a key twice.
-/

namespace ApiTypings
namespace Json

def IsRegular : Nat → Value → Prop
  | 0, .array _ => False
  | 0, .object _ => False
  | depth + 1, .array items => ∀ item ∈ items, IsRegular depth item
  | depth + 1, .object members =>
    (Members.keys members).Nodup ∧ ∀ member ∈ members, IsRegular depth member.2
  | _, _ => True

theorem IsRegular.of_object {depth : Nat} {members : Members}
    (h : IsRegular depth (.object members)) :
    (Members.keys members).Nodup ∧ ∃ depth, ∀ member ∈ members, IsRegular depth member.2 := by
  cases depth with
  | zero => cases h
  | succ depth => exact ⟨h.1, depth, h.2⟩

namespace Members

theorem foldl_insert_eq_append {pairs members : Members} (h : (keys (members ++ pairs)).Nodup) :
    pairs.foldl (fun members (key, value) => insert key value members) members =
      members ++ pairs := by
  induction pairs generalizing members with
  | nil => simp
  | cons pair rest ih =>
    obtain ⟨key, value⟩ := pair
    have hkey : key ∉ keys members := by
      unfold keys at h ⊢
      rw [List.map_append, List.nodup_append] at h
      intro hmem
      exact h.2.2 key hmem key (by simp) rfl
    rw [List.foldl_cons]
    simp only [insert_of_notMem hkey]
    rw [ih (by simpa using h)]
    simp

theorem ofPairs_eq_self {pairs : Members} (h : (keys pairs).Nodup) : ofPairs pairs = pairs :=
  foldl_insert_eq_append h

theorem mem_insert {key : Text} {value : Value} {members : Members} {member : Text × Value}
    (h : member ∈ insert key value members) : member ∈ members ∨ member.2 = value := by
  induction members with
  | nil =>
    rw [insert, List.mem_singleton] at h
    exact .inr (by rw [h])
  | cons head rest ih =>
    obtain ⟨k, v⟩ := head
    rw [insert] at h
    split at h
    . cases h with
      | head => exact .inr rfl
      | tail _ h => exact .inl (List.mem_cons_of_mem _ h)
    . cases h with
      | head => exact .inl List.mem_cons_self
      | tail _ h => exact (ih h).imp_left (List.mem_cons_of_mem _)

theorem exists_mem_of_mem_ofPairs {pairs : Members} {member : Text × Value}
    (h : member ∈ ofPairs pairs) : ∃ pair ∈ pairs, pair.2 = member.2 := by
  suffices ∀ members : Members,
      member ∈ pairs.foldl (fun members (key, value) => insert key value members) members →
        member ∈ members ∨ ∃ pair ∈ pairs, pair.2 = member.2 by
    exact (this [] h).resolve_left (by simp)
  clear h
  induction pairs with
  | nil => exact fun members h => .inl h
  | cons pair rest ih =>
    intro members h
    rw [List.foldl_cons] at h
    obtain h | ⟨pair', hpair', heq⟩ := ih _ h
    . exact (mem_insert h).imp_right fun heq => ⟨pair, List.mem_cons_self, heq.symm⟩
    . exact .inr ⟨pair', List.mem_cons_of_mem _ hpair', heq⟩

end Members

namespace Reader

section

variable {readItem : Text → Read Value}

theorem readItems_eq_ok {fuel : Nat} {t rest : Text} {items : List Value}
    (h : readItems readItem fuel t = .ok (items, rest)) :
    ∀ item ∈ items, ∃ t rest, readItem t = .ok (item, rest) := by
  induction fuel generalizing t items rest with
  | zero => cases h
  | succ fuel ih =>
    rw [readItems] at h
    split at h
    . cases h
    . next item rest' hitem =>
      split at h
      . cases h
      . cases h
        exact List.forall_mem_singleton.2 ⟨t, _, hitem⟩
      . split at h
        . cases h
        . split at h
          . cases h
          . next hitems =>
            cases h
            exact List.forall_mem_cons.2 ⟨⟨t, _, hitem⟩, ih hitems⟩
      . cases h

theorem readMember_eq_ok {t rest : Text} {member : Text × Value}
    (h : readMember readItem t = .ok (member, rest)) :
    ∃ t, readItem t = .ok (member.2, rest) := by
  unfold readMember at h
  split at h
  . cases h
  . split at h
    . cases h
    . split at h
      . cases h
      . next hvalue =>
        cases h
        exact ⟨_, hvalue⟩
    . cases h

theorem readMembers_eq_ok {fuel : Nat} {t rest : Text} {members : List (Text × Value)}
    (h : readMembers readItem fuel t = .ok (members, rest)) :
    ∀ member ∈ members, ∃ t rest, readItem t = .ok (member.2, rest) := by
  induction fuel generalizing t members rest with
  | zero => cases h
  | succ fuel ih =>
    rw [readMembers] at h
    split at h
    . cases h
    . next member rest' hmember =>
      obtain ⟨u, hvalue⟩ := readMember_eq_ok hmember
      split at h
      . cases h
      . cases h
        exact List.forall_mem_singleton.2 ⟨u, _, hvalue⟩
      . split at h
        . cases h
        . split at h
          . cases h
          . next hmembers =>
            cases h
            exact List.forall_mem_cons.2 ⟨⟨u, _, hvalue⟩, ih hmembers⟩
        . cases h
        . cases h
      . cases h

theorem readArray_eq_ok {t rest : Text} {value : Value}
    (h : readArray readItem t = .ok (value, rest)) :
    ∃ items, value = .array items ∧ ∀ item ∈ items, ∃ t rest, readItem t = .ok (item, rest) := by
  unfold readArray at h
  split at h
  . cases h
  . cases h
    exact ⟨[], rfl, by simp⟩
  . split at h
    . cases h
    . next hitems =>
      cases h
      exact ⟨_, rfl, readItems_eq_ok hitems⟩

theorem readObject_eq_ok {t rest : Text} {value : Value}
    (h : readObject readItem t = .ok (value, rest)) :
    ∃ members, value = .object members ∧ (Members.keys members).Nodup ∧
      ∀ member ∈ members, ∃ t rest, readItem t = .ok (member.2, rest) := by
  unfold readObject at h
  split at h
  . cases h
  . cases h
    exact ⟨[], rfl, List.nodup_nil, by simp⟩
  . split at h
    . cases h
    . next pairs _ hmembers =>
      cases h
      refine ⟨_, rfl, Members.nodup_keys_ofPairs pairs, ?_⟩
      intro member hmember
      obtain ⟨pair, hpair, heq⟩ := Members.exists_mem_of_mem_ofPairs hmember
      rw [← heq]
      exact readMembers_eq_ok hmembers pair hpair
  . cases h

end

theorem readWord_eq_ok {word t rest : Text} {value value' : Value}
    (h : readWord word value t = .ok (value', rest)) : value' = value := by
  induction word generalizing t with
  | nil =>
    cases t <;> cases h <;> rfl
  | cons c word ih =>
    cases t with
    | nil => cases h
    | cons d t =>
      rw [readWord] at h
      split at h
      . exact ih h
      . cases h

theorem isRegular_of_readScalar {t rest : Text} {value : Value}
    (h : readScalar t = .ok (value, rest)) (depth : Nat) : IsRegular depth value := by
  suffices (∀ items, value ≠ .array items) ∧ ∀ members, value ≠ .object members by
    cases value with
    | array items => exact absurd rfl (this.1 items)
    | object members => exact absurd rfl (this.2 members)
    | _ => cases depth <;> trivial
  unfold readScalar at h
  split at h
  . simp [readWord_eq_ok h]
  . simp [readWord_eq_ok h]
  . simp [readWord_eq_ok h]
  . split at h <;> cases h
    simp
  . split at h <;> cases h
    simp
  . cases h
  . split at h
    . split at h <;> cases h
      simp
    . cases h

theorem isRegular_of_readValue {depth : Nat} {t rest : Text} {value : Value}
    (h : readValue depth t = .ok (value, rest)) : IsRegular depth value := by
  induction depth generalizing t rest value with
  | zero =>
    rw [readValue] at h
    split at h
    . cases h
    . cases h
    . exact isRegular_of_readScalar h 0
  | succ depth ih =>
    rw [readValue] at h
    split at h
    . obtain ⟨items, rfl, hitems⟩ := readArray_eq_ok h
      intro item hitem
      obtain ⟨_, _, hread⟩ := hitems item hitem
      exact ih hread
    . obtain ⟨members, rfl, hkeys, hmembers⟩ := readObject_eq_ok h
      refine ⟨hkeys, ?_⟩
      intro member hmember
      obtain ⟨_, _, hread⟩ := hmembers member hmember
      exact ih hread
    . exact isRegular_of_readScalar h (depth + 1)

end Reader

theorem isRegular_of_parse {t : Text} {value : Value} (h : parse t = .ok value) :
    IsRegular maxDepth value := by
  unfold parse parseWithin Reader.readWhole at h
  split at h
  . cases h
  . next hwhole =>
    cases h
    split at hwhole
    . cases hwhole
    . next hread =>
      split at hwhole
      . cases hwhole
        exact Reader.isRegular_of_readValue hread
      . cases hwhole

end Json
end ApiTypings
