import ApiTypings.Text.Basic

/-!
This module contains JSON values. The members of an object are kept in the order in which they were
written; a key that is written again keeps its place and takes the new value.
-/

namespace ApiTypings

namespace Json

-- an integer if it is written as one and fits in 64 bits, signed or unsigned, and else a double

inductive Number
  | int (value : Int)
  | float (value : Float)
deriving DecidableEq, Repr

namespace Number

def isZero : Number → Bool
  | .int value => value == 0
  | .float value => value == 0

end Number

inductive Value
  | null
  | bool (value : Bool)
  | number (value : Number)
  | string (value : Text)
  | array (items : List Value)
  | object (members : List (Text × Value))
deriving Repr

inductive Kind
  | null
  | boolean
  | number
  | string
  | array
  | object
deriving DecidableEq, Repr

def Kind.name : Kind → Text
  | .null => "null".toList
  | .boolean => "a boolean".toList
  | .number => "a number".toList
  | .string => "a string".toList
  | .array => "an array".toList
  | .object => "an object".toList

namespace Value

def kind : Value → Kind
  | .null => .null
  | .bool _ => .boolean
  | .number _ => .number
  | .string _ => .string
  | .array _ => .array
  | .object _ => .object

def truthy : Value → Bool
  | .null => false
  | .bool value => value
  | .number value => !value.isZero
  | .string value => !value.isEmpty
  | .array _ => true
  | .object _ => true

end Value

abbrev Members := List (Text × Value)

namespace Members

-- in its place if the key is there already, else at the end

def insert (key : Text) (value : Value) : Members → Members
  | [] => [(key, value)]
  | (k, v) :: rest => if k = key then (k, value) :: rest else (k, v) :: insert key value rest

def ofPairs (pairs : List (Text × Value)) : Members :=
  pairs.foldl (fun members (key, value) => insert key value members) []

def get? (members : Members) (key : Text) : Option Value := members.lookup key

def keys (members : Members) : List Text := members.map (·.1)

theorem insert_of_notMem {key : Text} {members : Members} (h : key ∉ keys members)
    (value : Value) : insert key value members = members ++ [(key, value)] := by
  induction members with
  | nil => rfl
  | cons head rest ih =>
    obtain ⟨k, v⟩ := head
    simp only [keys, List.map_cons, List.mem_cons, not_or] at h
    rw [insert, if_neg (Ne.symm h.1), ih h.2, List.cons_append]

theorem keys_insert (key : Text) (value : Value) (members : Members) :
    keys (insert key value members) =
      if key ∈ keys members then keys members else keys members ++ [key] := by
  induction members with
  | nil => simp [insert, keys]
  | cons head rest ih =>
    obtain ⟨k, v⟩ := head
    rw [insert]
    by_cases h : k = key
    · subst h
      simp [keys]
    · simp only [keys] at ih
      rw [if_neg h]
      simp only [keys, List.map_cons, List.mem_cons, ih]
      by_cases hm : key ∈ rest.map (·.1)
      · simp [hm]
      · simp [hm, Ne.symm h]

theorem nodup_keys_ofPairs (pairs : List (Text × Value)) : (keys (ofPairs pairs)).Nodup := by
  suffices ∀ members, (keys members).Nodup →
      (keys (pairs.foldl (fun ms (key, value) => insert key value ms) members)).Nodup from
    this [] List.nodup_nil
  induction pairs with
  | nil => exact fun _ h => h
  | cons pair rest ih =>
    intro members h
    refine ih _ ?_
    rw [keys_insert]
    split
    · exact h
    · next hm =>
      rw [List.nodup_append]
      refine ⟨h, by simp, ?_⟩
      intro a ha b hb
      rw [List.mem_singleton.1 hb]
      exact fun hab => hm (hab ▸ ha)

end Members

end Json

end ApiTypings
