import QueryHooks.KeyEnum
import QueryHooks.Proofs.Firsts

namespace QueryHooks

open Text (capitalize)

namespace KeyEnum

-- The first of the names that are the same in upper case.
def keeper (names : List String) (name : String) : String :=
  (names.find? (capitalize · = capitalize name)).getD name

def membersOf (names : List String) : List (String × String) :=
  (firstsBy capitalize names).map fun n => (capitalize n, n)

def collisionsOf (names : List String) : List Collision :=
  (names.filter fun n => keeper names n ≠ n).map fun n =>
    { member := capitalize n, kept := keeper names n, dropped := n }

theorem lookup_map_capitalize (names : List String) (member : String) :
    (names.map fun n => (capitalize n, n)).lookup member = names.find? (capitalize · = member) := by
  induction names
  case nil           => rfl
  case cons n names hi =>
    rw [List.map_cons, List.lookup_cons, List.find?_cons, hi]
    by_cases h : capitalize n = member
    case pos => simp [h]
    case neg => simp [h, beq_false_of_ne (Ne.symm h)]

theorem lookup_membersOf (names : List String) (member : String) :
    (membersOf names).lookup member = names.find? (capitalize · = member) := by
  rw [membersOf, lookup_map_capitalize, find?_firstsBy]
  intro a b h
  rw [h]

-- Names that come later do not change what an earlier one collides with.
theorem keeper_append_of_mem (hn : n ∈ names) : keeper (names ++ names') n = keeper names n := by
  have h : (names.find? (capitalize · = capitalize n)).isSome := List.find?_isSome.mpr ⟨n, hn, by simp⟩
  simp [keeper, List.find?_append, Option.or_of_isSome h]

theorem keeper_append_singleton (names : List String) (n : String) : keeper (names ++ [n]) n = keeper names n := by
  cases h : names.find? (capitalize · = capitalize n) <;> simp [keeper, List.find?_append, h]

theorem collisionsOf_append_singleton (names : List String) (n : String) :
    collisionsOf (names ++ [n]) = collisionsOf names ++
      if keeper names n = n then [] else [{ member := capitalize n, kept := keeper names n, dropped := n }] := by
  have hf : names.filter (fun x => keeper (names ++ [n]) x ≠ x) = names.filter fun x => keeper names x ≠ x :=
    List.filter_congr fun x hx => by rw [keeper_append_of_mem hx]
  have hm : (names.filter fun x => keeper names x ≠ x).map (fun x =>
      ({ member := capitalize x, kept := keeper (names ++ [n]) x, dropped := x } : Collision)) = collisionsOf names :=
    List.map_congr_left fun x hx => by rw [keeper_append_of_mem (List.mem_filter.mp hx).left]
  rw [collisionsOf, List.filter_append, List.map_append, hf, hm]
  by_cases hk : keeper names n = n <;> simp [keeper_append_singleton, hk]

theorem membersOf_append_singleton (names : List String) (n : String) :
    membersOf (names ++ [n]) = membersOf names ++
      if capitalize n ∈ names.map capitalize then [] else [(capitalize n, n)] := by
  rw [membersOf, membersOf, firstsBy_append_singleton]
  split <;> simp

-- An enum that is built name by name. A name whose member is taken cannot be the keeper of it, since it is new.
theorem ofNames_of_nodup (h : names.Nodup) :
    ofNames names = { members := membersOf names, collisions := collisionsOf names } := by
  induction names using List.reverseRecOn
  case nil                         => rfl
  case append_singleton names n hi =>
    have ⟨hd, _, hn⟩ := List.nodup_append.mp h
    rw [ofNames, List.foldl_append, ← ofNames, hi hd, List.foldl_cons, List.foldl_nil, add]
    rw [membersOf_append_singleton, collisionsOf_append_singleton, lookup_membersOf]
    cases hf : names.find? (capitalize · = capitalize n)
    case none      =>
      have hm : capitalize n ∉ names.map capitalize := by
        simpa using hf
      have hk : keeper names n = n := by
        simp [keeper, hf]
      simp [hm, hk]
    case some kept =>
      have hc : capitalize kept = capitalize n := by
        simpa using List.find?_some hf
      have hm : capitalize n ∈ names.map capitalize :=
        hc ▸ List.mem_map_of_mem (List.mem_of_find?_eq_some hf)
      have hk : keeper names n = kept := by
        simp [keeper, hf]
      have hk' : kept ≠ n := hn kept (List.mem_of_find?_eq_some hf) n (List.mem_singleton_self n)
      simp [hm, hk, hk']

theorem membersOf_firstsBy (names : List String) : membersOf (firstsBy id names) = membersOf names := by
  rw [membersOf, firstsBy_firstsBy, membersOf]
  rintro _ _ rfl
  rfl

theorem keeper_firstsBy (names : List String) (n : String) : keeper (firstsBy id names) n = keeper names n := by
  rw [keeper, find?_firstsBy, keeper]
  rintro _ _ rfl
  rfl

theorem map_fst_membersOf (names : List String) :
    (membersOf names).map (·.1) = firstsBy id (names.map capitalize) := by
  rw [membersOf, List.map_map, ← map_firstsBy]
  rfl

theorem nodup_map_fst_membersOf (names : List String) : ((membersOf names).map (·.1)).Nodup := by
  rw [membersOf, List.map_map]
  exact nodup_map_firstsBy names

-- The value of a member is the first name that has it.
theorem find?_of_mem_membersOf (h : (member, name) ∈ membersOf names) :
    names.find? (capitalize · = member) = some name := by
  obtain ⟨n, hn, he⟩ := List.mem_map.mp h
  obtain ⟨rfl, rfl⟩ := Prod.mk.inj he
  exact mem_firstsBy_iff.mp hn

end KeyEnum
end QueryHooks
