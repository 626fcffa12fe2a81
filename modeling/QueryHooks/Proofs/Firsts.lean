import Mathlib.Data.List.Basic
import Mathlib.Data.List.Induction
import Mathlib.Data.List.Nodup

namespace QueryHooks

variable [DecidableEq β] {key : α → β}

-- The first element of each key, in the order of the list.
def firstsBy (key : α → β) : List α → List α
  | []      => []
  | a :: as => a :: (firstsBy key as).filter (key · ≠ key a)

@[simp]
theorem firstsBy_eq_nil : firstsBy key as = [] ↔ as = [] := by
  cases as <;> simp [firstsBy]

theorem firstsBy_sublist (as : List α) : (firstsBy key as).Sublist as := by
  induction as
  case nil           => exact .slnil
  case cons a as hi  => exact (List.filter_sublist.trans hi).cons_cons a

-- An element stays if it is the first one with its key.
theorem mem_firstsBy_iff : a ∈ firstsBy key as ↔ as.find? (key · = key a) = some a := by
  induction as
  case nil => simp [firstsBy]
  case cons b as hi =>
    by_cases h : key b = key a
    case pos => simp [firstsBy, h, eq_comm]
    case neg =>
      have hn : a ≠ b := fun hab => h (hab ▸ rfl)
      simp [firstsBy, h, hn, hi, Ne.symm h]

theorem mem_map_firstsBy : k ∈ (firstsBy key as).map key ↔ k ∈ as.map key := by
  constructor
  case mp  => exact fun h => ((firstsBy_sublist as).map key).subset h
  case mpr =>
    intro h
    obtain ⟨a, ha, rfl⟩ := List.mem_map.mp h
    have hf : (as.find? (key · = key a)).isSome := List.find?_isSome.mpr ⟨a, ha, by simp⟩
    obtain ⟨b, hb⟩ := Option.isSome_iff_exists.mp hf
    have hk : key b = key a := by simpa using List.find?_some hb
    exact List.mem_map.mpr ⟨b, mem_firstsBy_iff.mpr (hk ▸ hb), hk⟩

theorem mem_firstsBy_id [DecidableEq α] {a : α} : a ∈ firstsBy id as ↔ a ∈ as := by
  have h : a ∈ (firstsBy id as).map id ↔ a ∈ as.map id := mem_map_firstsBy
  simpa using h

theorem nodup_map_firstsBy (as : List α) : ((firstsBy key as).map key).Nodup := by
  induction as
  case nil          => exact .nil
  case cons a as hi =>
    refine List.nodup_cons.mpr ⟨by simp, ?_⟩
    exact hi.sublist (List.filter_sublist.map key)

theorem nodup_firstsBy_id [DecidableEq α] (as : List α) : (firstsBy id as).Nodup := by
  have h : ((firstsBy id as).map id).Nodup := nodup_map_firstsBy as
  rwa [List.map_id] at h

theorem map_firstsBy (as : List α) : (firstsBy key as).map key = firstsBy id (as.map key) := by
  induction as
  case nil          => rfl
  case cons a as hi => simp [firstsBy, ← hi, List.filter_map, Function.comp_def]

-- What depends on the key alone may be asked before or after.
theorem filter_firstsBy {p : α → Bool} (hp : ∀ a b, key a = key b → p a = p b) (as : List α) :
    (firstsBy key as).filter p = firstsBy key (as.filter p) := by
  induction as
  case nil => rfl
  case cons a as hi =>
    rw [firstsBy, List.filter_cons, List.filter_cons, List.filter_filter]
    split
    case isTrue h  => simp [firstsBy, ← hi, List.filter_filter, Bool.and_comm]
    case isFalse h =>
      rw [← hi]
      refine List.filter_congr fun b _ => ?_
      by_cases hk : key b = key a
      · simp [hp b a hk, h]
      · simp [hk]

theorem find?_firstsBy {p : α → Bool} (hp : ∀ a b, key a = key b → p a = p b) (as : List α) :
    (firstsBy key as).find? p = as.find? p := by
  induction as
  case nil => rfl
  case cons a as hi =>
    rw [firstsBy, List.find?_cons, List.find?_cons, List.find?_filter, ← hi]
    split
    case h_1   => rfl
    case h_2 h =>
      congr 1
      funext b
      by_cases hk : key b = key a
      · simp [hp b a hk, h]
      · simp [hk]

-- Of the elements with one key, the first is left.
theorem filter_firstsBy_eq (as : List α) (k : β) :
    (firstsBy key as).filter (key · = k) = (as.find? (key · = k)).toList := by
  induction as
  case nil => rfl
  case cons a as hi =>
    rw [firstsBy, List.filter_cons, List.filter_filter, List.find?_cons]
    by_cases h : key a = k
    case pos => simp [h]
    case neg =>
      have hk (b) : (decide (key b = k) && decide (key b ≠ key a)) = decide (key b = k) := by
        by_cases hb : key b = k
        · simp [hb, Ne.symm h]
        · simp [hb]
      simp only [h, hk, decide_false, Bool.false_eq_true, if_false]
      exact hi

-- A coarser key may be applied to what a finer one has left.
theorem firstsBy_firstsBy {fine : α → γ} [DecidableEq γ] (hk : ∀ a b, fine a = fine b → key a = key b) (as : List α) :
    firstsBy key (firstsBy fine as) = firstsBy key as := by
  induction as
  case nil => rfl
  case cons a as hi =>
    have hp (b c) (h : key b = key c) : decide (key b ≠ key a) = decide (key c ≠ key a) := by rw [h]
    have hf (b) : (decide (key b ≠ key a) && decide (fine b ≠ fine a)) = decide (key b ≠ key a) := by
      by_cases h : fine b = fine a
      · simp [hk b a h]
      · simp [h]
    simp only [firstsBy]
    rw [← hi, filter_firstsBy hp, filter_firstsBy hp, List.filter_filter]
    simp only [hf]

theorem firstsBy_append_singleton (as : List α) (a : α) :
    firstsBy key (as ++ [a]) = if key a ∈ as.map key then firstsBy key as else firstsBy key as ++ [a] := by
  induction as
  case nil => rfl
  case cons b as hi =>
    rw [List.cons_append, firstsBy, hi, firstsBy, List.map_cons]
    by_cases hb : key a = key b
    case pos =>
      have hm : key a ∈ key b :: as.map key := hb ▸ .head _
      rw [if_pos hm]
      split <;> simp [hb]
    case neg =>
      simp only [List.mem_cons, hb, false_or]
      split <;> simp [hb]

-- The list as it is collected.
theorem foldl_eq_firstsBy {step : List α → α → List α}
    (hs : ∀ as a, step as a = if key a ∈ as.map key then as else as ++ [a]) (as : List α) :
    as.foldl step [] = firstsBy key as := by
  induction as using List.reverseRecOn
  case nil => rfl
  case append_singleton as a hi =>
    simp only [List.foldl_append, List.foldl_cons, List.foldl_nil, hi, hs, firstsBy_append_singleton, mem_map_firstsBy]

end QueryHooks
