import Mathlib.Data.List.Sort
import Mathlib.Data.String.Basic
import QueryHooks.Usage

namespace QueryHooks

namespace Names

def Ascending (names : Names) : Prop :=
  names.Pairwise (· < ·)

theorem Ascending.insert (h : Ascending names) (name : String) : Ascending (names.insert name) := by
  fun_induction Names.insert name names
  case case1 => exact List.pairwise_singleton ..
  case case2 name' names hl =>
    refine List.pairwise_cons.mpr ⟨fun n hn => ?_, h⟩
    cases hn
    case head    => exact hl
    case tail hn => exact hl.trans <| List.rel_of_pairwise_cons h hn
  case case3 => exact h
  case case4 name' names hl hn hi =>
    obtain ⟨hh, ht⟩ := List.pairwise_cons.mp h
    refine List.pairwise_cons.mpr ⟨fun n hm => ?_, hi ht⟩
    cases mem_insert.mp hm
    case inl hm => exact hm ▸ lt_of_le_of_ne (not_lt.mp hl) (Ne.symm hn)
    case inr hm => exact hh _ hm

theorem Ascending.insertAll (h : Ascending names) (new : List String) :
    Ascending (new.foldl (fun names name => names.insert name) names) := by
  induction new generalizing names
  case nil       => exact h
  case cons n _ hi => exact hi (h.insert n)

theorem mem_insertAll {names : Names} (new : List String) :
    n ∈ new.foldl (fun names name => names.insert name) names ↔ n ∈ names ∨ n ∈ new := by
  induction new generalizing names
  case nil         => simp
  case cons n _ hi => rw [List.foldl_cons, hi, mem_insert, List.mem_cons, or_comm (a := _ = n), or_assoc]

theorem Ascending.ext (h : Ascending names) (h' : Ascending names') (hm : ∀ n, n ∈ names ↔ n ∈ names') :
    names = names' :=
  List.Pairwise.eq_of_mem_iff h h' hm

end Names

namespace RuntimeUsage

structure Ascending (u : RuntimeUsage) : Prop where
  values : Names.Ascending u.values
  types  : Names.Ascending u.types

variable {u : RuntimeUsage} {m : HookMethod}

theorem Ascending.record (h : u.Ascending) (m : HookMethod) : (u.record m).Ascending where
  values := h.values.insertAll _
  types  := h.types.insert _

theorem Ascending.ext (h : u.Ascending) (h' : Ascending u')
    (hv : ∀ n, n ∈ u.values ↔ n ∈ u'.values) (ht : ∀ n, n ∈ u.types ↔ n ∈ u'.types) : u = u' := by
  cases u
  cases u'
  rw [mk.injEq]
  exact ⟨h.values.ext h'.values hv, h.types.ext h'.types ht⟩

theorem mem_values_record : n ∈ (u.record m).values ↔ n ∈ u.values ∨ n ∈ m.values :=
  Names.mem_insertAll _

theorem mem_types_record : n ∈ (u.record m).types ↔ n ∈ u.types ∨ n = m.options := by
  rw [record, Names.mem_insert, or_comm]

end RuntimeUsage

namespace Usage

namespace Step

-- The values that the step adds to what is used of a module.
def values (r : Runtime) : Step → List String
  | record m    => if m.runtime = r then m.values else []
  | markFetcher => []

def types (r : Runtime) : Step → List String
  | record m    => if m.runtime = r then [m.options] else []
  | markFetcher => []

theorem mem_values {s : Step} : n ∈ s.values r ↔ ∃ m, s = .record m ∧ m.runtime = r ∧ n ∈ m.values := by
  cases s <;> simp [values]

theorem mem_types {s : Step} : n ∈ s.types r ↔ ∃ m, s = .record m ∧ m.runtime = r ∧ n = m.options := by
  cases s <;> simp [types]

end Step

def Ascending (u : Usage) : Prop :=
  ∀ r, (u.of r).Ascending

variable {u u' : Usage}

theorem of_empty : of {} r = {} := by
  cases r <;> rfl

theorem ascending_empty : Ascending {} := by
  intro r
  cases r <;> exact ⟨.nil, .nil⟩

theorem of_record (m : HookMethod) :
    (u.step (.record m)).of r = if m.runtime = r then (u.of r).record m else u.of r := by
  cases h : m.runtime <;> cases r <;> simp [step, of, h]

theorem fetcherInUse_record (m : HookMethod) : (u.step (.record m)).fetcherInUse = u.fetcherInUse := by
  cases h : m.runtime <;> simp [step, h]

theorem of_markFetcher : (u.step .markFetcher).of r = u.of r := by
  cases r <;> rfl

theorem Ascending.step (h : u.Ascending) (s : Step) : (u.step s).Ascending := by
  intro r
  cases s
  case record m    =>
    rw [of_record]
    split
    · exact (h r).record m
    · exact h r
  case markFetcher => exact of_markFetcher ▸ h r

theorem Ascending.run (h : u.Ascending) (ss : List Step) : (u.run ss).Ascending := by
  induction ss generalizing u
  case nil          => exact h
  case cons s ss hi => exact hi (h.step s)

theorem Ascending.ext (h : u.Ascending) (h' : u'.Ascending)
    (hv : ∀ r n, n ∈ (u.of r).values ↔ n ∈ (u'.of r).values) (ht : ∀ r n, n ∈ (u.of r).types ↔ n ∈ (u'.of r).types)
    (hf : u.fetcherInUse = u'.fetcherInUse) : u = u' := by
  have ho (r) : u.of r = u'.of r := (h r).ext (h' r) (hv r) (ht r)
  cases u
  cases u'
  rw [mk.injEq]
  exact ⟨ho .reactQuery, ho .subscription, hf⟩

-- What a run adds is what its steps add.
theorem run_iff (holds : Usage → Prop) (added : Step → Prop) (hs : ∀ u s, holds (step u s) ↔ holds u ∨ added s)
    (ss : List Step) : holds (u.run ss) ↔ holds u ∨ ∃ s ∈ ss, added s := by
  induction ss generalizing u
  case nil          => simp
  case cons s ss hi =>
    rw [run, List.foldl_cons, ← run, hi, hs, or_assoc]
    simp

theorem mem_values_run (ss : List Step) :
    n ∈ ((u.run ss).of r).values ↔ n ∈ (u.of r).values ∨ ∃ s ∈ ss, n ∈ s.values r := by
  refine run_iff (fun u => n ∈ (u.of r).values) (n ∈ ·.values r) (fun u s => ?_) ss
  cases s
  case record m    =>
    rw [of_record, Step.values]
    split
    · exact RuntimeUsage.mem_values_record
    · simp
  case markFetcher => simp [of_markFetcher, Step.values]

theorem mem_types_run (ss : List Step) :
    n ∈ ((u.run ss).of r).types ↔ n ∈ (u.of r).types ∨ ∃ s ∈ ss, n ∈ s.types r := by
  refine run_iff (fun u => n ∈ (u.of r).types) (n ∈ ·.types r) (fun u s => ?_) ss
  cases s
  case record m    =>
    rw [of_record, Step.types]
    split
    · simp [RuntimeUsage.mem_types_record]
    · simp
  case markFetcher => simp [of_markFetcher, Step.types]

theorem fetcherInUse_run (ss : List Step) : (u.run ss).fetcherInUse ↔ u.fetcherInUse ∨ .markFetcher ∈ ss := by
  have h := run_iff (u := u) (·.fetcherInUse) (· = .markFetcher) (fun u s => ?_) ss
  · simpa using h
  · cases s
    case record m    => simp [fetcherInUse_record]
    case markFetcher => simp [step]

-- All that is recorded in `u` is recorded in `u'`.
structure Includes (u' u : Usage) : Prop where
  values       : ∀ r, (u.of r).values ⊆ (u'.of r).values
  types        : ∀ r, (u.of r).types ⊆ (u'.of r).types
  fetcherInUse : u.fetcherInUse → u'.fetcherInUse

theorem includes_run (u : Usage) (ss : List Step) : (u.run ss).Includes u where
  values _ _ h   := (mem_values_run ss).mpr <| .inl h
  types _ _ h    := (mem_types_run ss).mpr <| .inl h
  fetcherInUse h := (fetcherInUse_run ss).mpr <| .inl h

-- What is to be recorded in some steps: the hooks and their helpers, the types of their options, and no other names.
structure Records (u : Usage) (ss : List Step) : Prop where
  ascending    : u.Ascending
  values       : ∀ r n, n ∈ (u.of r).values ↔
    ∃ m, .record m ∈ ss ∧ m.runtime = r ∧ (n = m.hook ∨ m.helper = some n)
  types        : ∀ r n, n ∈ (u.of r).types ↔ ∃ m, .record m ∈ ss ∧ m.runtime = r ∧ n = m.options
  fetcherInUse : u.fetcherInUse ↔ .markFetcher ∈ ss

namespace Records

theorem unique (h : u.Records ss) (h' : u'.Records ss) : u = u' :=
  h.ascending.ext h'.ascending (fun r n => (h.values r n).trans (h'.values r n).symm)
    (fun r n => (h.types r n).trans (h'.types r n).symm)
    (Bool.eq_iff_iff.mpr <| h.fetcherInUse.trans h'.fetcherInUse.symm)

-- Only which steps there are makes a difference.
theorem congr (hs : ∀ s, s ∈ ss ↔ s ∈ ss') (h : u.Records ss) : u.Records ss' where
  ascending    := h.ascending
  values r n   := by simpa only [hs] using h.values r n
  types r n    := by simpa only [hs] using h.types r n
  fetcherInUse := h.fetcherInUse.trans <| hs _

end Records

theorem records_run (ss : List Step) : (run {} ss).Records ss where
  ascending    := ascending_empty.run ss
  values r n   := by
    rw [mem_values_run, of_empty]
    simp [Step.mem_values, HookMethod.values]
  types r n    := by
    rw [mem_types_run, of_empty]
    simp [Step.mem_types]
  fetcherInUse := by simp [fetcherInUse_run]

-- In which order the steps come and how often makes no difference to the record, and no step takes anything out of it.
theorem usage_determined_by_steps (hs : ∀ s, s ∈ ss ↔ s ∈ ss') :
    run {} ss = run {} ss' ∧ (run {} ss).Records ss ∧ ∀ (u : Usage) (s : Step), (u.step s).Includes u := by
  have h : (run {} ss).Records ss := records_run ss
  have h' : (run {} ss').Records ss := (records_run ss').congr fun s => (hs s).symm
  exact ⟨h.unique h', h, fun u s => u.includes_run [s]⟩

theorem usage_determined_by_steps_repeated :
    let guarded : HookMethod :=
      { hook := "useGuarded", options := "UseQueryOptions", helper := some "useQuery", runtime := .reactQuery }
    let ss : List Step := [.record guarded, .record .subscription, .markFetcher, .record .query]
    let ss' := ss.reverse ++ ss
    (∀ s, s ∈ ss ↔ s ∈ ss') ∧ run {} ss = run {} ss' ∧
      run {} ss' = {
        reactQuery   := { values := ["useGuarded", "useQuery"], types := ["UseQueryOptions"] }
        subscription := { values := ["gql", "useSubscription"], types := ["SubscriptionHookOptions"] }
        fetcherInUse := true } := by
  intro guarded ss ss'
  have hs (s) : s ∈ ss ↔ s ∈ ss' := by simp [ss']
  have ⟨h, _⟩ := usage_determined_by_steps hs
  exact ⟨hs, h, h ▸ by decide +kernel⟩

end Usage
end QueryHooks
