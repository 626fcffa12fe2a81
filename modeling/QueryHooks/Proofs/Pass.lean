import QueryHooks.Pass
import QueryHooks.Proofs.Firsts
import QueryHooks.Proofs.Usage

namespace QueryHooks

namespace Operation

-- The names of the operations of one kind, in order, with repetitions.
def namesOf (k : Kind) (ops : List Operation) : List String :=
  (ops.filter (·.kind = k)).map (·.name)

theorem namesOf_append_singleton (ops : List Operation) (op : Operation) :
    namesOf k (ops ++ [op]) = namesOf k ops ++ if op.kind = k then [op.name] else [] := by
  by_cases h : op.kind = k <;> simp [namesOf, h]

end Operation

namespace Pass

variable {c : Config} {s : Strategy}

-- The names are registered as they come, if they are of the kind that is registered.
theorem register_firstsBy (kind : Kind) (ops : List Operation) (op : Operation) :
    (if op.kind = kind then register (firstsBy id (Operation.namesOf kind ops)) op.name
      else firstsBy id (Operation.namesOf kind ops)) =
        firstsBy id (Operation.namesOf kind (ops ++ [op])) := by
  rw [Operation.namesOf_append_singleton]
  split
  case isTrue  =>
    simp [firstsBy_append_singleton, register, mem_firstsBy_id]
  case isFalse => rw [List.append_nil]

theorem run_append_singleton : run c s (ops ++ [op]) = visit c s (run c s ops) op := by
  simp [run]

theorem fragments_run (ops : List Operation) : (run c s ops).fragments = ops.map (c.fragment s) := by
  induction ops using List.reverseRecOn
  case nil                        => rfl
  case append_singleton ops op hi => simp [run_append_singleton, visit, hi]

theorem usage_run_steps (ops : List Operation) : (run c s ops).usage = Usage.run {} (ops.flatMap (c.steps s)) := by
  induction ops using List.reverseRecOn
  case nil                        => rfl
  case append_singleton ops op hi => simp [run_append_singleton, visit, hi, Usage.run_append]

theorem queries_run (ops : List Operation) : (run c s ops).queries = firstsBy id (Operation.namesOf .query ops) := by
  induction ops using List.reverseRecOn
  case nil                        => rfl
  case append_singleton ops op hi => simp only [run_append_singleton, visit, hi, register_firstsBy]

theorem mutations_run (ops : List Operation) :
    (run c s ops).mutations = firstsBy id (Operation.namesOf .mutation ops) := by
  induction ops using List.reverseRecOn
  case nil                        => rfl
  case append_singleton ops op hi => simp only [run_append_singleton, visit, hi, register_firstsBy]

end Pass

namespace Operation

def anyOf (k : Kind) (ops : List Operation) : Bool :=
  ops.any (·.kind = k)

theorem anyOf_iff : anyOf k ops ↔ ∃ op ∈ ops, op.kind = k := by
  simp [anyOf]

-- What holds of some kind among the operations holds of one of the three, of which there is an operation.
theorem exists_kind_iff {p : Kind → Prop} :
    (∃ op ∈ ops, p op.kind) ↔
      (anyOf .query ops ∧ p .query) ∨ (anyOf .mutation ops ∧ p .mutation) ∨
        (anyOf .subscription ops ∧ p .subscription) := by
  simp only [anyOf_iff]
  constructor
  case mp  =>
    rintro ⟨op, ho, h⟩
    cases hk : op.kind <;> rw [hk] at h
    case query        => exact .inl ⟨⟨op, ho, hk⟩, h⟩
    case mutation     => exact .inr <| .inl ⟨⟨op, ho, hk⟩, h⟩
    case subscription => exact .inr <| .inr ⟨⟨op, ho, hk⟩, h⟩
  case mpr =>
    rintro (⟨⟨op, ho, hk⟩, h⟩ | ⟨⟨op, ho, hk⟩, h⟩ | ⟨⟨op, ho, hk⟩, h⟩) <;> exact ⟨op, ho, hk ▸ h⟩

end Operation

-- The hook that a part calls.
def Part.method? : Part → Option HookMethod
  | .query         => some .query
  | .infiniteQuery => some .infiniteQuery
  | .mutation      => some .mutation
  | .subscription  => some .subscription
  | _              => none

theorem Strategy.record_mem_steps {s : Strategy} {part : Part} : .record m ∈ s.steps part ↔ part.method? = some m := by
  cases part <;> simp only [steps, Part.method?] <;> grind

namespace Config

open Operation (anyOf exists_kind_iff)

variable {c : Config} {s : Strategy}

-- The hooks that operations of some kind are recorded with.
def methods (c : Config) (k : Kind) : List HookMethod :=
  (c.parts k).filterMap (·.method?)

theorem mem_methods :
    m ∈ c.methods k ↔
      k = .query ∧ m = .query ∨ k = .query ∧ c.addInfiniteQuery ∧ m = .infiniteQuery ∨
        k = .mutation ∧ m = .mutation ∨ k = .subscription ∧ m = .subscription := by
  cases k
  case query =>
    simp [methods, parts, Part.method?]
    grind
  all_goals simp [methods, parts, Part.method?]

theorem record_mem_steps : .record m ∈ c.steps s op ↔ m ∈ c.methods op.kind := by
  simp [steps, methods, Strategy.record_mem_steps]

theorem markFetcher_mem_steps : .markFetcher ∈ c.steps s op ↔ op.kind ≠ .subscription := by
  cases hk : op.kind <;> simp [steps, parts, Strategy.steps, hk]

def listIf (b : Bool) (names : List String) : List String :=
  if b then names else []

theorem mem_listIf : n ∈ listIf b names ↔ b ∧ n ∈ names := by
  cases b <;> simp [listIf]

-- What operations use of the runtime modules, which is decided by the kinds that there are of them.
def usage (c : Config) (ops : List Operation) : Usage where
  reactQuery   := {
    values :=
      listIf (anyOf .query ops && c.addInfiniteQuery) ["useInfiniteQuery"] ++
      listIf (anyOf .mutation ops) ["useMutation"] ++
      listIf (anyOf .query ops) ["useQuery"]
    types :=
      listIf (anyOf .query ops && c.addInfiniteQuery) ["UseInfiniteQueryOptions"] ++
      listIf (anyOf .mutation ops) ["UseMutationOptions"] ++
      listIf (anyOf .query ops) ["UseQueryOptions"] }
  subscription := {
    values := listIf (anyOf .subscription ops) ["gql", "useSubscription"]
    types  := listIf (anyOf .subscription ops) ["SubscriptionHookOptions"] }
  fetcherInUse := anyOf .query ops || anyOf .mutation ops

theorem ascending_usage (c : Config) (ops : List Operation) : (c.usage ops).Ascending := by
  intro r
  constructor
  all_goals
    unfold usage listIf Names.Ascending Usage.of
    cases r <;> cases anyOf .query ops <;> cases anyOf .mutation ops <;> cases anyOf .subscription ops <;>
      cases c.addInfiniteQuery <;> decide

theorem mem_values_usage :
    n ∈ ((c.usage ops).of r).values ↔ ∃ op ∈ ops, ∃ m ∈ c.methods op.kind, m.runtime = r ∧ n ∈ m.values := by
  rw [exists_kind_iff (p := fun k => ∃ m ∈ c.methods k, m.runtime = r ∧ n ∈ m.values)]
  cases r <;>
    simp [mem_methods, usage, Usage.of, mem_listIf, HookMethod.values, HookMethod.query, HookMethod.infiniteQuery,
      HookMethod.mutation, HookMethod.subscription] <;>
    grind

theorem mem_types_usage :
    n ∈ ((c.usage ops).of r).types ↔ ∃ op ∈ ops, ∃ m ∈ c.methods op.kind, m.runtime = r ∧ n = m.options := by
  rw [exists_kind_iff (p := fun k => ∃ m ∈ c.methods k, m.runtime = r ∧ n = m.options)]
  cases r
  case reactQuery   =>
    simp [mem_methods, usage, Usage.of, mem_listIf, HookMethod.query, HookMethod.infiniteQuery, HookMethod.mutation,
      HookMethod.subscription]
    grind
  case subscription =>
    simp [mem_methods, usage, Usage.of, mem_listIf, HookMethod.query, HookMethod.infiniteQuery, HookMethod.mutation,
      HookMethod.subscription]

theorem fetcherInUse_usage : (c.usage ops).fetcherInUse ↔ ∃ op ∈ ops, op.kind ≠ .subscription := by
  rw [exists_kind_iff (p := (· ≠ .subscription))]
  simp [usage]

end Config

namespace Pass

variable {c : Config} {s : Strategy}

theorem exists_record_iff {p : HookMethod → Prop} (ops : List Operation) :
    (∃ st ∈ ops.flatMap (c.steps s), ∃ m, st = .record m ∧ p m) ↔ ∃ op ∈ ops, ∃ m ∈ c.methods op.kind, p m := by
  constructor
  case mp  =>
    rintro ⟨_, hs, m, rfl, h⟩
    have ⟨op, ho, hs⟩ := List.mem_flatMap.mp hs
    exact ⟨op, ho, m, Config.record_mem_steps.mp hs, h⟩
  case mpr =>
    rintro ⟨op, ho, m, hm, h⟩
    exact ⟨_, List.mem_flatMap.mpr ⟨op, ho, Config.record_mem_steps.mpr hm⟩, m, rfl, h⟩

-- What a pass records of usage does not depend on the order of the operations, nor on the strategy.
theorem usage_run (ops : List Operation) : (run c s ops).usage = c.usage ops := by
  rw [usage_run_steps]
  refine Usage.Ascending.ext (Usage.ascending_empty.run _) (c.ascending_usage ops) (fun r n => ?_) (fun r n => ?_) ?_
  · rw [Usage.mem_values_run, Config.mem_values_usage, ← exists_record_iff (s := s)]
    simp [Usage.Step.mem_values, Usage.of_empty]
  · rw [Usage.mem_types_run, Config.mem_types_usage, ← exists_record_iff (s := s)]
    simp [Usage.Step.mem_types, Usage.of_empty]
  · rw [Bool.eq_iff_iff, Usage.fetcherInUse_run, Config.fetcherInUse_usage]
    simp [List.mem_flatMap, Config.markFetcher_mem_steps]

end Pass
end QueryHooks
