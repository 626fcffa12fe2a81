import QueryHooks.Proofs.MapperImports
import QueryHooks.Proofs.RuntimeImports
import QueryHooks.Proofs.Strategy.LocalNames

namespace QueryHooks

open TypeScript

namespace Config

theorem nodup_names_usage (c : Config) (ops : List Operation) : (c.usage ops).names.Nodup := by
  have h := c.nodup_runtimeImports ops
  rw [runtimeImports, List.flatMap_append, bindings_importsFrom, bindings_importsFrom] at h
  simpa [Usage.names] using h

theorem ne_fetcherArgsType_of_mem_names {c : Config} (h : n ∈ (c.usage ops).names) : n ≠ fetcherArgsType := by
  rintro rfl
  simp [Usage.names, usage, mem_listIf, fetcherArgsType] at h

-- The name is to be bound twice, be it by two imports or by one. Nothing is taken from the strategy for subscriptions
-- alone.
def Contested (c : Config) (s : Strategy) (ops : List Operation) (name : String) : Prop :=
  (∃ op ∈ ops, op.kind ≠ .subscription) ∧
    ((name ∈ (c.usage ops).names ∧ ∃ source, s.Takes source name) ∨
      s.Shares c.useTypeImports name ∨ s.Doubles c.useTypeImports name)

end Config

namespace HooksFile

variable {c : Config} {s : Strategy} {ops : List Operation}

theorem mem_bindings_of_prune? {i : Import} (h : prune? code i = some i') :
    n ∈ i'.bindings ↔ references code n ∧ n ∈ i.bindings := by
  rw [eq_pruned_of_prune? h, bindings_pruned, List.mem_filter, and_comm]

-- Pruned imports share what the code refers to. One of which nothing is left shares nothing.
theorem disjoint_prune?_iff {i j : Import} :
    (∀ i', prune? code i = some i' → ∀ j', prune? code j = some j' → i'.bindings.Disjoint j'.bindings) ↔
      ∀ n, references code n → n ∈ i.bindings → n ∉ j.bindings := by
  constructor
  case mp  =>
    intro h n hr hi hj
    have hi' := prune?_of_references hi hr
    have hj' := prune?_of_references hj hr
    exact h _ hi' _ hj' ((mem_bindings_of_prune? hi').mpr ⟨hr, hi⟩) ((mem_bindings_of_prune? hj').mpr ⟨hr, hj⟩)
  case mpr =>
    intro h i' hi j' hj n hn hn'
    have ⟨hr, hn⟩ := (mem_bindings_of_prune? hi).mp hn
    exact h n hr hn ((mem_bindings_of_prune? hj).mp hn').right

theorem pairwise_fetcherImports (u : Usage) (code : String) :
    (fetcherImports c s u code).Pairwise (fun i j => i.bindings.Disjoint j.bindings) ↔
      (u.fetcherInUse → ∀ n, references code n → ¬s.Shares c.useTypeImports n) := by
  rw [fetcherImports]
  split
  case isFalse h => simp [h]
  case isTrue h  =>
    rw [List.pairwise_filterMap]
    simp only [h, forall_const, disjoint_prune?_iff, Strategy.pairwise_imports_iff]

theorem nodup_fetcherImports (u : Usage) (code : String) :
    (∀ i ∈ fetcherImports c s u code, i.bindings.Nodup) ↔
      (u.fetcherInUse → ∀ n, references code n → ¬s.Doubles c.useTypeImports n) := by
  rw [← Strategy.nodup_imports_iff]
  constructor
  case mp  =>
    intro h hu i hi
    cases hp : prune? code i
    case none    => exact (bindings_eq_nil_of_prune? hp).symm ▸ List.nodup_nil
    case some i' =>
      have h := h i' <| mem_fetcherImports.mpr ⟨hu, i, hi, hp⟩
      rwa [eq_pruned_of_prune? hp, bindings_pruned] at h
  case mpr =>
    intro h i' hi
    obtain ⟨hu, i, hi, hp⟩ := mem_fetcherImports.mp hi
    rw [eq_pruned_of_prune? hp, bindings_pruned]
    exact h hu i hi

theorem nodup_runtimeImports (c : Config) (ops : List Operation) (code : String) :
    ((runtimeImports c (c.usage ops) code).flatMap (·.bindings)).Nodup := by
  rw [bindings_runtimeImports]
  exact (c.nodup_names_usage ops).filter _

theorem disjoint_imports_iff (c : Config) (s : Strategy) (ops : List Operation) (code : String) :
    (∀ i ∈ runtimeImports c (c.usage ops) code, ∀ j ∈ fetcherImports c s (c.usage ops) code,
        i.bindings.Disjoint j.bindings) ↔
      ∀ n, references code n → (c.usage ops).fetcherInUse →
        ¬(n ∈ (c.usage ops).names ∧ ∃ source, s.Takes source n) := by
  have hr (n) : (∃ i ∈ runtimeImports c (c.usage ops) code, n ∈ i.bindings) ↔
      n ∈ (c.usage ops).names ∧ references code n := by
    rw [← List.mem_flatMap, bindings_runtimeImports, List.mem_filter]
  have hf {n} (hn : n ∈ (c.usage ops).names) : (∃ j ∈ fetcherImports c s (c.usage ops) code, n ∈ j.bindings) ↔
      (c.usage ops).fetcherInUse ∧ (∃ source, s.Takes source n) ∧ references code n := by
    have ht : n ∈ (s.imports c.useTypeImports).flatMap (·.bindings) ↔ ∃ source, s.Takes source n :=
      List.mem_flatMap.trans <| Strategy.mem_bindings_imports <| Config.ne_fetcherArgsType_of_mem_names hn
    rw [← List.mem_flatMap, bindings_fetcherImports, ← ht]
    split <;> simp [*]
  constructor
  case mp  =>
    rintro h n hc hu ⟨hn, ht⟩
    obtain ⟨i, hi, hni⟩ := (hr n).mpr ⟨hn, hc⟩
    obtain ⟨j, hj, hnj⟩ := (hf hn).mpr ⟨hu, ht, hc⟩
    exact h i hi j hj hni hnj
  case mpr =>
    intro h i hi j hj n hni hnj
    obtain ⟨hn, hc⟩ := (hr n).mp ⟨i, hi, hni⟩
    obtain ⟨hu, ht, _⟩ := (hf hn).mp ⟨j, hj, hnj⟩
    exact h n hc hu ⟨hn, ht⟩

theorem nodup_bindings_iff (c : Config) (s : Strategy) (documents : String) (ops : List Operation) :
    ((ofPass c s documents (.run c s ops)).imports.flatMap (·.bindings)).Nodup ↔
      ∀ n, references (Pass.run c s ops).code n → ¬c.Contested s ops n := by
  have hr := List.nodup_flatMap.mp <| nodup_runtimeImports c ops (Pass.run c s ops).code
  rw [List.nodup_flatMap, imports_ofPass, Pass.usage_run, List.forall_mem_append, List.pairwise_append]
  rw [iff_true_intro hr.left, iff_true_intro hr.right, true_and, true_and]
  rw [nodup_fetcherImports, pairwise_fetcherImports, disjoint_imports_iff]
  simp only [Config.fetcherInUse_usage, Config.Contested, not_and, not_or]
  constructor
  case mp  => exact fun ⟨hd, hs, hr⟩ n hc hu => ⟨hr n hc hu, hs hu n hc, hd hu n hc⟩
  case mpr =>
    intro h
    exact ⟨fun hu n hc => (h n hc hu).right.right, fun hu n hc => (h n hc hu).right.left,
      fun n hc hu => (h n hc hu).left⟩

theorem nodup_items {documents : String} (hi : i ∈ (ofPass c s documents (.run c s ops)).imports) :
    (i.items.map (·.binding)).Nodup := by
  rw [imports_ofPass, Pass.usage_run] at hi
  cases List.mem_append.mp hi
  case inl hi =>
    have h := (List.nodup_flatMap.mp <| nodup_runtimeImports c ops (Pass.run c s ops).code).left i hi
    exact (List.nodup_append.mp h).right.left
  case inr hi =>
    obtain ⟨_, j, hj, hp⟩ := mem_fetcherImports.mp hi
    rw [eq_pruned_of_prune? hp]
    exact (Strategy.nodup_items_of_mem_imports hj).sublist <| List.filter_sublist.map _

end HooksFile

-- The named items of an import have local names of their own. Over all imports, the local names are distinct if the
-- fragments refer to none of the names that are to be bound twice.
theorem local_names_distinct_iff {c : Config} (hs : Strategy.ofFetcher c.fetcher = .ok s) (documents : String)
    (ops : List Operation) :
    ∃ file, generate c documents ops = .ok file ∧
      (∀ i ∈ file.imports, (i.items.map (·.binding)).Nodup) ∧
      ((file.imports.flatMap (·.bindings)).Nodup ↔ ∀ n, references file.hooks n → ¬c.Contested s ops n) :=
  ⟨_, generate_of_ofFetcher hs documents ops, fun _ => HooksFile.nodup_items, HooksFile.nodup_bindings_iff ..⟩

theorem local_names_distinct_iff_modules :
    let c := Config.standard (.native {
      query := "./hooks#createQuery", infinite := "./paged#default as createPaged",
      mutation := "./hooks#createMutation as createQuery", isCombined := false })
    let ops : List Operation := [.conventional .query "user", .conventional .mutation "save"]
    ∃ s, Strategy.ofFetcher c.fetcher = .ok s ∧
    ∃ file, generate c "" ops = .ok file ∧
      (∀ i ∈ file.imports, (i.items.map (·.binding)).Nodup) ∧
      ((file.imports.flatMap (·.bindings)).Nodup ↔ ∀ n, references file.hooks n → ¬c.Contested s ops n) :=
  ⟨_, rfl, local_names_distinct_iff rfl "" _⟩

theorem not_nodup_of_contested {c : Config} (hs : Strategy.ofFetcher c.fetcher = .ok s) (documents : String)
    (hr : references (Pass.run c s ops).code n) (hc : c.Contested s ops n) :
    ∃ file, generate c documents ops = .ok file ∧ ¬(file.imports.flatMap (·.bindings)).Nodup :=
  ⟨_, generate_of_ofFetcher hs documents ops, fun h => (HooksFile.nodup_bindings_iff ..).mp h n hr hc⟩

-- The function of the user may have the name of a hook that is imported, two factories from different modules may have
-- the same name, and a function may have the name of the type that is imported with it.
theorem local_name_imported_twice :
    (let c := Config.standard (.mapper "./lib#useQuery" false)
      ∃ file, generate c "" [.conventional .query "user"] = .ok file ∧ ¬(file.imports.flatMap (·.bindings)).Nodup) ∧
    (let c := Config.standard (.native { query := "./a#make", mutation := "./b#make", isCombined := false })
      ∃ file, generate c "" [.conventional .query "user", .conventional .mutation "save"] = .ok file ∧
        ¬(file.imports.flatMap (·.bindings)).Nodup) ∧
    (let c := { Config.standard (.mapper "./lib#IUseFetcherArgs" false) with useTypeImports := true }
      ∃ file, generate c "" [.conventional .query "user"] = .ok file ∧ ¬(file.imports.flatMap (·.bindings)).Nodup) := by
  refine ⟨?runtime, ?modules, ?argsType⟩
  case runtime  =>
    let m : Mapper := .named "./lib" { name := "useQuery" }
    let s := Strategy.mapped { mapper := m, isReactHook := false } none
    have ht : s.Takes "./lib" "useQuery" := .inr ⟨_, .head _, rfl⟩
    refine not_nodup_of_contested (s := s) rfl _ (n := "useQuery") ?_ ⟨⟨_, .head _, nofun⟩, .inl ⟨?_, _, ht⟩⟩
    · exact Pass.references_of_callee (.head _) (.head _) (Mapped.callees_queryHook ▸ .head _) (by decide)
    · decide +kernel
  case modules  =>
    let s := Strategy.native {
      query    := .named "./a" { name := "make" }
      combined := none
      infinite := .internal "createInfiniteQueryHook"
      mutation := .named "./b" { name := "make" } }
    have ht : s.Takes "./a" "make" := .inr ⟨_, .head _, rfl⟩
    have ht' : s.Takes "./b" "make" := .inr ⟨_, .tail _ <| .tail _ <| .head _, rfl⟩
    refine not_nodup_of_contested (s := s) rfl _ ?_ ⟨⟨_, .head _, nofun⟩, .inr <| .inl <| .modules (by decide) ht ht'⟩
    exact Pass.references_of_callee (.head _) (.head _) (.head _) (by decide)
  case argsType =>
    let m : Mapper := .named "./lib" { name := "IUseFetcherArgs" }
    let s := Strategy.mapped { mapper := m, isReactHook := false } none
    have ht : s.Takes "./lib" "IUseFetcherArgs" := .inr ⟨_, .head _, rfl⟩
    refine not_nodup_of_contested (s := s) rfl _ ?_ ⟨⟨_, .head _, nofun⟩, .inr <| .inl <| .argsType rfl rfl rfl ht⟩
    exact Pass.references_of_callee (.head _) (.head _) (Mapped.callees_queryHook ▸ .tail _ (.head _)) (by decide)

end QueryHooks
