import QueryHooks.Proofs.MapperImports
import QueryHooks.Proofs.Strategy.LocalNames

namespace QueryHooks

open TypeScript

theorem Strategy.isIdentifier_of_mem_imports {useTypeImports : Bool} (hs : ofFetcher f = .ok s)
    (hi : i ∈ s.imports useTypeImports) (hb : n ∈ i.bindings) : isIdentifier n := by
  by_cases hn : n = fetcherArgsType
  case pos => exact hn ▸ by decide
  case neg =>
    obtain ⟨source, h⟩ := (mem_bindings_imports hn).mp ⟨i, hi, hb⟩
    obtain ⟨m, hm, he, rfl⟩ := exists_mapper_of_takes h
    exact isIdentifier_callee hs hm <| he ▸ rfl

def Config.runtimeSource (c : Config) : Runtime → String
  | .reactQuery   => c.reactQueryImportFrom
  | .subscription => c.subscriptionImportFrom

theorem Usage.mem_imported {u : Usage} :
    e ∈ u.imported c ↔ ∃ r n, (n ∈ (u.of r).values ∨ n ∈ (u.of r).types) ∧
      e = { source := c.runtimeSource r, name := n, binding := n } := by
  rw [imported, RuntimeUsage.imported, RuntimeUsage.imported, List.mem_append, List.mem_map, List.mem_map]
  simp only [List.mem_append, eq_comm (a := e)]
  constructor
  case mp  => exact fun h => h.elim (⟨.reactQuery, ·⟩) (⟨.subscription, ·⟩)
  case mpr =>
    rintro ⟨r, h⟩
    cases r
    case reactQuery   => exact .inl h
    case subscription => exact .inr h

namespace Config

-- What an operation has imported if the fragments refer to it, be it the fragment of this or of another operation.
inductive Needs (c : Config) (s : Strategy) (op : Operation) : Imported → Prop
  | runtime (hm : m ∈ c.methods op.kind) (hn : n ∈ m.names) :
    Needs c s op { source := c.runtimeSource m.runtime, name := n, binding := n }
  | strategy (hk : op.kind ≠ .subscription) (hi : i ∈ s.imports c.useTypeImports) (he : e ∈ i.imported) :
    Needs c s op e

variable {c : Config} {s : Strategy}

-- Whatever is imported, it is searched for by an identifier.
theorem Needs.isIdentifier (hs : Strategy.ofFetcher c.fetcher = .ok s) (h : c.Needs s op e) :
    isIdentifier e.binding := by
  cases h
  case runtime hm hn    => exact isIdentifier_of_mem_methods hm hn
  case strategy _ hi he => exact Strategy.isIdentifier_of_mem_imports hs hi <| Import.binding_mem_bindings he

theorem mem_imported_usage :
    e ∈ (c.usage ops).imported c ↔ ∃ op ∈ ops, ∃ m ∈ c.methods op.kind, ∃ n ∈ m.names,
      e = { source := c.runtimeSource m.runtime, name := n, binding := n } := by
  rw [Usage.mem_imported]
  constructor
  case mp  =>
    rintro ⟨r, n, hu, rfl⟩
    obtain ⟨op, ho, m, hm, rfl, hn⟩ := mem_usage.mp hu
    exact ⟨op, ho, m, hm, n, hn, rfl⟩
  case mpr =>
    rintro ⟨op, ho, m, hm, n, hn, rfl⟩
    exact ⟨_, n, mem_usage.mpr ⟨op, ho, m, hm, rfl, hn⟩, rfl⟩

theorem usage_congr (h : ∀ op, op ∈ xs ↔ op ∈ ys) : c.usage xs = c.usage ys := by
  have ha (k) : Operation.anyOf k xs = Operation.anyOf k ys := by
    rw [Bool.eq_iff_iff, Operation.anyOf_iff, Operation.anyOf_iff]
    simp only [h]
  simp only [usage, ha]

end Config

namespace HooksFile

variable {c : Config} {s : Strategy} {ops : List Operation}

-- A file imports what some operation needs and some fragment refers to.
theorem mem_imported_ofPass (hs : Strategy.ofFetcher c.fetcher = .ok s) (documents : String) :
    e ∈ (ofPass c s documents (.run c s ops)).imported ↔
      (∃ op ∈ ops, c.Needs s op e) ∧ ∃ op ∈ ops, references (c.fragment s op) e.binding := by
  have hf (u : Usage) (code) : e ∈ (fetcherImports c s u code).flatMap (·.imported) ↔
      u.fetcherInUse ∧ (∃ i ∈ s.imports c.useTypeImports, e ∈ i.imported) ∧ references code e.binding := by
    rw [imported_fetcherImports]
    split <;> simp [*]
  rw [imported, imports_ofPass, Pass.usage_run, List.flatMap_append, List.mem_append, hf, imported_runtimeImports]
  rw [List.mem_filter, Config.mem_imported_usage, Config.fetcherInUse_usage]
  constructor
  case mp  =>
    rintro (⟨⟨op, ho, m, hm, n, hn, rfl⟩, hr⟩ | ⟨⟨op, ho, hk⟩, ⟨i, hi, he⟩, hr⟩)
    case inl =>
      have h := Config.Needs.runtime (s := s) hm hn
      exact ⟨⟨op, ho, h⟩, (Pass.references_code_iff <| h.isIdentifier hs).mp hr⟩
    case inr =>
      have h := Config.Needs.strategy hk hi he
      exact ⟨⟨op, ho, h⟩, (Pass.references_code_iff <| h.isIdentifier hs).mp hr⟩
  case mpr =>
    rintro ⟨⟨op, ho, h⟩, hr⟩
    have hr := (Pass.references_code_iff <| h.isIdentifier hs).mpr hr
    cases h
    case runtime hm hn hr  => exact .inl ⟨⟨op, ho, _, hm, _, hn, rfl⟩, hr⟩
    case strategy hk hi he => exact .inr ⟨⟨op, ho, hk⟩, ⟨_, hi, he⟩, hr⟩

theorem imported_mono (hs : Strategy.ofFetcher c.fetcher = .ok s) {xs ys : List Operation} (h : xs ⊆ ys)
    (documents documents' : String) :
    (ofPass c s documents (.run c s xs)).imported ⊆ (ofPass c s documents' (.run c s ys)).imported := by
  intro e he
  obtain ⟨⟨op, ho, hn⟩, op', ho', hr⟩ := (mem_imported_ofPass hs documents).mp he
  exact (mem_imported_ofPass hs documents').mpr ⟨⟨op, h ho, hn⟩, op', h ho', hr⟩

variable {code code' : String}

theorem importsOfRuntime_congr {u : RuntimeUsage}
    (h : ∀ n, n ∈ u.values ∨ n ∈ u.types → references code n = references code' n) :
    importsOfRuntime code source split u = importsOfRuntime code' source split u := by
  have hv : u.values.filter (references code) = u.values.filter (references code') :=
    List.filter_congr fun n hn => h n <| .inl hn
  have ht : u.types.filter (references code) = u.types.filter (references code') :=
    List.filter_congr fun n hn => h n <| .inr hn
  simp only [importsOfRuntime, importOf, List.filter_append, hv, ht]

theorem pruned_congr {i : Import} (h : ∀ n ∈ i.bindings, references code n = references code' n) :
    pruned code i = pruned code' i := by
  have hd : i.default?.filter (references code) = i.default?.filter (references code') := by
    cases hd : i.default?
    case none   => rfl
    case some n => simp [Option.filter, h n <| by simp [Import.bindings, hd]]
  have hi : i.items.filter (references code ·.binding) = i.items.filter (references code' ·.binding) :=
    List.filter_congr fun item hm => h _ <| by simpa [Import.bindings] using .inr ⟨item, hm, rfl⟩
  rw [pruned, pruned, hd, hi]

theorem runtimeImports_congr {u : Usage}
    (h : ∀ r n, n ∈ (u.of r).values ∨ n ∈ (u.of r).types → references code n = references code' n) :
    runtimeImports c u code = runtimeImports c u code' :=
  congrArg₂ (· ++ ·) (importsOfRuntime_congr (h .reactQuery)) (importsOfRuntime_congr (h .subscription))

theorem fetcherImports_congr {u : Usage}
    (h : ∀ i ∈ s.imports c.useTypeImports, ∀ n ∈ i.bindings, references code n = references code' n) :
    fetcherImports c s u code = fetcherImports c s u code' := by
  have hp : ∀ i ∈ s.imports c.useTypeImports, prune? code i = prune? code' i :=
    fun i hi => by rw [prune?_eq, prune?_eq, pruned_congr (h i hi)]
  rw [fetcherImports, fetcherImports, List.filterMap_congr hp]

theorem imports_congr (hs : Strategy.ofFetcher c.fetcher = .ok s) {xs ys : List Operation}
    (h : ∀ op, op ∈ xs ↔ op ∈ ys) (documents documents' : String) :
    (ofPass c s documents (.run c s xs)).imports = (ofPass c s documents' (.run c s ys)).imports := by
  have hr {n} (hn : isIdentifier n) : references (Pass.run c s xs).code n = references (Pass.run c s ys).code n := by
    rw [Bool.eq_iff_iff, Pass.references_code_iff hn, Pass.references_code_iff hn]
    simp only [h]
  rw [imports_ofPass, imports_ofPass, Pass.usage_run, Pass.usage_run, Config.usage_congr h]
  congr 1
  · refine runtimeImports_congr fun r n hn => ?_
    obtain ⟨_, _, _, hm, _, hn⟩ := Config.mem_usage.mp hn
    exact hr <| Config.isIdentifier_of_mem_methods hm hn
  · exact fetcherImports_congr fun i hi n hb => hr <| Strategy.isIdentifier_of_mem_imports hs hi hb

end HooksFile

-- More operations have more imports. The same operations, in whichever order and however often, have the same ones. In
-- each file, an operation has the fragment that it has by itself.
theorem imports_monotone {c : Config} (hs : Strategy.ofFetcher c.fetcher = .ok s) (documents documents' : String)
    {xs ys : List Operation} (h : xs ⊆ ys) :
    ∃ file file', generate c documents xs = .ok file ∧ generate c documents' ys = .ok file' ∧
      file.imported ⊆ file'.imported ∧
      (ys ⊆ xs → file.prepend = file'.prepend) ∧
      file.fragments = xs.map (c.fragment s) ∧
      file'.fragments = ys.map (c.fragment s) := by
  refine ⟨_, _, generate_of_ofFetcher hs documents xs, generate_of_ofFetcher hs documents' ys,
    HooksFile.imported_mono hs h documents documents', fun h' => ?_, Pass.fragments_run xs, Pass.fragments_run ys⟩
  rw [HooksFile.prepend, HooksFile.prepend]
  rw [HooksFile.imports_congr hs (fun op => ⟨(h ·), (h' ·)⟩) documents documents']

theorem imports_monotone_repeated :
    let c := { Config.standard (.native {
      query := "./hooks#createQuery", infinite := "./paged#default as createPaged",
      mutation := "./hooks#createMutation as createSave", isCombined := false }) with useTypeImports := true }
    let xs : List Operation := [.conventional .query "user", .conventional .subscription "on: event"]
    let ys := xs.reverse ++ xs
    ∃ s, Strategy.ofFetcher c.fetcher = .ok s ∧ xs ⊆ ys ∧ ys ⊆ xs ∧
    ∃ file file', generate c "a" xs = .ok file ∧ generate c "b" ys = .ok file' ∧
      file.imported ⊆ file'.imported ∧
      file.prepend = file'.prepend ∧
      file.fragments = xs.map (c.fragment s) ∧
      file'.fragments = ys.map (c.fragment s) := by
  intro c xs ys
  have h : xs ⊆ ys := List.subset_append_right _ _
  have h' : ys ⊆ xs := by simp [ys]
  obtain ⟨file, file', hf, hf', hi, hp, hx, hy⟩ := imports_monotone (c := c) rfl "a" "b" h
  exact ⟨_, rfl, h, h', file, file', hf, hf', hi, hp h', hx, hy⟩

end QueryHooks
