import QueryHooks.Proofs.Exports
import QueryHooks.Proofs.MapperImports
import QueryHooks.Proofs.Strategy.Words

namespace QueryHooks

open TypeScript
open Text (concat isName)
open Word (roots)

namespace RuntimeUsage

-- What is recorded, values ahead of types.
def names (u : RuntimeUsage) : List String :=
  u.values ++ u.types

end RuntimeUsage

theorem isIdentifier_of_mem_reactQueryNames (h : ident ∈ reactQueryNames) : isIdentifier ident :=
  have hall : ∀ n ∈ reactQueryNames, isIdentifier n := by decide
  hall ident h

theorem Config.names_usage_subset (c : Config) (ops : List Operation) :
    (c.usage ops).reactQuery.names ⊆ reactQueryNames := by
  intro n hn
  obtain ⟨op, _, m, hm, hr, hn⟩ := mem_usage (r := .reactQuery) |>.mp <| List.mem_append.mp hn
  rcases mem_methods.mp hm with ⟨_, rfl⟩ | ⟨_, _, rfl⟩ | ⟨_, rfl⟩ | ⟨_, rfl⟩
  case inl         => exact List.mem_append_left _ <| List.mem_append_left _ hn
  case inr.inl     => exact List.mem_append_left _ <| List.mem_append_right _ hn
  case inr.inr.inl => exact List.mem_append_right _ hn
  case inr.inr.inr => contradiction

theorem Native.words_of_statement?_eq_none {n : Native}
    (h : (Strategy.native n).statement? errorType op part = none) : n.words op part = [] := by
  cases part <;> first | rfl | contradiction

theorem Word.mem_roots_flatMap {words : α → List Word} {as : List α} :
    ident ∈ roots (as.flatMap words) ↔ ∃ a ∈ as, ident ∈ roots (words a) := by
  simp [roots, List.filter_flatMap, List.map_flatMap]

namespace Config

variable {c : Config} {n : Native}

theorem fragment_native (c : Config) (n : Native) (op : Operation) :
    c.fragment (.native n) op = concat (((c.parts op.kind).flatMap (n.words op)).map Word.text) := by
  rw [fragment, statements]
  induction c.parts op.kind
  case nil                => rfl
  case cons part parts hi =>
    rw [List.flatMap_cons, List.map_append, Text.concat_append, ← hi]
    cases hs : (Strategy.native n).statement? c.errorType op part
    case none    => simp [hs, Native.words_of_statement?_eq_none hs, concat]
    case some st => simp [hs, Native.print_statement hs, concat]

theorem exports_subset_exportsOf {s : Strategy} (hp : part ∈ c.parts op.kind) :
    s.exports op part ⊆ c.exportsOf s op := by
  intro n hn
  rw [exportsOf, statements, flatMap_exports]
  exact List.mem_flatMap.mpr ⟨part, hp, hn⟩

theorem mentions_fragment_native_resultType : Mentions (c.fragment (.native n) op) op.resultType := by
  cases hk : op.kind
  case query        =>
    have hp : .query ∈ c.parts op.kind := by simp [parts, hk]
    exact mentions_fragment (mem_statements.mpr ⟨_, hp, rfl⟩) Native.mentions_queryHook_resultType
  case mutation     =>
    have hp : .mutation ∈ c.parts op.kind := by simp [parts, hk]
    exact mentions_fragment (mem_statements.mpr ⟨_, hp, rfl⟩) Native.mentions_mutationHook_resultType
  case subscription =>
    have hp : .subscription ∈ c.parts op.kind := by simp [parts, hk]
    exact mentions_fragment (mem_statements.mpr ⟨_, hp, rfl⟩) Operation.mentions_subscriptionHook_resultType

-- The search finds a name of react-query just where an operation has it for one of its own.
theorem references_fragment_native_iff (hi : ident ∈ reactQueryNames) (hp : ∀ m ∈ n.mappers, IsPathText m.callee)
    (hm : ∀ m ∈ n.mappers, rootOf m.callee ≠ ident) (ho : op.Conventional) :
    references (c.fragment (.native n) op) ident ↔ ident ∈ c.exportsOf (.native n) op ∨ ident = op.resultType := by
  have hid := isIdentifier_of_mem_reactQueryNames hi
  constructor
  case mp  =>
    intro hr
    have hw : ∀ w ∈ (c.parts op.kind).flatMap (n.words op), w.Valid := by
      intro w hw
      have ⟨part, _, hw⟩ := List.mem_flatMap.mp hw
      exact ho.valid_words hp part w hw
    rw [fragment_native] at hr
    obtain ⟨part, hpart, hr⟩ := Word.mem_roots_flatMap.mp <| Word.mem_roots_of_references hid hw hr
    rcases ho.mem_exports_of_mem_roots hi hm part hr with he | rfl | he
    case inl     => exact .inl <| exports_subset_exportsOf hpart he
    case inr.inl => exact .inl hookName_mem_exportsOf
    case inr.inr => exact .inr he
  case mpr =>
    rintro (he | rfl)
    case inl =>
      have ⟨st, hst, he⟩ := List.mem_flatMap.mp he
      have ⟨_, _, hs⟩ := mem_statements.mp hst
      exact (mentions_fragment hst <| Strategy.mentions_of_mem_exports hs _ he).references hid
    case inr => exact mentions_fragment_native_resultType.references hid

end Config

theorem Pass.references_code_native_iff {c : Config} {n : Native} (hi : ident ∈ reactQueryNames)
    (hp : ∀ m ∈ n.mappers, IsPathText m.callee) (hm : ∀ m ∈ n.mappers, rootOf m.callee ≠ ident)
    (ho : ∀ op ∈ ops, op.Conventional) :
    references (run c (.native n) ops).code ident ↔
      ∃ op ∈ ops, ident ∈ c.exportsOf (.native n) op ∨ ident = op.resultType := by
  rw [references_code_iff (isIdentifier_of_mem_reactQueryNames hi)]
  exact exists_congr fun op => and_congr_right fun hop => Config.references_fragment_native_iff hi hp hm (ho op hop)

theorem Native.exists_mapper_of_mem_imports {n : Native} (hi : i ∈ n.imports) :
    ∃ m ∈ n.mappers, m.source? = some i.source := by
  obtain ⟨source, hs, rfl⟩ := List.mem_map.mp hi
  exact Native.mem_sources.mp hs

namespace HooksFile

theorem bindings_importsOfRuntime (code source : String) (split : Bool) (u : RuntimeUsage) :
    (importsOfRuntime code source split u).flatMap (·.bindings) = u.names.filter (references code) := by
  rw [Import.flatMap_bindings, imported_importsOfRuntime, RuntimeUsage.imported, List.filter_map, List.map_map]
  exact List.map_id _

-- There is an import just if there is a name to import.
theorem exists_mem_importsOfRuntime_iff :
    (∃ i, i ∈ importsOfRuntime code source split u) ↔
      ∃ name, ∃ i ∈ importsOfRuntime code source split u, name ∈ i.bindings := by
  constructor
  case mp  =>
    rintro ⟨i, hi⟩
    obtain ⟨name, hn⟩ := List.exists_mem_of_ne_nil _ <| bindings_ne_nil_of_mem_importsOfRuntime hi
    exact ⟨name, i, hi, hn⟩
  case mpr =>
    rintro ⟨_, i, hi, _⟩
    exact ⟨i, hi⟩

variable {c : Config} {n : Native}

-- If no other import is from the module of react-query, then only names that were recorded for it come from there.
theorem mem_imports_native_iff (hd : c.reactQueryImportFrom ≠ c.subscriptionImportFrom)
    (hq : ∀ m ∈ n.mappers, m.source? ≠ some c.reactQueryImportFrom) (documents : String) (p : Pass) :
    i ∈ (ofPass c (.native n) documents p).imports ∧ i.source = c.reactQueryImportFrom ↔
      i ∈ importsOfRuntime p.code c.reactQueryImportFrom c.useTypeImports p.usage.reactQuery := by
  rw [imports_ofPass, runtimeImports]
  constructor
  case mp  =>
    rintro ⟨hi, hs⟩
    rcases List.mem_append.mp hi with hi | hi
    case inl =>
      refine (List.mem_append.mp hi).resolve_right fun hi => ?_
      exact hd <| hs.symm.trans <| source_of_mem_importsOfRuntime hi
    case inr =>
      obtain ⟨_, i', hi', hp⟩ := mem_fetcherImports.mp hi
      cases eq_pruned_of_prune? hp
      obtain ⟨m, hm, hms⟩ := Native.exists_mapper_of_mem_imports hi'
      exact absurd (hms.trans <| congrArg some hs) <| hq m hm
  case mpr =>
    intro hi
    exact ⟨List.mem_append_left _ <| List.mem_append_left _ hi, source_of_mem_importsOfRuntime hi⟩

-- Of the names that were recorded, those are imported that an operation has for one of its own.
theorem mem_bindings_native_iff (hp : ∀ m ∈ n.mappers, IsPathText m.callee)
    (hm : ∀ m ∈ n.mappers, rootOf m.callee ∉ (Pass.run c (.native n) ops).usage.reactQuery.names)
    (ho : ∀ op ∈ ops, op.Conventional) (source : String) (split : Bool) :
    (∃ i ∈ importsOfRuntime (Pass.run c (.native n) ops).code source split
        (Pass.run c (.native n) ops).usage.reactQuery, name ∈ i.bindings) ↔
      name ∈ (Pass.run c (.native n) ops).usage.reactQuery.names ∧
        ∃ op ∈ ops, name ∈ c.exportsOf (.native n) op ∨ name = op.resultType := by
  rw [← List.mem_flatMap, bindings_importsOfRuntime, List.mem_filter]
  refine and_congr_right fun hr => ?_
  have hi : name ∈ reactQueryNames := c.names_usage_subset ops <| Pass.usage_run (s := .native n) ops ▸ hr
  have hne (m) (h : m ∈ n.mappers) : rootOf m.callee ≠ name := fun he => hm m h <| he ▸ hr
  exact Pass.references_code_native_iff hi hp hne ho

end HooksFile

-- The names that files with hooks from factories import from react-query: of the recorded ones, those that an operation
-- exports itself, or has for the type of its result. If there are none, nothing is imported from there.
theorem native_reactQuery_imports {c : Config} (hn : c.fetcher.isNative) (hs : Strategy.ofFetcher c.fetcher = .ok s)
    (hd : c.reactQueryImportFrom ≠ c.subscriptionImportFrom)
    (hq : ∀ m ∈ s.mappers, m.source? ≠ some c.reactQueryImportFrom)
    (hm : ∀ m ∈ s.mappers, rootOf m.callee ∉ (Pass.run c s ops).usage.reactQuery.names)
    (ho : ∀ op ∈ ops, op.Conventional) (documents : String) :
    ∃ file, generate c documents ops = .ok file ∧
      (∀ n, (∃ i ∈ file.imports, i.source = c.reactQueryImportFrom ∧ n ∈ i.bindings) ↔
        n ∈ (Pass.run c s ops).usage.reactQuery.names ∧ ∃ op ∈ ops, n ∈ c.exportsOf s op ∨ n = op.resultType) ∧
      ((∃ i ∈ file.imports, i.source = c.reactQueryImportFrom) ↔
        ∃ n ∈ (Pass.run c s ops).usage.reactQuery.names, ∃ op ∈ ops, n ∈ c.exportsOf s op ∨ n = op.resultType) := by
  have hp : ∀ m ∈ s.mappers, IsPathText m.callee := fun m hm _ hc =>
    Mapper.isPathChar_of_isPath (Strategy.isPath_callee hs hm) hc
  obtain ⟨f, rfl⟩ := Strategy.native_of_ofFetcher hn hs
  let p := Pass.run c (.native f) ops
  let is := HooksFile.importsOfRuntime p.code c.reactQueryImportFrom c.useTypeImports p.usage.reactQuery
  have hi (i) : i ∈ (HooksFile.ofPass c (.native f) documents p).imports ∧ i.source = c.reactQueryImportFrom ↔ i ∈ is :=
    HooksFile.mem_imports_native_iff hd hq documents p
  have hb (n) : (∃ i ∈ is, n ∈ i.bindings) ↔
      n ∈ p.usage.reactQuery.names ∧ ∃ op ∈ ops, n ∈ c.exportsOf (.native f) op ∨ n = op.resultType :=
    HooksFile.mem_bindings_native_iff hp hm ho _ _
  refine ⟨_, generate_of_ofFetcher hs documents ops, fun n => ?_, ?_⟩
  · calc
      _ ↔ ∃ i ∈ is, n ∈ i.bindings := by simp only [← hi, and_assoc]; rfl
      _ ↔ _                        := hb n
  · calc
      _ ↔ ∃ i, i ∈ is                   := exists_congr hi
      _ ↔ ∃ n, ∃ i ∈ is, n ∈ i.bindings := HooksFile.exists_mem_importsOfRuntime_iff
      _ ↔ _                             := exists_congr hb

theorem native_reactQuery_imports_combined :
    let c := { Config.standard (.native { query := "./hooks#useQuery as make", mutation := "hooks.useMutation" }) with
      addInfiniteQuery := true }
    let ops : List Operation := [
      .conventional .query "user", .conventional .mutation "_save", .conventional .subscription "useQuery"]
    c.fetcher.isNative ∧ c.reactQueryImportFrom ≠ c.subscriptionImportFrom ∧ (∀ op ∈ ops, op.Conventional) ∧
    ∃ s, Strategy.ofFetcher c.fetcher = .ok s ∧
      (∀ m ∈ s.mappers, m.source? ≠ some c.reactQueryImportFrom) ∧
      (∀ m ∈ s.mappers, rootOf m.callee ∉ (Pass.run c s ops).usage.reactQuery.names) ∧
      ∃ file, generate c "" ops = .ok file ∧ ∀ i ∈ file.imports, i.source ≠ c.reactQueryImportFrom := by
  intro c ops
  let s := Strategy.native {
    query    := .named "./hooks" { name := "useQuery", renamed := some "make" }
    combined := some <| .internal "createQueryAndQueryClientHook"
    infinite := .internal "createInfiniteQueryHook"
    mutation := .internal "hooks.useMutation" }
  have hs : Strategy.ofFetcher c.fetcher = .ok s := by rfl
  have hd : c.reactQueryImportFrom ≠ c.subscriptionImportFrom := by decide
  have hq : ∀ m ∈ s.mappers, m.source? ≠ some c.reactQueryImportFrom := by decide
  have hm : ∀ m ∈ s.mappers, rootOf m.callee ∉ (Pass.run c s ops).usage.reactQuery.names := by
    rw [Pass.usage_run]
    decide
  have ho : ∀ op ∈ ops, op.Conventional := by
    have hn : ∀ name ∈ ["user", "_save", "useQuery"], isName name := by decide
    simp only [List.forall_mem_cons] at hn
    simp [ops, Operation.conventional_conventional, hn]
  have he : ¬∃ n ∈ (Pass.run c s ops).usage.reactQuery.names, ∃ op ∈ ops, n ∈ c.exportsOf s op ∨ n = op.resultType := by
    rw [Pass.usage_run]
    decide +kernel
  have ⟨file, hg, _, h⟩ := native_reactQuery_imports rfl hs hd hq hm ho ""
  exact ⟨rfl, hd, ho, s, hs, hq, hm, file, hg, fun i hi hsource => he <| h.mp ⟨i, hi, hsource⟩⟩

-- A query that is called `query` exports `useQuery`, and a factory may be a member of what is called `useQuery`. Either
-- way the name is found in the text, and imported.
theorem native_reactQuery_imported :
    (let c := Config.standard (.native { isCombined := false })
      let ops : List Operation := [.conventional .query "query"]
      c.reactQueryImportFrom ≠ c.subscriptionImportFrom ∧ (∀ op ∈ ops, op.Conventional) ∧
      ∃ s file, Strategy.ofFetcher c.fetcher = .ok s ∧ generate c "" ops = .ok file ∧
        (∀ m ∈ s.mappers, m.callee ∉ (Pass.run c s ops).usage.names ∧ m.source? ≠ some c.reactQueryImportFrom) ∧
        ∃ i ∈ file.imports, i.source = c.reactQueryImportFrom) ∧
    (let c := Config.standard (.native { query := "useQuery.create", isCombined := false })
      let ops : List Operation := [.conventional .query "user"]
      c.reactQueryImportFrom ≠ c.subscriptionImportFrom ∧ (∀ op ∈ ops, op.Conventional) ∧
      ∃ s file, Strategy.ofFetcher c.fetcher = .ok s ∧ generate c "" ops = .ok file ∧
        (∀ m ∈ s.mappers, m.callee ∉ (Pass.run c s ops).usage.names ∧ m.source? ≠ some c.reactQueryImportFrom) ∧
        ∃ i ∈ file.imports, i.source = c.reactQueryImportFrom) := by
  have ho {name} (hn : isName name) : ∀ op ∈ [Operation.conventional .query name], op.Conventional :=
    List.forall_mem_singleton.mpr <| Operation.conventional_conventional _ hn
  constructor
  · intro c ops
    refine ⟨by decide, ho (by decide), _, _, rfl, generate_of_ofFetcher rfl "" ops, ?_, by decide +kernel⟩
    rw [Pass.usage_run]
    decide
  · intro c ops
    refine ⟨by decide, ho (by decide), _, _, rfl, generate_of_ofFetcher rfl "" ops, ?_, by decide +kernel⟩
    rw [Pass.usage_run]
    decide

end QueryHooks
