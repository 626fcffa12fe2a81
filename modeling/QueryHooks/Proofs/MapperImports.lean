import QueryHooks.Proofs.Bindings
import QueryHooks.Proofs.Strategy.LocalNames

namespace QueryHooks

open TypeScript

theorem Native.read_of_mem_mappers (h : Native.read config = .ok n) (hm : m ∈ n.mappers) :
    ∃ text, Mapper.read text = .ok m := by
  obtain ⟨combined, hc, h⟩ := bind_eq_ok.mp h
  obtain ⟨query, hq, h⟩ := bind_eq_ok.mp h
  obtain ⟨infinite, hi, h⟩ := bind_eq_ok.mp h
  obtain ⟨mutation, hu, h⟩ := bind_eq_ok.mp h
  cases h
  simp only [mappers, List.mem_append, List.mem_cons, Option.mem_toList, List.not_mem_nil, or_false] at hm
  rcases hm with (rfl | rfl) | rfl | rfl
  case inl.inl => exact ⟨_, hq⟩
  case inr.inl => exact ⟨_, hi⟩
  case inr.inr => exact ⟨_, hu⟩
  case inl.inr =>
    rw [readCombined] at hc
    split at hc
    case isFalse => cases hc
    case isTrue  =>
      split at hc
      case h_2 => cases hc
      case h_1 func hf =>
        obtain ⟨m', hr, hm⟩ := map_eq_ok.mp hc
        cases hm
        exact ⟨_, hr⟩

-- Only the function that is written into the file has no text.
theorem Strategy.eq_or_read_of_mem_mappers (hs : ofFetcher f = .ok s) (hm : m ∈ s.mappers) :
    m = .internal Request.functionName ∨ ∃ text, Mapper.read text = .ok m := by
  cases f
  case fetch endpoint params   =>
    cases hs
    exact .inl <| List.mem_singleton.mp hm
  case mapper func isReactHook =>
    obtain ⟨m', hr, hs⟩ := bind_eq_ok.mp hs
    cases hs
    cases List.mem_singleton.mp hm
    exact .inr ⟨_, hr⟩
  case native config           =>
    obtain ⟨n, hr, rfl⟩ := map_eq_ok.mp hs
    exact .inr <| Native.read_of_mem_mappers hr hm

theorem Strategy.read_of_mem_mappers (hs : ofFetcher f = .ok s) (hm : m ∈ s.mappers) (he : m.source?.isSome) :
    ∃ text, Mapper.read text = .ok m := by
  refine (eq_or_read_of_mem_mappers hs hm).resolve_left ?_
  rintro rfl
  contradiction

theorem Strategy.isPath_callee (hs : ofFetcher f = .ok s) (hm : m ∈ s.mappers) : Mapper.isPath m.callee.toList := by
  rcases eq_or_read_of_mem_mappers hs hm with rfl | ⟨_, hr⟩
  case inl => decide
  case inr => exact Mapper.isPath_callee_of_read hr

theorem Strategy.isIdentifier_callee (hs : ofFetcher f = .ok s) (hm : m ∈ s.mappers) (he : m.source?.isSome) :
    isIdentifier m.callee :=
  have ⟨_, hr⟩ := read_of_mem_mappers hs hm he
  Mapper.isIdentifier_callee_of_read hr he

namespace HooksFile

variable {i : Import}

theorem prune?_of_references (hb : b ∈ i.bindings) (hr : references code b) :
    prune? code i = some (pruned code i) := by
  rw [prune?_eq]
  refine if_neg fun he => ?_
  have he := Import.isEmpty_iff.mp he
  rw [bindings_pruned] at he
  exact List.ne_nil_of_mem (List.mem_filter.mpr ⟨hb, hr⟩) he

theorem exportsOf_pruned (code : String) (i : Import) (binding : String) :
    (pruned code i).exportsOf binding = if references code binding then i.exportsOf binding else [] := by
  have hf (it : ImportItem) : (decide (it.binding = binding) && references code it.binding) =
      (decide (it.binding = binding) && references code binding) := by
    by_cases hb : it.binding = binding <;> simp [hb]
  simp only [Import.exportsOf, pruned, List.filter_filter, hf]
  split <;> simp [*]

-- After pruning, the import provides what it did before, as far as it is referred to.
theorem provides_pruned_iff : (pruned code i).Provides m ↔ i.Provides m ∧ references code m.callee := by
  have hs : (pruned code i).source = i.source := rfl
  have ht : (pruned code i).typeOnly = i.typeOnly := rfl
  have hd : (pruned code i).default? = i.default?.filter (references code) := rfl
  cases m
  case internal               => simp [Import.Provides]
  case named source item      =>
    cases hr : references code item.binding <;> simp [Import.Provides, hs, ht, exportsOf_pruned, hr]
  case default source binding => simp [Import.Provides, hs, ht, hd, Option.filter_eq_some_iff, and_assoc]

theorem provides_of_prune? (h : i.Provides m) (hr : references code m.callee) :
    ∃ i', prune? code i = some i' ∧ i'.Provides m :=
  have hp := prune?_of_references (Import.mem_bindings_of_provides h) hr
  ⟨_, hp, provides_pruned_iff.mpr ⟨h, hr⟩⟩

theorem eq_of_mem_importsOfRuntime (h : i ∈ importsOfRuntime code source split u) :
    ∃ items typeOnly, i = { items, source, typeOnly } := by
  have ho {typeOnly names} (h : i ∈ importOf code source typeOnly names) :
      ∃ items typeOnly, i = { items, source, typeOnly } := by
    rw [importOf] at h
    split at h
    case h_1 => contradiction
    case h_2 => exact ⟨_, _, List.mem_singleton.mp h⟩
  rw [importsOfRuntime] at h
  split at h
  case isTrue  => exact (List.mem_append.mp h).elim ho ho
  case isFalse => exact ho h

theorem source_of_mem_importsOfRuntime (h : i ∈ importsOfRuntime code source split u) : i.source = source := by
  obtain ⟨_, _, rfl⟩ := eq_of_mem_importsOfRuntime h
  rfl

theorem default?_of_mem_importsOfRuntime (h : i ∈ importsOfRuntime code source split u) : i.default? = none := by
  obtain ⟨_, _, rfl⟩ := eq_of_mem_importsOfRuntime h
  rfl

-- What the imports of a strategy do not provide, no import of a file does, if it is not from a runtime module.
theorem not_provides_of_imports {c : Config} {s : Strategy} (hm : m.source? = some source)
    (hq : source ≠ c.reactQueryImportFrom) (hr : source ≠ c.subscriptionImportFrom)
    (hf : u.fetcherInUse → ∀ i ∈ s.imports c.useTypeImports, ¬i.Provides m) :
    ∀ i ∈ runtimeImports c u code ++ fetcherImports c s u code, ¬i.Provides m := by
  intro i hi hp
  have hs : source = i.source := Option.some.inj (hm ▸ Import.source?_of_provides hp)
  cases List.mem_append.mp hi
  case inl hi =>
    cases List.mem_append.mp hi
    case inl hi => exact hq <| hs.trans <| source_of_mem_importsOfRuntime hi
    case inr hi => exact hr <| hs.trans <| source_of_mem_importsOfRuntime hi
  case inr hi =>
    obtain ⟨hu, i', hi', hpr⟩ := mem_fetcherImports.mp hi
    cases eq_pruned_of_prune? hpr
    exact hf hu i' hi' (provides_pruned_iff.mp hp).left

theorem mem_imports_of_prune? {c : Config} (hu : p.usage.fetcherInUse) (hi : i ∈ s.imports c.useTypeImports)
    (hp : prune? p.code i = some i') (documents : String) : i' ∈ (ofPass c s documents p).imports := by
  rw [imports_ofPass]
  exact List.mem_append_right _ <| mem_fetcherImports.mpr ⟨hu, i, hi, hp⟩

-- Only the strategy asks for default exports, and the code refers to those that are left.
theorem default?_of_mem_imports {c : Config} {s : Strategy} {documents : String}
    (hi : i ∈ (ofPass c s documents p).imports) (hd : i.default? = some binding) :
    s.mappers.findSome? (Mapper.defaultBinding? i.source) = some binding ∧ references p.code binding := by
  rw [imports_ofPass] at hi
  cases List.mem_append.mp hi
  case inl hi =>
    have hn := (List.mem_append.mp hi).elim default?_of_mem_importsOfRuntime default?_of_mem_importsOfRuntime
    cases hn.symm.trans hd
  case inr hi =>
    obtain ⟨_, j, hj, hp⟩ := mem_fetcherImports.mp hi
    cases eq_pruned_of_prune? hp
    obtain ⟨hd, hr⟩ := Option.filter_eq_some_iff.mp hd
    exact ⟨(Strategy.default?_of_mem_imports hj hd :), hr⟩

end HooksFile

-- A function that is called is imported under the name it is called by. Of the exports of a module that are to have the
-- same name, the first one is bound to it. The default export of a module has one name, that of the first default.
theorem called_mapper_imported {c : Config} (hs : Strategy.ofFetcher c.fetcher = .ok s) (documents : String)
    (hk : ∃ op ∈ ops, op.kind ≠ .subscription) :
    ∃ file, generate c documents ops = .ok file ∧
      (∀ op ∈ ops, ∀ st ∈ c.statements s op, ∀ m ∈ s.mappers, m.source?.isSome → m.callee ∈ st.callees →
        (∀ source binding, m = .default source binding →
          s.mappers.findSome? (Mapper.defaultBinding? source) = some binding) →
        ∃ i ∈ file.imports, i.Provides (s.supplier c.useTypeImports m) ∧
          (s.supplier c.useTypeImports m).callee = m.callee) ∧
      ∀ source first, s.mappers.findSome? (Mapper.defaultBinding? source) = some first →
        (∀ i ∈ file.imports, i.source = source → i.default? = none ∨ i.default? = some first) ∧
        (references file.hooks first ↔ ∃ i ∈ file.imports, i.Provides (.default source first)) := by
  have hu : (Pass.run c s ops).usage.fetcherInUse := Pass.usage_run ops ▸ Config.fetcherInUse_usage.mpr hk
  refine ⟨_, generate_of_ofFetcher hs documents ops, ?calls, ?defaults⟩
  case calls    =>
    intro op ho st hst m hm he hf hd
    have ⟨source, hsource⟩ := Option.isSome_iff_exists.mp he
    have hc := s.callee_supplier c.useTypeImports m
    have hr : references (Pass.run c s ops).code m.callee :=
      have h := Pass.mentions_code ho <| Config.mentions_fragment_of_callee hst hf
      h.references <| Strategy.isIdentifier_callee hs hm he
    have hp := Strategy.provides_supplier c.useTypeImports hm hsource fun _ => hd _ _
    have ⟨i, hi, hp⟩ := HooksFile.provides_of_prune? hp (hc ▸ hr)
    exact ⟨i, HooksFile.mem_imports_of_prune? hu (Strategy.importFrom_mem_imports hm hsource) hi documents, hp, hc⟩
  case defaults =>
    intro source first hf
    refine ⟨fun i hi hsource => ?_, fun hr => ?_, fun ⟨i, hi, _, _, hd⟩ => ?_⟩
    · cases hd : i.default?
      case none         => exact .inl rfl
      case some binding =>
        have hb := hsource ▸ (HooksFile.default?_of_mem_imports hi hd).left
        exact .inr (hb.symm.trans hf)
    · obtain ⟨m, hm, hd⟩ := List.exists_of_findSome?_eq_some hf
      cases Mapper.defaultBinding?_eq_some.mp hd
      have hp := Strategy.provides_supplier c.useTypeImports hm rfl fun _ h => by cases h; exact hf
      have ⟨i, hi, hp⟩ := HooksFile.provides_of_prune? hp hr
      exact ⟨i, HooksFile.mem_imports_of_prune? hu (Strategy.importFrom_mem_imports hm rfl) hi documents, hp⟩
    · exact (HooksFile.default?_of_mem_imports hi hd).right

theorem called_mapper_imported_reactHook :
    let c := Config.standard (.mapper "./lib/fetcher#useFetchData" true)
    let m : Mapper := .named "./lib/fetcher" { name := "useFetchData" }
    let ops := [.conventional .query "user"]
    (∃ op ∈ ops, op.kind ≠ .subscription) ∧
    Strategy.ofFetcher c.fetcher = .ok (.mapped { mapper := m, isReactHook := true } none) ∧
    ∃ file, generate c "" ops = .ok file ∧ ∃ i ∈ file.imports, i.Provides m := by
  intro c m ops
  let s := Strategy.mapped { mapper := m, isReactHook := true } none
  have hs : Strategy.ofFetcher c.fetcher = .ok s := by rfl
  have hk : ∃ op ∈ ops, op.kind ≠ .subscription := ⟨_, .head _, nofun⟩
  have hm : s.supplier c.useTypeImports m = m := by decide +kernel
  let st := Mapped.queryHook { mapper := m, isReactHook := true } c.errorType (.conventional .query "user")
  have hf : m.callee ∈ st.callees := Mapped.callees_queryHook ▸ .tail _ (.head _)
  have ⟨file, hg, h, _⟩ := called_mapper_imported hs "" hk
  have ⟨i, hi, hp, _⟩ := h _ (.head _) _ (.head _) m (.head _) rfl hf nofun
  exact ⟨hk, hs, file, hg, i, hi, hm ▸ hp⟩

-- The second of two exports that are to have the same name is called by that name, and never imported. A function that
-- happens to be named `gql` is not imported for subscriptions alone, which take nothing from the strategy.
theorem called_mapper_shadowed :
    (let c := Config.standard (.native {
        query := "./hooks#createA as make", mutation := "./hooks#createB as make", isCombined := false })
      let m : Mapper := .named "./hooks" { name := "createB", renamed := some "make" }
      let ops := [.conventional .query "user", .conventional .mutation "save"]
      ∃ s file, Strategy.ofFetcher c.fetcher = .ok s ∧ generate c "" ops = .ok file ∧ m ∈ s.mappers ∧
        (∃ op ∈ ops, ∃ st ∈ c.statements s op, m.callee ∈ st.callees) ∧ ∀ i ∈ file.imports, ¬i.Provides m) ∧
    (let c := Config.standard (.mapper "./lib#gql" false)
      let m : Mapper := .named "./lib" { name := "gql" }
      let ops := [.conventional .subscription "event"]
      ∃ s file, Strategy.ofFetcher c.fetcher = .ok s ∧ generate c "" ops = .ok file ∧ m ∈ s.mappers ∧
        (∃ op ∈ ops, ∃ st ∈ c.statements s op, m.callee ∈ st.callees) ∧ ∀ i ∈ file.imports, ¬i.Provides m) := by
  constructor
  · intro c m ops
    let s := Strategy.native {
      query    := .named "./hooks" { name := "createA", renamed := some "make" }
      combined := none
      infinite := .internal "createInfiniteQueryHook"
      mutation := m }
    have hs : Strategy.ofFetcher c.fetcher = .ok s := by rfl
    refine ⟨s, _, hs, generate_of_ofFetcher hs _ _, .tail _ <| .tail _ <| .head _, ?_, ?_⟩
    · exact ⟨_, .tail _ <| .head _, _, .head _, .head _⟩
    · exact HooksFile.not_provides_of_imports rfl (by decide) (by decide) fun _ => by decide +kernel
  · intro c m ops
    let s := Strategy.mapped { mapper := m, isReactHook := false } none
    have hs : Strategy.ofFetcher c.fetcher = .ok s := by rfl
    refine ⟨s, _, hs, generate_of_ofFetcher hs _ _, .head _, ?_, ?_⟩
    · exact ⟨_, .head _, _, .head _, .tail _ <| .head _⟩
    · refine HooksFile.not_provides_of_imports rfl (by decide) (by decide) fun hu => ?_
      rw [Pass.usage_run] at hu
      contradiction

end QueryHooks
