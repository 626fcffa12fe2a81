import QueryHooks.Proofs.ImportGrowth

namespace QueryHooks

open TypeScript

namespace TypeScript

-- An import of types, or one of values, brings in the export.
def Brings (is : List Import) (types : Bool) (e : Imported) : Prop :=
  ∃ i ∈ is, i.typeOnly = types ∧ e ∈ i.imported

variable {is is' : List Import} {types : Bool}

theorem brings_append : Brings (is ++ is') types e ↔ Brings is types e ∨ Brings is' types e := by
  simp only [Brings, List.mem_append, or_and_right, exists_or]

theorem exists_imported_iff : (∃ i ∈ is, e ∈ i.imported) ↔ Brings is true e ∨ Brings is false e := by
  constructor
  case mp  =>
    rintro ⟨i, hi, he⟩
    cases ht : i.typeOnly
    case true  => exact .inl ⟨i, hi, ht, he⟩
    case false => exact .inr ⟨i, hi, ht, he⟩
  case mpr =>
    rintro (⟨i, hi, _, he⟩ | ⟨i, hi, _, he⟩)
    · exact ⟨i, hi, he⟩
    · exact ⟨i, hi, he⟩

end TypeScript

namespace Strategy

-- The type of the arguments of a fetch function, which its module exports too.
def ArgsType (s : Strategy) (e : Imported) : Prop :=
  ∃ f inline source, s = mapped f inline ∧ f.mapper.source? = some source ∧
    e = { source, name := fetcherArgsType, binding := fetcherArgsType }

-- What the modules of the mappers provide for them.
def Provided (s : Strategy) (e : Imported) : Prop :=
  ∃ m ∈ s.mappers, ∃ source, m.source? = some source ∧ e ∈ (Mapper.importFrom source s.mappers [] false).imported

-- No function is imported under the name of the type of its arguments.
def KeepsArgsType (s : Strategy) : Prop :=
  ∀ f inline, s = mapped f inline → f.mapper.source?.isSome → f.mapper.callee ≠ fetcherArgsType

end Strategy

namespace Config

-- What an operation has imported as a type, if the fragments refer to it: the types of the options of its hooks, and
-- the type of arguments.
def NeedsType (c : Config) (s : Strategy) (op : Operation) (e : Imported) : Prop :=
  (∃ m ∈ c.methods op.kind, e = { source := c.runtimeSource m.runtime, name := m.options, binding := m.options }) ∨
    op.kind ≠ .subscription ∧ s.ArgsType e

-- What it has imported as a value: its hooks with their helpers, and the mappers.
def NeedsValue (c : Config) (s : Strategy) (op : Operation) (e : Imported) : Prop :=
  (∃ m ∈ c.methods op.kind, ∃ n ∈ m.values, e = { source := c.runtimeSource m.runtime, name := n, binding := n }) ∨
    op.kind ≠ .subscription ∧ s.Provided e

end Config

namespace Mapper

variable {mappers : List Mapper} (hn : ∀ m ∈ mappers, m.callee ≠ name)

include hn

-- An extra name comes first, but it takes no place from a mapper that has another name.
theorem items_importFrom_extra (source : String) (typeOnly : Bool) :
    (importFrom source mappers [name] typeOnly).items =
      { name } :: (importFrom source mappers [] typeOnly).items := by
  have hb : ∀ item ∈ firstsBy ImportItem.binding (mappers.filterMap (namedItem? source)), item.binding ≠ name := by
    intro item hi
    obtain ⟨m, hm, hi⟩ := List.mem_filterMap.mp <| (firstsBy_sublist _).subset hi
    cases namedItem?_eq_some.mp hi
    exact hn _ hm
  rw [items_importFrom, items_importFrom]
  refine congrArg _ <| List.filter_eq_self.mpr fun item hi => ?_
  exact decide_eq_true <| hb item hi

theorem mem_imported_importFrom_extra (source : String) (typeOnly : Bool) :
    e ∈ (importFrom source mappers [name] typeOnly).imported ↔
      e = { source, name, binding := name } ∨ e ∈ (importFrom source mappers [] typeOnly).imported := by
  rw [Import.imported, items_importFrom_extra hn, List.map_cons, List.mem_append, List.mem_cons, or_left_comm,
    ← List.mem_append]
  rfl

end Mapper

namespace Strategy

variable {s : Strategy}

theorem provided_mapped {f : Mapped} {inline : Option Request} (hs : f.mapper.source? = some source) :
    (mapped f inline).Provided e ↔ e ∈ (Mapper.importFrom source [f.mapper] [] false).imported := by
  simp [Provided, mappers, hs]

theorem argsType_mapped {f : Mapped} {inline : Option Request} (hs : f.mapper.source? = some source) :
    (mapped f inline).ArgsType e ↔ e = { source, name := fetcherArgsType, binding := fetcherArgsType } := by
  simp [ArgsType, hs]

theorem mem_imported_typeImport :
    e ∈ (typeImport source).imported ↔ e = { source, name := fetcherArgsType, binding := fetcherArgsType } :=
  List.mem_singleton

theorem brings_imports (types : Bool) :
    Brings (s.imports true) types e ↔ if types then s.ArgsType e else s.Provided e := by
  cases s
  case mapped f inline =>
    cases hs : f.mapper.source?
    case none        => cases types <;> simp [imports_mapped_of_internal hs, Brings, ArgsType, Provided, mappers, hs]
    case some source =>
      have hi : (Mapper.importFrom source [f.mapper] [] false).typeOnly = false := rfl
      have ht : (typeImport source).typeOnly = true := rfl
      rw [imports_mapped hs, provided_mapped hs, argsType_mapped hs, ← mem_imported_typeImport]
      cases types <;> simp [Brings, extraNames, mappers, hi, ht]
  case native n        =>
    have ha : ¬(native n).ArgsType e := by
      rintro ⟨_, _, _, hs, _⟩
      contradiction
    have hp : (∃ source ∈ n.sources, e ∈ (Mapper.importFrom source n.mappers [] false).imported) ↔
        (native n).Provided e := by
      simp only [Native.mem_sources, Provided, mappers]
      grind
    have hi (source : String) : (Mapper.importFrom source n.mappers [] false).typeOnly = false := rfl
    cases types <;> simp [Brings, imports, Native.imports, ha, ← hp, hi]

theorem exists_imports_iff (hd : s.KeepsArgsType) (useTypeImports : Bool) :
    (∃ i ∈ s.imports useTypeImports, e ∈ i.imported) ↔ s.ArgsType e ∨ s.Provided e := by
  have h : (∃ i ∈ s.imports true, e ∈ i.imported) ↔ s.ArgsType e ∨ s.Provided e := by
    rw [exists_imported_iff, brings_imports, brings_imports]
    simp
  cases useTypeImports
  case true  => exact h
  case false =>
    cases s
    case native          => exact h
    case mapped f inline =>
      cases hs : f.mapper.source?
      case none        => simpa [imports_mapped_of_internal hs] using h
      case some source =>
        have hn : ∀ m ∈ [f.mapper], m.callee ≠ fetcherArgsType :=
          List.forall_mem_singleton.mpr <| hd f inline rfl <| hs ▸ rfl
        rw [imports_mapped hs, provided_mapped hs, argsType_mapped hs]
        simp only [extraNames, mappers, Bool.false_eq_true, if_false, List.mem_singleton, exists_eq_left]
        exact Mapper.mem_imported_importFrom_extra hn source false

end Strategy

theorem Config.needs_iff {c : Config} {s : Strategy} (hd : s.KeepsArgsType) :
    c.Needs s op e ↔ c.NeedsType s op e ∨ c.NeedsValue s op e := by
  have hi := s.exists_imports_iff (e := e) hd c.useTypeImports
  constructor
  case mp  =>
    intro h
    cases h
    case runtime m n hm hn    =>
      cases hn
      case head    => exact .inl <| .inl ⟨m, hm, rfl⟩
      case tail hn => exact .inr <| .inl ⟨m, hm, n, hn, rfl⟩
    case strategy i hk hs he =>
      exact (hi.mp ⟨i, hs, he⟩).imp (.inr ⟨hk, ·⟩) (.inr ⟨hk, ·⟩)
  case mpr =>
    have h (hk : op.kind ≠ .subscription) (he : s.ArgsType e ∨ s.Provided e) : c.Needs s op e := by
      obtain ⟨i, hs, he⟩ := hi.mpr he
      exact .strategy hk hs he
    rintro ((⟨m, hm, rfl⟩ | ⟨hk, he⟩) | (⟨m, hm, n, hn, rfl⟩ | ⟨hk, he⟩))
    case inl.inl => exact .runtime hm <| .head _
    case inl.inr => exact h hk <| .inl he
    case inr.inl => exact .runtime hm <| .tail _ hn
    case inr.inr => exact h hk <| .inr he

namespace HooksFile

variable {c : Config} {s : Strategy} {types : Bool}

theorem brings_importOf (code source : String) (typeOnly : Bool) (names : List String) :
    Brings (importOf code source typeOnly names) types e ↔
      typeOnly = types ∧ ∃ n ∈ names, references code n ∧ e = { source, name := n, binding := n } := by
  have hm : (∃ i ∈ importOf code source typeOnly names, e ∈ i.imported) ↔
      ∃ n ∈ names, references code n ∧ e = { source, name := n, binding := n } := by
    rw [← List.mem_flatMap, imported_importOf, List.mem_map]
    simp only [List.mem_filter, and_assoc, eq_comm (b := e)]
  have ht : ∀ i ∈ importOf code source typeOnly names, i.typeOnly = typeOnly := by
    intro i hi
    rw [importOf] at hi
    split at hi
    case h_1 => contradiction
    case h_2 => exact List.mem_singleton.mp hi ▸ rfl
  rw [← hm]
  constructor
  case mp  =>
    rintro ⟨i, hi, h, he⟩
    exact ⟨(ht i hi).symm.trans h, i, hi, he⟩
  case mpr =>
    rintro ⟨h, i, hi, he⟩
    exact ⟨i, hi, (ht i hi).trans h, he⟩

theorem brings_importsOfRuntime (code source : String) (u : RuntimeUsage) :
    Brings (importsOfRuntime code source true u) types e ↔
      ∃ n, n ∈ (if types then u.types else u.values) ∧ references code n ∧ e = { source, name := n, binding := n } := by
  rw [importsOfRuntime, if_pos rfl, brings_append, brings_importOf, brings_importOf]
  cases types <;> simp

theorem brings_fetcherImports (u : Usage) (code : String) :
    Brings (fetcherImports c s u code) types e ↔
      u.fetcherInUse ∧ Brings (s.imports c.useTypeImports) types e ∧ references code e.binding := by
  constructor
  case mp  =>
    rintro ⟨i', hi', ht, he⟩
    obtain ⟨hu, i, hi, hp⟩ := mem_fetcherImports.mp hi'
    cases eq_pruned_of_prune? hp
    rw [imported_pruned] at he
    have ⟨he, hr⟩ := List.mem_filter.mp he
    exact ⟨hu, ⟨i, hi, ht, he⟩, hr⟩
  case mpr =>
    rintro ⟨hu, ⟨i, hi, ht, he⟩, hr⟩
    have hp := prune?_of_references (Import.binding_mem_bindings he) hr
    refine ⟨_, mem_fetcherImports.mpr ⟨hu, i, hi, hp⟩, ht, ?_⟩
    rw [imported_pruned]
    exact List.mem_filter.mpr ⟨he, hr⟩

theorem brings_runtimeImports (hc : c.useTypeImports) (code : String) :
    Brings (runtimeImports c (c.usage ops) code) types e ↔
      ∃ op ∈ ops, ∃ m ∈ c.methods op.kind, ∃ n ∈ (if types then [m.options] else m.values),
        references code n ∧ e = { source := c.runtimeSource m.runtime, name := n, binding := n } := by
  have hm (r : Runtime) (n : String) :
      n ∈ (if types then ((c.usage ops).of r).types else ((c.usage ops).of r).values) ↔
        ∃ op ∈ ops, ∃ m ∈ c.methods op.kind, m.runtime = r ∧ n ∈ if types then [m.options] else m.values := by
    cases types
    case true  => simpa using Config.mem_types_usage
    case false => exact Config.mem_values_usage
  rw [runtimeImports, hc, brings_append, brings_importsOfRuntime, brings_importsOfRuntime]
  constructor
  case mp  =>
    rintro (⟨n, hn, hr, rfl⟩ | ⟨n, hn, hr, rfl⟩)
    case inl =>
      obtain ⟨op, ho, m, hm, h, hn⟩ := (hm .reactQuery n).mp hn
      exact ⟨op, ho, m, hm, n, hn, hr, h ▸ rfl⟩
    case inr =>
      obtain ⟨op, ho, m, hm, h, hn⟩ := (hm .subscription n).mp hn
      exact ⟨op, ho, m, hm, n, hn, hr, h ▸ rfl⟩
  case mpr =>
    rintro ⟨op, ho, m, hmm, n, hn, hr, rfl⟩
    have hn := (hm m.runtime n).mpr ⟨op, ho, m, hmm, rfl, hn⟩
    cases h : m.runtime <;> rw [h] at hn
    case reactQuery   => exact .inl ⟨n, hn, hr, rfl⟩
    case subscription => exact .inr ⟨n, hn, hr, rfl⟩

-- What an import brings in is needed as a type where the import is one of types, and as a value elsewhere.
theorem brings_ofPass (hc : c.useTypeImports) (documents : String) (ops : List Operation) :
    Brings (ofPass c s documents (.run c s ops)).imports types e ↔
      references (Pass.run c s ops).code e.binding ∧
        ∃ op ∈ ops, if types then c.NeedsType s op e else c.NeedsValue s op e := by
  have hneeds (op : Operation) : (if types then c.NeedsType s op e else c.NeedsValue s op e) ↔
      (∃ m ∈ c.methods op.kind, ∃ n ∈ (if types then [m.options] else m.values),
        e = { source := c.runtimeSource m.runtime, name := n, binding := n }) ∨
      op.kind ≠ .subscription ∧ if types then s.ArgsType e else s.Provided e := by
    cases types
    case true  => simp [Config.NeedsType]
    case false => rfl
  rw [imports_ofPass, Pass.usage_run, brings_append, brings_runtimeImports hc, brings_fetcherImports, hc,
    Strategy.brings_imports, Config.fetcherInUse_usage]
  simp only [hneeds]
  constructor
  case mp  =>
    rintro (⟨op, ho, m, hm, n, hn, hr, rfl⟩ | ⟨⟨op, ho, hk⟩, he, hr⟩)
    case inl => exact ⟨hr, op, ho, .inl ⟨m, hm, n, hn, rfl⟩⟩
    case inr => exact ⟨hr, op, ho, .inr ⟨hk, he⟩⟩
  case mpr =>
    rintro ⟨hr, op, ho, ⟨m, hm, n, hn, rfl⟩ | ⟨hk, he⟩⟩
    case inl => exact .inl ⟨op, ho, m, hm, n, hn, hr, rfl⟩
    case inr => exact .inr ⟨⟨op, ho, hk⟩, he, hr⟩

end HooksFile

-- Whether types are set apart makes no difference but to the import statements. If they are, the imports of types bring
-- in the types of options and of arguments, and the other imports all that is called.
theorem type_imports_only_split {c : Config} (hs : Strategy.ofFetcher c.fetcher = .ok s) (hd : s.KeepsArgsType)
    (documents : String) (ops : List Operation) :
    ∃ file file', generate { c with useTypeImports := false } documents ops = .ok file ∧
      generate { c with useTypeImports := true } documents ops = .ok file' ∧
      file.content = file'.content ∧
      (∀ e, e ∈ file.imported ↔ e ∈ file'.imported) ∧
      (∀ e, Brings file'.imports true e ↔ references file'.hooks e.binding ∧ ∃ op ∈ ops, c.NeedsType s op e) ∧
      ∀ e, Brings file'.imports false e ↔ references file'.hooks e.binding ∧ ∃ op ∈ ops, c.NeedsValue s op e := by
  let off := { c with useTypeImports := false }
  let on := { c with useTypeImports := true }
  have hoff : Strategy.ofFetcher off.fetcher = .ok s := hs
  have hon : Strategy.ofFetcher on.fetcher = .ok s := hs
  refine ⟨_, _, generate_of_ofFetcher hoff documents ops, generate_of_ofFetcher hon documents ops, rfl, fun e => ?_,
    fun e => ?_, fun e => ?_⟩
  · rw [HooksFile.mem_imported_ofPass hoff, HooksFile.mem_imported_ofPass hon]
    simp only [Config.needs_iff hd]
    rfl
  · exact HooksFile.brings_ofPass rfl documents ops
  · exact HooksFile.brings_ofPass rfl documents ops

theorem type_imports_only_split_renamed :
    let c := Config.standard (.mapper "./lib/fetcher#default as fetchData" false)
    let ops : List Operation := [.conventional .query "user", .conventional .subscription "userAdded"]
    ∃ s, Strategy.ofFetcher c.fetcher = .ok s ∧ s.KeepsArgsType ∧
    ∃ file file', generate { c with useTypeImports := false } "" ops = .ok file ∧
      generate { c with useTypeImports := true } "" ops = .ok file' ∧
      file.content = file'.content ∧
      (∀ e, e ∈ file.imported ↔ e ∈ file'.imported) ∧
      (∀ e, Brings file'.imports true e ↔ references file'.hooks e.binding ∧ ∃ op ∈ ops, c.NeedsType s op e) ∧
      ∀ e, Brings file'.imports false e ↔ references file'.hooks e.binding ∧ ∃ op ∈ ops, c.NeedsValue s op e := by
  intro c ops
  let s := Strategy.mapped { mapper := .default "./lib/fetcher" "fetchData", isReactHook := false } none
  have hs : Strategy.ofFetcher c.fetcher = .ok s := by rfl
  have hd : s.KeepsArgsType := by
    intro f inline h _
    have ⟨hf, _⟩ := Strategy.mapped.inj h
    exact hf ▸ by decide
  exact ⟨s, hs, hd, type_imports_only_split hs hd "" ops⟩

end QueryHooks
