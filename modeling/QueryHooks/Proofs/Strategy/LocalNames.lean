import Mathlib.Data.List.Pairwise
import QueryHooks.Proofs.Strategy.Imports

namespace QueryHooks

open TypeScript

namespace TypeScript.Import

-- If the named items have distinct local names, only the default clause may repeat one of them.
theorem nodup_filter_bindings_iff {i : Import} {p : String → Bool} (h : (i.items.map (·.binding)).Nodup) :
    (i.bindings.filter p).Nodup ↔ ∀ n, p n → i.default? = some n → n ∉ i.items.map (·.binding) := by
  have hd : (i.default?.toList.filter p).Nodup := by
    cases i.default?
    case none   => exact List.nodup_nil
    case some d => exact (List.nodup_singleton d).filter p
  rw [bindings, List.filter_append, List.nodup_append]
  simp only [hd, h.filter p, true_and, List.mem_filter, Option.mem_toList]
  constructor
  case mp  => exact fun h n hp hd hn => h n ⟨hd, hp⟩ n ⟨hn, hp⟩ rfl
  case mpr =>
    rintro h a ⟨ha, hp⟩ b ⟨hb, _⟩ rfl
    exact h a hp ha hb

end TypeScript.Import

namespace Strategy

variable {s : Strategy}

-- Something of the module gets the local name. Of the default exports, only the first one does.
def Takes (s : Strategy) (source name : String) : Prop :=
  s.mappers.findSome? (Mapper.defaultBinding? source) = some name ∨
    ∃ item, .named source item ∈ s.mappers ∧ item.binding = name

-- Is there one function, of which the type of the arguments is imported as well?
def isMapped : Strategy → Bool
  | mapped .. => true
  | native _  => false

-- More than one import binds the name, be it that two modules provide it, or that the type of the arguments, which is
-- imported on its own, has the name as well.
inductive Shares (s : Strategy) (useTypeImports : Bool) (name : String) : Prop
  | modules (hne : source ≠ source') (h : s.Takes source name) (h' : s.Takes source' name)
  | argsType (ht : useTypeImports) (hm : s.isMapped) (hn : name = fetcherArgsType) (h : s.Takes source name)

-- One import binds the name twice: it is to be the local name of the default export of a module, and of something that
-- is taken from the module by name.
def Doubles (s : Strategy) (useTypeImports : Bool) (name : String) : Prop :=
  ∃ source, s.mappers.findSome? (Mapper.defaultBinding? source) = some name ∧
    ∃ item ∈ s.itemsFrom useTypeImports source, item.binding = name

theorem exists_mapper_of_takes (h : s.Takes source name) :
    ∃ m ∈ s.mappers, m.source? = some source ∧ m.callee = name := by
  rcases h with hd | ⟨item, hm, rfl⟩
  case inl =>
    obtain ⟨m, hm, hd⟩ := List.exists_of_findSome?_eq_some hd
    cases Mapper.defaultBinding?_eq_some.mp hd
    exact ⟨_, hm, rfl, rfl⟩
  case inr => exact ⟨_, hm, rfl, rfl⟩

theorem mem_bindings_importFrom (s : Strategy) (source : String) (extra : List String) (typeOnly : Bool) :
    n ∈ (Mapper.importFrom source s.mappers extra typeOnly).bindings ↔ n ∈ extra ∨ s.Takes source n := by
  rw [Mapper.mem_bindings_importFrom, Takes, or_left_comm]

section

variable {m : Mapped} {inline : Option Request} {useTypeImports : Bool}

theorem source?_of_takes_mapped (h : (mapped m inline).Takes source name) : m.mapper.source? = some source := by
  obtain ⟨_, hm, hs, _⟩ := exists_mapper_of_takes h
  exact List.mem_singleton.mp hm ▸ hs

theorem shares_mapped_iff :
    (mapped m inline).Shares useTypeImports name ↔
      useTypeImports ∧ name = fetcherArgsType ∧ ∃ source, (mapped m inline).Takes source name := by
  constructor
  case mp  =>
    rintro (⟨hne, h, h'⟩ | ⟨ht, _, hn, h⟩)
    case modules  =>
      have he := (source?_of_takes_mapped h).symm.trans (source?_of_takes_mapped h')
      exact absurd (Option.some.inj he) hne
    case argsType => exact ⟨ht, hn, _, h⟩
  case mpr => exact fun ⟨ht, hn, _, h⟩ => .argsType ht rfl hn h

-- The import that the type of the arguments has to itself.
def typeImport (source : String) : Import :=
  { items := [{ name := fetcherArgsType }], source, typeOnly := true }

theorem bindings_typeImport (source : String) : (typeImport source).bindings = [fetcherArgsType] :=
  rfl

theorem imports_mapped (hs : m.mapper.source? = some source) :
    (mapped m inline).imports useTypeImports =
      Mapper.importFrom source (mapped m inline).mappers ((mapped m inline).extraNames useTypeImports) false ::
        if useTypeImports then [typeImport source] else [] := by
  cases useTypeImports <;> simp [imports, Mapped.imports, hs, mappers, extraNames, typeImport]

theorem imports_mapped_of_internal (hs : m.mapper.source? = none) :
    (mapped m inline).imports useTypeImports = [] := by
  simp [imports, Mapped.imports, hs]

theorem shares_native_iff {f : Native} :
    (native f).Shares useTypeImports name ↔
      ∃ source source', source ≠ source' ∧ (native f).Takes source name ∧ (native f).Takes source' name := by
  constructor
  case mp  =>
    rintro (⟨hne, h, h'⟩ | ⟨_, hm, _, _⟩)
    case modules  => exact ⟨_, _, hne, h, h'⟩
    case argsType => contradiction
  case mpr => exact fun ⟨_, _, hne, h, h'⟩ => .modules hne h h'

end

theorem mem_extraNames {useTypeImports : Bool} (h : n ∈ s.extraNames useTypeImports) : n = fetcherArgsType := by
  cases s <;> cases useTypeImports <;> simp_all [extraNames]

theorem exists_source_of_mem_imports {useTypeImports : Bool} (hi : i ∈ s.imports useTypeImports) :
    ∃ source, i = Mapper.importFrom source s.mappers (s.extraNames useTypeImports) false ∨ i = typeImport source := by
  cases s
  case mapped m inline =>
    cases hs : m.mapper.source?
    case none        => simp [imports_mapped_of_internal hs] at hi
    case some source =>
      rw [imports_mapped hs] at hi
      rcases List.mem_cons.mp hi with rfl | hi
      case inl => exact ⟨source, .inl rfl⟩
      case inr =>
        split at hi
        case isTrue  => exact ⟨source, .inr <| List.mem_singleton.mp hi⟩
        case isFalse => contradiction
  case native f        =>
    obtain ⟨source, _, rfl⟩ := List.mem_map.mp hi
    exact ⟨source, .inl rfl⟩

-- The default export that an import asks for is the first that a mapper of its module names.
theorem default?_of_mem_imports {useTypeImports : Bool} (hi : i ∈ s.imports useTypeImports)
    (hd : i.default? = some binding) : s.mappers.findSome? (Mapper.defaultBinding? i.source) = some binding := by
  obtain ⟨source, rfl | rfl⟩ := exists_source_of_mem_imports hi
  case inl => exact hd
  case inr => contradiction

theorem mem_bindings_imports {useTypeImports : Bool} (hn : n ≠ fetcherArgsType) :
    (∃ i ∈ s.imports useTypeImports, n ∈ i.bindings) ↔ ∃ source, s.Takes source n := by
  constructor
  case mp  =>
    rintro ⟨i, hi, hb⟩
    obtain ⟨source, rfl | rfl⟩ := exists_source_of_mem_imports hi
    case inl => exact ⟨source, (mem_bindings_importFrom ..).mp hb |>.resolve_left fun he => hn <| mem_extraNames he⟩
    case inr => exact absurd (List.mem_singleton.mp <| bindings_typeImport source ▸ hb) hn
  case mpr =>
    rintro ⟨source, h⟩
    obtain ⟨m, hm, hs, _⟩ := exists_mapper_of_takes h
    exact ⟨_, importFrom_mem_imports hm hs, (mem_bindings_importFrom ..).mpr <| .inr h⟩

-- What is imported by name has a local name of its own in the import.
theorem nodup_items_of_mem_imports {useTypeImports : Bool} (hi : i ∈ s.imports useTypeImports) :
    (i.items.map (·.binding)).Nodup := by
  obtain ⟨source, rfl | rfl⟩ := exists_source_of_mem_imports hi
  case inl => exact Mapper.items_importFrom .. ▸ nodup_map_firstsBy _
  case inr => exact List.nodup_singleton _

-- The names that an import of a strategy binds twice, among those that are of interest.
theorem nodup_imports_iff {p : String → Bool} {useTypeImports : Bool} :
    (∀ i ∈ s.imports useTypeImports, (i.bindings.filter p).Nodup) ↔ ∀ n, p n → ¬s.Doubles useTypeImports n := by
  constructor
  case mp  =>
    rintro h n hp ⟨source, hd, item, hi, rfl⟩
    obtain ⟨m, hm, hs⟩ := List.exists_of_findSome?_eq_some hd
    cases Mapper.defaultBinding?_eq_some.mp hs
    have hm : Mapper.importFrom source s.mappers (s.extraNames useTypeImports) false ∈ s.imports useTypeImports :=
      importFrom_mem_imports hm rfl
    refine (Import.nodup_filter_bindings_iff (nodup_items_of_mem_imports hm)).mp (h _ hm) _ hp hd ?_
    rw [items_importFrom, mem_map_firstsBy]
    exact List.mem_map_of_mem hi
  case mpr =>
    intro h i hi
    refine (Import.nodup_filter_bindings_iff (nodup_items_of_mem_imports hi)).mpr fun n hp hd hn => ?_
    obtain ⟨source, rfl | rfl⟩ := exists_source_of_mem_imports hi
    case inl =>
      rw [items_importFrom, mem_map_firstsBy] at hn
      exact h n hp ⟨source, hd, List.mem_map.mp hn⟩
    case inr => contradiction

-- The names that two imports of a strategy share, among those that are of interest.
theorem pairwise_imports_mapped {p : String → Prop} {m : Mapped} {inline : Option Request} {useTypeImports : Bool} :
    ((mapped m inline).imports useTypeImports).Pairwise (fun i j => ∀ n, p n → n ∈ i.bindings → n ∉ j.bindings) ↔
      ∀ n, p n → ¬(mapped m inline).Shares useTypeImports n := by
  simp only [shares_mapped_iff]
  cases hs : m.mapper.source?
  case none        =>
    have ht (source n) : ¬(mapped m inline).Takes source n := fun h => by simp [source?_of_takes_mapped h] at hs
    simp [imports_mapped_of_internal hs, ht]
  case some source =>
    have ht (n) : (∃ source, (mapped m inline).Takes source n) ↔ (mapped m inline).Takes source n := by
      refine ⟨fun ⟨source', h⟩ => ?_, fun h => ⟨source, h⟩⟩
      cases hs.symm.trans (source?_of_takes_mapped h)
      exact h
    rw [imports_mapped hs]
    cases useTypeImports
    case false => simp
    case true  =>
      simp only [if_true, List.pairwise_pair, mem_bindings_importFrom, bindings_typeImport, List.mem_singleton, ht,
        extraNames, List.not_mem_nil, false_or, true_and, not_and]
      exact ⟨fun h n hp he hn => h n hp hn he, fun h n hp hn he => h n hp he hn⟩

theorem pairwise_imports_native {p : String → Prop} {f : Native} {useTypeImports : Bool} :
    ((native f).imports useTypeImports).Pairwise (fun i j => ∀ n, p n → n ∈ i.bindings → n ∉ j.bindings) ↔
      ∀ n, p n → ¬(native f).Shares useTypeImports n := by
  have hb (source n) : n ∈ (Mapper.importFrom source f.mappers [] false).bindings ↔ (native f).Takes source n :=
    (mem_bindings_importFrom (native f) source [] false).trans <| by simp
  have hi : (native f).imports useTypeImports = f.sources.map (Mapper.importFrom · f.mappers [] false) := rfl
  rw [hi, List.pairwise_map]
  simp only [hb, shares_native_iff]
  constructor
  case mp  =>
    rintro h n hp ⟨source, source', hne, ht, ht'⟩
    have hm {source} (ht : (native f).Takes source n) : source ∈ f.sources := by
      obtain ⟨m, hm, hs, _⟩ := exists_mapper_of_takes ht
      exact Native.mem_sources.mpr ⟨m, hm, hs⟩
    have : Std.Symm fun source source' =>
        ∀ n, p n → (native f).Takes source n → ¬(native f).Takes source' n :=
      ⟨fun _ _ h n hp ht' ht => h n hp ht ht'⟩
    exact h.forall (hm ht) (hm ht') hne n hp ht ht'
  case mpr =>
    intro h
    refine f.nodup_sources.pairwise_of_forall_ne fun source _ source' _ hne n hp ht ht' => ?_
    exact h n hp ⟨source, source', hne, ht, ht'⟩

theorem pairwise_imports_iff {p : String → Prop} {useTypeImports : Bool} :
    (s.imports useTypeImports).Pairwise (fun i j => ∀ n, p n → n ∈ i.bindings → n ∉ j.bindings) ↔
      ∀ n, p n → ¬s.Shares useTypeImports n := by
  cases s
  case mapped => exact pairwise_imports_mapped
  case native => exact pairwise_imports_native

end Strategy
end QueryHooks
