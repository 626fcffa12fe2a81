import QueryHooks.Proofs.Firsts
import QueryHooks.Proofs.Mapper
import QueryHooks.Strategy.Basic

namespace QueryHooks

open TypeScript

namespace TypeScript.Import

-- The exports that the import binds to a local name.
def exportsOf (i : Import) (binding : String) : List String :=
  (i.items.filter (·.binding = binding)).map (·.name)

-- The import is from the module of the mapper, and binds its export, and no other, to its local name.
def Provides (i : Import) : Mapper → Prop
  | .internal _             => False
  | .named source item      => i.source = source ∧ i.typeOnly = false ∧ i.exportsOf item.binding = [item.name]
  | .default source binding => i.source = source ∧ i.typeOnly = false ∧ i.default? = some binding

instance (i : Import) : DecidablePred i.Provides
  | .internal _             => inferInstanceAs (Decidable False)
  | .named source item      =>
    inferInstanceAs (Decidable (i.source = source ∧ i.typeOnly = false ∧ i.exportsOf item.binding = [item.name]))
  | .default source binding =>
    inferInstanceAs (Decidable (i.source = source ∧ i.typeOnly = false ∧ i.default? = some binding))

variable {i : Import}

theorem source?_of_provides (h : i.Provides m) : m.source? = some i.source := by
  cases m
  case internal => contradiction
  all_goals exact congrArg some h.left.symm

theorem mem_bindings_of_provides (h : i.Provides m) : m.callee ∈ i.bindings := by
  cases m
  case internal => contradiction
  case named source item =>
    obtain ⟨_, _, he⟩ := h
    have hn : item.name ∈ i.exportsOf item.binding := he ▸ .head _
    obtain ⟨it, hi, _⟩ := List.mem_map.mp hn
    have ⟨hi, hb⟩ := List.mem_filter.mp hi
    exact List.mem_append_right _ <| List.mem_map.mpr ⟨it, hi, of_decide_eq_true hb⟩
  case default source binding =>
    obtain ⟨_, _, he⟩ := h
    exact List.mem_append_left _ <| by simp [he, Mapper.callee]

end TypeScript.Import

namespace Mapper

theorem namedItem?_eq_some {m : Mapper} : m.namedItem? source = some item ↔ m = .named source item := by
  cases m <;> simp [namedItem?]

theorem defaultBinding?_eq_some {m : Mapper} :
    m.defaultBinding? source = some binding ↔ m = .default source binding := by
  cases m <;> simp [defaultBinding?]

-- Of the items that have the same local name, the first one is imported.
theorem items_importFrom (source : String) (mappers : List Mapper) (extra : List String) (typeOnly : Bool) :
    (importFrom source mappers extra typeOnly).items =
      firstsBy ImportItem.binding
        ((extra.map fun name => { name : ImportItem }) ++ mappers.filterMap (namedItem? source)) := by
  refine foldl_eq_firstsBy (fun items item => ?_) _
  rw [insertItem]
  congr 1
  simp

theorem mem_bindings_importFrom (source : String) (mappers : List Mapper) (extra : List String) (typeOnly : Bool) :
    n ∈ (importFrom source mappers extra typeOnly).bindings ↔
      mappers.findSome? (defaultBinding? source) = some n ∨
        n ∈ extra ∨ ∃ item, .named source item ∈ mappers ∧ item.binding = n := by
  have hd : (importFrom source mappers extra typeOnly).default? = mappers.findSome? (defaultBinding? source) := rfl
  rw [Import.bindings, List.mem_append, items_importFrom, mem_map_firstsBy, hd]
  simp [namedItem?_eq_some, ImportItem.binding]

-- The exports of the module that mappers name, in the order of the mappers.
def namedFrom (source : String) : List Mapper → List ImportItem
  | []                        => []
  | .internal _ :: ms         => namedFrom source ms
  | .default _ _ :: ms        => namedFrom source ms
  | .named source' item :: ms => if source' = source then item :: namedFrom source ms else namedFrom source ms

theorem filterMap_namedItem? (source : String) (mappers : List Mapper) :
    mappers.filterMap (namedItem? source) = namedFrom source mappers := by
  fun_induction namedFrom source mappers
  case case1       => rfl
  case case2 hi    => exact (List.filterMap_cons_none rfl).trans hi
  case case3 hi    => exact (List.filterMap_cons_none rfl).trans hi
  case case4 hi    => simp [namedItem?, hi]
  case case5 hs hi => simp [namedItem?, hs, hi]

theorem findSome?_defaultBinding?_eq_some {mappers : List Mapper} :
    mappers.findSome? (defaultBinding? source) = some binding ↔
      ∃ before after,
        mappers = before ++ .default source binding :: after ∧ ∀ other, .default source other ∉ before := by
  have hn (before : List Mapper) :
      (∀ m ∈ before, m.defaultBinding? source = none) ↔ ∀ other, .default source other ∉ before := by
    simp only [Option.eq_none_iff_forall_ne_some, ne_eq, defaultBinding?_eq_some]
    exact ⟨fun h other hm => h _ hm other rfl, fun h m hm other hd => h other (hd ▸ hm)⟩
  rw [List.findSome?_eq_some_iff]
  constructor
  case mp  =>
    rintro ⟨before, m, after, rfl, hm, hb⟩
    cases defaultBinding?_eq_some.mp hm
    exact ⟨before, after, rfl, (hn before).mp hb⟩
  case mpr =>
    rintro ⟨before, after, rfl, hb⟩
    exact ⟨before, _, after, rfl, defaultBinding?_eq_some.mpr rfl, (hn before).mpr hb⟩

theorem isSome_findSome?_defaultBinding? {mappers : List Mapper} :
    (mappers.findSome? (defaultBinding? source)).isSome ↔ ∃ binding, .default source binding ∈ mappers := by
  rw [List.findSome?_isSome_iff]
  simp only [Option.isSome_iff_exists, defaultBinding?_eq_some]
  constructor
  case mp  =>
    rintro ⟨_, hm, binding, rfl⟩
    exact ⟨binding, hm⟩
  case mpr =>
    rintro ⟨binding, hm⟩
    exact ⟨_, hm, binding, rfl⟩

-- Paths and mappers of other modules add nothing to the import.
theorem importFrom_filter (source : String) (mappers : List Mapper) (extra : List String) (typeOnly : Bool) :
    importFrom source (mappers.filter (·.source? = some source)) extra typeOnly =
      importFrom source mappers extra typeOnly := by
  have hf {α} {f : Mapper → Option α} (h : ∀ m a, f m = some a → m.source? = some source) :
      (mappers.filter (·.source? = some source)).filterMap f = mappers.filterMap f := by
    rw [List.filterMap_filter]
    refine List.filterMap_congr fun m _ => ?_
    cases ha : f m
    case none   => simp
    case some a => simp [h m a ha]
  have hn := hf (f := namedItem? source) fun m _ h => namedItem?_eq_some.mp h ▸ rfl
  have hd := hf (f := defaultBinding? source) fun m _ h => defaultBinding?_eq_some.mp h ▸ rfl
  rw [importFrom, importFrom, hn, ← List.head?_filterMap, hd, List.head?_filterMap]

-- Of the names and exports that are asked for, those are imported whose local name is not taken by an earlier one, and
-- the first default export.
theorem importFrom_keeps_first (source : String) (mappers : List Mapper) (extra : List String) (typeOnly : Bool) :
    let i := importFrom source mappers extra typeOnly
    let asked := (extra.map fun name => { name : ImportItem }) ++ namedFrom source mappers
    i.source = source ∧ i.typeOnly = typeOnly ∧
      (i.items.map (·.binding)).Nodup ∧
      i.items = firstsBy ImportItem.binding asked ∧
      (∀ item, item ∈ i.items ↔
        ∃ before after, asked = before ++ item :: after ∧ ∀ other ∈ before, other.binding ≠ item.binding) ∧
      (i.default?.isSome ↔ ∃ binding, .default source binding ∈ mappers) ∧
      (∀ binding, i.default? = some binding ↔
        ∃ before after,
          mappers = before ++ .default source binding :: after ∧ ∀ other, .default source other ∉ before) ∧
      importFrom source (mappers.filter (·.source? = some source)) extra typeOnly = i := by
  intro i asked
  have hi : i.items = firstsBy ImportItem.binding asked := by
    rw [items_importFrom, filterMap_namedItem?]
  refine ⟨rfl, rfl, hi ▸ nodup_map_firstsBy asked, hi, fun item => ?_, isSome_findSome?_defaultBinding?,
    fun _ => findSome?_defaultBinding?_eq_some, importFrom_filter ..⟩
  rw [hi, mem_firstsBy_iff, List.find?_eq_some_iff_append]
  simp

end Mapper

namespace Native

theorem sources_eq (n : Native) : n.sources = firstsBy id (n.mappers.filterMap (·.source?)) :=
  foldl_eq_firstsBy (by simp) _

theorem mem_sources {n : Native} : source ∈ n.sources ↔ ∃ m ∈ n.mappers, m.source? = some source := by
  rw [n.sources_eq, mem_firstsBy_id, List.mem_filterMap]

theorem nodup_sources (n : Native) : n.sources.Nodup :=
  n.sources_eq ▸ nodup_firstsBy_id _

end Native

namespace Strategy

def mappers : Strategy → List Mapper
  | mapped m _ => [m.mapper]
  | native n   => n.mappers

-- The names that are imported together with a mapper.
def extraNames (useTypeImports : Bool) : Strategy → List String
  | mapped .. => if useTypeImports then [] else [fetcherArgsType]
  | native _  => []

-- What is taken from a module by name, in the order of the import.
def itemsFrom (s : Strategy) (useTypeImports : Bool) (source : String) : List ImportItem :=
  ((s.extraNames useTypeImports).map fun name => { name : ImportItem }) ++
  s.mappers.filterMap (Mapper.namedItem? source)

-- The export that gets the local name of a mapper: of those that are taken under this name, it is the first.
def supplier (s : Strategy) (useTypeImports : Bool) : Mapper → Mapper
  | .named source item =>
    .named source (((s.itemsFrom useTypeImports source).find? (·.binding = item.binding)).getD item)
  | m                  => m

variable {s : Strategy}

theorem callee_supplier (s : Strategy) (useTypeImports : Bool) (m : Mapper) :
    (s.supplier useTypeImports m).callee = m.callee := by
  cases m
  case named source item =>
    cases hf : (s.itemsFrom useTypeImports source).find? (·.binding = item.binding)
    case none    => simp [supplier, hf]
    case some it =>
      have hb : it.binding = item.binding := by simpa using List.find?_some hf
      simp [supplier, hf, hb]
  all_goals rfl

theorem items_importFrom (s : Strategy) (useTypeImports : Bool) (source : String) :
    (Mapper.importFrom source s.mappers (s.extraNames useTypeImports) false).items =
      firstsBy ImportItem.binding (s.itemsFrom useTypeImports source) :=
  Mapper.items_importFrom ..

theorem importFrom_mem_imports {useTypeImports : Bool} (hm : m ∈ s.mappers) (hs : m.source? = some source) :
    Mapper.importFrom source s.mappers (s.extraNames useTypeImports) false ∈ s.imports useTypeImports := by
  cases s
  case mapped f inline =>
    cases List.mem_singleton.mp hm
    cases useTypeImports <;> simp [imports, Mapped.imports, hs, mappers, extraNames]
  case native n        =>
    exact List.mem_map_of_mem (f := (Mapper.importFrom · n.mappers [] false)) <| Native.mem_sources.mpr ⟨m, hm, hs⟩

theorem provides_supplier (useTypeImports : Bool) (hm : m ∈ s.mappers) (hs : m.source? = some source)
    (hd : ∀ binding, m = .default source binding → s.mappers.findSome? (Mapper.defaultBinding? source) = some binding) :
    (Mapper.importFrom source s.mappers (s.extraNames useTypeImports) false).Provides
      (s.supplier useTypeImports m) := by
  cases m
  case internal => contradiction
  case named source' item =>
    cases hs
    have hi : item ∈ s.itemsFrom useTypeImports source := by
      refine List.mem_append_right _ <| List.mem_filterMap.mpr ⟨_, hm, ?_⟩
      simp [Mapper.namedItem?]
    have hf : ((s.itemsFrom useTypeImports source).find? (·.binding = item.binding)).isSome :=
      List.find?_isSome.mpr ⟨item, hi, by simp⟩
    obtain ⟨it, hf⟩ := Option.isSome_iff_exists.mp hf
    have hb : it.binding = item.binding := by simpa using List.find?_some hf
    refine ⟨rfl, rfl, ?_⟩
    simp only [hf, Option.getD_some, hb, Import.exportsOf, items_importFrom, filter_firstsBy_eq, Option.toList_some,
      List.map_cons, List.map_nil]
  case default source' binding =>
    cases hs
    exact ⟨rfl, rfl, hd binding rfl⟩

end Strategy
end QueryHooks
