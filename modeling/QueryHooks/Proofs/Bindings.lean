import QueryHooks.Proofs.Generate

namespace QueryHooks

namespace TypeScript

-- An export of a module, under a local name. The default export goes by the name `default`.
structure Imported where
  source  : String
  name    : String
  binding : String
  deriving DecidableEq

namespace Import

def imported (i : Import) : List Imported :=
  (i.default?.toList.map fun binding => { source := i.source, name := "default", binding }) ++
    i.items.map fun item => { source := i.source, name := item.name, binding := item.binding }

theorem map_binding_imported (i : Import) : i.imported.map (·.binding) = i.bindings := by
  simp [imported, bindings, Function.comp_def]

theorem binding_mem_bindings {i : Import} (h : e ∈ i.imported) : e.binding ∈ i.bindings :=
  i.map_binding_imported ▸ List.mem_map_of_mem h

theorem flatMap_bindings (is : List Import) :
    is.flatMap (·.bindings) = (is.flatMap (·.imported)).map (·.binding) := by
  rw [List.map_flatMap]
  simp only [map_binding_imported]

end Import
end TypeScript

open TypeScript

namespace RuntimeUsage

def imported (u : RuntimeUsage) (source : String) : List Imported :=
  (u.values ++ u.types).map fun name => { source, name, binding := name }

end RuntimeUsage

namespace Usage

-- The recorded names, in the order they are imported in.
def names (u : Usage) : List String :=
  u.reactQuery.values ++ u.reactQuery.types ++ u.subscription.values ++ u.subscription.types

def imported (c : Config) (u : Usage) : List Imported :=
  u.reactQuery.imported c.reactQueryImportFrom ++ u.subscription.imported c.subscriptionImportFrom

theorem map_binding_imported (c : Config) (u : Usage) : (u.imported c).map (·.binding) = u.names := by
  simp [imported, RuntimeUsage.imported, names, Function.comp_def]

end Usage

namespace HooksFile

variable {c : Config} {s : Strategy}

def imported (f : HooksFile) : List Imported :=
  f.imports.flatMap (·.imported)

theorem imported_importOf (code source : String) (typeOnly : Bool) (names : List String) :
    (importOf code source typeOnly names).flatMap (·.imported) =
      (names.filter (references code)).map fun name => { source, name, binding := name } := by
  rw [importOf]
  split <;> simp [*, Import.imported, ImportItem.binding, Function.comp_def]

theorem imported_importsOfRuntime (code source : String) (split : Bool) (u : RuntimeUsage) :
    (importsOfRuntime code source split u).flatMap (·.imported) =
      (u.imported source).filter (references code ·.binding) := by
  cases split <;>
    simp [importsOfRuntime, imported_importOf, RuntimeUsage.imported, List.filter_map, Function.comp_def]

theorem imported_runtimeImports (u : Usage) (code : String) :
    (runtimeImports c u code).flatMap (·.imported) = (u.imported c).filter (references code ·.binding) := by
  simp [runtimeImports, imported_importsOfRuntime, Usage.imported]

theorem bindings_runtimeImports (u : Usage) (code : String) :
    (runtimeImports c u code).flatMap (·.bindings) = u.names.filter (references code) := by
  rw [Import.flatMap_bindings, imported_runtimeImports, ← u.map_binding_imported c, List.filter_map]
  rfl

theorem bindings_ne_nil_of_mem_importsOfRuntime (hi : i ∈ importsOfRuntime code source split u) : i.bindings ≠ [] := by
  have ho {typeOnly names} (hi : i ∈ importOf code source typeOnly names) : i.bindings ≠ [] := by
    rw [importOf] at hi
    split at hi
    case h_1    => contradiction
    case h_2 hn =>
      cases List.mem_singleton.mp hi
      simpa [Import.bindings] using hn
  rw [importsOfRuntime] at hi
  split at hi
  case isTrue  => exact (List.mem_append.mp hi).elim ho ho
  case isFalse => exact ho hi

-- The import without the bindings that are not referred to, even if nothing is left of it.
def pruned (code : String) (i : Import) : Import :=
  { i with
    default? := i.default?.filter (references code)
    items    := i.items.filter (references code ·.binding) }

theorem prune?_eq (code : String) (i : Import) :
    prune? code i = if (pruned code i).isEmpty then none else some (pruned code i) :=
  rfl

theorem eq_pruned_of_prune? (h : prune? code i = some i') : i' = pruned code i := by
  rw [prune?_eq] at h
  split at h <;> cases h
  rfl

theorem imported_pruned (code : String) (i : Import) :
    (pruned code i).imported = i.imported.filter (references code ·.binding) := by
  simp [pruned, Import.imported, List.filter_map, Function.comp_def, Option.toList_filter]

theorem bindings_pruned (code : String) (i : Import) :
    (pruned code i).bindings = i.bindings.filter (references code) := by
  rw [← Import.map_binding_imported, imported_pruned, ← Import.map_binding_imported, List.filter_map]
  rfl

theorem bindings_eq_nil_of_prune? (h : prune? code i = none) : i.bindings.filter (references code) = [] := by
  rw [prune?_eq] at h
  split at h
  case isTrue he => exact bindings_pruned code i ▸ Import.isEmpty_iff.mp he
  case isFalse   => contradiction

theorem imported_prune? (code : String) (i : Import) :
    (prune? code i).toList.flatMap (·.imported) = i.imported.filter (references code ·.binding) := by
  rw [prune?_eq, ← imported_pruned]
  split
  case isFalse   => simp
  case isTrue he =>
    have hb := (pruned code i).map_binding_imported
    rw [Import.isEmpty_iff.mp he, List.map_eq_nil_iff] at hb
    exact hb.symm

theorem mem_fetcherImports {u : Usage} :
    i' ∈ fetcherImports c s u code ↔
      u.fetcherInUse ∧ ∃ i ∈ s.imports c.useTypeImports, prune? code i = some i' := by
  rw [fetcherImports]
  split <;> simp [*]

theorem imported_fetcherImports (u : Usage) (code : String) :
    (fetcherImports c s u code).flatMap (·.imported) =
      if u.fetcherInUse then
        ((s.imports c.useTypeImports).flatMap (·.imported)).filter (references code ·.binding)
      else [] := by
  rw [fetcherImports]
  split
  case isFalse => rfl
  case isTrue  =>
    induction s.imports c.useTypeImports
    case nil          => rfl
    case cons i is hi =>
      rw [List.flatMap_cons, List.filter_append, ← imported_prune?, ← hi]
      cases h : prune? code i <;> simp [h]

theorem bindings_fetcherImports (u : Usage) (code : String) :
    (fetcherImports c s u code).flatMap (·.bindings) =
      if u.fetcherInUse then ((s.imports c.useTypeImports).flatMap (·.bindings)).filter (references code) else [] := by
  rw [Import.flatMap_bindings, imported_fetcherImports, Import.flatMap_bindings]
  split
  case isTrue  => rw [List.filter_map]; rfl
  case isFalse => rfl

-- The names that the imports of a file may bind.
def importable (c : Config) (s : Strategy) (u : Usage) : List String :=
  u.names ++ if u.fetcherInUse then (s.imports c.useTypeImports).flatMap (·.bindings) else []

theorem bindings_ofPass (documents : String) (p : Pass) :
    (ofPass c s documents p).imports.flatMap (·.bindings) = (importable c s p.usage).filter (references p.code) := by
  rw [imports_ofPass, List.flatMap_append, bindings_runtimeImports, bindings_fetcherImports, importable]
  split <;> simp

end HooksFile
end QueryHooks
