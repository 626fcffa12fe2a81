import QueryHooks.Proofs.Generate

namespace QueryHooks

open TypeScript

namespace Config

-- The import of the names from a module, if there are any.
def importNames (source : String) (typeOnly : Bool) (names : List String) : List Import :=
  if names.isEmpty then [] else [{ items := names.map fun name => { name }, source, typeOnly }]

def importsFrom (c : Config) (source : String) (u : RuntimeUsage) : List Import :=
  if c.useTypeImports then importNames source false u.values ++ importNames source true u.types
  else importNames source false (u.values ++ u.types)

def runtimeImports (c : Config) (ops : List Operation) : List Import :=
  c.importsFrom c.reactQueryImportFrom (c.usage ops).reactQuery ++
  c.importsFrom c.subscriptionImportFrom (c.usage ops).subscription

variable {c : Config}

theorem bindings_importNames (source : String) (typeOnly : Bool) (names : List String) :
    (importNames source typeOnly names).flatMap (·.bindings) = names := by
  rw [importNames]
  split
  case isTrue h  => simpa using (List.isEmpty_iff.mp h).symm
  case isFalse   => simp [Import.bindings, ImportItem.binding, Function.comp_def]

theorem bindings_importsFrom (source : String) (u : RuntimeUsage) :
    (c.importsFrom source u).flatMap (·.bindings) = u.values ++ u.types := by
  rw [importsFrom]
  split <;> simp [bindings_importNames]

theorem nodup_runtimeImports (c : Config) (ops : List Operation) :
    ((c.runtimeImports ops).flatMap (·.bindings)).Nodup := by
  rw [runtimeImports, List.flatMap_append, bindings_importsFrom, bindings_importsFrom]
  rw [usage, listIf]
  cases Operation.anyOf .query ops <;> cases Operation.anyOf .mutation ops <;>
    cases Operation.anyOf .subscription ops <;> cases c.addInfiniteQuery <;> decide

end Config

-- The names that the code refers to.
def RuntimeUsage.referredBy (u : RuntimeUsage) (code : String) : RuntimeUsage where
  values := u.values.filter (references code)
  types  := u.types.filter (references code)

namespace HooksFile

theorem importOf_eq (code source : String) (typeOnly : Bool) (names : List String) :
    importOf code source typeOnly names = Config.importNames source typeOnly (names.filter (references code)) := by
  rw [importOf, Config.importNames]
  cases names.filter (references code) <;> rfl

theorem importsOfRuntime_eq (c : Config) (code source : String) (u : RuntimeUsage) :
    importsOfRuntime code source c.useTypeImports u = c.importsFrom source (u.referredBy code) := by
  simp only [importsOfRuntime, Config.importsFrom, importOf_eq, RuntimeUsage.referredBy, List.filter_append]

theorem importsOfRuntime_of_references {c : Config} {u : RuntimeUsage}
    (hv : ∀ n ∈ u.values, references code n) (ht : ∀ n ∈ u.types, references code n) :
    importsOfRuntime code source c.useTypeImports u = c.importsFrom source u := by
  rw [importsOfRuntime_eq, RuntimeUsage.referredBy, List.filter_eq_self.mpr hv, List.filter_eq_self.mpr ht]

end HooksFile

namespace Config

variable {c : Config} {m : Mapped} {inline : Option Request}

theorem references_of_method (ho : op ∈ ops) (hm : h ∈ c.methods op.kind) (hn : n ∈ h.names) :
    references (Pass.run c (.mapped m inline) ops).code n := by
  have ⟨part, hp, hm⟩ := List.mem_filterMap.mp hm
  have ⟨st, hs⟩ : ∃ st, (Strategy.mapped m inline).statement? c.errorType op part = some st := by
    cases part <;> cases hm <;> exact ⟨_, rfl⟩
  have h := Mapped.mentions_of_mem_names hs hm n hn
  have h := mentions_fragment (mem_statements.mpr ⟨part, hp, hs⟩) h
  exact (Pass.mentions_code ho h).references <| Part.isIdentifier_of_mem_names hm n hn

theorem references_of_usage (hn : n ∈ ((c.usage ops).of r).values ∨ n ∈ ((c.usage ops).of r).types) :
    references (Pass.run c (.mapped m inline) ops).code n :=
  have ⟨_, ho, _, hm, _, hn⟩ := mem_usage.mp hn
  references_of_method ho hm hn

end Config

namespace HooksFile

theorem runtimeImports_usage {c : Config}
    (h : ∀ r n, n ∈ ((c.usage ops).of r).values ∨ n ∈ ((c.usage ops).of r).types → references code n) :
    runtimeImports c (c.usage ops) code = c.runtimeImports ops := by
  rw [runtimeImports, Config.runtimeImports]
  congr 1
  · exact importsOfRuntime_of_references (h .reactQuery · <| .inl ·) (h .reactQuery · <| .inr ·)
  · exact importsOfRuntime_of_references (h .subscription · <| .inl ·) (h .subscription · <| .inr ·)

end HooksFile

-- The runtime part of the imports is complete and exact, and binds nothing twice.
theorem prepend_runtime_exact {c : Config} (hn : ¬c.fetcher.isNative) (hs : Strategy.ofFetcher c.fetcher = .ok s)
    (documents : String) (ops : List Operation) :
    ∃ file, generate c documents ops = .ok file ∧
      file.prepend =
        (c.runtimeImports ops ++ HooksFile.fetcherImports c s (c.usage ops) file.hooks).map (·.print) ∧
      ((c.runtimeImports ops).flatMap (·.bindings)).Nodup := by
  obtain ⟨m, inline, rfl⟩ := Strategy.mapped_of_ofFetcher hn hs
  refine ⟨_, generate_of_ofFetcher hs documents ops, ?_, c.nodup_runtimeImports ops⟩
  rw [HooksFile.prepend, HooksFile.imports_ofPass, Pass.usage_run]
  rw [HooksFile.runtimeImports_usage fun _ _ => Config.references_of_usage]
  rfl

theorem prepend_runtime_exact_reactHook :
    let c := { Config.standard (.mapper "./lib/fetcher#useFetchData" true) with addInfiniteQuery := true }
    let ops := [
      .conventional .subscription "on: event", .conventional .query "useQuery", .conventional .mutation ".save"]
    ¬c.fetcher.isNative ∧
    ∃ s, Strategy.ofFetcher c.fetcher = .ok s ∧
    (∃ file, generate c "" ops = .ok file ∧
      file.prepend =
        (c.runtimeImports ops ++ HooksFile.fetcherImports c s (c.usage ops) file.hooks).map (·.print) ∧
      ((c.runtimeImports ops).flatMap (·.bindings)).Nodup) ∧
    (c.runtimeImports ops).map (·.print) = [
      "import \x7b useInfiniteQuery, useMutation, useQuery, UseInfiniteQueryOptions, UseMutationOptions, " ++
        "UseQueryOptions \x7d from '@tanstack/react-query';",
      "import \x7b gql, useSubscription, SubscriptionHookOptions \x7d from '@apollo/client';"] :=
  ⟨nofun, _, rfl, prepend_runtime_exact (by decide) rfl _ _, by decide +kernel⟩

end QueryHooks
