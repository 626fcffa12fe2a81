import Mathlib.Data.List.Pairwise
import QueryHooks.Proofs.Bindings
import QueryHooks.Proofs.Text.Name

namespace QueryHooks

open TypeScript
open Text (isName)

namespace Operation

variable {op op' : Operation}

@[simp]
theorem hookName_inj : op.hookName = op'.hookName ↔ op.pascalName = op'.pascalName :=
  String.append_right_inj _

theorem infiniteHookName_eq : op.infiniteHookName = "use" ++ ("Infinite" ++ op.pascalName) := by
  rw [← String.append_assoc]
  rfl

theorem clientHookName_eq : op.clientHookName = "use" ++ (op.pascalName ++ "Client") :=
  String.append_assoc ..

@[simp]
theorem infiniteHookName_inj : op.infiniteHookName = op'.infiniteHookName ↔ op.pascalName = op'.pascalName :=
  String.append_right_inj _

@[simp]
theorem clientHookName_inj : op.clientHookName = op'.clientHookName ↔ op.pascalName = op'.pascalName := by
  rw [clientHookName_eq, clientHookName_eq, String.append_right_inj, String.append_left_inj]

theorem hookName_eq_infiniteHookName :
    op.hookName = op'.infiniteHookName ↔ op.pascalName = "Infinite" ++ op'.pascalName := by
  rw [infiniteHookName_eq, hookName, String.append_right_inj]

theorem hookName_eq_clientHookName : op.hookName = op'.clientHookName ↔ op.pascalName = op'.pascalName ++ "Client" := by
  rw [clientHookName_eq, hookName, String.append_right_inj]

theorem infiniteHookName_eq_clientHookName :
    op.infiniteHookName = op'.clientHookName ↔ "Infinite" ++ op.pascalName = op'.pascalName ++ "Client" := by
  rw [infiniteHookName_eq, clientHookName_eq, String.append_right_inj]

-- The three names of one operation differ by their lengths.
theorem hookName_ne_clientHookName (op : Operation) : op.hookName ≠ op.clientHookName := by
  intro h
  have h := congrArg String.length h
  simp [hookName, clientHookName] at h

theorem hookName_ne_infiniteHookName (op : Operation) : op.hookName ≠ op.infiniteHookName := by
  intro h
  have h := congrArg String.length h
  simp only [hookName, infiniteHookName, String.length_append, Nat.add_right_cancel_iff] at h
  contradiction

theorem clientHookName_ne_infiniteHookName (op : Operation) : op.clientHookName ≠ op.infiniteHookName := by
  intro h
  have h := congrArg String.length h
  simp only [clientHookName, infiniteHookName, String.length_append, Nat.add_right_comm, Nat.add_right_cancel_iff] at h
  contradiction

end Operation

namespace Config

variable {c : Config} {s : Strategy} {op op' : Operation}

-- The names that the fragment of an operation exports, and those that all fragments do.
def exportsOf (c : Config) (s : Strategy) (op : Operation) : List String :=
  (c.statements s op).flatMap (·.exports)

def exports (c : Config) (s : Strategy) (ops : List Operation) : List String :=
  ops.flatMap (c.exportsOf s)

theorem flatMap_exports (parts : List Part) :
    (parts.filterMap (s.statement? c.errorType op)).flatMap (·.exports) = parts.flatMap (s.exports op) := by
  induction parts
  case nil                => rfl
  case cons part parts hi =>
    cases h : s.statement? c.errorType op part
    case none    =>
      have he : s.exports op part = [] := by
        cases s <;> cases part <;> first | rfl | cases h
      simp [h, he, hi]
    case some st => simp [h, Strategy.exports_statement h, hi]

theorem exportsOf_query (h : op.kind = .query) :
    c.exportsOf s op =
      [op.hookName] ++ listIf s.isCombined [op.clientHookName] ++ listIf c.addInfiniteQuery [op.infiniteHookName] := by
  rw [exportsOf, statements, flatMap_exports, h, parts]
  cases c.exposeDocument <;> cases c.exposeQueryKeys <;> cases c.exposeFetcher <;> cases c.addInfiniteQuery <;>
    cases hc : s.isCombined <;> simp [Strategy.exports, listIf, hc]

theorem exportsOf_of_ne_query (h : op.kind ≠ .query) : c.exportsOf s op = [op.hookName] := by
  rw [exportsOf, statements, flatMap_exports]
  cases hk : op.kind
  case query        => contradiction
  case mutation     =>
    cases hd : c.exposeDocument <;> cases hf : c.exposeFetcher <;> simp [parts, Strategy.exports, hd, hf]
  case subscription => rfl

theorem mem_exportsOf :
    n ∈ c.exportsOf s op ↔
      n = op.hookName ∨ op.kind = .query ∧ s.isCombined ∧ n = op.clientHookName ∨
        op.kind = .query ∧ c.addInfiniteQuery ∧ n = op.infiniteHookName := by
  by_cases h : op.kind = .query
  case pos => simp [exportsOf_query h, mem_listIf, h]
  case neg => simp [exportsOf_of_ne_query h, h]

theorem hookName_mem_exportsOf : op.hookName ∈ c.exportsOf s op :=
  mem_exportsOf.mpr <| .inl rfl

theorem nodup_exportsOf : (c.exportsOf s op).Nodup := by
  by_cases h : op.kind = .query
  case neg => simp [exportsOf_of_ne_query h]
  case pos =>
    have hc : op.hookName ≠ op.clientHookName := Operation.hookName_ne_clientHookName op
    have hi : op.hookName ≠ op.infiniteHookName := Operation.hookName_ne_infiniteHookName op
    have hci : op.clientHookName ≠ op.infiniteHookName := Operation.clientHookName_ne_infiniteHookName op
    rw [exportsOf_query h]
    cases s.isCombined <;> cases c.addInfiniteQuery <;> simp [listIf, hc, hi, hci]

-- No name that is made from the name of a query is the name of another operation, or made in both ways.
structure Unclashing (c : Config) (s : Strategy) (ops : List Operation) : Prop where
  infinite : c.addInfiniteQuery → ∀ q ∈ ops, q.kind = .query → ∀ op ∈ ops, op.pascalName ≠ "Infinite" ++ q.pascalName
  client   : s.isCombined → ∀ q ∈ ops, q.kind = .query → ∀ op ∈ ops, op.pascalName ≠ q.pascalName ++ "Client"
  both     : c.addInfiniteQuery → s.isCombined → ∀ q ∈ ops, q.kind = .query → ∀ q' ∈ ops, q'.kind = .query →
    "Infinite" ++ q.pascalName ≠ q'.pascalName ++ "Client"

theorem eq_of_mem_exportsOf (hn : (c.exports s ops).Nodup) (ho : op ∈ ops) (ho' : op' ∈ ops)
    (h : n ∈ c.exportsOf s op) (h' : n ∈ c.exportsOf s op') : op = op' := by
  by_contra hne
  have hd := (List.nodup_flatMap.mp hn).right
  have : Std.Symm (Function.onFun List.Disjoint (c.exportsOf s)) := ⟨fun _ _ h => List.disjoint_symm h⟩
  exact hd.forall ho ho' hne h h'

theorem unclashing_of_nodup (hn : (c.exports s ops).Nodup) : c.Unclashing s ops where
  infinite hi q hq hk op ho h := by
    have hm : q.infiniteHookName ∈ c.exportsOf s q := mem_exportsOf.mpr <| .inr <| .inr ⟨hk, hi, rfl⟩
    have he := Operation.hookName_eq_infiniteHookName.mpr h
    cases eq_of_mem_exportsOf hn ho hq hookName_mem_exportsOf (he ▸ hm)
    exact Operation.hookName_ne_infiniteHookName _ he
  client hc q hq hk op ho h := by
    have hm : q.clientHookName ∈ c.exportsOf s q := mem_exportsOf.mpr <| .inr <| .inl ⟨hk, hc, rfl⟩
    have he := Operation.hookName_eq_clientHookName.mpr h
    cases eq_of_mem_exportsOf hn ho hq hookName_mem_exportsOf (he ▸ hm)
    exact Operation.hookName_ne_clientHookName _ he
  both hi hc q hq hk q' hq' hk' h := by
    have hm : q.infiniteHookName ∈ c.exportsOf s q := mem_exportsOf.mpr <| .inr <| .inr ⟨hk, hi, rfl⟩
    have hm' : q'.clientHookName ∈ c.exportsOf s q' := mem_exportsOf.mpr <| .inr <| .inl ⟨hk', hc, rfl⟩
    have he := Operation.infiniteHookName_eq_clientHookName.mpr h
    cases eq_of_mem_exportsOf hn hq hq' hm (he ▸ hm')
    exact Operation.clientHookName_ne_infiniteHookName _ he.symm

theorem Unclashing.pascalName_eq (hu : c.Unclashing s ops) (ho : op ∈ ops) (ho' : op' ∈ ops)
    (h : n ∈ c.exportsOf s op) (h' : n ∈ c.exportsOf s op') : op.pascalName = op'.pascalName := by
  rcases mem_exportsOf.mp h with rfl | ⟨hk, hc, rfl⟩ | ⟨hk, hi, rfl⟩ <;>
    rcases mem_exportsOf.mp h' with he | ⟨hk', hc', he⟩ | ⟨hk', hi', he⟩
  · exact Operation.hookName_inj.mp he
  · exact absurd (Operation.hookName_eq_clientHookName.mp he) <| hu.client hc' _ ho' hk' _ ho
  · exact absurd (Operation.hookName_eq_infiniteHookName.mp he) <| hu.infinite hi' _ ho' hk' _ ho
  · exact absurd (Operation.hookName_eq_clientHookName.mp he.symm) <| hu.client hc _ ho hk _ ho'
  · exact Operation.clientHookName_inj.mp he
  · exact absurd (Operation.infiniteHookName_eq_clientHookName.mp he.symm) <| hu.both hi' hc _ ho' hk' _ ho hk
  · exact absurd (Operation.hookName_eq_infiniteHookName.mp he.symm) <| hu.infinite hi _ ho hk _ ho'
  · exact absurd (Operation.infiniteHookName_eq_clientHookName.mp he) <| hu.both hi hc' _ ho hk _ ho' hk'
  · exact Operation.infiniteHookName_inj.mp he

theorem nodup_exports_iff (hd : (ops.map (·.pascalName)).Nodup) : (c.exports s ops).Nodup ↔ c.Unclashing s ops := by
  constructor
  case mp  => exact unclashing_of_nodup
  case mpr =>
    intro hu
    refine List.nodup_flatMap.mpr ⟨fun _ _ => nodup_exportsOf, ?_⟩
    refine hd.of_map.pairwise_of_forall_ne fun op ho op' ho' hne n h h' => hne ?_
    exact List.inj_on_of_nodup_map hd ho ho' <| hu.pascalName_eq ho ho' h h'

end Config

namespace Config

variable {c : Config} {s : Strategy}

theorem exists_of_mem_exportsOf (hn : n ∈ c.exportsOf s op) :
    ∃ name, n = "use" ++ name ∧ (isName op.pascalName → name.toList.all isIdentChar) := by
  have hp (h : isName op.pascalName) : op.pascalName.toList.all isIdentChar :=
    all_isIdentChar_of_isIdentifierChars <| Text.isIdentifier_of_isName h
  have hi : "Infinite".toList.all isIdentChar := by decide
  have hc : "Client".toList.all isIdentChar := by decide
  rcases mem_exportsOf.mp hn with rfl | ⟨_, _, rfl⟩ | ⟨_, _, rfl⟩
  case inl      => exact ⟨_, rfl, hp⟩
  case inr.inl  =>
    refine ⟨_, Operation.clientHookName_eq, fun h => ?_⟩
    rw [String.toList_append, List.all_append, hp h, hc, Bool.and_self]
  case inr.inr  =>
    refine ⟨_, Operation.infiniteHookName_eq, fun h => ?_⟩
    rw [String.toList_append, List.all_append, hi, hp h, Bool.and_self]

theorem isIdentifier_of_mem_exportsOf (hg : isName op.pascalName) (hn : n ∈ c.exportsOf s op) : isIdentifier n := by
  obtain ⟨name, rfl, h⟩ := exists_of_mem_exportsOf hn
  have hu : "use".toList = ['u', 's', 'e'] := rfl
  rw [isIdentifier, String.toList_append, hu, List.cons_append, isIdentifierChars, List.all_append, h hg]
  decide

-- Exported names are bound in the text of the fragments, and so they are found there.
theorem references_of_mem_exportsOf (ho : op ∈ ops) (hg : isName op.pascalName) (hn : n ∈ c.exportsOf s op) :
    references (Pass.run c s ops).code n := by
  have ⟨st, hst, hm⟩ := List.mem_flatMap.mp hn
  have ⟨_, _, hs⟩ := mem_statements.mp hst
  have h := mentions_fragment hst <| Strategy.mentions_of_mem_exports hs n hm
  exact (Pass.mentions_code ho h).references <| isIdentifier_of_mem_exportsOf hg hn

-- The hooks of the runtime modules that operations are rendered with.
def runtimeHooks (c : Config) (ops : List Operation) : List String :=
  listIf (Operation.anyOf .query ops) ["useQuery"] ++
  listIf (Operation.anyOf .query ops && c.addInfiniteQuery) ["useInfiniteQuery"] ++
  listIf (Operation.anyOf .mutation ops) ["useMutation"] ++
  listIf (Operation.anyOf .subscription ops) ["useSubscription"]

-- What else is recorded does not begin like a hook.
theorem mem_names_usage_iff {name : String} :
    "use" ++ name ∈ (c.usage ops).names ↔ "use" ++ name ∈ c.runtimeHooks ops := by
  have hne (t : String) (ht : t.toList.head? ≠ some 'u') : "use" ++ name ≠ t := by
    rintro rfl
    simp at ht
  have h₁ := hne "gql" (by decide)
  have h₂ := hne "UseQueryOptions" (by decide)
  have h₃ := hne "UseInfiniteQueryOptions" (by decide)
  have h₄ := hne "UseMutationOptions" (by decide)
  have h₅ := hne "SubscriptionHookOptions" (by decide)
  simp only [Usage.names, usage, runtimeHooks, List.mem_append, mem_listIf, List.mem_cons, List.not_mem_nil, or_false,
    h₁, h₂, h₃, h₄, h₅, and_false, false_or]
  grind

end Config

theorem HooksFile.bound_iff_of_mem_exportsOf {c : Config} (ho : op ∈ ops) (hg : isName op.pascalName)
    (hn : n ∈ c.exportsOf s op) (documents : String) :
    (∃ i ∈ (ofPass c s documents (.run c s ops)).imports, n ∈ i.bindings) ↔
      n ∈ c.runtimeHooks ops ∨
        (∃ op ∈ ops, op.kind ≠ .subscription) ∧ ∃ i ∈ s.imports c.useTypeImports, n ∈ i.bindings := by
  have hr := Config.references_of_mem_exportsOf ho hg hn
  obtain ⟨name, rfl, _⟩ := Config.exists_of_mem_exportsOf hn
  rw [← List.mem_flatMap, bindings_ofPass, List.mem_filter, Pass.usage_run, importable, List.mem_append,
    Config.mem_names_usage_iff, ← Config.fetcherInUse_usage (c := c)]
  split <;> simp [*]

-- When exported names clash with each other, and when with a name that is imported.
theorem exported_names_clash_iff {c : Config} (hs : Strategy.ofFetcher c.fetcher = .ok s) (documents : String)
    (hd : (ops.map (·.pascalName)).Nodup) (hg : ∀ op ∈ ops, isName op.pascalName) :
    ∃ file, generate c documents ops = .ok file ∧
      ((c.exports s ops).Nodup ↔ c.Unclashing s ops) ∧
      ∀ n ∈ c.exports s ops,
        (∃ i ∈ file.imports, n ∈ i.bindings) ↔
          n ∈ c.runtimeHooks ops ∨
            (∃ op ∈ ops, op.kind ≠ .subscription) ∧ ∃ i ∈ s.imports c.useTypeImports, n ∈ i.bindings := by
  refine ⟨_, generate_of_ofFetcher hs documents ops, Config.nodup_exports_iff hd, fun n hn => ?_⟩
  have ⟨op, ho, hn⟩ := List.mem_flatMap.mp hn
  exact HooksFile.bound_iff_of_mem_exportsOf ho (hg op ho) hn documents

theorem exported_names_clash_iff_mixed :
    let c := { Config.standard (.mapper "./lib/fetcher#fetchData" false) with addInfiniteQuery := true }
    let ops : List Operation := [
      .conventional .query "user", .conventional .mutation "_save", .conventional .subscription "userAdded"]
    (ops.map (·.pascalName)).Nodup ∧ (∀ op ∈ ops, isName op.pascalName) ∧
    ∃ s, Strategy.ofFetcher c.fetcher = .ok s ∧
    ∃ file, generate c "" ops = .ok file ∧
      ((c.exports s ops).Nodup ↔ c.Unclashing s ops) ∧
      ∀ n ∈ c.exports s ops,
        (∃ i ∈ file.imports, n ∈ i.bindings) ↔
          n ∈ c.runtimeHooks ops ∨
            (∃ op ∈ ops, op.kind ≠ .subscription) ∧ ∃ i ∈ s.imports c.useTypeImports, n ∈ i.bindings := by
  intro c ops
  have hd : (ops.map (·.pascalName)).Nodup := by decide +kernel
  have hg : ∀ op ∈ ops, isName op.pascalName := by decide +kernel
  exact ⟨hd, hg, _, rfl, exported_names_clash_iff rfl "" hd hg⟩

-- Two queries may export the same name, and a query that is called `query` exports the name of a hook, which is
-- imported since it is found in the text.
theorem exported_names_clash :
    (let c := { Config.standard (.native { isCombined := false }) with addInfiniteQuery := true }
      let ops : List Operation := [.conventional .query "feed", .conventional .query "infiniteFeed"]
      (ops.map (·.pascalName)).Nodup ∧ (∀ op ∈ ops, isName op.pascalName) ∧
      ∃ s, Strategy.ofFetcher c.fetcher = .ok s ∧ ¬(c.exports s ops).Nodup) ∧
    (let c := Config.standard (.native { isCombined := false })
      let ops : List Operation := [.conventional .query "query"]
      (ops.map (·.pascalName)).Nodup ∧ (∀ op ∈ ops, isName op.pascalName) ∧
      ∃ s file, Strategy.ofFetcher c.fetcher = .ok s ∧ generate c "" ops = .ok file ∧
        ∃ n ∈ c.exports s ops, ∃ i ∈ file.imports, n ∈ i.bindings) := by
  constructor
  · intro c ops
    have hd : (ops.map (·.pascalName)).Nodup := by decide +kernel
    refine ⟨hd, by decide +kernel, _, rfl, fun hn => ?_⟩
    have hu := (Config.unclashing_of_nodup hn).infinite rfl _ (.head _) rfl _ (.tail _ <| .head _)
    exact hu (by decide +kernel)
  · intro c ops
    have hg : ∀ op ∈ ops, isName op.pascalName := by decide +kernel
    refine ⟨by decide +kernel, hg, _, _, rfl, generate_of_ofFetcher rfl "" ops, ?_⟩
    refine ⟨_, List.mem_flatMap.mpr ⟨_, .head _, Config.hookName_mem_exportsOf⟩, ?_⟩
    refine (HooksFile.bound_iff_of_mem_exportsOf (.head _) (hg _ <| .head _) Config.hookName_mem_exportsOf "").mpr ?_
    exact .inl (by decide +kernel)

end QueryHooks
