import QueryHooks.Proofs.Generate

namespace QueryHooks

open TypeScript
open Text (concat join)

-- The options about what is rendered.
inductive Choice where
  | errorType
  | exposeQueryKeys
  | exposeDocument
  | addInfiniteQuery
  | useTypeImports
  deriving DecidableEq

namespace Choice

def name : Choice → String
  | errorType        => "errorType"
  | exposeQueryKeys  => "exposeQueryKeys"
  | exposeDocument   => "exposeDocument"
  | addInfiniteQuery => "addInfiniteQuery"
  | useTypeImports   => "useTypeImports"

-- The part of a fragment that is written only if the option is set.
def part? : Choice → Option Part
  | errorType        => none
  | exposeQueryKeys  => some .getKey
  | exposeDocument   => some .document
  | addInfiniteQuery => some .infiniteQuery
  | useTypeImports   => none

end Choice

namespace Config

-- The configuration with the option as it is if it is not set.
def reset (c : Config) : Choice → Config
  | .errorType        => { c with errorType := ({} : Settings).errorType }
  | .exposeQueryKeys  => { c with exposeQueryKeys := ({} : Settings).exposeQueryKeys }
  | .exposeDocument   => { c with exposeDocument := ({} : Settings).exposeDocument }
  | .addInfiniteQuery => { c with addInfiniteQuery := ({} : Settings).addInfiniteQuery }
  | .useTypeImports   => { c with useTypeImports := ({} : Settings).useTypeImports }

-- The option is set to another value than it has if it is not set.
def Sets (c : Config) : Choice → Prop
  | .errorType        => c.errorType ≠ ({} : Settings).errorType
  | .exposeQueryKeys  => c.exposeQueryKeys ≠ ({} : Settings).exposeQueryKeys
  | .exposeDocument   => c.exposeDocument ≠ ({} : Settings).exposeDocument
  | .addInfiniteQuery => c.addInfiniteQuery ≠ ({} : Settings).addInfiniteQuery
  | .useTypeImports   => c.useTypeImports ≠ ({} : Settings).useTypeImports

instance (c : Config) : DecidablePred c.Sets
  | .errorType        => inferInstanceAs <| Decidable (_ ≠ _)
  | .exposeQueryKeys  => inferInstanceAs <| Decidable (_ ≠ _)
  | .exposeDocument   => inferInstanceAs <| Decidable (_ ≠ _)
  | .addInfiniteQuery => inferInstanceAs <| Decidable (_ ≠ _)
  | .useTypeImports   => inferInstanceAs <| Decidable (_ ≠ _)

theorem fetcher_reset (c : Config) (o : Choice) : (c.reset o).fetcher = c.fetcher := by
  cases o <;> rfl

theorem errorType_reset (c : Config) (ho : o ≠ .errorType) : (c.reset o).errorType = c.errorType := by
  cases o <;> first | contradiction | rfl

theorem parts_reset (c : Config) (hp : o.part? = some part) (k : Kind) :
    (c.reset o).parts k = (c.parts k).filter (· ≠ part) := by
  obtain ⟨_, _, exposeFetcher, exposeQueryKeys, exposeDocument, addInfiniteQuery, _, _, _⟩ := c
  cases o <;> cases hp <;> cases k <;> cases exposeFetcher <;> cases exposeQueryKeys <;> cases exposeDocument <;>
    cases addInfiniteQuery <;> rfl

theorem part_mem_parts (hs : Sets c o) (hp : o.part? = some part) : part ∈ c.parts .query := by
  cases o <;> cases hp <;> simp_all [Sets, parts]

end Config

namespace HooksFile

-- What is written of a file: the lines of the imports, and the text behind them.
def output (f : HooksFile) : List String × String :=
  (f.prepend, f.content)

end HooksFile

-- No file shows which of the two configurations it was generated with.
def Config.Agrees (c c' : Config) : Prop :=
  ∀ documents ops, (generate c documents ops).map HooksFile.output = (generate c' documents ops).map HooksFile.output

namespace Pass

variable {c c' : Config} {s : Strategy}

theorem run_congr (hf : ∀ op, c.fragment s op = c'.fragment s op) (hs : ∀ op, c.steps s op = c'.steps s op)
    (ops : List Operation) : run c s ops = run c' s ops := by
  have hv : visit c s = visit c' s := by
    funext p op
    rw [visit, visit, hf, hs]
  rw [run, run, hv]

end Pass

namespace Config

variable (c : Config)

theorem fragment_reset_errorType (n : Native) (op : Operation) :
    (c.reset .errorType).fragment (.native n) op = c.fragment (.native n) op := by
  have h (e e' : String) : (Strategy.native n).statement? e op = (Strategy.native n).statement? e' op := by
    funext part
    cases part <;> rfl
  rw [fragment, fragment, statements, statements, h _ c.errorType]
  rfl

theorem fragment_reset_exposeQueryKeys (n : Native) (op : Operation) :
    (c.reset .exposeQueryKeys).fragment (.native n) op = c.fragment (.native n) op := by
  have h : (fun part => if part ≠ .getKey then (Strategy.native n).statement? c.errorType op part else none) =
      (Strategy.native n).statement? c.errorType op := by
    funext part
    cases part <;> rfl
  rw [fragment, fragment, statements, statements, c.errorType_reset (by decide), c.parts_reset rfl,
    List.filterMap_filter]
  simp only [decide_eq_true_eq, h]

theorem steps_reset_exposeQueryKeys (n : Native) (op : Operation) :
    (c.reset .exposeQueryKeys).steps (.native n) op = c.steps (.native n) op := by
  rw [steps, steps, c.parts_reset rfl]
  induction c.parts op.kind
  case nil                => rfl
  case cons part parts hi => cases part <;> simp_all [Strategy.steps]

-- Hooks from factories have no keys of their own, and their types are those of the factories.
theorem agrees_reset_of_native {n : Native} (hs : Strategy.ofFetcher c.fetcher = .ok (.native n))
    (ho : o = .errorType ∨ o = .exposeQueryKeys) : c.Agrees (c.reset o) := by
  intro documents ops
  have hs' : Strategy.ofFetcher (c.reset o).fetcher = .ok (.native n) := c.fetcher_reset o ▸ hs
  rw [generate_of_ofFetcher hs, generate_of_ofFetcher hs']
  rcases ho with rfl | rfl
  case inl =>
    rw [Pass.run_congr (c.fragment_reset_errorType n) fun _ => rfl]
    rfl
  case inr =>
    rw [Pass.run_congr (c.fragment_reset_exposeQueryKeys n) (c.steps_reset_exposeQueryKeys n)]
    rfl

end Config

namespace Text

-- What is left out of a text makes it shorter, unless it is empty.
theorem length_concat_filter_le {f : α → String} (p : α → Bool) (as : List α) :
    (concat ((as.filter p).map f)).length ≤ (concat (as.map f)).length := by
  induction as
  case nil          => exact Nat.le_refl _
  case cons a as hi =>
    rw [List.filter_cons, List.map_cons, concat, String.length_append]
    split
    case isTrue  =>
      rw [List.map_cons, concat, String.length_append]
      exact Nat.add_le_add_left hi _
    case isFalse => exact Nat.le_add_left_of_le hi

theorem length_concat_filter_lt {f : α → String} {p : α → Bool} {as : List α} (ha : a ∈ as) (hp : p a = false)
    (hf : 0 < (f a).length) : (concat ((as.filter p).map f)).length < (concat (as.map f)).length := by
  induction ha
  case head as        =>
    have h := length_concat_filter_le (f := f) p as
    rw [List.filter_cons_of_neg (by simp [hp]), List.map_cons, concat, String.length_append]
    omega
  case tail b as _ hi =>
    rw [List.filter_cons, List.map_cons, concat, String.length_append]
    split
    case isTrue  =>
      rw [List.map_cons, concat, String.length_append]
      exact Nat.add_lt_add_left hi _
    case isFalse => exact Nat.lt_add_left _ hi

theorem eq_of_join_append_singleton (h : join sep (ss ++ [t]) = join sep (ss ++ [t'])) : t = t' := by
  induction ss
  case nil          => exact h
  case cons s ss hi =>
    rw [List.cons_append, List.cons_append, join_cons (by simp), join_cons (by simp)] at h
    exact hi <| (String.append_right_inj _).mp h

end Text

namespace Strategy

-- What a part adds to a fragment.
def textOf (s : Strategy) (errorType : String) (op : Operation) (part : Part) : String :=
  ((s.statement? errorType op part).map (·.print)).getD ""

theorem length_textOf_pos {s : Strategy} (h : (s.statement? errorType op part).isSome) :
    0 < (s.textOf errorType op part).length := by
  have ⟨st, hs⟩ := Option.isSome_iff_exists.mp h
  have ⟨body, hb⟩ := terminated_statement hs
  have hl : 0 < ";\n".length := by decide
  simp [textOf, hs, hb, hl]

end Strategy

namespace Config

variable {c : Config} {s : Strategy}

theorem fragment_eq (c : Config) (s : Strategy) (op : Operation) :
    c.fragment s op = concat ((c.parts op.kind).map (s.textOf c.errorType op)) := by
  rw [fragment, statements]
  induction c.parts op.kind
  case nil                => rfl
  case cons part parts hi =>
    cases h : s.statement? c.errorType op part <;> simp [h, hi, concat, Strategy.textOf]

-- A part that is left out is missing from the fragment.
theorem fragment_reset_ne (hc : c.Sets o) (hp : o.part? = some part) (hk : op.kind = .query)
    (hs : (s.statement? c.errorType op part).isSome) : (c.reset o).fragment s op ≠ c.fragment s op := by
  intro h
  have ho : o ≠ .errorType := by
    rintro rfl
    contradiction
  have hl : ((c.reset o).fragment s op).length < (c.fragment s op).length := by
    rw [fragment_eq, fragment_eq, c.errorType_reset ho, c.parts_reset hp, hk]
    exact Text.length_concat_filter_lt (part_mem_parts hc hp) (by simp) (Strategy.length_textOf_pos hs)
  rw [h] at hl
  exact Nat.lt_irrefl _ hl

end Config

-- The type stands in one place of the hook.
theorem Mapped.exists_print_mutationHook (m : Mapped) (op : Operation) :
    ∃ before after, ∀ errorType, (m.mutationHook errorType op).print = before ++ errorType ++ after := by
  have ht (errorType : String) : TypeParam.printAll (mutationTypeParams errorType) =
      "<TError = " ++ errorType ++ ", TContext = unknown>" := by
    simp [← String.toList_inj, TypeParam.printAll, mutationTypeParams, TypeParam.print, Ty.print, Text.join_cons_cons]
  let params := Param.printAll [HookMethod.mutation.optionsParameter op.mutationTypeArgs]
  let call := HookMethod.mutation.call op.mutationTypeArgs [
    ("mutationKey", op.mutationKey), ("mutationFn", m.mutationFn op)]
  refine ⟨"export const " ++ op.hookName ++ " = " ++ "<TError = ",
    ", TContext = unknown>" ++ params ++ " => " ++ call.print ++ ";\n", fun errorType => ?_⟩
  have hb : (m.mutationHook errorType op).print =
      "export const " ++ op.hookName ++ "" ++ " = " ++
        ("" ++ TypeParam.printAll (mutationTypeParams errorType) ++ params ++ "" ++ " => " ++ call.print) ++ ";\n" :=
    Stmt.print_exported_constant ..
  rw [hb, ht]
  simp only [String.append_empty, String.empty_append, String.append_assoc]

namespace Config

-- What comes behind the hook of a mutation does not name the type.
theorem exists_fragment_mutation (c : Config) (m : Mapped) (inline : Option Request) (hk : op.kind = .mutation) :
    ∃ rest, ∀ errorType, { c with errorType }.fragment (.mapped m inline) op =
      (m.mutationHook errorType op).print ++ rest := by
  let others : List Part :=
    (if c.exposeDocument then [.document] else []) ++ (if c.exposeFetcher then [.fetcher] else [])
  have ho : ∀ part ∈ others, part = .document ∨ part = .fetcher := by
    intro part hp
    cases hd : c.exposeDocument <;> cases hf : c.exposeFetcher <;> simp_all [others]
  let statement? (errorType : String) := (Strategy.mapped m inline).statement? errorType op
  have hs (errorType : String) :
      others.filterMap (statement? errorType) = others.filterMap (statement? c.errorType) := by
    refine List.filterMap_congr fun part hp => ?_
    rcases ho part hp with rfl | rfl <;> rfl
  refine ⟨concat ((others.filterMap (statement? c.errorType)).map (·.print)), fun errorType => ?_⟩
  rw [fragment, statements, hk, ← hs errorType]
  rfl

theorem fragment_reset_errorType_ne {c : Config} {m : Mapped} {inline : Option Request} (hc : c.Sets .errorType)
    (hk : op.kind = .mutation) :
    (c.reset .errorType).fragment (.mapped m inline) op ≠ c.fragment (.mapped m inline) op := by
  obtain ⟨before, after, hp⟩ := m.exists_print_mutationHook op
  obtain ⟨rest, hf⟩ := c.exists_fragment_mutation m inline hk
  intro h
  have h : before ++ ({} : Settings).errorType ++ after ++ rest = before ++ c.errorType ++ after ++ rest := by
    rw [← hp, ← hp, ← hf, ← hf]
    exact h
  rw [String.append_left_inj, String.append_left_inj, String.append_right_inj] at h
  exact hc h.symm

end Config

namespace HooksFile

theorem hooks_run_singleton (c : Config) (s : Strategy) (documents : String) (op : Operation) :
    (ofPass c s documents (.run c s [op])).hooks = c.fragment s op := by
  have h : (ofPass c s documents (.run c s [op])).hooks = join "\n" (Pass.run c s [op]).fragments := rfl
  rw [h, Pass.fragments_run]
  rfl

-- The hooks are the last section.
theorem hooks_eq_of_content {f f' : HooksFile} (hd : f.documents = f'.documents) (hi : f.inline = f'.inline)
    (hk : f.keyEnums = f'.keyEnums) (hn : f.hooks ≠ "") (hn' : f'.hooks ≠ "") (h : f.content = f'.content) :
    f.hooks = f'.hooks := by
  have hs {f : HooksFile} (hn : f.hooks ≠ "") : f.sections =
      (if f.documents.isEmpty then [] else [f.documents ++ "\n"]) ++ f.inline.toList ++ f.keyEnums.map (·.print) ++
        [f.hooks] := by
    simp [sections, hn]
  rw [content, content, hs hn, hs hn', hd, hi, hk] at h
  exact Text.eq_of_join_append_singleton h

end HooksFile

namespace Config

variable {c c' : Config} {s : Strategy}

theorem fragment_ne_empty (c : Config) (s : Strategy) (op : Operation) : c.fragment s op ≠ "" := by
  obtain ⟨body, hb⟩ := c.terminated_fragment s op
  rw [hb]
  simp

theorem Agrees.fragment_eq (h : c.Agrees c') (hs : Strategy.ofFetcher c.fetcher = .ok s)
    (hs' : Strategy.ofFetcher c'.fetcher = .ok s) (op : Operation) : c.fragment s op = c'.fragment s op := by
  have h := h "" [op]
  rw [generate_of_ofFetcher hs, generate_of_ofFetcher hs'] at h
  have h := (Prod.mk.inj <| Except.ok.inj h).right
  have hu : (Pass.run c s [op]).usage.fetcherInUse = (Pass.run c' s [op]).usage.fetcherInUse := by
    rw [Pass.usage_run, Pass.usage_run]
    rfl
  have hq : (Pass.run c s [op]).queries = (Pass.run c' s [op]).queries := by rw [Pass.queries_run, Pass.queries_run]
  have hm : (Pass.run c s [op]).mutations = (Pass.run c' s [op]).mutations := by
    rw [Pass.mutations_run, Pass.mutations_run]
  rw [← HooksFile.hooks_run_singleton c s "", ← HooksFile.hooks_run_singleton c' s ""]
  refine HooksFile.hooks_eq_of_content rfl ?_ ?_ ?_ ?_ h
  · simp only [HooksFile.ofPass, hu]
  · simp only [HooksFile.ofPass, HooksFile.keyEnumsOf, hq, hm]
  · rw [HooksFile.hooks_run_singleton]
    exact c.fragment_ne_empty s op
  · rw [HooksFile.hooks_run_singleton]
    exact c'.fragment_ne_empty s op

end Config

namespace HooksFile

theorem code_run_subscription (c : Config) (s : Strategy) (hk : op.kind = .subscription) :
    (Pass.run c s [op]).code = op.subscriptionHook.print := by
  rw [Pass.code, Pass.fragments_run, List.map_singleton, Text.join_singleton, Config.fragment, Config.statements, hk]
  exact String.append_empty

theorem usage_run_subscription (c : Config) (s : Strategy) (hk : op.kind = .subscription) :
    (Pass.run c s [op]).usage =
      { subscription := { values := ["gql", "useSubscription"], types := ["SubscriptionHookOptions"] } } := by
  simp [Pass.usage_run, Config.usage, Operation.anyOf, Config.listIf, hk]

-- A subscription needs the type of its options beside the hook and its helper.
theorem length_prepend_subscription (c : Config) (s : Strategy) (hk : op.kind = .subscription) :
    (ofPass c s "" (.run c s [op])).prepend.length = if c.useTypeImports then 2 else 1 := by
  have hi : ∀ n ∈ HookMethod.subscription.names, isIdentifier n := by decide
  have hr : ∀ n ∈ HookMethod.subscription.names, references op.subscriptionHook.print n := fun n hn =>
    (Operation.mentions_subscriptionHook_of_mem_names n hn).references <| hi n hn
  have ⟨ho, hh, hg⟩ := HookMethod.forall_mem_names.mp hr
  have hh : references op.subscriptionHook.print "useSubscription" := hh
  have ho : references op.subscriptionHook.print "SubscriptionHookOptions" := ho
  have hg : references op.subscriptionHook.print "gql" := hg _ rfl
  rw [prepend, imports_ofPass, usage_run_subscription c s hk, code_run_subscription c s hk]
  cases ht : c.useTypeImports <;>
    simp [runtimeImports, fetcherImports, importsOfRuntime, importOf, hh, ho, hg, ht]

end HooksFile

namespace Config

variable {c : Config} {s : Strategy}

theorem not_agrees_reset_useTypeImports (hs : Strategy.ofFetcher c.fetcher = .ok s) (hc : c.Sets .useTypeImports) :
    ¬c.Agrees (c.reset .useTypeImports) := by
  have hs' : Strategy.ofFetcher (c.reset .useTypeImports).fetcher = .ok s := hs
  intro h
  obtain ⟨op, hk⟩ : ∃ op : Operation, op.kind = .subscription := ⟨.conventional .subscription "event", rfl⟩
  have h := h "" [op]
  rw [generate_of_ofFetcher hs, generate_of_ofFetcher hs'] at h
  have h := congrArg List.length (Prod.mk.inj <| Except.ok.inj h).left
  have ht : c.useTypeImports = true := by simpa [Sets] using hc
  have hl := HooksFile.length_prepend_subscription c s hk
  have hl' := HooksFile.length_prepend_subscription (c.reset .useTypeImports) s hk
  have hf : (c.reset .useTypeImports).useTypeImports = false := rfl
  rw [hl, hl', ht, hf] at h
  exact absurd h (by decide)

-- A part that a strategy has a statement for is missed from the fragment of a query.
theorem not_agrees_reset_of_part (hs : Strategy.ofFetcher c.fetcher = .ok s) (hc : c.Sets o) (hp : o.part? = some part)
    (hst : (s.statement? c.errorType (.conventional .query "user") part).isSome) : ¬c.Agrees (c.reset o) := by
  have hs' : Strategy.ofFetcher (c.reset o).fetcher = .ok s := c.fetcher_reset o ▸ hs
  have hk : (Operation.conventional .query "user").kind = .query := rfl
  exact fun h => fragment_reset_ne hc hp hk hst (h.fragment_eq hs hs' _).symm

theorem not_agrees_reset_errorType {m : Mapped} {inline : Option Request}
    (hs : Strategy.ofFetcher c.fetcher = .ok (.mapped m inline)) (hc : c.Sets .errorType) :
    ¬c.Agrees (c.reset .errorType) := by
  have hk : (Operation.conventional .mutation "save").kind = .mutation := rfl
  exact fun h => fragment_reset_errorType_ne hc hk (h.fragment_eq hs hs _).symm

end Config

namespace Config

variable {c : Config} {o : Choice}

theorem name_mem_ignoredOptions (hc : c.Sets o) :
    o.name ∈ c.ignoredOptions ↔ o = .exposeQueryKeys ∧ c.fetcher.isNative := by
  have hk : o = .exposeQueryKeys → c.exposeQueryKeys = true := by
    rintro rfl
    simpa [Sets] using hc
  rw [ignoredOptions]
  cases c.fetcher.isNative
  case false => simp
  case true  => cases o <;> simp_all [Choice.name]

end Config

-- The options that are reported as unused are those that make no difference, but for the type of errors, which makes
-- none to hooks from factories either.
theorem options_without_influence {c : Config} (hs : Strategy.ofFetcher c.fetcher = .ok s) {o : Choice}
    (hc : c.Sets o) :
    c.Agrees (c.reset o) ↔ o.name ∈ c.ignoredOptions ∨ o = .errorType ∧ c.fetcher.isNative := by
  rw [Config.name_mem_ignoredOptions hc]
  by_cases hn : c.fetcher.isNative
  case pos =>
    obtain ⟨n, rfl⟩ := Strategy.native_of_ofFetcher hn hs
    constructor
    case mp  =>
      intro h
      cases o
      case errorType        => exact .inr ⟨rfl, hn⟩
      case exposeQueryKeys  => exact .inl ⟨rfl, hn⟩
      case exposeDocument   => exact absurd h <| Config.not_agrees_reset_of_part hs hc rfl rfl
      case addInfiniteQuery => exact absurd h <| Config.not_agrees_reset_of_part hs hc rfl rfl
      case useTypeImports   => exact absurd h <| Config.not_agrees_reset_useTypeImports hs hc
    case mpr =>
      rintro (⟨ho, _⟩ | ⟨ho, _⟩)
      · exact Config.agrees_reset_of_native c hs <| .inr ho
      · exact Config.agrees_reset_of_native c hs <| .inl ho
  case neg =>
    obtain ⟨m, inline, rfl⟩ := Strategy.mapped_of_ofFetcher hn hs
    refine iff_of_false (fun h => ?_) fun h => hn <| h.elim And.right And.right
    cases o
    case errorType        => exact Config.not_agrees_reset_errorType hs hc h
    case exposeQueryKeys  => exact Config.not_agrees_reset_of_part hs hc rfl rfl h
    case exposeDocument   => exact Config.not_agrees_reset_of_part hs hc rfl rfl h
    case addInfiniteQuery => exact Config.not_agrees_reset_of_part hs hc rfl rfl h
    case useTypeImports   => exact Config.not_agrees_reset_useTypeImports hs hc h

theorem options_without_influence_keys :
    let c := { Config.standard (.native {}) with exposeQueryKeys := true }
    ∃ s, Strategy.ofFetcher c.fetcher = .ok s ∧ c.Sets .exposeQueryKeys ∧
      (c.Agrees (c.reset .exposeQueryKeys) ↔
        Choice.exposeQueryKeys.name ∈ c.ignoredOptions ∨
          Choice.exposeQueryKeys = .errorType ∧ c.fetcher.isNative) := by
  intro c
  have hc : c.Sets .exposeQueryKeys := by decide
  exact ⟨_, rfl, hc, options_without_influence rfl hc⟩

-- The type of errors is set to no effect, and not reported.
theorem errorType_unreported :
    let c := { Config.standard (.native {}) with errorType := "Error" }
    (∃ s, Strategy.ofFetcher c.fetcher = .ok s) ∧ c.Sets .errorType ∧ c.Agrees (c.reset .errorType) ∧
      Choice.errorType.name ∉ c.ignoredOptions := by
  intro c
  let n : Native := {
    query    := .internal "createQueryHook"
    combined := some (.internal "createQueryAndQueryClientHook")
    infinite := .internal "createInfiniteQueryHook"
    mutation := .internal "createMutationHook" }
  have hs : Strategy.ofFetcher c.fetcher = .ok (.native n) := by rfl
  exact ⟨⟨_, hs⟩, by decide, Config.agrees_reset_of_native c hs <| .inl rfl, by decide⟩

end QueryHooks
