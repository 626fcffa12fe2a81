import QueryHooks.Proofs.TypeScript.Scope
import QueryHooks.Strategy.Basic

namespace QueryHooks

open TypeScript

namespace Mapper

-- The name that a path is looked up by.
def headOf (path : String) : String :=
  .ofList (segments path.toList).1

def head (m : Mapper) : String :=
  headOf m.callee

end Mapper

namespace Mapped

-- The local names where a part calls the function.
def localsAt (isReactHook : Bool) : Part → List String
  | .query         => ["args", "options"]
  | .infiniteQuery => ["pageParamKey", "args", "options", if isReactHook then "query" else "metaData"]
  | .mutation      => "options" :: if isReactHook then [] else ["variables"]
  | .fetcher       => ["args", "headers"]
  | _              => []

variable {m : Mapped} {op : Operation}

theorem scopedCalls_keyOf : (Operation.keyOf base required).scopedCalls scope = [] := by
  cases required <;> simp [Operation.keyOf, Operation.argsVariables, Expr.text]

theorem scopedCalls_queryHook :
    (m.queryHook errorType op).scopedCalls [] =
      [("useQuery", ["args", "options"]), (m.mapper.callee, ["args", "options"])] := by
  cases h : m.isReactHook <;>
    simp [queryHook, exportHook, Stmt.exportConstant, HookMethod.call, queryFn, h, fetch, Operation.queryKey,
      Expr.apply, scopedCalls_keyOf, Operation.documentRef, HookMethod.query, Operation.argsParameter,
      Operation.argsParam, HookMethod.optionsParameter]

theorem scopedCalls_infiniteQueryHook :
    (m.infiniteQueryHook errorType op).scopedCalls [] =
      let locals := ["pageParamKey", "args", "options"]
      if m.isReactHook then [
        (m.mapper.callee, locals ++ ["query"]), ("useInfiniteQuery", locals ++ ["query"]),
        ("query", locals ++ ["query", "metaData"])]
      else [("useInfiniteQuery", locals), (m.mapper.callee, locals ++ ["metaData"])] := by
  cases h : m.isReactHook <;>
    simp [infiniteQueryHook, infiniteQueryBody, infiniteQueryCall, pageFn, pagedArgs, exportHook, Stmt.exportConstant,
      Stmt.define, Binding.names, HookMethod.call, h, fetch, Operation.infiniteQueryKey, Expr.apply, Expr.lambda,
      Operation.argsVariables, scopedCalls_keyOf, Operation.documentRef, HookMethod.infiniteQuery,
      Operation.argsParameter, Operation.argsParam, HookMethod.optionsParameter, metaParam] <;>
    split <;> simp

theorem scopedCalls_mutationHook :
    (m.mutationHook errorType op).scopedCalls [] =
      if m.isReactHook then [("useMutation", ["options"]), (m.mapper.callee, ["options"])]
      else [("useMutation", ["options"]), (m.mapper.callee, ["options", "variables"])] := by
  cases h : m.isReactHook <;>
    simp [mutationHook, mutationFn, exportHook, Stmt.exportConstant, HookMethod.call, h, fetch, Operation.mutationKey,
      Expr.text, Expr.apply, Expr.lambda, Operation.documentRef, HookMethod.mutation, HookMethod.optionsParameter]

theorem scopedCalls_fetcherAccessor? (h : m.fetcherAccessor? op = some st) :
    st.scopedCalls [] = [(m.mapper.callee, ["args", "headers"])] := by
  rw [fetcherAccessor?] at h
  split at h <;> cases h
  case isFalse =>
    simp [Operation.accessor, fetch, Operation.documentRef, Expr.lambda, Operation.argsParameter, Operation.argsParam]

-- The call is that of the function, or where it stands captures its name just if the locals do.
def Follows (m : Mapped) (locals : List String) (call : String × List String) : Prop :=
  call = (m.mapper.callee, locals) ∨ (Mapper.headOf call.1 ∈ call.2 ↔ Mapper.headOf call.1 ∈ locals)

-- The function is called once, and other calls in the hook, which may have its name, cannot be mistaken for that.
theorem scopedCalls_statement? {inline : Option Request} :
    ∀ {part : Part}, (Strategy.mapped m inline).statement? errorType op part = some st →
      part ∈ [.query, .infiniteQuery, .mutation, .fetcher] →
      (m.mapper.callee, localsAt m.isReactHook part) ∈ st.scopedCalls [] ∧
        ∀ call ∈ st.scopedCalls [], m.Follows (localsAt m.isReactHook part) call
  | .query, rfl, _         => by
    rw [scopedCalls_queryHook]
    exact ⟨.tail _ (.head _), List.forall_mem_cons.mpr ⟨.inr .rfl, List.forall_mem_singleton.mpr (.inl rfl)⟩⟩
  | .infiniteQuery, rfl, _ => by
    rw [scopedCalls_infiniteQueryHook]
    cases m.isReactHook
    case false =>
      refine ⟨.tail _ (.head _), List.forall_mem_cons.mpr ⟨.inr ?_, List.forall_mem_singleton.mpr (.inl rfl)⟩⟩
      decide +kernel
    case true  =>
      refine ⟨.head _, List.forall_mem_cons.mpr ⟨.inl rfl, List.forall_mem_cons.mpr ⟨.inr ?_, ?_⟩⟩⟩
      · decide +kernel
      · exact List.forall_mem_singleton.mpr <| .inr <| by decide +kernel
  | .mutation, rfl, _      => by
    rw [scopedCalls_mutationHook]
    cases m.isReactHook
    case false =>
      refine ⟨.tail _ (.head _), List.forall_mem_cons.mpr ⟨.inr ?_, List.forall_mem_singleton.mpr (.inl rfl)⟩⟩
      decide +kernel
    case true  =>
      exact ⟨.tail _ (.head _), List.forall_mem_cons.mpr ⟨.inr .rfl, List.forall_mem_singleton.mpr (.inl rfl)⟩⟩
  | .fetcher, hs, _        => by
    rw [scopedCalls_fetcherAccessor? hs]
    exact ⟨.head _, List.forall_mem_singleton.mpr (.inl rfl)⟩

end Mapped

-- A mapper whose path begins with the name of a parameter or constant around its call does not lead out of the hook.
-- All others do, as nothing else is declared there.
theorem mapper_captured_iff (hm : Mapper.read text = .ok m) (isReactHook : Bool) (errorType : String) (op : Operation) :
    ∃ s, Strategy.ofFetcher (.mapper text isReactHook) = .ok s ∧
    ∀ part ∈ [Part.query, .infiniteQuery, .mutation, .fetcher], ∀ st, s.statement? errorType op part = some st →
      (m.callee, Mapped.localsAt isReactHook part) ∈ st.scopedCalls [] ∧
      ∀ scope, (m.callee, scope) ∈ st.scopedCalls [] →
        (m.head ∈ scope ↔ m.head ∈ Mapped.localsAt isReactHook part) := by
  refine ⟨.mapped { mapper := m, isReactHook } none, by simp [Strategy.ofFetcher, hm, bind, Except.bind], ?_⟩
  intro part hp st hs
  have ⟨hc, hf⟩ := Mapped.scopedCalls_statement? hs hp
  refine ⟨hc, fun scope h => ?_⟩
  cases hf _ h
  case inl he => cases he; rfl
  case inr he => exact he

theorem mapper_captured_iff_external :
    let m := Mapper.default "./lib/fetcher" "variables"
    let op : Operation := .conventional .mutation "save"
    Mapper.read " ./lib/fetcher # default as variables" = .ok m ∧
    (∃ s, Strategy.ofFetcher (.mapper " ./lib/fetcher # default as variables" true) = .ok s ∧
    ∀ part ∈ [Part.query, .infiniteQuery, .mutation, .fetcher], ∀ st, s.statement? "unknown" op part = some st →
      (m.callee, Mapped.localsAt true part) ∈ st.scopedCalls [] ∧
      ∀ scope, (m.callee, scope) ∈ st.scopedCalls [] →
        (m.head ∈ scope ↔ m.head ∈ Mapped.localsAt true part)) ∧
    m.head ∉ Mapped.localsAt true .mutation ∧ m.head ∈ Mapped.localsAt false .mutation := by
  intro m op
  have hm : Mapper.read " ./lib/fetcher # default as variables" = .ok m := rfl
  exact ⟨hm, mapper_captured_iff hm true "unknown" op, by decide +kernel, by decide +kernel⟩

-- Each kind of hook has a name that captures a mapper: a path, or an export under a local name.
theorem mapper_captured :
    (∃ m s st scope, Mapper.read "args" = .ok m ∧ Strategy.ofFetcher (.mapper "args" false) = .ok s ∧
      s.statement? "unknown" (.conventional .query "user") .query = some st ∧
      (m.callee, scope) ∈ st.scopedCalls [] ∧ m.head ∈ scope) ∧
    (∃ m s st scope, Mapper.read "query.run" = .ok m ∧ Strategy.ofFetcher (.mapper "query.run" true) = .ok s ∧
      s.statement? "unknown" (.conventional .query "feed") .infiniteQuery = some st ∧
      (m.callee, scope) ∈ st.scopedCalls [] ∧ m.head ∈ scope) ∧
    (∃ m s st scope, Mapper.read "./lib#save as variables" = .ok m ∧
      Strategy.ofFetcher (.mapper "./lib#save as variables" false) = .ok s ∧
      s.statement? "unknown" (.conventional .mutation "save") .mutation = some st ∧
      (m.callee, scope) ∈ st.scopedCalls [] ∧ m.head ∈ scope) := by
  refine ⟨⟨.internal "args", _, _, ["args", "options"], rfl, rfl, rfl, ?_, ?_⟩,
    ⟨.internal "query.run", _, _, ["pageParamKey", "args", "options", "query"], rfl, rfl, rfl, ?_, ?_⟩,
    ⟨.named "./lib" { name := "save", renamed := some "variables" }, _, _, ["options", "variables"], rfl, rfl, rfl,
      ?_, ?_⟩⟩
  all_goals decide +kernel

end QueryHooks
