import QueryHooks.Proofs.Strategy.Scope
import QueryHooks.Proofs.TypeScript.Mention

namespace QueryHooks

open TypeScript

variable {op : Operation} {errorType : String}

theorem mentions_exportHook_of_param (hp : p ∈ params) (h : Mentions p.print ident) :
    Mentions (exportHook name typeParams params body).print ident :=
  Stmt.mentions_exported_constant <| Arrow.mentions_of_param hp h

theorem mentions_exportHook_of_body (h : Mentions (body.printIn .standard 0) ident) :
    Mentions (exportHook name typeParams params body).print ident :=
  Stmt.mentions_exported_constant <| Arrow.mentions_of_body h

theorem mentions_exportHook_of_begins_body (h : Begins (body.printIn .standard 0) ident) :
    Mentions (exportHook name typeParams params body).print ident :=
  Stmt.mentions_exported_constant <| Arrow.mentions_of_begins_body h

namespace HookMethod

variable {m : HookMethod}

theorem mentions_optionsParameter : Mentions (m.optionsParameter typeArgs).print m.options := by
  have h : Mentions ("Partial" ++ "<" ++ (Ty.generic m.options typeArgs).print) m.options :=
    Ty.begins_generic.mentions rfl
  exact h.append_right _ |>.append_left _ |>.append_left _

theorem begins_call : Begins ((m.call typeArgs entries).printIn layout level) m.hook :=
  Expr.begins_call

theorem mentions_call_of_entry (he : (key, value) ∈ entries)
    (h : Mentions ((Entry.keyed key value).printIn layout (level + 1)) ident) :
    Mentions ((m.call typeArgs entries).printIn layout level) ident := by
  refine Expr.mentions_call_of_arg (List.mem_singleton_self _) <| Expr.mentions_object_of_entry ?_ h
  exact List.mem_append_left _ <| List.mem_map_of_mem (f := fun e => Entry.keyed e.1 e.2) he

end HookMethod

namespace Operation

@[simp]
theorem callees_argsVariables : (argsVariables required).collect Expr.callee? = [] := by
  cases required <;> rfl

@[simp]
theorem callees_keyOf : (keyOf base required).collect Expr.callee? = [] := by
  cases required <;> rfl

end Operation

namespace Operation

theorem callees_subscriptionHook : op.subscriptionHook.callees = [HookMethod.subscription.hook, "gql"] :=
  rfl

theorem mentions_subscriptionHook_hook : Mentions op.subscriptionHook.print HookMethod.subscription.hook :=
  mentions_exportHook_of_begins_body Expr.begins_call

theorem mentions_subscriptionHook_options : Mentions op.subscriptionHook.print HookMethod.subscription.options := by
  refine mentions_exportHook_of_param (List.mem_singleton_self _) ?_
  exact Ty.begins_generic.mentions rfl |>.append_left _

theorem mentions_subscriptionHook_resultType : Mentions op.subscriptionHook.print op.resultType :=
  mentions_exportHook_of_body Expr.mentions_call_of_typeArg

theorem mentions_subscriptionHook_gql : Mentions op.subscriptionHook.print "gql" :=
  mentions_exportHook_of_body <| Expr.mentions_call_of_begins_arg Expr.begins_call

end Operation

namespace Mapped

variable {m : Mapped}

theorem begins_fetch : Begins ((m.fetch op args).printIn layout level) m.mapper.callee :=
  Expr.begins_call

theorem begins_queryFn : Begins ((m.queryFn op).printIn layout level) m.mapper.callee := by
  rw [queryFn]
  split
  · exact Expr.begins_call_of_callee <| Expr.begins_member_of_object begins_fetch
  · exact begins_fetch

theorem queryFn_ne_ident : m.queryFn op ≠ .ident name := by
  rw [queryFn]
  split <;> simp [Expr.apply, fetch]

theorem mentions_queryHook_hook : Mentions (m.queryHook errorType op).print HookMethod.query.hook :=
  mentions_exportHook_of_begins_body HookMethod.begins_call

theorem mentions_queryHook_options : Mentions (m.queryHook errorType op).print HookMethod.query.options :=
  mentions_exportHook_of_param (.tail _ <| .head _) HookMethod.mentions_optionsParameter

theorem mentions_queryHook_callee : Mentions (m.queryHook errorType op).print m.mapper.callee := by
  refine mentions_exportHook_of_body <| HookMethod.mentions_call_of_entry (.tail _ <| .head _) ?_
  exact Entry.mentions_keyed_of_begins (fun _ => queryFn_ne_ident) begins_queryFn

theorem callees_queryHook : (m.queryHook errorType op).callees = [HookMethod.query.hook, m.mapper.callee] := by
  rw [Stmt.callees_eq, scopedCalls_queryHook]
  rfl

theorem mentions_infiniteQueryHook_hook :
    Mentions (m.infiniteQueryHook errorType op).print HookMethod.infiniteQuery.hook := by
  rw [infiniteQueryHook, infiniteQueryBody]
  split
  · refine mentions_exportHook_of_body <| Body.mentions_block_of_stmt (.tail _ <| .head _) ?_
    exact Stmt.mentions_returns_of_begins HookMethod.begins_call
  · exact mentions_exportHook_of_begins_body HookMethod.begins_call

theorem mentions_infiniteQueryHook_options :
    Mentions (m.infiniteQueryHook errorType op).print HookMethod.infiniteQuery.options :=
  mentions_exportHook_of_param (.tail _ <| .tail _ <| .head _) HookMethod.mentions_optionsParameter

theorem mentions_infiniteQueryCall {of : Expr} (h : ∀ level, Begins (of.printIn layout level) ident) :
    Mentions ((infiniteQueryCall op (pageFn of)).printIn layout level) ident := by
  refine HookMethod.mentions_call_of_entry (.tail _ <| .head _) ?_
  refine Entry.mentions_keyed (by simp [pageFn, Expr.lambda]) ?_
  exact Arrow.mentions_of_begins_body <| h _

theorem mentions_infiniteQueryHook_callee : Mentions (m.infiniteQueryHook errorType op).print m.mapper.callee := by
  rw [infiniteQueryHook, infiniteQueryBody]
  split
  · refine mentions_exportHook_of_body <| Body.mentions_block_of_stmt (.head _) ?_
    exact Stmt.mentions_define_of_begins begins_fetch
  · refine mentions_exportHook_of_body <| mentions_infiniteQueryCall fun _ => ?_
    exact Expr.begins_call_of_callee begins_fetch

theorem mentions_infiniteQueryHook_query (h : m.isReactHook) :
    Mentions (m.infiniteQueryHook errorType op).print "query" := by
  rw [infiniteQueryHook, infiniteQueryBody]
  rw [if_pos h]
  refine mentions_exportHook_of_body <| Body.mentions_block_of_stmt (.tail _ <| .head _) ?_
  exact Stmt.mentions_returns <| mentions_infiniteQueryCall fun _ => Expr.begins_call

theorem callees_infiniteQueryHook :
    (m.infiniteQueryHook errorType op).callees =
      if m.isReactHook then [m.mapper.callee, HookMethod.infiniteQuery.hook, "query"]
      else [HookMethod.infiniteQuery.hook, m.mapper.callee] := by
  rw [Stmt.callees_eq, scopedCalls_infiniteQueryHook]
  cases m.isReactHook <;> rfl

theorem mentions_mutationHook_hook : Mentions (m.mutationHook errorType op).print HookMethod.mutation.hook :=
  mentions_exportHook_of_begins_body HookMethod.begins_call

theorem mentions_mutationHook_options : Mentions (m.mutationHook errorType op).print HookMethod.mutation.options :=
  mentions_exportHook_of_param (.head _) HookMethod.mentions_optionsParameter

theorem mentions_mutationHook_callee : Mentions (m.mutationHook errorType op).print m.mapper.callee := by
  refine mentions_exportHook_of_body <| HookMethod.mentions_call_of_entry (.tail _ <| .head _) ?_
  rw [mutationFn]
  split
  · exact Entry.mentions_keyed_of_begins (by simp [fetch]) begins_fetch
  · refine Entry.mentions_keyed (by simp [Expr.lambda]) <| Arrow.mentions_of_begins_body ?_
    exact Expr.begins_call_of_callee begins_fetch

theorem callees_mutationHook :
    (m.mutationHook errorType op).callees = [HookMethod.mutation.hook, m.mapper.callee] := by
  rw [Stmt.callees_eq, scopedCalls_mutationHook]
  cases m.isReactHook <;> rfl

theorem callees_keyAccessor : (keyAccessor op).callees = [] := by
  simp [Stmt.callees, keyAccessor, Operation.accessor, Operation.queryKey, Expr.lambda]

theorem mentions_fetcherAccessor?_callee (h : m.fetcherAccessor? op = some st) : Mentions st.print m.mapper.callee := by
  rw [fetcherAccessor?] at h
  split at h
  · contradiction
  · cases h
    refine Stmt.mentions_expr <| Mentions.append_left _ ?_
    exact Arrow.mentions_of_begins_body begins_fetch

theorem callees_fetcherAccessor? (h : m.fetcherAccessor? op = some st) : st.callees = [m.mapper.callee] := by
  rw [Stmt.callees_eq, scopedCalls_fetcherAccessor? h]
  rfl

end Mapped

namespace Native

variable {n : Native}

-- The factory that queries are made by.
def queryFactory (n : Native) : Mapper :=
  n.combined.getD n.query

theorem queryFactory_mem_mappers (n : Native) : n.queryFactory ∈ n.mappers := by
  cases hc : n.combined <;> simp [queryFactory, mappers, hc]

theorem infinite_mem_mappers (n : Native) : n.infinite ∈ n.mappers := by
  simp [mappers]

theorem mutation_mem_mappers (n : Native) : n.mutation ∈ n.mappers := by
  simp [mappers]

theorem begins_make : Begins ((make factory op keyEnum).printIn layout level) factory.callee :=
  Expr.begins_call

theorem mentions_make_resultType : Mentions ((make factory op keyEnum).printIn layout level) op.resultType :=
  Expr.mentions_call_of_typeArg

theorem mentions_queryHook_resultType : Mentions (n.queryHook op).print op.resultType := by
  rw [queryHook]
  split <;> exact Stmt.mentions_exported_constant mentions_make_resultType

theorem mentions_mutationHook_resultType : Mentions (n.mutationHook op).print op.resultType :=
  Stmt.mentions_exported_constant mentions_make_resultType

theorem mentions_queryHook_callee : Mentions (n.queryHook op).print n.queryFactory.callee := by
  rw [queryHook, queryFactory]
  split <;> simp only [*] <;> exact Stmt.mentions_exported_constant_of_begins begins_make

theorem callees_queryHook : (n.queryHook op).callees = [n.queryFactory.callee] := by
  rw [queryHook, queryFactory]
  split <;> simp [*, Stmt.callees, make, Stmt.exportConstant, Operation.documentRef]

theorem mentions_infiniteQueryHook_callee : Mentions (n.infiniteQueryHook op).print n.infinite.callee :=
  Stmt.mentions_exported_constant_of_begins begins_make

theorem callees_infiniteQueryHook : (n.infiniteQueryHook op).callees = [n.infinite.callee] :=
  rfl

theorem mentions_mutationHook_callee : Mentions (n.mutationHook op).print n.mutation.callee :=
  Stmt.mentions_exported_constant_of_begins begins_make

theorem callees_mutationHook : (n.mutationHook op).callees = [n.mutation.callee] :=
  rfl

theorem membersOf_make :
    (make factory op keyEnum).collect (Expr.memberOf? enum) = if keyEnum = enum then [op.pascalName] else [] := by
  by_cases he : keyEnum = enum <;> simp [make, Operation.documentRef, he]

theorem membersOf_queryHook :
    (n.queryHook op).membersOf enum = if queryKeyEnum = enum then [op.pascalName] else [] := by
  rw [queryHook]
  split <;> exact membersOf_make

end Native

-- The enum that a part takes its key from.
def Part.keyEnum? : Part → Option String
  | .query         => some queryKeyEnum
  | .infiniteQuery => some queryKeyEnum
  | .mutation      => some mutationKeyEnum
  | _              => none

theorem Operation.hookName_ne {name : String} (h : name.toList.head? ≠ some 'u') : op.hookName ≠ name := by
  rintro rfl
  simp [hookName] at h

-- The only members of the enums that hooks from factories read are the keys of their operations.
theorem Native.membersOf_statement {n : Native} (he : enum ∈ [queryKeyEnum, mutationKeyEnum])
    (hs : (Strategy.native n).statement? errorType op part = some st) :
    st.membersOf enum = if part.keyEnum? = some enum then [op.pascalName] else [] := by
  have hu : op.hookName ≠ enum := by
    refine Operation.hookName_ne ?_
    simp only [List.mem_cons, List.not_mem_nil, or_false] at he
    rcases he with rfl | rfl <;> decide
  cases part <;> cases hs <;> simp only [Part.keyEnum?, Option.some.injEq, reduceCtorEq, if_false]
  case query         => exact membersOf_queryHook
  case infiniteQuery => exact membersOf_make
  case mutation      => exact membersOf_make
  case document      => simp [Stmt.membersOf, Operation.accessor, Operation.documentRef, hu]
  case subscription  =>
    simp [Stmt.membersOf, Operation.subscriptionHook, exportHook, Stmt.exportConstant, Operation.documentRef,
      Expr.apply]

namespace Strategy

theorem mentions_of_mem_callees :
    ∀ {s : Strategy} {part : Part}, s.statement? errorType op part = some st → ∀ f ∈ st.callees, Mentions st.print f
  | mapped .., .query, rfl         => by
    simp [Mapped.callees_queryHook, Mapped.mentions_queryHook_hook, Mapped.mentions_queryHook_callee]
  | mapped m _, .infiniteQuery, rfl => by
    rw [Mapped.callees_infiniteQueryHook]
    split <;>
      simp [*, Mapped.mentions_infiniteQueryHook_hook, Mapped.mentions_infiniteQueryHook_callee,
        Mapped.mentions_infiniteQueryHook_query]
  | mapped .., .mutation, rfl      => by
    simp [Mapped.callees_mutationHook, Mapped.mentions_mutationHook_hook, Mapped.mentions_mutationHook_callee]
  | mapped .., .getKey, rfl        => by simp [Mapped.callees_keyAccessor]
  | mapped .., .fetcher, h         => by
    simp [Mapped.callees_fetcherAccessor? h, Mapped.mentions_fetcherAccessor?_callee h]
  | native _, .query, rfl          => by simp [Native.callees_queryHook, Native.mentions_queryHook_callee]
  | native _, .infiniteQuery, rfl  => by
    simp [Native.callees_infiniteQueryHook, Native.mentions_infiniteQueryHook_callee]
  | native _, .mutation, rfl       => by simp [Native.callees_mutationHook, Native.mentions_mutationHook_callee]
  | _, .document, rfl              => nofun
  | _, .subscription, rfl          => by
    simp [Operation.callees_subscriptionHook, Operation.mentions_subscriptionHook_hook,
      Operation.mentions_subscriptionHook_gql]

-- Queries get a second hook, for the client, from the combined factory.
def isCombined : Strategy → Bool
  | mapped .. => false
  | native n  => n.combined.isSome

-- The names that a part exports.
def exports (s : Strategy) (op : Operation) : Part → List String
  | .query         => op.hookName :: if s.isCombined then [op.clientHookName] else []
  | .infiniteQuery => [op.infiniteHookName]
  | .mutation      => [op.hookName]
  | .subscription  => [op.hookName]
  | _              => []

theorem exports_fetcherAccessor? {m : Mapped} (h : m.fetcherAccessor? op = some st) : st.exports = [] := by
  rw [Mapped.fetcherAccessor?] at h
  split at h <;> cases h
  rfl

theorem exports_statement :
    ∀ {s : Strategy} {part : Part}, s.statement? errorType op part = some st → st.exports = s.exports op part
  | mapped .., .query, rfl         => rfl
  | mapped .., .infiniteQuery, rfl => rfl
  | mapped .., .mutation, rfl      => rfl
  | mapped .., .getKey, rfl        => rfl
  | mapped .., .fetcher, h         => exports_fetcherAccessor? h
  | native n, .query, rfl          => by
    rw [Native.queryHook]
    split <;> simp [*, exports, isCombined, Stmt.exports, Stmt.exportConstant, Binding.names]
  | native _, .infiniteQuery, rfl  => rfl
  | native _, .mutation, rfl       => rfl
  | _, .document, rfl              => rfl
  | _, .subscription, rfl          => rfl

-- Whatever is exported is bound without a type.
theorem mentions_of_mem_exports :
    ∀ {s : Strategy} {part : Part},
      s.statement? errorType op part = some st → ∀ name ∈ st.exports, Mentions st.print name
  | mapped .., .query, rfl         => fun _ hn => Stmt.mentions_exported_constant_of_name hn
  | mapped .., .infiniteQuery, rfl => fun _ hn => Stmt.mentions_exported_constant_of_name hn
  | mapped .., .mutation, rfl      => fun _ hn => Stmt.mentions_exported_constant_of_name hn
  | mapped .., .getKey, rfl        => nofun
  | mapped .., .fetcher, h         => by simp [exports_fetcherAccessor? h]
  | native n, .query, rfl          => by
    rw [Native.queryHook]
    split <;> exact fun _ hn => Stmt.mentions_exported_constant_of_name hn
  | native _, .infiniteQuery, rfl  => fun _ hn => Stmt.mentions_exported_constant_of_name hn
  | native _, .mutation, rfl       => fun _ hn => Stmt.mentions_exported_constant_of_name hn
  | _, .document, rfl              => nofun
  | _, .subscription, rfl          => fun _ hn => Stmt.mentions_exported_constant_of_name hn

end Strategy
end QueryHooks
