import QueryHooks.Proofs.Strategy.Imports
import QueryHooks.Proofs.Strategy.Statement
import QueryHooks.Proofs.Text.Capital
import QueryHooks.Proofs.TypeScript.Verbatim

namespace QueryHooks

open TypeScript

structure Operation.ClosedNames (op : Operation) : Prop where
  name          : Closed op.name
  resultType    : Closed op.resultType
  variablesType : Closed op.variablesType
  document      : Closed op.document

theorem Operation.closedNames_conventional {name : String} (kind : Kind) (h : Closed name) :
    (conventional kind name).ClosedNames where
  name          := h
  resultType    := Text.closed_capitalize h
  variablesType := (Text.closed_capitalize h).append rfl
  document      := (Text.closed_capitalize h).append rfl

variable {op : Operation}

namespace Operation.ClosedNames

variable (h : op.ClosedNames)

include h

theorem pascalName : Closed op.pascalName :=
  Text.closed_capitalize h.name

theorem hookName : Closed op.hookName :=
  Closed.append (s := "use") rfl h.pascalName

theorem infiniteHookName : Closed op.infiniteHookName :=
  Closed.append (s := "useInfinite") rfl h.pascalName

theorem clientHookName : Closed op.clientHookName :=
  h.hookName.append rfl

theorem documentRef : AllClosed op.documentRef.verbatim :=
  AllClosed.cons_iff.mpr ⟨h.document, .nil⟩

theorem fetcherArgs : AllClosed op.fetcherArgs.verbatim := by
  have ha : Closed fetcherArgsType := by decide
  simp [Operation.fetcherArgs, ha, h.variablesType]

theorem argsParameter : AllClosed op.argsParameter.verbatim := by
  have ha : Closed Operation.argsParam := by decide
  exact AllClosed.cons_iff.mpr ⟨ha, h.fetcherArgs⟩

theorem queryTypeParams (he : Closed errorType) :
    AllClosed ((op.queryTypeParams errorType).flatMap TypeParam.verbatim) := by
  have hd : Closed "TData" := by decide
  have ht : Closed "TError" := by decide
  simp [Operation.queryTypeParams, hd, ht, he, h.resultType]

theorem queryTypeArgs : AllClosed (Ty.verbatimAll op.queryTypeArgs) := by
  have hd : Closed "TData" := by decide
  have ht : Closed "TError" := by decide
  simp [Operation.queryTypeArgs, hd, ht, h.resultType]

theorem mutationTypeArgs : AllClosed (Ty.verbatimAll op.mutationTypeArgs) := by
  have hc : Closed "TContext" := by decide
  have ht : Closed "TError" := by decide
  simp only [Operation.mutationTypeArgs, Ty.verbatimAll, Ty.verbatim, AllClosed.append_iff, AllClosed.cons_iff]
  exact ⟨⟨h.resultType, .nil⟩, ⟨ht, .nil⟩, h.fetcherArgs, ⟨hc, .nil⟩, .nil⟩

theorem accessor {name : String} (hn : Closed name) (hv : AllClosed value.verbatim) :
    AllClosed (op.accessor name value).verbatim := by
  simp [Operation.accessor, h.hookName, hn, hv]

end Operation.ClosedNames

namespace HookMethod

variable {m : HookMethod}

theorem allClosed_optionsParameter (hm : Closed m.options) (ht : AllClosed (Ty.verbatimAll typeArgs)) :
    AllClosed (m.optionsParameter typeArgs).verbatim := by
  have ho : Closed "options" := by decide
  have hp : Closed "Partial" := by decide
  simp [optionsParameter, Param.verbatim, ho, hp, hm, ht]

theorem allClosed_call (hm : Closed m.hook) (ht : AllClosed (Ty.verbatimAll typeArgs))
    (he : ∀ e ∈ entries, AllClosed (Expr.verbatim e.2)) : AllClosed (m.call typeArgs entries).verbatim := by
  have ho : Closed "options" := by decide
  have he : AllClosed (Entry.verbatimAll (entries.map (fun e => .keyed e.1 e.2) ++ [.spread (.ident "options")])) := by
    induction entries
    case nil          => simp [ho]
    case cons e es hi =>
      have hes := hi fun e' h => he e' <| .tail _ h
      exact AllClosed.append_iff.mpr ⟨he e <| .head _, hes⟩
  simp only [call, Expr.verbatim, Expr.verbatimAll, AllClosed.append_iff, AllClosed.cons_iff]
  exact ⟨⟨⟨hm, .nil⟩, ht⟩, he, .nil⟩

end HookMethod

theorem allClosed_exportHook (hn : Closed name) (ht : AllClosed (typeParams.flatMap TypeParam.verbatim))
    (hp : AllClosed (params.flatMap Param.verbatim)) (hb : AllClosed body.verbatim) :
    AllClosed (exportHook name typeParams params body).verbatim := by
  simp only [exportHook, Stmt.exportConstant, Stmt.verbatim, Binding.verbatim, annotationVerbatim, Expr.verbatim,
    Arrow.verbatim, AllClosed.append_iff, AllClosed.cons_iff]
  exact ⟨⟨⟨hn, .nil⟩, .nil⟩, ⟨⟨ht, hp⟩, .nil⟩, hb⟩

theorem allClosed_mutationTypeParams (he : Closed errorType) :
    AllClosed ((mutationTypeParams errorType).flatMap TypeParam.verbatim) := by
  have ht : Closed "TError" := by decide
  have hc : Closed "TContext" := by decide
  have hu : Closed "unknown" := by decide
  simp [mutationTypeParams, ht, hc, hu, he]

namespace Operation

theorem allClosed_argsVariables (required : Bool) : AllClosed (argsVariables required).verbatim := by
  cases required <;> decide

theorem allClosed_keyOf (base : String) (required : Bool) : AllClosed (keyOf base required).verbatim := by
  have ha : Closed argsParam := by decide
  have hv : Closed "variables" := by decide
  cases required <;> simp [keyOf, argsVariables, Expr.text, ha, hv]

end Operation

namespace Operation.ClosedNames

variable (h : op.ClosedNames)

include h

theorem subscriptionTypeArgs : AllClosed (Ty.verbatimAll op.subscriptionTypeArgs) := by
  simp [Operation.subscriptionTypeArgs, h.resultType, h.variablesType]

theorem subscriptionHook : AllClosed op.subscriptionHook.verbatim := by
  have hf : AllClosed [Operation.argsParam, HookMethod.subscription.hook, HookMethod.subscription.options, "gql"] := by
    decide
  have ht := h.subscriptionTypeArgs
  simp only [AllClosed.cons_iff] at hf
  refine allClosed_exportHook h.hookName .nil ?_ ?_
  · simp [Param.verbatim, hf, ht]
  · simp [hf, ht, Expr.apply, h.documentRef]

end Operation.ClosedNames

namespace Mapped

theorem allClosed_pagedArgs (op : Operation) : AllClosed (pagedArgs op).verbatim := by
  have hf : AllClosed [Operation.argsParam, metaParam, "pageParam"] := by decide
  have hv := Operation.allClosed_argsVariables op.hasRequiredVariables
  simp only [AllClosed.cons_iff] at hf
  simp [pagedArgs, hf, hv]

variable {m : Mapped} (h : op.ClosedNames) (hm : Closed m.mapper.callee)

include h hm

theorem allClosed_fetch (ha : AllClosed (Expr.verbatimAll args)) : AllClosed (m.fetch op args).verbatim := by
  simp only [fetch, Expr.verbatim, Ty.verbatimAll, Ty.verbatim, AllClosed.append_iff, AllClosed.cons_iff]
  exact ⟨⟨⟨hm, .nil⟩, ⟨h.resultType, .nil⟩, h.fetcherArgs, .nil⟩, ha⟩

theorem allClosed_queryFn : AllClosed (m.queryFn op).verbatim := by
  have ha : AllClosed [Operation.argsParam, "bind"] := by decide
  simp only [AllClosed.cons_iff] at ha
  rw [queryFn]
  split
  case isTrue  =>
    have hf : AllClosed (m.fetch op [op.documentRef]).verbatim := allClosed_fetch h hm <| by simp [h.documentRef]
    simp [Expr.apply, hf, ha]
  case isFalse => exact allClosed_fetch h hm <| by simp [h.documentRef, ha]

theorem allClosed_queryHook (he : Closed errorType) : AllClosed (m.queryHook errorType op).verbatim := by
  have ho := HookMethod.allClosed_optionsParameter (m := .query) (by decide) h.queryTypeArgs
  have hk := Operation.allClosed_keyOf op.name op.hasRequiredVariables
  refine allClosed_exportHook h.hookName (h.queryTypeParams he) (by simp [h.argsParameter, ho]) ?_
  refine HookMethod.allClosed_call (by decide) h.queryTypeArgs ?_
  simp [Operation.queryKey, hk, allClosed_queryFn h hm]

omit hm in
theorem allClosed_infiniteQueryCall {page : Expr} (hp : AllClosed page.verbatim) :
    AllClosed (infiniteQueryCall op (pageFn page)).verbatim := by
  have hk := Operation.allClosed_keyOf (op.name ++ ".infinite") op.hasRequiredVariables
  have hm : Closed metaParam := by decide
  refine HookMethod.allClosed_call (by decide) h.queryTypeArgs ?_
  simp [pageFn, Expr.lambda, Param.verbatim, Operation.infiniteQueryKey, hk, hm, hp]

theorem allClosed_infiniteQueryBody : AllClosed (m.infiniteQueryBody op).verbatim := by
  have hq : Closed "query" := by decide
  have hp := allClosed_pagedArgs op
  rw [infiniteQueryBody]
  split
  case isTrue  =>
    have hf : AllClosed (m.fetch op [op.documentRef]).verbatim := allClosed_fetch h hm <| by simp [h.documentRef]
    have hc : AllClosed (infiniteQueryCall op (pageFn (.apply (.ident "query") [pagedArgs op]))).verbatim :=
      allClosed_infiniteQueryCall h <| by simp [Expr.apply, hq, hp]
    simp [Stmt.define, hq, hf, hc]
  case isFalse =>
    have hf : AllClosed (m.fetch op [op.documentRef, pagedArgs op]).verbatim :=
      allClosed_fetch h hm <| by simp [h.documentRef, hp]
    exact allClosed_infiniteQueryCall h <| by simp [Expr.apply, hf]

theorem allClosed_infiniteQueryHook (he : Closed errorType) :
    AllClosed (m.infiniteQueryHook errorType op).verbatim := by
  have ho := HookMethod.allClosed_optionsParameter (m := .infiniteQuery) (by decide) h.queryTypeArgs
  have hk : AllClosed (Param.verbatim { name := "pageParamKey", ty := some (.keyOf (.named op.variablesType)) }) :=
    AllClosed.cons_iff.mpr ⟨by decide, AllClosed.cons_iff.mpr ⟨h.variablesType, .nil⟩⟩
  refine allClosed_exportHook h.infiniteHookName (h.queryTypeParams he) ?_ (allClosed_infiniteQueryBody h hm)
  simp [h.argsParameter, ho, hk]

theorem allClosed_mutationFn : AllClosed (m.mutationFn op).verbatim := by
  have hv : Closed "variables" := by decide
  rw [mutationFn]
  split
  case isTrue  => exact allClosed_fetch h hm <| by simp [h.documentRef]
  case isFalse =>
    have hf : AllClosed (m.fetch op [op.documentRef, .ident "variables"]).verbatim :=
      allClosed_fetch h hm <| by simp [h.documentRef, hv]
    simp [Expr.lambda, Expr.apply, Param.verbatim, hv, hf, h.fetcherArgs]

theorem allClosed_mutationHook (he : Closed errorType) : AllClosed (m.mutationHook errorType op).verbatim := by
  have ho := HookMethod.allClosed_optionsParameter (m := .mutation) (by decide) h.mutationTypeArgs
  have hk : AllClosed op.mutationKey.verbatim := .nil
  refine allClosed_exportHook h.hookName (allClosed_mutationTypeParams he) (by simp [ho]) ?_
  refine HookMethod.allClosed_call (by decide) h.mutationTypeArgs ?_
  simp [hk, allClosed_mutationFn h hm]

theorem allClosed_fetcherAccessor? (hs : m.fetcherAccessor? op = some st) : AllClosed st.verbatim := by
  have hf : AllClosed [Operation.argsParam, "headers"] := by decide
  have hp : AllClosed (Param.verbatim { name := "headers", ty := some requestHeadersType, optional := true }) := by
    decide
  simp only [AllClosed.cons_iff] at hf
  rw [fetcherAccessor?] at hs
  split at hs <;> cases hs
  refine h.accessor (by decide) ?_
  have hc : AllClosed (m.fetch op [op.documentRef, .ident Operation.argsParam, .ident "headers"]).verbatim :=
    allClosed_fetch h hm <| by simp [h.documentRef, hf]
  simp [Expr.lambda, hp, hc, h.argsParameter]

omit hm in
theorem allClosed_keyAccessor : AllClosed (keyAccessor op).verbatim := by
  have hk : AllClosed op.queryKey.verbatim := Operation.allClosed_keyOf op.name op.hasRequiredVariables
  exact h.accessor (by decide) <| by simp [Expr.lambda, hk, h.argsParameter]

end Mapped

namespace Native

variable {n : Native} (h : op.ClosedNames)

include h

theorem allClosed_make (hf : Closed factory.callee) (he : Closed keyEnum) :
    AllClosed (make factory op keyEnum).verbatim := by
  simp [make, h.documentRef, hf, he, h.resultType, h.variablesType, h.pascalName]

theorem allClosed_queryHook (hf : Closed n.queryFactory.callee) : AllClosed (n.queryHook op).verbatim := by
  have hu : AllClosed ["useQuery", "useQueryClient"] := by decide
  simp only [AllClosed.cons_iff] at hu
  have hm {factory} (hf : Closed factory.callee) : AllClosed (make factory op queryKeyEnum).verbatim :=
    allClosed_make h hf (by decide)
  rw [queryHook]
  split
  case h_1 factory hc =>
    rw [queryFactory, hc, Option.getD_some] at hf
    simp [hm hf, hu, h.hookName, h.clientHookName]
  case h_2 hc         =>
    rw [queryFactory, hc, Option.getD_none] at hf
    simp [Stmt.exportConstant, hm hf, h.hookName]

theorem allClosed_infiniteQueryHook (hf : Closed n.infinite.callee) : AllClosed (n.infiniteQueryHook op).verbatim := by
  have hm : AllClosed (make n.infinite op queryKeyEnum).verbatim := allClosed_make h hf (by decide)
  simp [infiniteQueryHook, Stmt.exportConstant, hm, h.infiniteHookName]

theorem allClosed_mutationHook (hf : Closed n.mutation.callee) : AllClosed (n.mutationHook op).verbatim := by
  have hm : AllClosed (make n.mutation op mutationKeyEnum).verbatim := allClosed_make h hf (by decide)
  simp [mutationHook, Stmt.exportConstant, hm, h.hookName]

end Native

namespace Strategy

theorem allClosed_statement (h : op.ClosedNames) (he : Closed errorType) :
    ∀ {s : Strategy} {part : Part}, (∀ m ∈ s.mappers, Closed m.callee) →
      s.statement? errorType op part = some st → AllClosed st.verbatim
  | mapped .., .query, hm, rfl         => Mapped.allClosed_queryHook h (hm _ <| .head _) he
  | mapped .., .infiniteQuery, hm, rfl => Mapped.allClosed_infiniteQueryHook h (hm _ <| .head _) he
  | mapped .., .mutation, hm, rfl      => Mapped.allClosed_mutationHook h (hm _ <| .head _) he
  | mapped .., .getKey, _, rfl         => Mapped.allClosed_keyAccessor h
  | mapped .., .fetcher, hm, hs        => Mapped.allClosed_fetcherAccessor? h (hm _ <| .head _) hs
  | native n, .query, hm, rfl          => Native.allClosed_queryHook h <| hm _ n.queryFactory_mem_mappers
  | native n, .infiniteQuery, hm, rfl  => Native.allClosed_infiniteQueryHook h <| hm _ n.infinite_mem_mappers
  | native n, .mutation, hm, rfl       => Native.allClosed_mutationHook h <| hm _ n.mutation_mem_mappers
  | _, .document, _, rfl               => h.accessor (by decide) h.documentRef
  | _, .subscription, _, rfl           => h.subscriptionHook

end Strategy
end QueryHooks
