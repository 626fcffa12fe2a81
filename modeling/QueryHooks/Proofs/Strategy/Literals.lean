import QueryHooks.Proofs.TypeScript.Literals
import QueryHooks.Strategy.Basic

namespace QueryHooks

open TypeScript

variable {op : Operation} {errorType : String}

-- Keys that are identifiers stand without quotes.
theorem quotedKey_of_isIdentifier (h : isIdentifier name) : quotedKey name = [] :=
  if_pos h

namespace Operation

theorem mem_quoted_keyOf (base : String) (required : Bool) : t ∈ (keyOf base required).quoted ↔ t = base := by
  cases required <;> simp [keyOf, argsVariables, Expr.text]

theorem quoted_accessor (name : String) (value : Expr) : (op.accessor name value).quoted = value.quoted := by
  simp [accessor]

theorem quoted_argsParameter : op.argsParameter.quoted = [] := by
  simp [argsParameter, fetcherArgs]

theorem quoted_queryTypeParams : (op.queryTypeParams errorType).flatMap TypeParam.quoted = [] := by
  simp [queryTypeParams]

end Operation

namespace HookMethod

theorem quoted_optionsParameter (m : HookMethod) (typeArgs : List Ty) :
    (m.optionsParameter typeArgs).quoted = Ty.quotedAll typeArgs := by
  simp [optionsParameter]

-- The key of a hook and its function are entries whose keys stand without quotes.
theorem quoted_call (m : HookMethod) (ht : Ty.quotedAll typeArgs = []) (hk : isIdentifier key) (hf : isIdentifier key')
    (value function : Expr) :
    (m.call typeArgs [(key, value), (key', function)]).quoted = value.quoted ++ function.quoted := by
  simp [call, ht, quotedKey_of_isIdentifier hk, quotedKey_of_isIdentifier hf]

end HookMethod

theorem quoted_exportHook (ht : typeParams.flatMap TypeParam.quoted = []) (hp : params.flatMap Param.quoted = []) :
    (exportHook name typeParams params body).quoted = body.quoted := by
  simp [exportHook, Stmt.exportConstant, ht, hp]

theorem Operation.quoted_subscriptionHook : op.subscriptionHook.quoted = [] := by
  rw [subscriptionHook, quoted_exportHook rfl (by simp [subscriptionTypeArgs])]
  simp [subscriptionTypeArgs, documentRef, Expr.apply]

namespace Mapped

variable {m : Mapped}

theorem quoted_fetch : (m.fetch op args).quoted = Expr.quotedAll args := by
  simp [fetch, Operation.fetcherArgs]

theorem quoted_queryTypeArgs : Ty.quotedAll op.queryTypeArgs = [] := by
  simp [Operation.queryTypeArgs]

theorem quoted_mutationTypeArgs : Ty.quotedAll op.mutationTypeArgs = [] := by
  simp [Operation.mutationTypeArgs, Operation.fetcherArgs]

theorem quoted_queryFn : (m.queryFn op).quoted = [] := by
  rw [queryFn]
  split <;> simp [quoted_fetch, Expr.apply, Operation.documentRef]

theorem mem_quoted_queryHook : t ∈ (m.queryHook errorType op).quoted ↔ t = op.name := by
  have hp : [op.argsParameter, HookMethod.query.optionsParameter op.queryTypeArgs].flatMap Param.quoted = [] := by
    simp [-Param.quoted, Operation.quoted_argsParameter, HookMethod.quoted_optionsParameter, quoted_queryTypeArgs]
  rw [queryHook, quoted_exportHook Operation.quoted_queryTypeParams hp, Body.quoted,
    HookMethod.quoted_call _ quoted_queryTypeArgs rfl rfl, quoted_queryFn, List.append_nil]
  exact Operation.mem_quoted_keyOf ..

theorem quoted_pagedArgs : (pagedArgs op).quoted = [] := by
  have hv : quotedKey "variables" = [] := quotedKey_of_isIdentifier rfl
  cases hr : op.hasRequiredVariables <;> simp [pagedArgs, hv, hr, Operation.argsVariables]

theorem mem_quoted_infiniteQueryCall {of : Expr} (h : of.quoted = []) :
    t ∈ (infiniteQueryCall op (pageFn of)).quoted ↔ t = op.name ++ ".infinite" := by
  have hp : (pageFn of).quoted = [] := by simp [pageFn, Expr.lambda, h]
  rw [infiniteQueryCall, HookMethod.quoted_call _ quoted_queryTypeArgs rfl rfl, hp, List.append_nil]
  exact Operation.mem_quoted_keyOf ..

theorem mem_quoted_infiniteQueryBody : t ∈ (m.infiniteQueryBody op).quoted ↔ t = op.name ++ ".infinite" := by
  rw [infiniteQueryBody]
  split
  case isTrue  =>
    have h : (Expr.apply (.ident "query") [pagedArgs op]).quoted = [] := by simp [Expr.apply, quoted_pagedArgs]
    simp [Stmt.define, quoted_fetch, Operation.documentRef, mem_quoted_infiniteQueryCall h]
  case isFalse =>
    have h : (Expr.apply (m.fetch op [op.documentRef, pagedArgs op]) []).quoted = [] := by
      simp [Expr.apply, quoted_fetch, Operation.documentRef, quoted_pagedArgs]
    exact mem_quoted_infiniteQueryCall h

theorem mem_quoted_infiniteQueryHook : t ∈ (m.infiniteQueryHook errorType op).quoted ↔ t = op.name ++ ".infinite" := by
  have hk : Param.quoted { name := "pageParamKey", ty := some (.keyOf (.named op.variablesType)) } = [] := rfl
  rw [infiniteQueryHook, quoted_exportHook Operation.quoted_queryTypeParams, mem_quoted_infiniteQueryBody]
  simp [-Param.quoted, hk, Operation.quoted_argsParameter, HookMethod.quoted_optionsParameter, quoted_queryTypeArgs]

theorem mem_quoted_mutationHook : t ∈ (m.mutationHook errorType op).quoted ↔ t = op.name := by
  have hp : [HookMethod.mutation.optionsParameter op.mutationTypeArgs].flatMap Param.quoted = [] := by
    simp [-Param.quoted, HookMethod.quoted_optionsParameter, quoted_mutationTypeArgs]
  have hm : (m.mutationFn op).quoted = [] := by
    rw [mutationFn]
    split <;> simp [quoted_fetch, Expr.lambda, Expr.apply, Operation.documentRef, Operation.fetcherArgs]
  rw [mutationHook, quoted_exportHook (by simp [mutationTypeParams]) hp, Body.quoted,
    HookMethod.quoted_call _ quoted_mutationTypeArgs rfl rfl, hm, List.append_nil]
  simp [Operation.mutationKey, Expr.text]

theorem mem_quoted_keyAccessor : t ∈ (keyAccessor op).quoted ↔ t = op.name := by
  simp [keyAccessor, Operation.quoted_accessor, Expr.lambda, Operation.argsParameter, Operation.fetcherArgs,
    Operation.queryKey, Operation.mem_quoted_keyOf]

theorem mem_quoted_fetcherAccessor? (h : m.fetcherAccessor? op = some st) : t ∈ st.quoted ↔ t = "headers" := by
  rw [fetcherAccessor?] at h
  split at h
  case isTrue  => contradiction
  case isFalse =>
    cases h
    simp [Operation.quoted_accessor, Expr.lambda, Operation.argsParameter, Operation.fetcherArgs, requestHeadersType,
      quoted_fetch, Operation.documentRef]

end Mapped

namespace Native

variable {n : Native}

theorem quoted_make : (make factory op keyEnum).quoted = [] := by
  simp [make, Operation.documentRef]

theorem quoted_queryHook : (n.queryHook op).quoted = [] := by
  rw [queryHook]
  split <;> simp [Stmt.exportConstant, quoted_make]

theorem quoted_infiniteQueryHook : (n.infiniteQueryHook op).quoted = [] := by
  simp [infiniteQueryHook, Stmt.exportConstant, quoted_make]

theorem quoted_mutationHook : (n.mutationHook op).quoted = [] := by
  simp [mutationHook, Stmt.exportConstant, quoted_make]

end Native

namespace Strategy

-- The texts that a part has in quotes.
def quoted (op : Operation) : Strategy → Part → List String
  | mapped .., .query         => [op.name]
  | mapped .., .infiniteQuery => [op.name ++ ".infinite"]
  | mapped .., .mutation      => [op.name]
  | mapped .., .getKey        => [op.name]
  | mapped .., .fetcher       => ["headers"]
  | _, _                      => []

theorem mem_quoted_statement :
    ∀ {s : Strategy} {part : Part}, s.statement? errorType op part = some st → (t ∈ st.quoted ↔ t ∈ s.quoted op part)
  | mapped .., .query, rfl         => Mapped.mem_quoted_queryHook.trans List.mem_singleton.symm
  | mapped .., .infiniteQuery, rfl => Mapped.mem_quoted_infiniteQueryHook.trans List.mem_singleton.symm
  | mapped .., .mutation, rfl      => Mapped.mem_quoted_mutationHook.trans List.mem_singleton.symm
  | mapped .., .getKey, rfl        => Mapped.mem_quoted_keyAccessor.trans List.mem_singleton.symm
  | mapped .., .fetcher, h         => (Mapped.mem_quoted_fetcherAccessor? h).trans List.mem_singleton.symm
  | native _, .query, rfl          => by rw [Native.quoted_queryHook]; rfl
  | native _, .infiniteQuery, rfl  => by rw [Native.quoted_infiniteQueryHook]; rfl
  | native _, .mutation, rfl       => by rw [Native.quoted_mutationHook]; rfl
  | s, .document, rfl              => by
    have h : s.quoted op .document = [] := by cases s <;> rfl
    rw [Operation.quoted_accessor, h]
    rfl
  | s, .subscription, rfl          => by
    have h : s.quoted op .subscription = [] := by cases s <;> rfl
    rw [Operation.quoted_subscriptionHook, h]

end Strategy
end QueryHooks
