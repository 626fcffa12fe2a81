import QueryHooks.Mapper.Import
import QueryHooks.Strategy.Hook

namespace QueryHooks

open TypeScript

-- A plain function is called with the document and the arguments. A function that is a hook itself is called with the
-- document alone, and gives back the function to call.
structure Mapped where
  mapper      : Mapper
  isReactHook : Bool
  deriving DecidableEq

namespace Mapped

-- The call of the function with the types of the operation.
def fetch (m : Mapped) (op : Operation) (args : List Expr) : Expr :=
  .call (.ident m.mapper.callee) [.named op.resultType, op.fetcherArgs] args

def queryFn (m : Mapped) (op : Operation) : Expr :=
  if m.isReactHook then
    .apply (.member (m.fetch op [op.documentRef]) "bind") [.literal .null, .ident Operation.argsParam]
  else
    m.fetch op [op.documentRef, .ident Operation.argsParam]

def queryHook (m : Mapped) (errorType : String) (op : Operation) : Stmt :=
  let hook := HookMethod.query
  exportHook op.hookName (op.queryTypeParams errorType)
    [op.argsParameter, hook.optionsParameter op.queryTypeArgs] <|
    .expr <| hook.call op.queryTypeArgs [("queryKey", op.queryKey), ("queryFn", m.queryFn op)]

def metaParam : String := "metaData"

-- The arguments for one page: the parameters of the page override the variables.
def pagedArgs (op : Operation) : Expr :=
  let page : Expr := .paren (.coalesce (.member (.ident metaParam) "pageParam") (.object []))
  .object [
    .spread (.ident Operation.argsParam),
    .keyed "variables" (.object [.spread (Operation.argsVariables op.hasRequiredVariables), .spread page])]

def pageFn (fetch : Expr) : Expr :=
  .lambda [{ name := metaParam }] fetch

def infiniteQueryCall (op : Operation) (queryFn : Expr) : Expr :=
  HookMethod.infiniteQuery.call op.queryTypeArgs [("queryKey", op.infiniteQueryKey), ("queryFn", queryFn)]

def infiniteQueryBody (m : Mapped) (op : Operation) : Body :=
  if m.isReactHook then
    .block [
      .define "query" (m.fetch op [op.documentRef]),
      .returns (infiniteQueryCall op (pageFn (.apply (.ident "query") [pagedArgs op])))]
  else
    .expr (infiniteQueryCall op (pageFn (.apply (m.fetch op [op.documentRef, pagedArgs op]) [])))

def infiniteQueryHook (m : Mapped) (errorType : String) (op : Operation) : Stmt :=
  let pageParamKey : Param := { name := "pageParamKey", ty := some (.keyOf (.named op.variablesType)) }
  exportHook op.infiniteHookName (op.queryTypeParams errorType)
    [pageParamKey, op.argsParameter, HookMethod.infiniteQuery.optionsParameter op.queryTypeArgs]
    (m.infiniteQueryBody op)

def mutationFn (m : Mapped) (op : Operation) : Expr :=
  if m.isReactHook then m.fetch op [op.documentRef]
  else
    .lambda [{ name := "variables", ty := some op.fetcherArgs, optional := true }] <|
      .apply (m.fetch op [op.documentRef, .ident "variables"]) []

def mutationHook (m : Mapped) (errorType : String) (op : Operation) : Stmt :=
  let hook := HookMethod.mutation
  exportHook op.hookName (mutationTypeParams errorType) [hook.optionsParameter op.mutationTypeArgs] <|
    .expr <| hook.call op.mutationTypeArgs [("mutationKey", op.mutationKey), ("mutationFn", m.mutationFn op)]

-- Hooks cannot be called outside a component, so only plain functions are made accessible.
def fetcherAccessor? (m : Mapped) (op : Operation) : Option Stmt :=
  if m.isReactHook then none
  else
    some <| op.accessor "fetcher" <|
      .lambda [op.argsParameter, { name := "headers", ty := some requestHeadersType, optional := true }] <|
        m.fetch op [op.documentRef, .ident Operation.argsParam, .ident "headers"]

def keyAccessor (op : Operation) : Stmt :=
  op.accessor "getKey" (.lambda [op.argsParameter] op.queryKey)

def imports (m : Mapped) (useTypeImports : Bool) : List Import :=
  match m.mapper.source? with
  | none        => []
  | some source =>
    if useTypeImports then [
      Mapper.importFrom source [m.mapper] [] false,
      { items := [{ name := fetcherArgsType }], source, typeOnly := true }]
    else [Mapper.importFrom source [m.mapper] [fetcherArgsType] false]

end Mapped
end QueryHooks
