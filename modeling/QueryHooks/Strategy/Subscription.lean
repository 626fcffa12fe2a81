import QueryHooks.Strategy.Hook

namespace QueryHooks.Operation

open TypeScript

def subscriptionTypeArgs (op : Operation) : List Ty :=
  [.named op.resultType, .named op.variablesType]

def subscriptionHook (op : Operation) : Stmt :=
  let m := HookMethod.subscription
  let args : Param := {
    name     := argsParam
    ty       := some (.generic m.options op.subscriptionTypeArgs)
    optional := !op.hasRequiredVariables }
  exportHook op.hookName [] [args] <| .expr <|
    .call (.ident m.hook) op.subscriptionTypeArgs [.apply (.ident "gql") [op.documentRef], .ident argsParam]

end QueryHooks.Operation
