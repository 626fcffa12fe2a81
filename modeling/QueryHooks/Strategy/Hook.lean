import QueryHooks.Operation.CacheKey
import QueryHooks.Usage

namespace QueryHooks

open TypeScript

-- The type of the arguments that a fetch function takes.
def fetcherArgsType : String := "IUseFetcherArgs"

def requestHeadersType : Ty :=
  .indexed (.named "RequestInit") "headers"

namespace Operation

def documentRef (op : Operation) : Expr :=
  .ident op.document

def fetcherArgs (op : Operation) : Ty :=
  .generic fetcherArgsType [.named op.variablesType]

-- The arguments may be left out where no variable is required.
def argsParameter (op : Operation) : Param where
  name     := argsParam
  ty       := op.fetcherArgs
  optional := !op.hasRequiredVariables

def queryTypeParams (op : Operation) (errorType : String) : List TypeParam := [
  { name := "TData", fallback := some (.named op.resultType) },
  { name := "TError", fallback := some (.named errorType) }]

def queryTypeArgs (op : Operation) : List Ty :=
  [.named op.resultType, .named "TError", .named "TData"]

def mutationTypeArgs (op : Operation) : List Ty :=
  [.named op.resultType, .named "TError", op.fetcherArgs, .named "TContext"]

-- A member of the hook function that is set next to its definition.
def accessor (op : Operation) (name : String) (value : Expr) : Stmt :=
  .expr (.assign (.member (.ident op.hookName) name) value)

end Operation

namespace HookMethod

def optionsParameter (m : HookMethod) (typeArgs : List Ty) : Param where
  name     := "options"
  ty       := some (.generic "Partial" [.generic m.options typeArgs])
  optional := true

-- The call of the hook, where the options of the user come last and so win.
def call (m : HookMethod) (typeArgs : List Ty) (entries : List (String × Expr)) : Expr :=
  .call (.ident m.hook) typeArgs [
    .object (entries.map (fun (key, value) => .keyed key value) ++ [.spread (.ident "options")])]

end HookMethod

def mutationTypeParams (errorType : String) : List TypeParam := [
  { name := "TError", fallback := some (.named errorType) },
  { name := "TContext", fallback := some (.named "unknown") }]

def exportHook (name : String) (typeParams : List TypeParam) (params : List Param) (body : Body) : Stmt :=
  .exportConstant name <| .arrow {
    typeParams
    params
    returnType := none
    isAsync    := false
    body }

end QueryHooks
