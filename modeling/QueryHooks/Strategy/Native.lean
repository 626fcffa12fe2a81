import QueryHooks.Config.Basic
import QueryHooks.Mapper.Import
import QueryHooks.Strategy.Hook

namespace QueryHooks

open TypeScript

def queryKeyEnum : String := "EQueryKey"

def mutationKeyEnum : String := "EMutationKey"

structure Native where
  query    : Mapper
  combined : Option Mapper
  infinite : Mapper
  mutation : Mapper
  deriving DecidableEq

namespace Native

-- The combined factory is read before the others.
def readCombined (c : NativeConfig) : Except Error (Option Mapper) :=
  if c.isCombined then
    match c.combined with
    | some func => (Mapper.read func).map some
    | none      => .error .missingCombinedFactory
  else .ok none

def read (c : NativeConfig) : Except Error Native := do
  let combined ← readCombined c
  let query ← Mapper.read c.query
  let infinite ← Mapper.read c.infinite
  let mutation ← Mapper.read c.mutation
  .ok { query, combined, infinite, mutation }

def mappers (n : Native) : List Mapper :=
  [n.query] ++ n.combined.toList ++ [n.infinite, n.mutation]

def make (factory : Mapper) (op : Operation) (keyEnum : String) : Expr :=
  .call (.ident factory.callee) [.named op.resultType, .named op.variablesType]
    [op.documentRef, .member (.ident keyEnum) op.pascalName]

def queryHook (n : Native) (op : Operation) : Stmt :=
  match n.combined with
  | some factory =>
    .exported <| .constant
      (.members [("useQuery", op.hookName), ("useQueryClient", op.clientHookName)]) none (make factory op queryKeyEnum)
  | none         => .exportConstant op.hookName (make n.query op queryKeyEnum)

def infiniteQueryHook (n : Native) (op : Operation) : Stmt :=
  .exportConstant op.infiniteHookName (make n.infinite op queryKeyEnum)

def mutationHook (n : Native) (op : Operation) : Stmt :=
  .exportConstant op.hookName (make n.mutation op mutationKeyEnum)

-- The modules of the factories, each once, in the order of their first factories.
def sources (n : Native) : List String :=
  (n.mappers.filterMap (·.source?)).foldl (fun sources s => if sources.contains s then sources else sources ++ [s]) []

def imports (n : Native) : List Import :=
  n.sources.map (Mapper.importFrom · n.mappers [] false)

end Native
end QueryHooks
