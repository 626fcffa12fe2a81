import QueryHooks.Json.Print
import QueryHooks.Strategy.Hook
import QueryHooks.TypeScript.Print

namespace QueryHooks

open TypeScript

structure Request where
  endpoint : String
  params   : Option Json.Entries

namespace Request

def functionName : String := "fetcher"

-- An endpoint that the environment gives is an expression.
def endpointExpr (r : Request) : Expr :=
  if "process.env.".toList.isPrefixOf r.endpoint.toList then .raw r.endpoint else .text r.endpoint

def paramEntries (r : Request) : Json.Entries :=
  r.params.getD []

-- The entries with `value` for `key`, in place of the value it had, or at the end.
def setEntry (key : String) (value : Expr) : List Entry → List Entry
  | []                            => [.keyed key value]
  | .keyed key' value' :: entries =>
    if key' = key then .keyed key value :: entries else .keyed key' value' :: setEntry key value entries
  | .spread of :: entries         => .spread of :: setEntry key value entries

-- The headers are merged with the standard ones, and the body is always the operation.
def setParam (entries : List Entry) : String × Json → List Entry
  | ("headers", _) => entries
  | ("body", _)    => entries
  | (key, value)   => setEntry key (.raw value.print) entries

def ownHeaders (r : Request) : List Entry :=
  ((r.paramEntries.get? "headers").map fun headers => .spread (.raw headers.print)).toList

def headers (r : Request) : Expr :=
  .object (
    [.keyed "Content-Type" (.text "application/json")] ++ r.ownHeaders ++
    [.spread (.optionalMember (.ident "args") "headers"), .spread (.ident "headers")])

def body : Expr :=
  .apply (.member (.ident "JSON") "stringify") [
    .object [.keyed "query" (.ident "query"), .keyed "variables" (.optionalMember (.ident "args") "variables")]]

def init (r : Request) : Expr :=
  .object (
    r.paramEntries.foldl setParam [.keyed "method" (.text "POST")] ++
    [.keyed "headers" r.headers, .keyed "body" body])

def ignoresBody (r : Request) : Bool :=
  (r.paramEntries.get? "body").isSome

def argsInterface : TypeDef :=
  .interface fetcherArgsType [{ name := "TVariables" }] [
    { name := "variables", ty := .named "TVariables", optional := true },
    { name := "headers", ty := requestHeadersType, optional := true }]

def send (r : Request) : Arrow where
  typeParams := []
  params     := []
  returnType := some (.generic "Promise" [.named "TData"])
  isAsync    := true
  body       := .block [
    .define "res" (.await (.apply (.ident "fetch") [r.endpointExpr, r.init])),
    .define "json" (.await (.apply (.member (.ident "res") "json") [])),
    .when (.member (.ident "json") "errors")
      [.throws (.raw "new Error(json.errors[0]?.message ?? 'GraphQL error')")],
    .returns (some (.member (.ident "json") "data"))]

def function (r : Request) : Function where
  name       := functionName
  typeParams := [
    { name := "TData" },
    { name := "TArgs", constraint := some (.generic fetcherArgsType [.unknown]) }]
  params     := [
    { name := "query", ty := some .string },
    { name := "args", ty := some (.named "TArgs"), optional := true },
    { name := "headers", ty := some requestHeadersType, optional := true }]
  returnType := none
  body       := [.returns (some (.arrow r.send))]
  isAsync    := false
  isExport   := false

def code (r : Request) : String :=
  argsInterface.print ++ "\n" ++ r.function.print

end Request
end QueryHooks
