import QueryHooks.Text.Capital

namespace QueryHooks

inductive Kind where
  | query
  | mutation
  | subscription
  deriving DecidableEq

namespace Kind

def name : Kind → String
  | query        => "query"
  | mutation     => "mutation"
  | subscription => "subscription"

def names : List String := ["query", "mutation", "subscription"]

def ofName? : String → Option Kind
  | "query"        => some query
  | "mutation"     => some mutation
  | "subscription" => some subscription
  | _              => none

end Kind

structure Operation where
  kind                 : Kind
  name                 : String
  resultType           : String
  variablesType        : String
  document             : String
  hasRequiredVariables : Bool
  deriving DecidableEq

namespace Operation

open Text (capitalize)

-- The operation with the conventional names for its types and its document.
def conventional (kind : Kind) (name : String) : Operation where
  kind
  name
  resultType           := capitalize name
  variablesType        := capitalize name ++ "Variables"
  document             := capitalize name ++ "Document"
  hasRequiredVariables := false

def pascalName (op : Operation) : String :=
  capitalize op.name

def hookName (op : Operation) : String :=
  "use" ++ op.pascalName

def infiniteHookName (op : Operation) : String :=
  "useInfinite" ++ op.pascalName

def clientHookName (op : Operation) : String :=
  "use" ++ op.pascalName ++ "Client"

end Operation
end QueryHooks
