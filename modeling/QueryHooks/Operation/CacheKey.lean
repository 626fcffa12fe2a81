import QueryHooks.Operation.Basic
import QueryHooks.TypeScript.Tree

namespace QueryHooks.Operation

open TypeScript (Expr)

-- The parameter of a hook that holds its variables.
def argsParam : String := "args"

-- The variables, read from arguments that are there for sure if variables are required.
def argsVariables (required : Bool) : Expr :=
  if required then .member (.ident argsParam) "variables" else .optionalMember (.ident argsParam) "variables"

-- If the variables may be missing, the hook decides on the key when it is called.
def keyOf (base : String) (required : Bool) : Expr :=
  let withVariables := .array [.text base, .member (.ident argsParam) "variables"]
  if required then withVariables
  else .ternary (argsVariables false) withVariables (.array [.text base])

def queryKey (op : Operation) : Expr :=
  keyOf op.name op.hasRequiredVariables

-- The pages of an infinite query share one entry, apart from that of the plain query.
def infiniteQueryKey (op : Operation) : Expr :=
  keyOf (op.name ++ ".infinite") op.hasRequiredVariables

def mutationKey (op : Operation) : Expr :=
  .array [.text op.name]

end QueryHooks.Operation
