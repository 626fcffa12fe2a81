namespace QueryHooks.TypeScript

inductive Ty where
  | string
  | unknown
  | named (name : String)
  | generic (name : String) (args : List Ty)
  | keyOf (of : Ty)
  | indexed (object : Ty) (key : String)

structure Property where
  name     : String
  ty       : Ty
  optional : Bool := false

structure TypeParam where
  name       : String
  constraint : Option Ty := none
  fallback   : Option Ty := none

structure Param where
  name     : String
  ty       : Option Ty := none
  optional : Bool := false

inductive Literal where
  | text (value : String)
  | null
  deriving DecidableEq

-- What a declaration binds: one name, or members of an object under local names.
inductive Binding where
  | single (name : String)
  | members (pairs : List (String × String))

namespace Binding

def names : Binding → List String
  | single name   => [name]
  | members pairs => pairs.map (·.2)

end Binding

mutual

inductive Expr where
  | ident (name : String)
  | literal (value : Literal)
  | call (callee : Expr) (typeArgs : List Ty) (args : List Expr)
  | arrow (function : Arrow)
  | object (entries : List Entry)
  | member (object : Expr) (name : String)
  | optionalMember (object : Expr) (name : String)
  | await (of : Expr)
  | coalesce (left right : Expr)
  | ternary (cond thenExpr elseExpr : Expr)
  | array (items : List Expr)
  | assign (target value : Expr)
  | paren (of : Expr)
  | raw (code : String)

inductive Entry where
  | keyed (key : String) (value : Expr)
  | spread (of : Expr)

structure Arrow where
  typeParams : List TypeParam
  params     : List Param
  returnType : Option Ty
  isAsync    : Bool
  body       : Body

inductive Body where
  | expr (value : Expr)
  | block (stmts : List Stmt)

inductive Stmt where
  | constant (binding : Binding) (ty : Option Ty) (init : Expr)
  | expr (of : Expr)
  | returns (value : Option Expr)
  | when (cond : Expr) (body : List Stmt)
  | throws (value : Expr)
  | exported (of : Stmt)

end

namespace Expr

def text (value : String) : Expr :=
  literal (.text value)

def apply (callee : Expr) (args : List Expr) : Expr :=
  call callee [] args

-- A function without type parameters or annotations, `(params) => value`.
def lambda (params : List Param) (value : Expr) : Expr :=
  arrow {
    typeParams := []
    params
    returnType := none
    isAsync    := false
    body       := .expr value
  }

end Expr

namespace Stmt

def define (name : String) (init : Expr) : Stmt :=
  constant (.single name) none init

def exportConstant (name : String) (init : Expr) : Stmt :=
  exported (constant (.single name) none init)

-- The names that a statement exports from the module.
def exports : Stmt → List String
  | exported (constant binding _ _) => binding.names
  | _                               => []

end Stmt

inductive TypeDef where
  | interface (name : String) (typeParams : List TypeParam) (properties : List Property)
  | enum (name : String) (members : List (String × Literal))

structure Function where
  name       : String
  typeParams : List TypeParam
  params     : List Param
  returnType : Option Ty
  body       : List Stmt
  isAsync    : Bool
  isExport   : Bool

structure ImportItem where
  name    : String
  renamed : Option String := none
  deriving DecidableEq

namespace ImportItem

def binding (item : ImportItem) : String :=
  item.renamed.getD item.name

end ImportItem

structure Import where
  default? : Option String := none
  items    : List ImportItem
  source   : String
  typeOnly : Bool := false
  deriving DecidableEq

namespace Import

def bindings (i : Import) : List String :=
  i.default?.toList ++ i.items.map (·.binding)

def isEmpty (i : Import) : Bool :=
  i.default?.isNone && i.items.isEmpty

theorem isEmpty_iff {i : Import} : i.isEmpty ↔ i.bindings = [] := by
  cases i.default?.eq_none_or_eq_some <;> simp_all [isEmpty, bindings]

end Import

end QueryHooks.TypeScript
