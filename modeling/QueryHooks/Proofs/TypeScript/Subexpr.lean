import QueryHooks.TypeScript.Tree

namespace QueryHooks.TypeScript

mutual

-- What `f` picks from the expression and from all expressions in it, from the outside to the inside.
@[simp]
def Expr.collect (f : Expr → Option α) : Expr → List α
  | .ident name                     => (f (.ident name)).toList
  | .literal value                  => (f (.literal value)).toList
  | .call callee typeArgs args      =>
    (f (.call callee typeArgs args)).toList ++ callee.collect f ++ Expr.collectAll f args
  | .arrow function                 => (f (.arrow function)).toList ++ function.collect f
  | .object entries                 => (f (.object entries)).toList ++ Entry.collectAll f entries
  | .member object name             => (f (.member object name)).toList ++ object.collect f
  | .optionalMember object name     => (f (.optionalMember object name)).toList ++ object.collect f
  | .await of                       => (f (.await of)).toList ++ of.collect f
  | .coalesce left right            => (f (.coalesce left right)).toList ++ left.collect f ++ right.collect f
  | .ternary cond thenExpr elseExpr =>
    (f (.ternary cond thenExpr elseExpr)).toList ++ cond.collect f ++ thenExpr.collect f ++ elseExpr.collect f
  | .array items                    => (f (.array items)).toList ++ Expr.collectAll f items
  | .assign target value            => (f (.assign target value)).toList ++ target.collect f ++ value.collect f
  | .paren of                       => (f (.paren of)).toList ++ of.collect f
  | .raw code                       => (f (.raw code)).toList

@[simp]
def Expr.collectAll (f : Expr → Option α) : List Expr → List α
  | []      => []
  | e :: es => e.collect f ++ Expr.collectAll f es

@[simp]
def Entry.collect (f : Expr → Option α) : Entry → List α
  | .keyed _ value => value.collect f
  | .spread of     => of.collect f

@[simp]
def Entry.collectAll (f : Expr → Option α) : List Entry → List α
  | []      => []
  | e :: es => e.collect f ++ Entry.collectAll f es

@[simp]
def Arrow.collect (f : Expr → Option α) : Arrow → List α
  | ⟨_, _, _, _, body⟩ => body.collect f

@[simp]
def Body.collect (f : Expr → Option α) : Body → List α
  | .expr value  => value.collect f
  | .block stmts => Stmt.collectAll f stmts

@[simp]
def Stmt.collect (f : Expr → Option α) : Stmt → List α
  | .constant _ _ init    => init.collect f
  | .expr of              => of.collect f
  | .returns none         => []
  | .returns (some value) => value.collect f
  | .when cond body       => cond.collect f ++ Stmt.collectAll f body
  | .throws value         => value.collect f
  | .exported of          => of.collect f

@[simp]
def Stmt.collectAll (f : Expr → Option α) : List Stmt → List α
  | []      => []
  | s :: ss => s.collect f ++ Stmt.collectAll f ss

end

namespace Expr

-- The identifier that the expression calls.
@[simp]
def callee? : Expr → Option String
  | call (ident name) _ _ => some name
  | _                     => none

-- The name of the member of `object` that the expression reads.
@[simp]
def memberOf? (object : String) : Expr → Option String
  | member (ident object') name => if object' = object then some name else none
  | _                           => none

end Expr

namespace Stmt

-- The identifiers that are called in the statement.
def callees (s : Stmt) : List String :=
  s.collect Expr.callee?

-- The members of `object` that are read in the statement.
def membersOf (object : String) (s : Stmt) : List String :=
  s.collect (Expr.memberOf? object)

end Stmt
end QueryHooks.TypeScript
