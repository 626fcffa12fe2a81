import QueryHooks.TypeScript.Print

namespace QueryHooks.TypeScript

def quotedKey (name : String) : List String :=
  if isIdentifier name then [] else [name]

mutual

@[simp]
def Ty.quoted : Ty → List String
  | .string             => []
  | .unknown            => []
  | .named _            => []
  | .generic _ args     => Ty.quotedAll args
  | .keyOf ty           => ty.quoted
  | .indexed object key => object.quoted ++ [key]

@[simp]
def Ty.quotedAll : List Ty → List String
  | []        => []
  | ty :: tys => ty.quoted ++ Ty.quotedAll tys

end

@[simp]
def annotationQuoted (ty : Option Ty) : List String :=
  ty.elim [] Ty.quoted

@[simp]
def Property.quoted : Property → List String
  | ⟨name, ty, _⟩ => quotedKey name ++ ty.quoted

@[simp]
def TypeParam.quoted : TypeParam → List String
  | ⟨_, constraint, fallback⟩ => annotationQuoted constraint ++ annotationQuoted fallback

@[simp]
def Param.quoted : Param → List String
  | ⟨_, ty, _⟩ => annotationQuoted ty

@[simp]
def Literal.quoted : Literal → List String
  | text value => [value]
  | null       => []

-- An entry whose key and value are the same name is written as that name, without quotes.
def Expr.isNamed (key : String) : Expr → Bool
  | .ident name => key = name
  | _           => false

mutual

@[simp]
def Expr.quoted : Expr → List String
  | .ident _                        => []
  | .literal value                  => value.quoted
  | .call callee typeArgs args      => callee.quoted ++ Ty.quotedAll typeArgs ++ Expr.quotedAll args
  | .arrow function                 => function.quoted
  | .object entries                 => Entry.quotedAll entries
  | .member object _                => object.quoted
  | .optionalMember object _        => object.quoted
  | .await of                       => of.quoted
  | .coalesce left right            => left.quoted ++ right.quoted
  | .ternary cond thenExpr elseExpr => cond.quoted ++ thenExpr.quoted ++ elseExpr.quoted
  | .array items                    => Expr.quotedAll items
  | .assign target value            => target.quoted ++ value.quoted
  | .paren of                       => of.quoted
  | .raw _                          => []

@[simp]
def Expr.quotedAll : List Expr → List String
  | []      => []
  | e :: es => e.quoted ++ Expr.quotedAll es

@[simp]
def Entry.quoted : Entry → List String
  | .keyed key value => (if value.isNamed key then [] else quotedKey key) ++ value.quoted
  | .spread of       => of.quoted

@[simp]
def Entry.quotedAll : List Entry → List String
  | []      => []
  | e :: es => e.quoted ++ Entry.quotedAll es

@[simp]
def Arrow.quoted : Arrow → List String
  | ⟨typeParams, params, returnType, _, body⟩ =>
    typeParams.flatMap TypeParam.quoted ++ params.flatMap Param.quoted ++ annotationQuoted returnType ++ body.quoted

@[simp]
def Body.quoted : Body → List String
  | .expr value  => value.quoted
  | .block stmts => Stmt.quotedAll stmts

@[simp]
def Stmt.quoted : Stmt → List String
  | .constant _ ty init   => annotationQuoted ty ++ init.quoted
  | .expr of              => of.quoted
  | .returns none         => []
  | .returns (some value) => value.quoted
  | .when cond body       => cond.quoted ++ Stmt.quotedAll body
  | .throws value         => value.quoted
  | .exported of          => of.quoted

@[simp]
def Stmt.quotedAll : List Stmt → List String
  | []      => []
  | s :: ss => s.quoted ++ Stmt.quotedAll ss

end

@[simp]
theorem Entry.quotedAll_append (es es' : List Entry) :
    Entry.quotedAll (es ++ es') = Entry.quotedAll es ++ Entry.quotedAll es' := by
  induction es <;> simp_all

theorem Entry.printIn_keyed_eq (layout : Layout) (level : Nat) (key : String) (value : Expr) :
    printIn layout level (.keyed key value) =
      if value.isNamed key then key else quoteKey key ++ ": " ++ value.printIn layout level := by
  cases value
  case ident name => simp [printIn, Expr.isNamed, Expr.printIn]
  all_goals rfl

@[simp]
def TypeDef.quoted : TypeDef → List String
  | interface _ typeParams properties => typeParams.flatMap TypeParam.quoted ++ properties.flatMap Property.quoted
  | enum _ members                    => members.flatMap fun (key, value) => quotedKey key ++ value.quoted

@[simp]
def Function.quoted : Function → List String
  | ⟨_, typeParams, params, returnType, body, _, _⟩ =>
    typeParams.flatMap TypeParam.quoted ++ params.flatMap Param.quoted ++ annotationQuoted returnType ++
      Stmt.quotedAll body

end QueryHooks.TypeScript
