import QueryHooks.Text.Join
import QueryHooks.TypeScript.Quoted
import QueryHooks.TypeScript.Tree

namespace QueryHooks.TypeScript

open Text (concat join)

def indent (level : Nat) : String :=
  .ofList (List.replicate (2 * level) ' ')

@[simp]
theorem toList_indent : (indent level).toList = List.replicate (2 * level) ' ' := by
  simp [indent]

theorem indent_add : indent (i + k) = indent i ++ indent k := by
  simp [indent, Nat.mul_add, ← List.replicate_append_replicate]

mutual

def Ty.print : Ty → String
  | .string             => "string"
  | .unknown            => "unknown"
  | .named name         => name
  | .generic name args  => name ++ "<" ++ join ", " (Ty.printAll args) ++ ">"
  | .keyOf ty           => "keyof " ++ ty.print
  | .indexed object key => object.print ++ "[" ++ quote key ++ "]"

def Ty.printAll : List Ty → List String
  | []        => []
  | ty :: tys => ty.print :: Ty.printAll tys

end

def Literal.print : Literal → String
  | .text value => quote value
  | .null       => "null"

def optionalMark (optional : Bool) : String :=
  if optional then "?" else ""

def annotation : Option Ty → String
  | none    => ""
  | some ty => ": " ++ ty.print

namespace Property

def print (p : Property) : String :=
  quoteKey p.name ++ optionalMark p.optional ++ ": " ++ p.ty.print

end Property

namespace TypeParam

def print (p : TypeParam) : String :=
  p.name ++
    (p.constraint.elim "" (" extends " ++ ·.print)) ++
    (p.fallback.elim "" (" = " ++ ·.print))

def printAll (params : List TypeParam) : String :=
  if params.isEmpty then "" else "<" ++ join ", " (params.map print) ++ ">"

end TypeParam

namespace Param

def print (p : Param) : String :=
  p.name ++ optionalMark p.optional ++ annotation p.ty

def printAll (params : List Param) : String :=
  "(" ++ join ", " (params.map print) ++ ")"

end Param

namespace Binding

def print : Binding → String
  | single name   => name
  | members pairs => "\x7b " ++ join ", " (pairs.map fun (key, name) => key ++ ": " ++ name) ++ " \x7d"

end Binding

-- Which object literals are written on one line is a parameter: it is the only choice that the layout leaves open.
structure Layout where
  fits : String → Bool

namespace Layout

def maxInlineBytes : Nat := 80

def standard : Layout where
  fits text := text.utf8ByteSize ≤ maxInlineBytes && !text.toList.contains '\n'

def oneLine : Layout where
  fits _ := true

def object (layout : Layout) (level : Nat) (entries : List String) : String :=
  if entries.isEmpty then "\x7b\x7d"
  else
    let inline := "\x7b " ++ join ", " entries ++ " \x7d"
    if layout.fits inline then inline
    else
      "\x7b\n" ++ join ",\n" (entries.map (indent (level + 1) ++ ·)) ++ "\n" ++ indent level ++ "\x7d"

end Layout

def typeArguments (args : List Ty) : String :=
  if args.isEmpty then "" else "<" ++ join ", " (Ty.printAll args) ++ ">"

def asyncMark (isAsync : Bool) : String :=
  if isAsync then "async " else ""

def exportMark (isExport : Bool) : String :=
  if isExport then "export " else ""

-- A statement is exported by a word put in front of it, and the indentation it begins with is given up.
def trimIndent (text : String) : String :=
  .ofList (Text.trimStart text.toList)

mutual

def Expr.printIn (layout : Layout) (level : Nat) : Expr → String
  | .ident name                      => name
  | .literal value                   => value.print
  | .call callee typeArgs args       =>
    callee.printIn layout level ++ typeArguments typeArgs ++ "(" ++ join ", " (Expr.printAllIn layout level args) ++ ")"
  | .arrow function                  => function.printIn layout level
  | .object entries                  => layout.object level (Entry.printAllIn layout (level + 1) entries)
  | .member object name              => object.printIn layout level ++ "." ++ name
  | .optionalMember object name      => object.printIn layout level ++ "?." ++ name
  | .await of                        => "await " ++ of.printIn layout level
  | .coalesce left right             => left.printIn layout level ++ " ?? " ++ right.printIn layout level
  | .ternary cond thenExpr elseExpr  =>
    cond.printIn layout level ++ " ? " ++ thenExpr.printIn layout level ++ " : " ++ elseExpr.printIn layout level
  | .array items                     => "[" ++ join ", " (Expr.printAllIn layout level items) ++ "]"
  | .assign target value             => target.printIn layout level ++ " = " ++ value.printIn layout level
  | .paren of                        => "(" ++ of.printIn layout level ++ ")"
  | .raw code                        => code

def Expr.printAllIn (layout : Layout) (level : Nat) : List Expr → List String
  | []      => []
  | e :: es => e.printIn layout level :: Expr.printAllIn layout level es

def Entry.printIn (layout : Layout) (level : Nat) : Entry → String
  | .keyed key (.ident name) =>
    if key = name then key else quoteKey key ++ ": " ++ name
  | .keyed key value         => quoteKey key ++ ": " ++ value.printIn layout level
  | .spread of               => "..." ++ of.printIn layout level

def Entry.printAllIn (layout : Layout) (level : Nat) : List Entry → List String
  | []      => []
  | e :: es => e.printIn layout level :: Entry.printAllIn layout level es

def Arrow.printIn (layout : Layout) (level : Nat) : Arrow → String
  | ⟨typeParams, params, returnType, isAsync, body⟩ =>
    asyncMark isAsync ++ TypeParam.printAll typeParams ++ Param.printAll params ++ annotation returnType ++ " => " ++
      body.printIn layout level

def Body.printIn (layout : Layout) (level : Nat) : Body → String
  | .expr value  => value.printIn layout level
  | .block stmts => "\x7b\n" ++ concat (Stmt.printAllIn layout (level + 1) stmts) ++ indent level ++ "\x7d"

def Stmt.printIn (layout : Layout) (level : Nat) : Stmt → String
  | .constant binding ty init =>
    indent level ++ "const " ++ binding.print ++ annotation ty ++ " = " ++ init.printIn layout level ++ ";\n"
  | .expr of                  => indent level ++ of.printIn layout level ++ ";\n"
  | .returns none             => indent level ++ "return;\n"
  | .returns (some value)     => indent level ++ "return " ++ value.printIn layout level ++ ";\n"
  | .when cond body           =>
    indent level ++ "if (" ++ cond.printIn layout level ++ ") \x7b\n" ++
      concat (Stmt.printAllIn layout (level + 1) body) ++ indent level ++ "\x7d\n"
  | .throws value             => indent level ++ "throw " ++ value.printIn layout level ++ ";\n"
  | .exported of              => indent level ++ "export " ++ trimIndent (of.printIn layout level)

def Stmt.printAllIn (layout : Layout) (level : Nat) : List Stmt → List String
  | []      => []
  | s :: ss => s.printIn layout level :: Stmt.printAllIn layout level ss

end

theorem Ty.printAll_eq_map (tys : List Ty) : Ty.printAll tys = tys.map Ty.print := by
  induction tys <;> simp_all [Ty.printAll]

theorem Expr.printAllIn_eq_map (es : List Expr) :
    Expr.printAllIn layout level es = es.map (·.printIn layout level) := by
  induction es <;> simp_all [Expr.printAllIn]

theorem Entry.printAllIn_eq_map (es : List Entry) :
    Entry.printAllIn layout level es = es.map (·.printIn layout level) := by
  induction es <;> simp_all [Entry.printAllIn]

theorem Stmt.printAllIn_eq_map (ss : List Stmt) :
    Stmt.printAllIn layout level ss = ss.map (·.printIn layout level) := by
  induction ss <;> simp_all [Stmt.printAllIn]

namespace Expr

def printAt (level : Nat) (e : Expr) : String :=
  e.printIn .standard level

def print (e : Expr) : String :=
  e.printAt 0

end Expr

namespace Arrow

def printAt (level : Nat) (a : Arrow) : String :=
  a.printIn .standard level

def print (a : Arrow) : String :=
  a.printAt 0

end Arrow

namespace Stmt

def printAt (level : Nat) (s : Stmt) : String :=
  s.printIn .standard level

def print (s : Stmt) : String :=
  s.printAt 0

end Stmt

namespace TypeDef

def print : TypeDef → String
  | interface name typeParams properties =>
    "export interface " ++ name ++ TypeParam.printAll typeParams ++ " \x7b\n" ++
      concat (properties.map fun p => indent 1 ++ p.print ++ ";\n") ++ "\x7d\n"
  | enum name members =>
    "export enum " ++ name ++ " \x7b\n" ++
      concat (members.map fun (key, value) => indent 1 ++ quoteKey key ++ " = " ++ value.print ++ ",\n") ++ "\x7d\n"

end TypeDef

namespace Function

def print (f : Function) : String :=
  exportMark f.isExport ++ asyncMark f.isAsync ++ "function " ++ f.name ++ TypeParam.printAll f.typeParams ++
    Param.printAll f.params ++ annotation f.returnType ++
    if f.body.isEmpty then " \x7b\x7d\n" else " \x7b\n" ++ concat (f.body.map (·.printAt 1)) ++ "\x7d\n"

end Function

namespace ImportItem

def print (item : ImportItem) : String :=
  match item.renamed with
  | some binding => item.name ++ " as " ++ binding
  | none         => item.name

end ImportItem

namespace Import

def clauses (i : Import) : List String :=
  i.default?.toList ++ if i.items.isEmpty then [] else ["\x7b " ++ join ", " (i.items.map (·.print)) ++ " \x7d"]

def print (i : Import) : String :=
  "import " ++ (if i.typeOnly then "type " else "") ++ join ", " i.clauses ++ " from " ++ quote i.source ++ ";"

end Import

end QueryHooks.TypeScript
