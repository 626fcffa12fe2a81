import QueryHooks.Proofs.TypeScript.Subexpr

namespace QueryHooks.TypeScript

namespace Stmt

-- The names that a statement of a block declares in it.
@[simp]
def declared : Stmt → List String
  | constant binding _ _ => binding.names
  | _                    => []

end Stmt

mutual

-- The identifiers that are called, each one with the local names in scope there.
@[simp]
def Expr.scopedCalls (scope : List String) : Expr → List (String × List String)
  | .ident _                        => []
  | .literal _                      => []
  | .call callee typeArgs args      =>
    ((Expr.call callee typeArgs args).callee?.map (·, scope)).toList ++
      callee.scopedCalls scope ++ Expr.scopedCallsAll scope args
  | .arrow function                 => function.scopedCalls scope
  | .object entries                 => Entry.scopedCallsAll scope entries
  | .member object _                => object.scopedCalls scope
  | .optionalMember object _        => object.scopedCalls scope
  | .await of                       => of.scopedCalls scope
  | .coalesce left right            => left.scopedCalls scope ++ right.scopedCalls scope
  | .ternary cond thenExpr elseExpr =>
    cond.scopedCalls scope ++ thenExpr.scopedCalls scope ++ elseExpr.scopedCalls scope
  | .array items                    => Expr.scopedCallsAll scope items
  | .assign target value            => target.scopedCalls scope ++ value.scopedCalls scope
  | .paren of                       => of.scopedCalls scope
  | .raw _                          => []

@[simp]
def Expr.scopedCallsAll (scope : List String) : List Expr → List (String × List String)
  | []      => []
  | e :: es => e.scopedCalls scope ++ Expr.scopedCallsAll scope es

@[simp]
def Entry.scopedCalls (scope : List String) : Entry → List (String × List String)
  | .keyed _ value => value.scopedCalls scope
  | .spread of     => of.scopedCalls scope

@[simp]
def Entry.scopedCallsAll (scope : List String) : List Entry → List (String × List String)
  | []      => []
  | e :: es => e.scopedCalls scope ++ Entry.scopedCallsAll scope es

@[simp]
def Arrow.scopedCalls (scope : List String) : Arrow → List (String × List String)
  | ⟨_, params, _, _, body⟩ => body.scopedCalls (scope ++ params.map (·.name))

-- The constants of a block are in scope in all of it, also before they are initialized.
@[simp]
def Body.scopedCalls (scope : List String) : Body → List (String × List String)
  | .expr value  => value.scopedCalls scope
  | .block stmts => Stmt.scopedCallsAll (scope ++ stmts.flatMap (·.declared)) stmts

@[simp]
def Stmt.scopedCalls (scope : List String) : Stmt → List (String × List String)
  | .constant _ _ init    => init.scopedCalls scope
  | .expr of              => of.scopedCalls scope
  | .returns none         => []
  | .returns (some value) => value.scopedCalls scope
  | .when cond body       =>
    cond.scopedCalls scope ++ Stmt.scopedCallsAll (scope ++ body.flatMap (·.declared)) body
  | .throws value         => value.scopedCalls scope
  | .exported of          => of.scopedCalls scope

@[simp]
def Stmt.scopedCallsAll (scope : List String) : List Stmt → List (String × List String)
  | []      => []
  | s :: ss => s.scopedCalls scope ++ Stmt.scopedCallsAll scope ss

end

mutual

theorem Expr.map_fst_scopedCalls (scope : List String) :
    ∀ e : Expr, (e.scopedCalls scope).map (·.1) = e.collect Expr.callee?
  | .ident _                        => rfl
  | .literal _                      => rfl
  | .call callee typeArgs args      => by
    have ho : ((Expr.call callee typeArgs args).callee?.map (·, scope)).toList.map (·.1) =
        (Expr.call callee typeArgs args).callee?.toList := by
      cases (Expr.call callee typeArgs args).callee? <;> rfl
    rw [Expr.scopedCalls, List.map_append, List.map_append, ho]
    rw [callee.map_fst_scopedCalls scope, Expr.map_fst_scopedCallsAll scope args]
    rfl
  | .arrow function                 => function.map_fst_scopedCalls scope
  | .object entries                 => Entry.map_fst_scopedCallsAll scope entries
  | .member object _                => object.map_fst_scopedCalls scope
  | .optionalMember object _        => object.map_fst_scopedCalls scope
  | .await of                       => of.map_fst_scopedCalls scope
  | .coalesce left right            => by simp [left.map_fst_scopedCalls scope, right.map_fst_scopedCalls scope]
  | .ternary cond thenExpr elseExpr => by
    simp [cond.map_fst_scopedCalls scope, thenExpr.map_fst_scopedCalls scope, elseExpr.map_fst_scopedCalls scope]
  | .array items                    => Expr.map_fst_scopedCallsAll scope items
  | .assign target value            => by simp [target.map_fst_scopedCalls scope, value.map_fst_scopedCalls scope]
  | .paren of                       => of.map_fst_scopedCalls scope
  | .raw _                          => rfl

theorem Expr.map_fst_scopedCallsAll (scope : List String) :
    ∀ es : List Expr, (Expr.scopedCallsAll scope es).map (·.1) = Expr.collectAll Expr.callee? es
  | []      => rfl
  | e :: es => by simp [e.map_fst_scopedCalls scope, Expr.map_fst_scopedCallsAll scope es]

theorem Entry.map_fst_scopedCalls (scope : List String) :
    ∀ e : Entry, (e.scopedCalls scope).map (·.1) = e.collect Expr.callee?
  | .keyed _ value => value.map_fst_scopedCalls scope
  | .spread of     => of.map_fst_scopedCalls scope

theorem Entry.map_fst_scopedCallsAll (scope : List String) :
    ∀ es : List Entry, (Entry.scopedCallsAll scope es).map (·.1) = Entry.collectAll Expr.callee? es
  | []      => rfl
  | e :: es => by simp [e.map_fst_scopedCalls scope, Entry.map_fst_scopedCallsAll scope es]

theorem Arrow.map_fst_scopedCalls (scope : List String) :
    ∀ a : Arrow, (a.scopedCalls scope).map (·.1) = a.collect Expr.callee?
  | ⟨_, _, _, _, body⟩ => body.map_fst_scopedCalls _

theorem Body.map_fst_scopedCalls (scope : List String) :
    ∀ b : Body, (b.scopedCalls scope).map (·.1) = b.collect Expr.callee?
  | .expr value  => value.map_fst_scopedCalls scope
  | .block stmts => Stmt.map_fst_scopedCallsAll _ stmts

theorem Stmt.map_fst_scopedCalls (scope : List String) :
    ∀ s : Stmt, (s.scopedCalls scope).map (·.1) = s.collect Expr.callee?
  | .constant _ _ init    => init.map_fst_scopedCalls scope
  | .expr of              => of.map_fst_scopedCalls scope
  | .returns none         => rfl
  | .returns (some value) => value.map_fst_scopedCalls scope
  | .when cond body       => by
    simp [cond.map_fst_scopedCalls scope, Stmt.map_fst_scopedCallsAll _ body]
  | .throws value         => value.map_fst_scopedCalls scope
  | .exported of          => of.map_fst_scopedCalls scope

theorem Stmt.map_fst_scopedCallsAll (scope : List String) :
    ∀ ss : List Stmt, (Stmt.scopedCallsAll scope ss).map (·.1) = Stmt.collectAll Expr.callee? ss
  | []      => rfl
  | s :: ss => by simp [s.map_fst_scopedCalls scope, Stmt.map_fst_scopedCallsAll scope ss]

end

theorem Stmt.callees_eq (s : Stmt) : s.callees = (s.scopedCalls []).map (·.1) :=
  (s.map_fst_scopedCalls []).symm

end QueryHooks.TypeScript
