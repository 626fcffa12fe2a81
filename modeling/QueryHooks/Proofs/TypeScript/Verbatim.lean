import QueryHooks.Proofs.TypeScript.Bracket

namespace QueryHooks.TypeScript

open Text (join concat)

def AllClosed (ts : List String) : Prop :=
  ∀ t ∈ ts, Closed t

instance : Decidable (AllClosed ts) :=
  inferInstanceAs <| Decidable (∀ t ∈ ts, Closed t)

namespace AllClosed

@[simp]
theorem nil : AllClosed [] :=
  nofun

@[simp]
theorem cons_iff : AllClosed (t :: ts) ↔ Closed t ∧ AllClosed ts :=
  List.forall_mem_cons

@[simp]
theorem append_iff : AllClosed (ss ++ ts) ↔ AllClosed ss ∧ AllClosed ts :=
  List.forall_mem_append

variable {as : List α}

theorem of_flatMap {f : α → List String} (h : AllClosed (as.flatMap f)) (ha : a ∈ as) : AllClosed (f a) :=
  fun t ht => h t <| List.mem_flatMap.mpr ⟨a, ha, ht⟩

theorem map {f : α → String} (h : ∀ a ∈ as, Closed (f a)) : AllClosed (as.map f) :=
  List.forall_mem_map.mpr h

theorem join_commas (h : AllClosed ts) : Closed (join ", " ts) :=
  Closed.join rfl h

end AllClosed

mutual

@[simp]
def Ty.verbatim : Ty → List String
  | .string            => []
  | .unknown           => []
  | .named name        => [name]
  | .generic name args => name :: Ty.verbatimAll args
  | .keyOf ty          => ty.verbatim
  | .indexed object _  => object.verbatim

@[simp]
def Ty.verbatimAll : List Ty → List String
  | []        => []
  | ty :: tys => ty.verbatim ++ Ty.verbatimAll tys

end

@[simp]
def annotationVerbatim (ty : Option Ty) : List String :=
  ty.elim [] Ty.verbatim

namespace Property

@[simp]
def verbatim : Property → List String
  | ⟨_, ty, _⟩ => ty.verbatim

end Property

namespace TypeParam

@[simp]
def verbatim : TypeParam → List String
  | ⟨name, constraint, fallback⟩ => name :: annotationVerbatim constraint ++ annotationVerbatim fallback

end TypeParam

namespace Param

def verbatim : Param → List String
  | ⟨name, ty, _⟩ => name :: annotationVerbatim ty

end Param

namespace Binding

@[simp]
def verbatim : Binding → List String
  | single name   => [name]
  | members pairs => pairs.flatMap fun (key, name) => [key, name]

end Binding

mutual

theorem Ty.closed_print : ∀ ty : Ty, AllClosed ty.verbatim → Closed ty.print
  | .string, _            => by decide
  | .unknown, _           => by decide
  | .named _, h           => (AllClosed.cons_iff.mp h).left
  | .generic _ args, h    => by
    have ⟨hn, ha⟩ := AllClosed.cons_iff.mp h
    have hj := (Ty.closed_printAll args ha).join_commas
    exact hn.append (t := "<") rfl |>.append hj |>.append (t := ">") rfl
  | .keyOf ty, h          => Closed.append (s := "keyof ") rfl <| ty.closed_print h
  | .indexed object _, h  => by
    have ho := object.closed_print h
    exact ho.leads [] |>.append (t := "[") rfl |>.append ((closed_quote _).leads _) |>.append rfl

theorem Ty.closed_printAll : ∀ tys : List Ty, AllClosed (Ty.verbatimAll tys) → AllClosed (Ty.printAll tys)
  | [], _        => .nil
  | ty :: tys, h => by
    have ⟨ht, hs⟩ := AllClosed.append_iff.mp h
    exact AllClosed.cons_iff.mpr ⟨ty.closed_print ht, Ty.closed_printAll tys hs⟩

end

theorem closed_annotation (h : AllClosed (annotationVerbatim ty)) : Closed <| annotation ty := by
  cases ty
  case none    => rfl
  case some ty => exact Closed.append (s := ": ") rfl <| ty.closed_print h

theorem closed_optionalMark (optional : Bool) : Closed (optionalMark optional) := by
  cases optional <;> decide

theorem Property.closed_print (h : AllClosed p.verbatim) : Closed (print p) := by
  have hn := (closed_quoteKey p.name).append <| closed_optionalMark p.optional
  exact hn.append (t := ": ") rfl |>.append <| p.ty.closed_print h

theorem closed_clause (word : String) (hw : Closed word) (h : AllClosed (annotationVerbatim ty)) :
    Closed (ty.elim "" (word ++ ·.print)) := by
  cases ty
  case none    => rfl
  case some ty => exact hw.append <| ty.closed_print h

namespace TypeParam

theorem closed_print (h : AllClosed p.verbatim) : Closed (print p) := by
  have ⟨h, hf⟩ := AllClosed.append_iff.mp h
  have ⟨hn, hc⟩ := AllClosed.cons_iff.mp h
  have hc := closed_clause " extends " rfl hc
  have hf := closed_clause " = " rfl hf
  exact hn.append hc |>.append hf

theorem closed_printAll (h : AllClosed (params.flatMap verbatim)) : Closed (printAll params) := by
  rw [printAll]
  split
  case isTrue  => rfl
  case isFalse =>
    have hp : AllClosed (params.map print) := .map fun p hp => closed_print <| h.of_flatMap hp
    exact Closed.append (s := "<") rfl hp.join_commas |>.append rfl

end TypeParam

namespace Param

theorem closed_print (h : AllClosed p.verbatim) : Closed (print p) := by
  have ⟨hn, ht⟩ := AllClosed.cons_iff.mp h
  exact hn.append (closed_optionalMark p.optional) |>.append <| closed_annotation ht

theorem closed_printAll (h : AllClosed (params.flatMap verbatim)) : Closed (printAll params) := by
  have hp : AllClosed (params.map print) := .map fun p hp => closed_print <| h.of_flatMap hp
  exact .wrap rfl hp.join_commas rfl

end Param

theorem Binding.closed_print (h : AllClosed (verbatim b)) : Closed b.print := by
  cases b
  case single       => exact (AllClosed.cons_iff.mp h).left
  case members pairs =>
    have hp : AllClosed (pairs.map fun (key, name) => key ++ ": " ++ name) := by
      refine .map fun (key, name) hp => ?_
      have ⟨hk, hn⟩ := AllClosed.cons_iff.mp <| h.of_flatMap hp
      have hn := (AllClosed.cons_iff.mp hn).left
      exact hk.append (t := ": ") rfl |>.append hn
    exact .wrap rfl hp.join_commas rfl

mutual

@[simp]
def Expr.verbatim : Expr → List String
  | .ident name                     => [name]
  | .literal _                      => []
  | .call callee typeArgs args      => callee.verbatim ++ Ty.verbatimAll typeArgs ++ Expr.verbatimAll args
  | .arrow function                 => function.verbatim
  | .object entries                 => Entry.verbatimAll entries
  | .member object name             => object.verbatim ++ [name]
  | .optionalMember object name     => object.verbatim ++ [name]
  | .await of                       => of.verbatim
  | .coalesce left right            => left.verbatim ++ right.verbatim
  | .ternary cond thenExpr elseExpr => cond.verbatim ++ thenExpr.verbatim ++ elseExpr.verbatim
  | .array items                    => Expr.verbatimAll items
  | .assign target value            => target.verbatim ++ value.verbatim
  | .paren of                       => of.verbatim
  | .raw code                       => [code]

@[simp]
def Expr.verbatimAll : List Expr → List String
  | []      => []
  | e :: es => e.verbatim ++ Expr.verbatimAll es

-- A key stands without quotes if it is an identifier, or the name that it is the key of.
@[simp]
def Entry.verbatim : Entry → List String
  | .keyed _ value => value.verbatim
  | .spread of     => of.verbatim

@[simp]
def Entry.verbatimAll : List Entry → List String
  | []      => []
  | e :: es => e.verbatim ++ Entry.verbatimAll es

@[simp]
def Arrow.verbatim : Arrow → List String
  | ⟨typeParams, params, returnType, _, body⟩ =>
    typeParams.flatMap TypeParam.verbatim ++ params.flatMap Param.verbatim ++ annotationVerbatim returnType ++
      body.verbatim

@[simp]
def Body.verbatim : Body → List String
  | .expr value  => value.verbatim
  | .block stmts => Stmt.verbatimAll stmts

@[simp]
def Stmt.verbatim : Stmt → List String
  | .constant binding ty init => binding.verbatim ++ annotationVerbatim ty ++ init.verbatim
  | .expr of                  => of.verbatim
  | .returns none             => []
  | .returns (some value)     => value.verbatim
  | .when cond body           => cond.verbatim ++ Stmt.verbatimAll body
  | .throws value             => value.verbatim
  | .exported of              => of.verbatim

@[simp]
def Stmt.verbatimAll : List Stmt → List String
  | []      => []
  | s :: ss => s.verbatim ++ Stmt.verbatimAll ss

end

@[simp]
theorem Entry.verbatimAll_append (es es' : List Entry) :
    Entry.verbatimAll (es ++ es') = Entry.verbatimAll es ++ Entry.verbatimAll es' := by
  induction es <;> simp_all

theorem Literal.closed_print (l : Literal) : Closed l.print := by
  cases l
  case text value => exact closed_quote value
  case null       => rfl

theorem closed_typeArguments (h : AllClosed (Ty.verbatimAll args)) : Closed (typeArguments args) := by
  rw [typeArguments]
  split
  case isTrue  => rfl
  case isFalse => exact Closed.append (s := "<") rfl (Ty.closed_printAll args h).join_commas |>.append rfl

theorem closed_asyncMark (isAsync : Bool) : Closed (asyncMark isAsync) := by
  cases isAsync <;> decide

variable {layout : Layout}

theorem Layout.closed_object (h : AllClosed entries) : Closed (layout.object level entries) := by
  rw [Layout.object]
  split
  case isTrue  => rfl
  case isFalse =>
    dsimp only
    split
    case isTrue  => exact .wrap rfl h.join_commas rfl
    case isFalse =>
      have he : AllClosed (entries.map (indent (level + 1) ++ ·)) := .map fun e he => (closed_indent _).append (h e he)
      have hj : Closed (join ",\n" (entries.map (indent (level + 1) ++ ·))) := .join rfl he
      have ho : Leads [] "\x7b\n" ['\x7d'] := rfl
      exact ho.append (hj.leads _) |>.append (t := "\n") rfl |>.append ((closed_indent level).leads _) |>.append rfl

mutual

theorem Expr.closed_printIn : ∀ (e : Expr) (level : Nat), AllClosed e.verbatim → Closed (e.printIn layout level)
  | .ident _, _, h                      => (AllClosed.cons_iff.mp h).left
  | .literal value, _, _                => value.closed_print
  | .call callee typeArgs args, level, h => by
    have ⟨h, ha⟩ := AllClosed.append_iff.mp h
    have ⟨hc, ht⟩ := AllClosed.append_iff.mp h
    have hc := (callee.closed_printIn level hc).append <| closed_typeArguments ht
    have ha := (Expr.closed_printAllIn args level ha).join_commas
    exact hc.leads [] |>.append (t := "(") rfl |>.append (ha.leads _) |>.append rfl
  | .arrow function, level, h           => function.closed_printIn level h
  | .object entries, level, h           => Layout.closed_object <| Entry.closed_printAllIn entries (level + 1) h
  | .member object name, level, h       => by
    have ⟨ho, hn⟩ := AllClosed.append_iff.mp h
    have hn := (AllClosed.cons_iff.mp hn).left
    exact (object.closed_printIn level ho).append (t := ".") rfl |>.append hn
  | .optionalMember object name, level, h => by
    have ⟨ho, hn⟩ := AllClosed.append_iff.mp h
    have hn := (AllClosed.cons_iff.mp hn).left
    exact (object.closed_printIn level ho).append (t := "?.") rfl |>.append hn
  | .await of, level, h                 => Closed.append (s := "await ") rfl <| of.closed_printIn level h
  | .coalesce left right, level, h      => by
    have ⟨hl, hr⟩ := AllClosed.append_iff.mp h
    exact (left.closed_printIn level hl).append (t := " ?? ") rfl |>.append <| right.closed_printIn level hr
  | .ternary cond thenExpr elseExpr, level, h => by
    have ⟨h, he⟩ := AllClosed.append_iff.mp h
    have ⟨hc, ht⟩ := AllClosed.append_iff.mp h
    have hc := (cond.closed_printIn level hc).append (t := " ? ") rfl
    have ht := (thenExpr.closed_printIn level ht)
    exact hc.append ht |>.append (t := " : ") rfl |>.append <| elseExpr.closed_printIn level he
  | .array items, level, h              => .wrap rfl (Expr.closed_printAllIn items level h).join_commas rfl
  | .assign target value, level, h      => by
    have ⟨ht, hv⟩ := AllClosed.append_iff.mp h
    exact (target.closed_printIn level ht).append (t := " = ") rfl |>.append <| value.closed_printIn level hv
  | .paren of, level, h                 => .wrap rfl (of.closed_printIn level h) rfl
  | .raw _, _, h                        => (AllClosed.cons_iff.mp h).left

theorem Expr.closed_printAllIn :
    ∀ (es : List Expr) (level : Nat), AllClosed (Expr.verbatimAll es) → AllClosed (Expr.printAllIn layout level es)
  | [], _, _          => .nil
  | e :: es, level, h => by
    have ⟨he, hs⟩ := AllClosed.append_iff.mp h
    exact AllClosed.cons_iff.mpr ⟨e.closed_printIn level he, Expr.closed_printAllIn es level hs⟩

theorem Entry.closed_printIn : ∀ (e : Entry) (level : Nat), AllClosed e.verbatim → Closed (e.printIn layout level)
  | .keyed key value, level, h => by
    have hv := value.closed_printIn level h
    have hk := (closed_quoteKey key).append (t := ": ") rfl |>.append hv
    cases value
    case ident name =>
      rw [Entry.printIn]
      split
      case isTrue he => exact he ▸ hv
      case isFalse   => exact hk
    all_goals exact hk
  | .spread of, level, h       => Closed.append (s := "...") rfl <| of.closed_printIn level h

theorem Entry.closed_printAllIn :
    ∀ (es : List Entry) (level : Nat), AllClosed (Entry.verbatimAll es) → AllClosed (Entry.printAllIn layout level es)
  | [], _, _          => .nil
  | e :: es, level, h => by
    have ⟨he, hs⟩ := AllClosed.append_iff.mp h
    exact AllClosed.cons_iff.mpr ⟨e.closed_printIn level he, Entry.closed_printAllIn es level hs⟩

theorem Arrow.closed_printIn : ∀ (a : Arrow) (level : Nat), AllClosed a.verbatim → Closed (a.printIn layout level)
  | ⟨typeParams, params, returnType, isAsync, body⟩, level, h => by
    have ⟨h, hb⟩ := AllClosed.append_iff.mp h
    have ⟨h, hr⟩ := AllClosed.append_iff.mp h
    have ⟨ht, hp⟩ := AllClosed.append_iff.mp h
    have hm := (closed_asyncMark isAsync).append <| TypeParam.closed_printAll ht
    have hs := hm.append (Param.closed_printAll hp) |>.append <| closed_annotation hr
    exact hs.append (t := " => ") rfl |>.append <| body.closed_printIn level hb

theorem Body.closed_printIn : ∀ (b : Body) (level : Nat), AllClosed b.verbatim → Closed (b.printIn layout level)
  | .expr value, level, h  => value.closed_printIn level h
  | .block stmts, level, h => by
    have hs := Closed.concat <| Stmt.closed_printAllIn stmts (level + 1) h
    have ho : Leads [] "\x7b\n" ['\x7d'] := rfl
    exact ho.append (hs.leads _) |>.append ((closed_indent level).leads _) |>.append rfl

theorem Stmt.closed_printIn : ∀ (s : Stmt) (level : Nat), AllClosed s.verbatim → Closed (s.printIn layout level)
  | .constant binding ty init, level, h => by
    have ⟨h, hi⟩ := AllClosed.append_iff.mp h
    have ⟨hb, ht⟩ := AllClosed.append_iff.mp h
    have hc := (closed_indent level).append (t := "const ") rfl |>.append <| Binding.closed_print hb
    have ha := hc.append <| closed_annotation ht
    exact ha.append (t := " = ") rfl |>.append (init.closed_printIn level hi) |>.append rfl
  | .expr of, level, h                  => (closed_indent level).append (of.closed_printIn level h) |>.append rfl
  | .returns none, level, _             => (closed_indent level).append rfl
  | .returns (some value), level, h     => by
    have hr := (closed_indent level).append (t := "return ") rfl
    exact hr.append (value.closed_printIn level h) |>.append rfl
  | .when cond body, level, h           => by
    have ⟨hc, hb⟩ := AllClosed.append_iff.mp h
    have hb := Closed.concat <| Stmt.closed_printAllIn body (level + 1) hb
    have hi := closed_indent level
    have hw : Leads [] (indent level ++ "if (") [')'] := (hi.leads []).append rfl
    have hw := hw.append ((cond.closed_printIn level hc).leads _) |>.append (t := ") \x7b\n") rfl
    exact hw.append (hb.leads _) |>.append (hi.leads _) |>.append rfl
  | .throws value, level, h             => by
    have ht := (closed_indent level).append (t := "throw ") rfl
    exact ht.append (value.closed_printIn level h) |>.append rfl
  | .exported of, level, h              => by
    have he := (closed_indent level).append (t := "export ") rfl
    exact he.append (of.closed_printIn level h).trimIndent

theorem Stmt.closed_printAllIn :
    ∀ (ss : List Stmt) (level : Nat), AllClosed (Stmt.verbatimAll ss) → AllClosed (Stmt.printAllIn layout level ss)
  | [], _, _          => .nil
  | s :: ss, level, h => by
    have ⟨hs, hss⟩ := AllClosed.append_iff.mp h
    exact AllClosed.cons_iff.mpr ⟨s.closed_printIn level hs, Stmt.closed_printAllIn ss level hss⟩

end

theorem closed_exportMark (isExport : Bool) : Closed (exportMark isExport) := by
  cases isExport <;> decide

namespace TypeDef

@[simp]
def verbatim : TypeDef → List String
  | interface name typeParams properties =>
    name :: typeParams.flatMap TypeParam.verbatim ++ properties.flatMap Property.verbatim
  | enum name _                          => [name]

theorem closed_print (h : AllClosed (verbatim d)) : Closed d.print := by
  cases d
  case interface name typeParams properties =>
    obtain ⟨h, hp⟩ := AllClosed.append_iff.mp h
    obtain ⟨hn, ht⟩ := AllClosed.cons_iff.mp h
    have hp : AllClosed (properties.map fun p => indent 1 ++ p.print ++ ";\n") :=
      .map fun p hm => (closed_indent 1).append (p.closed_print <| hp.of_flatMap hm) |>.append rfl
    have hi := Closed.append (s := "export interface ") rfl hn |>.append <| TypeParam.closed_printAll ht
    exact hi.leads [] |>.append (t := " \x7b\n") rfl |>.append ((Closed.concat hp).leads _) |>.append rfl
  case enum name members                    =>
    have hm : AllClosed (members.map fun m => indent 1 ++ quoteKey m.1 ++ " = " ++ m.2.print ++ ",\n") := by
      refine .map fun m _ => ?_
      have hk := (closed_indent 1).append (closed_quoteKey m.1) |>.append (t := " = ") rfl
      exact hk.append m.2.closed_print |>.append rfl
    have he := Closed.append (s := "export enum ") rfl (AllClosed.cons_iff.mp h).left
    exact he.leads [] |>.append (t := " \x7b\n") rfl |>.append ((Closed.concat hm).leads _) |>.append rfl

end TypeDef

namespace Function

@[simp]
def verbatim : Function → List String
  | ⟨name, typeParams, params, returnType, body, _, _⟩ =>
    name :: typeParams.flatMap TypeParam.verbatim ++ params.flatMap Param.verbatim ++ annotationVerbatim returnType ++
      Stmt.verbatimAll body

theorem closed_print (h : AllClosed (verbatim f)) : Closed f.print := by
  have ⟨h, hb⟩ := AllClosed.append_iff.mp h
  have ⟨h, hr⟩ := AllClosed.append_iff.mp h
  have ⟨h, hp⟩ := AllClosed.append_iff.mp h
  have ⟨hn, ht⟩ := AllClosed.cons_iff.mp h
  have hm := (closed_exportMark f.isExport).append <| closed_asyncMark f.isAsync
  have hh := hm.append (t := "function ") rfl |>.append hn |>.append <| TypeParam.closed_printAll ht
  have hs := hh.append (Param.closed_printAll hp) |>.append <| closed_annotation hr
  refine hs.append ?_
  split
  case isTrue  => rfl
  case isFalse =>
    have hb : AllClosed (Stmt.printAllIn .standard 1 f.body) := Stmt.closed_printAllIn f.body 1 hb
    rw [Stmt.printAllIn_eq_map] at hb
    exact .wrap rfl (Closed.concat hb) rfl

end Function

namespace ImportItem

@[simp]
def verbatim (item : ImportItem) : List String :=
  item.name :: item.renamed.toList

theorem closed_print (h : AllClosed (verbatim item)) : Closed item.print := by
  have ⟨hn, hr⟩ := AllClosed.cons_iff.mp h
  rw [print]
  split
  case h_1 binding hb => exact hn.append (t := " as ") rfl |>.append <| hr binding <| by simp [hb]
  case h_2            => exact hn

end ImportItem

namespace Import

@[simp]
def verbatim (i : Import) : List String :=
  i.default?.toList ++ i.items.flatMap ImportItem.verbatim

theorem closed_clauses (h : AllClosed (verbatim i)) : AllClosed i.clauses := by
  have ⟨hd, hi⟩ := AllClosed.append_iff.mp h
  refine AllClosed.append_iff.mpr ⟨hd, ?_⟩
  split
  case isTrue  => exact .nil
  case isFalse =>
    have hi : AllClosed (i.items.map ImportItem.print) := .map fun item hm => item.closed_print <| hi.of_flatMap hm
    exact AllClosed.cons_iff.mpr ⟨.wrap rfl hi.join_commas rfl, .nil⟩

theorem closed_print (h : AllClosed (verbatim i)) : Closed i.print := by
  have ht : Closed (if i.typeOnly then "type " else "") := by split <;> decide
  have hc := Closed.append (s := "import ") rfl ht |>.append (closed_clauses h).join_commas
  exact hc.append (t := " from ") rfl |>.append (closed_quote i.source) |>.append rfl

end Import
end QueryHooks.TypeScript
