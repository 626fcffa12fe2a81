import QueryHooks.Proofs.Text.Contains
import QueryHooks.Proofs.TypeScript.Literals
import QueryHooks.Proofs.TypeScript.Reading
import QueryHooks.Proofs.TypeScript.Verbatim

namespace QueryHooks.TypeScript

open Text (Avoids Contains concat join)

-- A text with the texts `vs` in it as they are, and the texts of the second list in quotes, in this order.
inductive Woven (vs : List String) : String → List String → Prop
  | plain    : Avoids isQuote t → Woven vs t []
  | verbatim : t ∈ vs → Woven vs t []
  | quoted   : Woven vs (quote t) [t]
  | append   : Woven vs s qs → Woven vs t qs' → Woven vs (s ++ t) (qs ++ qs')
  | trimmed  : Woven vs t qs → Woven vs (trimIndent t) qs

variable {vs : List String}

namespace Woven

theorem append_plain (h : Woven vs s qs) (ht : Avoids isQuote t) : Woven vs (s ++ t) qs :=
  List.append_nil qs ▸ h.append (.plain ht)

theorem plain_append (hs : Avoids isQuote s) (h : Woven vs t qs) : Woven vs (s ++ t) qs :=
  .append (.plain hs) h

theorem append_verbatim (h : Woven vs s qs) (ht : t ∈ vs) : Woven vs (s ++ t) qs :=
  List.append_nil qs ▸ h.append (.verbatim ht)

theorem wrap (hs : Avoids isQuote s) (h : Woven vs t qs) (hu : Avoids isQuote u) : Woven vs (s ++ t ++ u) qs :=
  (plain_append hs h).append_plain hu

-- A literal that comes first in a text is not a part of the indentation.
theorem contains (h : Woven vs text qs) (ht : t ∈ qs) : Contains text (quote t) := by
  induction h
  case plain    => contradiction
  case verbatim => contradiction
  case quoted   => exact List.mem_singleton.mp ht ▸ .refl _
  case append hs hs' =>
    cases List.mem_append.mp ht
    case inl ht => exact (hs ht).append_right _
    case inr ht => exact (hs' ht).append_left _
  case trimmed hi => exact (hi ht).trimStart (by simp [quote]) (rfl : Text.isBlank '\'' = false)

theorem exists_reads (h : Woven vs text qs) (hv : ∀ v ∈ vs, Whole v) :
    ∃ ts, Reads text ts ∧ (∀ t ∈ qs, t ∈ ts) ∧ ∀ t ∈ ts, t ∈ qs ∨ ∃ v ∈ vs, t ∈ literalsIn v := by
  induction h
  case plain ha       => exact ⟨[], .of_avoids ha, nofun, nofun⟩
  case verbatim v hm  => exact ⟨literalsIn v, (hv v hm).reads, nofun, fun t ht => .inr ⟨v, hm, ht⟩⟩
  case quoted t       => exact ⟨[t], .quote t, fun _ => id, fun _ => .inl⟩
  case append hs hs'  =>
    obtain ⟨ts, hr, hq, ht⟩ := hs
    obtain ⟨ts', hr', hq', ht'⟩ := hs'
    refine ⟨ts ++ ts', hr.append hr', fun t h => ?_, fun t h => ?_⟩
    · exact List.mem_append.mpr <| (List.mem_append.mp h).imp (hq t) (hq' t)
    · cases List.mem_append.mp h
      case inl h => exact (ht t h).imp_left (List.mem_append_left _)
      case inr h => exact (ht' t h).imp_left (List.mem_append_right _)
  case trimmed hi     =>
    obtain ⟨ts, hr, h⟩ := hi
    exact ⟨ts, hr.trimIndent, h⟩

theorem mem_of_mem_literalsIn (h : Woven vs text qs) (hv : ∀ v ∈ vs, Whole v) (ht : t ∈ literalsIn text) :
    t ∈ qs ∨ ∃ v ∈ vs, t ∈ literalsIn v := by
  have ⟨_, hr, _, h⟩ := h.exists_reads hv
  exact h t (hr.literalsIn_eq ▸ ht)

theorem mem_literalsIn (h : Woven vs text qs) (hv : ∀ v ∈ vs, Whole v) (ht : t ∈ qs) : t ∈ literalsIn text := by
  have ⟨_, hr, h, _⟩ := h.exists_reads hv
  exact hr.literalsIn_eq.symm ▸ h t ht

end Woven

-- Texts that are woven one after the other.
inductive AllWoven (vs : List String) : List String → List String → Prop
  | nil  : AllWoven vs [] []
  | cons : Woven vs s qs → AllWoven vs ss qs' → AllWoven vs (s :: ss) (qs ++ qs')

namespace AllWoven

theorem of_map {as : List α} {p : α → String} {q : α → List String} (h : ∀ a ∈ as, Woven vs (p a) (q a)) :
    AllWoven vs (as.map p) (as.flatMap q) := by
  induction as
  case nil          => exact .nil
  case cons a as hi =>
    have ⟨ha, has⟩ := List.forall_mem_cons.mp h
    exact .cons ha (hi has)

theorem append (hs : AllWoven vs ss qs) (ht : AllWoven vs ts qs') : AllWoven vs (ss ++ ts) (qs ++ qs') := by
  induction hs
  case nil            => exact ht
  case cons h _ hi    => exact List.append_assoc .. ▸ .cons h hi

theorem map_append (hs : Avoids isQuote s) (h : AllWoven vs ss qs) : AllWoven vs (ss.map (s ++ ·)) qs := by
  induction h
  case nil         => exact .nil
  case cons h _ hi => exact .cons (.plain_append hs h) hi

theorem concat (h : AllWoven vs ss qs) : Woven vs (concat ss) qs := by
  induction h
  case nil         => exact .plain .empty
  case cons h _ hi => exact h.append hi

theorem join (hp : Avoids isQuote sep) (h : AllWoven vs ss qs) : Woven vs (join sep ss) qs := by
  induction h
  case nil              => exact .plain .empty
  case cons h hs hi =>
    cases hs
    case nil  => exact List.append_nil _ ▸ h
    case cons => exact (h.append_plain hp).append hi

theorem join_commas (h : AllWoven vs ss qs) : Woven vs (Text.join ", " ss) qs :=
  h.join (by decide)

end AllWoven

theorem woven_quoteKey (name : String) : Woven vs (quoteKey name) (quotedKey name) := by
  rw [quoteKey, quotedKey]
  split
  case isFalse  => exact .quoted
  case isTrue h =>
    refine .plain <| avoids_of_isIdentifier (fun c hc => ?_) h
    rw [isQuote, Bool.or_eq_true, beq_iff_eq, beq_iff_eq] at hc
    rcases hc with rfl | rfl <;> rfl

theorem avoids_indent (level : Nat) : Avoids isQuote (indent level) := by
  intro c hc
  rw [toList_indent] at hc
  exact List.eq_of_mem_replicate hc ▸ rfl

theorem avoids_optionalMark (optional : Bool) : Avoids isQuote (optionalMark optional) := by
  cases optional <;> decide

mutual

theorem Ty.woven_print : ∀ ty : Ty, ty.verbatim ⊆ vs → Woven vs ty.print ty.quoted
  | .string, _          => .plain (by decide)
  | .unknown, _         => .plain (by decide)
  | .named _, h         => .verbatim (h (.head _))
  | .generic _ args, h  => by
    have ⟨hn, ha⟩ := List.cons_subset.mp h
    have hn := (Woven.verbatim hn).append_plain (t := "<") (by decide)
    exact (hn.append (Ty.woven_printAll args ha).join_commas).append_plain (by decide)
  | .keyOf ty, h        => .plain_append (by decide) (ty.woven_print h)
  | .indexed object _, h => by
    have ho := (object.woven_print h).append_plain (t := "[") (by decide)
    exact (ho.append .quoted).append_plain (by decide)

theorem Ty.woven_printAll : ∀ tys : List Ty, Ty.verbatimAll tys ⊆ vs → AllWoven vs (Ty.printAll tys) (Ty.quotedAll tys)
  | [], _        => .nil
  | ty :: tys, h => by
    have ⟨ht, hs⟩ := List.append_subset.mp h
    exact .cons (ty.woven_print ht) (Ty.woven_printAll tys hs)

end

theorem woven_annotation (h : annotationVerbatim ty ⊆ vs) : Woven vs ( annotation ty) (annotationQuoted ty) := by
  cases ty
  case none    => exact .plain .empty
  case some ty => exact .plain_append (by decide) (ty.woven_print h)

theorem woven_clause (hw : Avoids isQuote word) (h : annotationVerbatim ty ⊆ vs) :
    Woven vs (ty.elim "" (word ++ ·.print)) (annotationQuoted ty) := by
  cases ty
  case none    => exact .plain .empty
  case some ty => exact .plain_append hw (ty.woven_print h)

theorem Property.woven_print (p : Property) (h : p.verbatim ⊆ vs) : Woven vs p.print p.quoted := by
  have hk : Woven vs _ _ := (woven_quoteKey p.name).append_plain (avoids_optionalMark p.optional)
  exact (hk.append_plain (t := ": ") (by decide)).append (p.ty.woven_print h)

-- What holds of all members of a list holds of each.
theorem subset_of_flatMap {as : List α} {f : α → List String} (h : as.flatMap f ⊆ vs) (ha : a ∈ as) : f a ⊆ vs :=
  fun _ ht => h <| List.mem_flatMap.mpr ⟨a, ha, ht⟩

namespace TypeParam

theorem woven_print (p : TypeParam) (h : p.verbatim ⊆ vs) : Woven vs p.print p.quoted := by
  have ⟨h, hf⟩ := List.append_subset.mp h
  have ⟨hn, hc⟩ := List.cons_subset.mp h
  exact ((Woven.verbatim hn).append (woven_clause (by decide) hc)).append (woven_clause (by decide) hf)

theorem woven_printAll (h : params.flatMap verbatim ⊆ vs) : Woven vs (printAll params) (params.flatMap quoted) := by
  rw [printAll]
  split
  case isTrue hn => exact List.isEmpty_iff.mp hn ▸ .plain .empty
  case isFalse   =>
    have hp : AllWoven vs (params.map print) _ := .of_map fun p hp => p.woven_print (subset_of_flatMap h hp)
    exact .wrap (by decide) hp.join_commas (by decide)

end TypeParam

namespace Param

theorem woven_print (p : Param) (h : p.verbatim ⊆ vs) : Woven vs p.print p.quoted := by
  have ⟨hn, ht⟩ := List.cons_subset.mp h
  exact ((Woven.verbatim hn).append_plain (avoids_optionalMark p.optional)).append <| woven_annotation ht

theorem woven_printAll (h : params.flatMap verbatim ⊆ vs) : Woven vs (printAll params) (params.flatMap quoted) := by
  have hp : AllWoven vs (params.map print) _ := .of_map fun p hp => p.woven_print (subset_of_flatMap h hp)
  exact .wrap (by decide) hp.join_commas (by decide)

end Param

theorem Binding.woven_print (b : Binding) (h : b.verbatim ⊆ vs) : Woven vs b.print [] := by
  cases b
  case single        => exact .verbatim (h (.head _))
  case members pairs =>
    have hp : AllWoven vs (pairs.map fun p => p.1 ++ ": " ++ p.2) (pairs.flatMap fun _ => []) := by
      refine .of_map fun p hp => ?_
      have hm : [p.1, p.2] ⊆ vs := subset_of_flatMap (f := fun p => [p.1, p.2]) h hp
      obtain ⟨hk, hn⟩ := List.cons_subset.mp hm
      exact ((Woven.verbatim hk).append_plain (by decide)).append_verbatim (hn (.head _))
    have hn : pairs.flatMap (fun _ => []) = ([] : List String) := by simp
    exact .wrap (by decide) (hn ▸ hp).join_commas (by decide)

theorem Literal.woven_print (l : Literal) : Woven vs l.print l.quoted := by
  cases l
  case text => exact .quoted
  case null => exact .plain (by decide)

theorem woven_typeArguments (h : Ty.verbatimAll args ⊆ vs) : Woven vs (typeArguments args) (Ty.quotedAll args) := by
  rw [typeArguments]
  split
  case isTrue hn => exact List.isEmpty_iff.mp hn ▸ .plain .empty
  case isFalse   => exact .wrap (by decide) (Ty.woven_printAll args h).join_commas (by decide)

theorem avoids_asyncMark (isAsync : Bool) : Avoids isQuote (asyncMark isAsync) := by
  cases isAsync <;> decide

variable {layout : Layout}

theorem Layout.woven_object (h : AllWoven vs entries qs) : Woven vs (layout.object level entries) qs := by
  rw [Layout.object]
  split
  case isTrue hn =>
    cases h
    case nil  => exact .plain (by decide)
    case cons => contradiction
  case isFalse   =>
    dsimp only
    split
    case isTrue  => exact .wrap (by decide) h.join_commas (by decide)
    case isFalse =>
      have hi : AllWoven vs (entries.map (indent (level + 1) ++ ·)) qs := h.map_append (avoids_indent (level + 1))
      have he : Woven vs (join ",\n" (entries.map (indent (level + 1) ++ ·))) qs := hi.join (by decide)
      have hl := Woven.wrap (s := "\x7b\n") (by decide) he (u := "\n") (by decide)
      exact (hl.append_plain (avoids_indent level)).append_plain (by decide)

mutual

theorem Expr.woven_printIn :
    ∀ (e : Expr) (level : Nat), e.verbatim ⊆ vs → Woven vs (e.printIn layout level) e.quoted
  | .ident _, _, h                      => .verbatim (h (.head _))
  | .literal value, _, _                => value.woven_print
  | .call callee typeArgs args, level, h => by
    have ⟨h, ha⟩ := List.append_subset.mp h
    have ⟨hc, ht⟩ := List.append_subset.mp h
    have hc := (callee.woven_printIn level hc).append (woven_typeArguments ht)
    have ha := (Expr.woven_printAllIn args level ha).join_commas
    exact ((hc.append_plain (t := "(") (by decide)).append ha).append_plain (by decide)
  | .arrow function, level, h           => function.woven_printIn level h
  | .object entries, level, h           => Layout.woven_object (Entry.woven_printAllIn entries (level + 1) h)
  | .member object _, level, h          => by
    have ⟨ho, hn⟩ := List.append_subset.mp h
    have ho := (object.woven_printIn level ho).append_plain (t := ".") (by decide)
    exact ho.append_verbatim (hn (.head _))
  | .optionalMember object _, level, h  => by
    have ⟨ho, hn⟩ := List.append_subset.mp h
    have ho := (object.woven_printIn level ho).append_plain (t := "?.") (by decide)
    exact ho.append_verbatim (hn (.head _))
  | .await of, level, h                 => .plain_append (by decide) (of.woven_printIn level h)
  | .coalesce left right, level, h      => by
    have ⟨hl, hr⟩ := List.append_subset.mp h
    have hl := (left.woven_printIn level hl).append_plain (t := " ?? ") (by decide)
    exact hl.append (right.woven_printIn level hr)
  | .ternary cond thenExpr elseExpr, level, h => by
    have ⟨h, he⟩ := List.append_subset.mp h
    have ⟨hc, ht⟩ := List.append_subset.mp h
    have hc := (cond.woven_printIn level hc).append_plain (t := " ? ") (by decide)
    have ht := (hc.append (thenExpr.woven_printIn level ht)).append_plain (t := " : ") (by decide)
    exact ht.append (elseExpr.woven_printIn level he)
  | .array items, level, h              =>
    .wrap (by decide) (Expr.woven_printAllIn items level h).join_commas (by decide)
  | .assign target value, level, h      => by
    have ⟨ht, hv⟩ := List.append_subset.mp h
    have ht := (target.woven_printIn level ht).append_plain (t := " = ") (by decide)
    exact ht.append (value.woven_printIn level hv)
  | .paren of, level, h                 => .wrap (by decide) (of.woven_printIn level h) (by decide)
  | .raw _, _, h                        => .verbatim (h (.head _))

theorem Expr.woven_printAllIn : ∀ (es : List Expr) (level : Nat), Expr.verbatimAll es ⊆ vs →
    AllWoven vs (Expr.printAllIn layout level es) (Expr.quotedAll es)
  | [], _, _          => .nil
  | e :: es, level, h => by
    have ⟨he, hs⟩ := List.append_subset.mp h
    exact .cons (e.woven_printIn level he) (Expr.woven_printAllIn es level hs)

theorem Entry.woven_printIn :
    ∀ (e : Entry) (level : Nat), e.verbatim ⊆ vs → Woven vs (e.printIn layout level) e.quoted
  | .keyed key value, level, h => by
    have hv := value.woven_printIn level h
    rw [Entry.printIn_keyed_eq, Entry.quoted]
    split
    case isTrue hn  =>
      cases value
      case ident name => exact .verbatim (of_decide_eq_true hn ▸ h (.head _))
      all_goals contradiction
    case isFalse hn =>
      exact ((woven_quoteKey key).append_plain (by decide)).append hv
  | .spread of, level, h       => .plain_append (by decide) (of.woven_printIn level h)

theorem Entry.woven_printAllIn : ∀ (es : List Entry) (level : Nat), Entry.verbatimAll es ⊆ vs →
    AllWoven vs (Entry.printAllIn layout level es) (Entry.quotedAll es)
  | [], _, _          => .nil
  | e :: es, level, h => by
    have ⟨he, hs⟩ := List.append_subset.mp h
    exact .cons (e.woven_printIn level he) (Entry.woven_printAllIn es level hs)

theorem Arrow.woven_printIn :
    ∀ (a : Arrow) (level : Nat), a.verbatim ⊆ vs → Woven vs (a.printIn layout level) a.quoted
  | ⟨_, _, _, isAsync, body⟩, level, h => by
    have ⟨h, hb⟩ := List.append_subset.mp h
    have ⟨h, hr⟩ := List.append_subset.mp h
    have ⟨ht, hp⟩ := List.append_subset.mp h
    have ht := Woven.plain_append (avoids_asyncMark isAsync) (TypeParam.woven_printAll ht)
    have hs := (ht.append (Param.woven_printAll hp)).append <| woven_annotation hr
    exact (hs.append_plain (t := " => ") (by decide)).append (body.woven_printIn level hb)

theorem Body.woven_printIn :
    ∀ (b : Body) (level : Nat), b.verbatim ⊆ vs → Woven vs (b.printIn layout level) b.quoted
  | .expr value, level, h  => value.woven_printIn level h
  | .block stmts, level, h => by
    have hs := (Stmt.woven_printAllIn stmts (level + 1) h).concat
    exact (Woven.wrap (by decide) hs (avoids_indent level)).append_plain (by decide)

theorem Stmt.woven_printIn :
    ∀ (s : Stmt) (level : Nat), s.verbatim ⊆ vs → Woven vs (s.printIn layout level) s.quoted
  | .constant binding _ init, level, h => by
    have ⟨h, hi⟩ := List.append_subset.mp h
    have ⟨hb, ht⟩ := List.append_subset.mp h
    have hc := (avoids_indent level).append (t := "const ") (by decide)
    have hb := (Woven.plain_append hc (binding.woven_print hb)).append <| woven_annotation ht
    have hi := (hb.append_plain (t := " = ") (by decide)).append (init.woven_printIn level hi)
    exact hi.append_plain (by decide)
  | .expr of, level, h                 => .wrap (avoids_indent level) (of.woven_printIn level h) (by decide)
  | .returns none, level, _            => .plain ((avoids_indent level).append (by decide))
  | .returns (some value), level, h    =>
    .wrap ((avoids_indent level).append (by decide)) (value.woven_printIn level h) (by decide)
  | .when cond body, level, h          => by
    have ⟨hc, hb⟩ := List.append_subset.mp h
    have hi := (avoids_indent level).append (t := "if (") (by decide)
    have hc := Woven.wrap hi (cond.woven_printIn level hc) (u := ") \x7b\n") (by decide)
    have hb := hc.append (Stmt.woven_printAllIn body (level + 1) hb).concat
    exact (hb.append_plain (avoids_indent level)).append_plain (by decide)
  | .throws value, level, h            =>
    .wrap ((avoids_indent level).append (by decide)) (value.woven_printIn level h) (by decide)
  | .exported of, level, h             =>
    .plain_append ((avoids_indent level).append (by decide)) (of.woven_printIn level h).trimmed

theorem Stmt.woven_printAllIn : ∀ (ss : List Stmt) (level : Nat), Stmt.verbatimAll ss ⊆ vs →
    AllWoven vs (Stmt.printAllIn layout level ss) (Stmt.quotedAll ss)
  | [], _, _          => .nil
  | s :: ss, level, h => by
    have ⟨hs, hss⟩ := List.append_subset.mp h
    exact .cons (s.woven_printIn level hs) (Stmt.woven_printAllIn ss level hss)

end

theorem TypeDef.woven_print (d : TypeDef) (h : d.verbatim ⊆ vs) : Woven vs d.print d.quoted := by
  cases d
  case interface name typeParams properties =>
    have ⟨h, hp⟩ := List.append_subset.mp h
    have ⟨hn, ht⟩ := List.cons_subset.mp h
    have hp : AllWoven vs (properties.map fun p => indent 1 ++ p.print ++ ";\n") (properties.flatMap Property.quoted) :=
      .of_map fun p hm => .wrap (by decide) (p.woven_print (subset_of_flatMap hp hm)) (by decide)
    have hn := Woven.plain_append (s := "export interface ") (by decide) (.verbatim hn)
    have ht := (hn.append (TypeParam.woven_printAll ht)).append_plain (t := " \x7b\n") (by decide)
    exact (ht.append hp.concat).append_plain (by decide)
  case enum name members =>
    have hm : AllWoven vs (members.map fun m => indent 1 ++ quoteKey m.1 ++ " = " ++ m.2.print ++ ",\n")
        (TypeDef.enum name members).quoted := by
      refine .of_map fun m _ => ?_
      have hk : Woven vs _ _ := .wrap (s := indent 1) (by decide) (woven_quoteKey m.1) (u := " = ") (by decide)
      exact (hk.append m.2.woven_print).append_plain (by decide)
    have hn := Woven.wrap (s := "export enum ") (by decide) (.verbatim (h (.head _))) (u := " \x7b\n") (by decide)
    exact (hn.append hm.concat).append_plain (by decide)

theorem avoids_exportMark (isExport : Bool) : Avoids isQuote (exportMark isExport) := by
  cases isExport <;> decide

theorem Function.woven_print (f : Function) (h : f.verbatim ⊆ vs) : Woven vs f.print f.quoted := by
  have ⟨h, hb⟩ := List.append_subset.mp h
  have ⟨h, hr⟩ := List.append_subset.mp h
  have ⟨h, hp⟩ := List.append_subset.mp h
  have ⟨hn, ht⟩ := List.cons_subset.mp h
  have hm := ((avoids_exportMark f.isExport).append (avoids_asyncMark f.isAsync)).append (t := "function ") (by decide)
  have hn := (Woven.plain_append hm (.verbatim hn)).append (TypeParam.woven_printAll ht)
  have hs := (hn.append (Param.woven_printAll hp)).append <| woven_annotation hr
  refine hs.append ?_
  have hb : AllWoven vs (Stmt.printAllIn .standard 1 f.body) _ := Stmt.woven_printAllIn f.body 1 hb
  rw [Stmt.printAllIn_eq_map] at hb
  split
  case isTrue he =>
    have he : f.body = [] := List.isEmpty_iff.mp he
    rw [he]
    exact .plain (by decide)
  case isFalse   => exact .wrap (by decide) hb.concat (by decide)

end QueryHooks.TypeScript
