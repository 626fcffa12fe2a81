import QueryHooks.Proofs.TypeScript.Literals
import QueryHooks.Proofs.TypeScript.Quoted
import QueryHooks.Proofs.TypeScript.Verbatim

namespace QueryHooks.TypeScript

open Text (Avoids join)

abbrev OneLine (text : String) : Prop :=
  Avoids (· == '\n') text

theorem oneLine_iff : OneLine text ↔ '\n' ∉ text.toList := by
  simp only [Avoids, beq_eq_false_iff_ne]
  exact List.forall_mem_ne'

def AllOneLine (ts : List String) : Prop :=
  ∀ t ∈ ts, OneLine t

instance : Decidable (AllOneLine ts) :=
  inferInstanceAs <| Decidable (∀ t ∈ ts, OneLine t)

namespace AllOneLine

theorem map {as : List α} {f : α → String} (h : ∀ a ∈ as, OneLine (f a)) : AllOneLine (as.map f) :=
  List.forall_mem_map.mpr h

theorem join_commas (h : AllOneLine ts) : OneLine (join ", " ts) :=
  (Avoids.join_iff (by decide)).mpr h

end AllOneLine

theorem oneLine_quote (h : OneLine s) : OneLine (quote s) :=
  (avoids_quote_iff rfl rfl).mpr h

theorem oneLine_quoteKey (h : AllOneLine (quotedKey name)) : OneLine (quoteKey name) := by
  rw [quotedKey] at h
  rw [quoteKey]
  split
  case isFalse hi =>
    rw [if_neg hi] at h
    exact oneLine_quote (h name <| .head _)
  case isTrue hi  =>
    exact avoids_of_isIdentifier (fun c hc => eq_of_beq hc ▸ rfl) hi

theorem oneLine_indent (level : Nat) : OneLine (indent level) := by
  intro c hc
  rw [toList_indent] at hc
  rw [List.eq_of_mem_replicate hc]
  rfl

theorem oneLine_optionalMark (optional : Bool) : OneLine (optionalMark optional) := by
  cases optional <;> decide

theorem oneLine_asyncMark (isAsync : Bool) : OneLine (asyncMark isAsync) := by
  cases isAsync <;> decide

-- Neither the texts that are printed as they are, nor those that are quoted, have a line break.
structure TextsOneLine (verbatim quoted : List String) : Prop where
  verbatim : AllOneLine verbatim
  quoted   : AllOneLine quoted

namespace TextsOneLine

theorem append_iff : TextsOneLine (vs ++ vs') (qs ++ qs') ↔ TextsOneLine vs qs ∧ TextsOneLine vs' qs' := by
  constructor
  case mp  =>
    intro ⟨hv, hq⟩
    have ⟨hv, hv'⟩ := List.forall_mem_append.mp hv
    have ⟨hq, hq'⟩ := List.forall_mem_append.mp hq
    exact ⟨⟨hv, hq⟩, hv', hq'⟩
  case mpr =>
    intro ⟨⟨hv, hq⟩, hv', hq'⟩
    exact ⟨List.forall_mem_append.mpr ⟨hv, hv'⟩, List.forall_mem_append.mpr ⟨hq, hq'⟩⟩

theorem cons_iff : TextsOneLine (v :: vs) qs ↔ OneLine v ∧ TextsOneLine vs qs := by
  constructor
  case mp  =>
    intro ⟨hv, hq⟩
    have ⟨hv, hvs⟩ := List.forall_mem_cons.mp hv
    exact ⟨hv, hvs, hq⟩
  case mpr => exact fun ⟨hv, hvs, hq⟩ => ⟨List.forall_mem_cons.mpr ⟨hv, hvs⟩, hq⟩

theorem of_flatMap {as : List α} {v q : α → List String} (h : TextsOneLine (as.flatMap v) (as.flatMap q))
    (ha : a ∈ as) : TextsOneLine (v a) (q a) where
  verbatim t ht := h.verbatim t <| List.mem_flatMap.mpr ⟨a, ha, ht⟩
  quoted t ht   := h.quoted t <| List.mem_flatMap.mpr ⟨a, ha, ht⟩

end TextsOneLine

mutual

theorem Ty.oneLine_print : ∀ ty : Ty, TextsOneLine ty.verbatim ty.quoted → OneLine ty.print
  | .string, _             => by decide
  | .unknown, _            => by decide
  | .named _, h            => h.verbatim _ <| .head _
  | .generic name args, h  => by
    have ⟨hn, ha⟩ := TextsOneLine.cons_iff.mp h
    have hj := (Ty.oneLine_printAll args ha).join_commas
    exact ((hn.append (t := "<") (by decide)).append hj).append (by decide)
  | .keyOf ty, h           => Avoids.append (s := "keyof ") (by decide) (ty.oneLine_print h)
  | .indexed object key, h => by
    have ⟨hq, hk⟩ := List.forall_mem_append.mp h.quoted
    have ho := object.oneLine_print ⟨h.verbatim, hq⟩
    exact ((ho.append (t := "[") (by decide)).append (oneLine_quote (hk key <| .head _))).append (by decide)

theorem Ty.oneLine_printAll : ∀ tys : List Ty, TextsOneLine (Ty.verbatimAll tys) (Ty.quotedAll tys) →
    AllOneLine (Ty.printAll tys)
  | [], _        => nofun
  | ty :: tys, h => by
    have ⟨ht, hs⟩ := TextsOneLine.append_iff.mp h
    exact List.forall_mem_cons.mpr ⟨ty.oneLine_print ht, Ty.oneLine_printAll tys hs⟩

end

theorem oneLine_annotation (h : TextsOneLine (annotationVerbatim ty) (annotationQuoted ty)) :
    OneLine <| annotation ty := by
  cases ty
  case none    => decide
  case some ty => exact Avoids.append (s := ": ") (by decide) (ty.oneLine_print h)

theorem oneLine_clause (hw : OneLine word) (h : TextsOneLine (annotationVerbatim ty) (annotationQuoted ty)) :
    OneLine (ty.elim "" (word ++ ·.print)) := by
  cases ty
  case none    => exact .empty
  case some ty => exact hw.append (ty.oneLine_print h)

theorem oneLine_typeArguments (h : TextsOneLine (Ty.verbatimAll args) (Ty.quotedAll args)) :
    OneLine (typeArguments args) := by
  rw [typeArguments]
  split
  case isTrue  => decide
  case isFalse => exact .wrap (by decide) (Ty.oneLine_printAll args h).join_commas (by decide)

namespace TypeParam

theorem oneLine_print (h : TextsOneLine p.verbatim p.quoted) : OneLine (print p) := by
  have ⟨hn, h⟩ := TextsOneLine.cons_iff.mp h
  have ⟨hc, hf⟩ := TextsOneLine.append_iff.mp h
  exact (hn.append (oneLine_clause (by decide) hc)).append (oneLine_clause (by decide) hf)

theorem oneLine_printAll (h : TextsOneLine (params.flatMap verbatim) (params.flatMap quoted)) :
    OneLine (printAll params) := by
  rw [printAll]
  split
  case isTrue  => decide
  case isFalse =>
    have hp : AllOneLine (params.map print) := .map fun p hp => oneLine_print (h.of_flatMap hp)
    exact .wrap (by decide) hp.join_commas (by decide)

end TypeParam

namespace Param

theorem oneLine_print (h : TextsOneLine p.verbatim p.quoted) : OneLine (print p) := by
  have ⟨hn, ht⟩ := TextsOneLine.cons_iff.mp h
  exact (hn.append (oneLine_optionalMark p.optional)).append <| oneLine_annotation ht

theorem oneLine_printAll (h : TextsOneLine (params.flatMap verbatim) (params.flatMap quoted)) :
    OneLine (printAll params) := by
  have hp : AllOneLine (params.map print) := .map fun p hp => oneLine_print (h.of_flatMap hp)
  exact .wrap (by decide) hp.join_commas (by decide)

end Param

theorem Binding.oneLine_print (h : AllOneLine (verbatim b)) : OneLine b.print := by
  cases b
  case single        => exact h _ <| .head _
  case members pairs =>
    have hp : AllOneLine (pairs.map fun p => p.1 ++ ": " ++ p.2) := by
      refine .map fun p hp => ?_
      have hm : ∀ t ∈ [p.1, p.2], OneLine t := fun t ht => h t <| List.mem_flatMap.mpr ⟨p, hp, ht⟩
      obtain ⟨hk, hn⟩ := List.forall_mem_cons.mp hm
      exact .wrap hk (by decide) (hn p.2 <| .head _)
    exact .wrap (by decide) hp.join_commas (by decide)

theorem Literal.oneLine_print (h : AllOneLine (quoted l)) : OneLine l.print := by
  cases l
  case text value => exact oneLine_quote (h value <| .head _)
  case null       => decide

theorem oneLine_of_isNamed (hn : Expr.isNamed key value) (h : AllOneLine value.verbatim) : OneLine key := by
  cases value
  case ident name =>
    have hn : key = name := of_decide_eq_true hn
    exact hn ▸ h name (.head _)
  all_goals contradiction

end QueryHooks.TypeScript
