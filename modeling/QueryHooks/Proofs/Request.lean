import QueryHooks.Proofs.Json
import QueryHooks.Proofs.TypeScript.Verbatim
import QueryHooks.Strategy.Request

namespace QueryHooks.Request

open TypeScript

def takesEnvironment (r : Request) : Bool :=
  "process.env.".toList.isPrefixOf r.endpoint.toList

theorem endpointExpr_eq (r : Request) :
    r.endpointExpr = if r.takesEnvironment then .raw r.endpoint else .text r.endpoint :=
  rfl

variable {r : Request}

theorem allClosed_endpointExpr (h : r.takesEnvironment → Closed r.endpoint) : AllClosed r.endpointExpr.verbatim := by
  rw [endpointExpr_eq]
  split
  case isTrue ht => exact AllClosed.cons_iff.mpr ⟨h ht, .nil⟩
  case isFalse   => exact .nil

theorem allClosed_raw (j : Json) : AllClosed (Expr.raw j.print).verbatim :=
  AllClosed.cons_iff.mpr ⟨j.closed_print, .nil⟩

theorem allClosed_setEntry (hv : AllClosed value.verbatim) (he : AllClosed (Entry.verbatimAll entries)) :
    AllClosed (Entry.verbatimAll (setEntry key value entries)) := by
  induction entries
  case nil              => simp [setEntry, hv]
  case cons e entries hi =>
    obtain ⟨h, hs⟩ := AllClosed.append_iff.mp he
    cases e
    case spread => exact AllClosed.append_iff.mpr ⟨h, hi hs⟩
    case keyed  =>
      rw [setEntry]
      split
      case isTrue  => exact AllClosed.append_iff.mpr ⟨hv, hs⟩
      case isFalse => exact AllClosed.append_iff.mpr ⟨h, hi hs⟩

theorem allClosed_setParam (param : String × Json) (h : AllClosed (Entry.verbatimAll entries)) :
    AllClosed (Entry.verbatimAll (setParam entries param)) := by
  fun_cases setParam entries param
  case case1 => exact h
  case case2 => exact h
  case case3 => exact allClosed_setEntry (allClosed_raw _) h

theorem allClosed_params (params : Json.Entries) (h : AllClosed (Entry.verbatimAll entries)) :
    AllClosed (Entry.verbatimAll (params.foldl setParam entries)) := by
  induction params generalizing entries
  case nil               => exact h
  case cons param params hi => exact hi <| allClosed_setParam param h

theorem allClosed_ownHeaders (r : Request) : AllClosed (Entry.verbatimAll r.ownHeaders) := by
  rw [ownHeaders]
  cases r.paramEntries.get? "headers"
  case none   => exact .nil
  case some j => simp [j.closed_print]

theorem allClosed_headers (r : Request) : AllClosed r.headers.verbatim := by
  have hf : AllClosed ["args", "headers"] := by decide
  have ho := r.allClosed_ownHeaders
  simp only [AllClosed.cons_iff] at hf
  simp [headers, Expr.text, ho, hf]

theorem allClosed_init (r : Request) : AllClosed r.init.verbatim := by
  have hm : AllClosed (Entry.verbatimAll [.keyed "method" (.text "POST")]) := .nil
  have hp := allClosed_params r.paramEntries hm
  have hb : AllClosed body.verbatim := by decide
  have hh := r.allClosed_headers
  simp [init, hp, hb, hh]

theorem allClosed_function (h : r.takesEnvironment → Closed r.endpoint) : AllClosed r.function.verbatim := by
  have he := allClosed_endpointExpr h
  have hi := r.allClosed_init
  have hs : AllClosed r.send.verbatim := by
    have ht : AllClosed ["Promise", "TData", "res", "fetch", "json", "errors", "data"] := by decide
    have hn : Closed "new Error(json.errors[0]?.message ?? 'GraphQL error')" := by decide
    simp only [AllClosed.cons_iff] at ht
    simp [send, Stmt.define, Expr.apply, ht, hn, he, hi]
  have hn : AllClosed [functionName, "TData", "TArgs", fetcherArgsType, "query", "args", "headers", "RequestInit"] := by
    decide
  simp only [AllClosed.cons_iff] at hn
  simp [function, Param.verbatim, requestHeadersType, hn, hs]

theorem closed_code (h : r.takesEnvironment → Closed r.endpoint) : Closed r.code := by
  have ha : Closed argsInterface.print := argsInterface.closed_print (by decide)
  exact ha.append (t := "\n") rfl |>.append <| Function.closed_print <| allClosed_function h

end QueryHooks.Request
