import QueryHooks.Proofs.TypeScript.Evaluate
import QueryHooks.Strategy.Mapped

namespace QueryHooks

open TypeScript

namespace Operation

variable {h : Host} {s : Scope} {op : Operation} {args : Value}

-- The arguments may be left out if no variable is required.
def Admits (op : Operation) (args : Value) : Prop :=
  (∃ fields, args = .object fields) ∨ op.hasRequiredVariables = false ∧ args = .undefined

def keyValue (op : Operation) (h : Host) (base : String) (args : Value) : Value :=
  .array (.text base ::
    if op.hasRequiredVariables ∨ (args.field "variables").isTruthy h then [args.field "variables"] else [])

theorem eval_argsVariables (ha : op.Admits args) (hs : s.read argsParam = .ok args) :
    (argsVariables op.hasRequiredVariables).eval h s = .ok (args.field "variables") := by
  have hr : s.resolve h argsParam = .ok args := by rw [Scope.resolve_eq_read (by decide), hs]
  rw [argsVariables]
  cases ha
  case inl ha =>
    obtain ⟨fields, rfl⟩ := ha
    split
    case isTrue  => rw [Expr.eval_member_ident, hr]; rfl
    case isFalse => rw [Expr.eval_optionalMember_ident, hr]; rfl
  case inr ha =>
    obtain ⟨hv, rfl⟩ := ha
    rw [hv, if_neg nofun, Expr.eval_optionalMember_ident, hr]
    rfl

-- What has variables that count is an object.
theorem exists_fields_of_isTruthy (ht : (args.field key).isTruthy h) : ∃ fields, args = .object fields := by
  cases args
  case object fields => exact ⟨fields, rfl⟩
  all_goals contradiction

theorem eval_keyOf (ha : op.Admits args) (hs : s.read argsParam = .ok args) (base : String) :
    (keyOf base op.hasRequiredVariables).eval h s = .ok (op.keyValue h base args) := by
  have hw : (∃ fields, args = .object fields) →
      (Expr.array [.text base, .member (.ident argsParam) "variables"]).eval h s =
        .ok (.array [.text base, args.field "variables"]) := by
    rintro ⟨fields, rfl⟩
    rw [Expr.eval_array, Expr.evalAll_cons, Expr.evalAll_cons, Expr.eval_text, Expr.eval_member_ident]
    rw [Scope.resolve_eq_read (by decide), hs]
    rfl
  rw [keyOf, keyValue]
  cases hr : op.hasRequiredVariables
  case true  =>
    refine hw (ha.resolve_right fun ⟨hn, _⟩ => ?_)
    rw [hr] at hn
    contradiction
  case false =>
    have hv := eval_argsVariables (h := h) ha hs
    rw [hr] at hv
    rw [if_neg nofun, Expr.eval_ternary, hv]
    show (if (args.field "variables").isTruthy h then _ else _) = _
    simp only [Bool.false_eq_true, false_or]
    split
    case isTrue ht => exact hw (exists_fields_of_isTruthy ht)
    case isFalse   => rfl

end Operation

namespace Mapped

variable {h : Host} {s : Scope} {m : Mapped} {op : Operation} {args options : Value}

-- The arguments for a page are those of the hook, with variables that the parameters of the page override.
def Paged (h : Host) (args page paged : Value) : Prop :=
  ∃ fields inner, paged = .object fields ∧
    fields.lookup "variables" = some (.object inner) ∧
    (∀ key ≠ "variables", fields.lookup key = (args.own h).lookup key) ∧
    ∀ key, inner.lookup key = ((page.own h).lookup key).or (((args.field "variables").own h).lookup key)

theorem eval_page (hm : s.read metaParam = .ok (.object fields)) :
    ∃ page,
      (Expr.paren (.coalesce (.member (.ident metaParam) "pageParam") (.object []))).eval h s = .ok page ∧
      page.own h = ((Value.object fields).field "pageParam").own h := by
  have hr : s.resolve h metaParam = .ok (.object fields) := by rw [Scope.resolve_eq_read (by decide), hm]
  rw [Expr.eval_paren, Expr.eval_coalesce, Expr.eval_member_ident, hr]
  show ∃ page, (if ((Value.object fields).field "pageParam").isNullish then _ else _) = _ ∧ _
  split
  case isTrue hn => exact ⟨.object [], rfl, (Value.own_of_isNullish h hn).symm⟩
  case isFalse   => exact ⟨_, rfl, rfl⟩

theorem eval_pagedArgs (ha : op.Admits args) (hs : s.read Operation.argsParam = .ok args)
    (hm : s.read metaParam = .ok (.object fields)) :
    ∃ paged, (pagedArgs op).eval h s = .ok paged ∧ Paged h args ((Value.object fields).field "pageParam") paged := by
  have hr : s.resolve h Operation.argsParam = .ok args := by rw [Scope.resolve_eq_read (by decide), hs]
  have hv := Operation.eval_argsVariables (h := h) ha hs
  have ⟨page, hp, ho⟩ := eval_page (h := h) hm
  simp only [pagedArgs, Expr.eval_object, Entry.evalAll_spread, Entry.evalAll_keyed, Entry.evalAll_nil, Expr.eval_ident,
    hr, hv, hp, Outcome.ok_bind, Outcome.map_ok, List.append_nil, ho]
  refine ⟨_, rfl, _, _, rfl, List.lookup_cons_self, fun key hk => ?_, fun key => List.lookup_append⟩
  rw [List.lookup_cons, beq_false_of_ne hk]

-- A plain function is called with the arguments for the page, and what it gives back is called then.
theorem eval_fetchPage (ha : op.Admits args) (hs : s.read Operation.argsParam = .ok args)
    (hm : s.read metaParam = .ok (.object fields)) :
    ∃ paged, Paged h args ((Value.object fields).field "pageParam") paged ∧
      (Expr.apply (m.fetch op [op.documentRef, pagedArgs op]) []).eval h s = (do
        let (receiver, fetch) ← s.follow h m.mapper.callee
        let document ← s.resolve h op.document
        let send ← h.call receiver fetch [document, paged]
        h.call .undefined send []) := by
  have ⟨paged, he, hp⟩ := eval_pagedArgs (h := h) ha hs hm
  refine ⟨paged, hp, ?_⟩
  simp only [Expr.apply, fetch, Operation.documentRef, Expr.eval_call_call_ident, Expr.eval_call_ident,
    Expr.evalAll_cons, Expr.evalAll_nil, Expr.eval_ident, he, bind_assoc, Outcome.ok_bind]

-- What a function that is a hook has given back is called with the arguments for the page.
theorem eval_queryPage (ha : op.Admits args) (hs : s.read Operation.argsParam = .ok args)
    (hm : s.read metaParam = .ok (.object fields)) (hq : s.read "query" = .ok query) :
    ∃ paged, Paged h args ((Value.object fields).field "pageParam") paged ∧
      (Expr.apply (.ident "query") [pagedArgs op]).eval h s = h.call .undefined query [paged] := by
  have ⟨paged, he, hp⟩ := eval_pagedArgs (h := h) ha hs hm
  have hr : s.follow h "query" = .ok (.undefined, query) := by
    rw [Scope.follow_eq_read (by decide), hq]
    rfl
  refine ⟨paged, hp, ?_⟩
  simp only [Expr.apply, Expr.eval_call_ident, Expr.evalAll_cons, Expr.evalAll_nil, hr, he, Outcome.ok_bind]

-- The function that gets a page, made in a scope.
def pageValue (fetch : Expr) (s : Scope) : Value :=
  .function {
    typeParams := []
    params     := [{ name := metaParam }]
    returnType := none
    isAsync    := false
    body       := .expr fetch } s

theorem eval_pageFn (e : Expr) : (pageFn e).eval h s = .ok (pageValue e s) :=
  rfl

theorem call_pageValue (e : Expr) (value : Value) :
    (pageValue e s).call h [value] = e.eval h (s.set metaParam value) :=
  rfl

theorem call_exportHook :
    (exportHook name typeParams params body).call h s values = body.run h (Scope.bind s params values) :=
  rfl

theorem eval_call {m : HookMethod} (hm : '.' ∉ m.hook.toList) (typeArgs : List Ty) (key key' : String) (e e' : Expr) :
    (m.call typeArgs [(key, e), (key', e')]).eval h s = (do
      let hook ← s.read m.hook
      let value ← e.eval h s
      let value' ← e'.eval h s
      let options ← s.resolve h "options"
      h.call .undefined hook [.object (options.own h ++ [(key', value'), (key, value)])]) := by
  simp only [HookMethod.call, List.map_cons, List.map_nil, List.cons_append, List.nil_append, Expr.eval_call_ident,
    Scope.follow_eq_read hm, Expr.evalAll_cons, Expr.evalAll_nil, Expr.eval_object, Entry.evalAll_spread,
    Entry.evalAll_keyed, Entry.evalAll_nil, Expr.eval_ident, bind_assoc, map_bind, Outcome.ok_bind, Outcome.map_ok]

-- What is in scope in the hook of a query.
def queryScope (s : Scope) (args options : Value) : Scope :=
  (s.set "args" args).set "options" options

def infiniteScope (s : Scope) (pageParamKey args options : Value) : Scope :=
  queryScope (s.set "pageParamKey" pageParamKey) args options

theorem read_args_queryScope : (queryScope s args options).read Operation.argsParam = .ok args := by
  rw [queryScope, Scope.read_set_of_ne (by decide)]
  exact Scope.read_set_self

theorem read_options_queryScope : (queryScope s args options).read "options" = .ok options :=
  Scope.read_set_self

theorem call_keyAccessor (ha : op.Admits args) :
    (keyAccessor op).call h s [args] = .ok (op.keyValue h op.name args) :=
  Operation.eval_keyOf ha Scope.read_set_self _

theorem call_queryHook (ha : op.Admits args) (options : Value) :
    (m.queryHook errorType op).call h s [args, options] = (do
      let scope := queryScope s args options
      let hook ← scope.read "useQuery"
      let queryFn ← (m.queryFn op).eval h scope
      h.call .undefined hook [.object (options.own h ++
        [("queryFn", queryFn), ("queryKey", op.keyValue h op.name args)])]) := by
  have ho : (queryScope s args options).resolve h "options" = .ok options := by
    rw [Scope.resolve_eq_read (by decide), read_options_queryScope]
  have hs : (queryScope s args options).read Operation.argsParam = .ok args := read_args_queryScope
  have hk := Operation.eval_keyOf (h := h) ha hs op.name
  rw [queryHook, call_exportHook]
  show Expr.eval h (queryScope s args options) _ = _
  rw [eval_call (by decide)]
  simp only [Operation.queryKey, hk, ho, Outcome.ok_bind]
  rfl

theorem read_args_set_metaData {value : Value} (hs : s.read Operation.argsParam = .ok args) :
    (s.set metaParam value).read Operation.argsParam = .ok args := by
  rw [Scope.read_set_of_ne (by decide), hs]

theorem read_set_declare_query {query : Value} (hn : name ≠ "query") :
    ((s.declare ["query"]).set "query" query).read name = s.read name := by
  rw [Scope.read_set_of_ne hn, Scope.read_declare_of_not_mem (by simpa using hn)]

theorem read_query_set_metaData {query value : Value} :
    ((s.set "query" query).set metaParam value).read "query" = .ok query := by
  rw [Scope.read_set_of_ne (by decide), Scope.read_set_self]

theorem eval_infiniteQueryCall (ha : op.Admits args) (hs : s.read Operation.argsParam = .ok args)
    (ho : s.read "options" = .ok options) (e : Expr) :
    (infiniteQueryCall op (pageFn e)).eval h s = (do
      let hook ← s.read "useInfiniteQuery"
      h.call .undefined hook [.object (options.own h ++
        [("queryFn", pageValue e s), ("queryKey", op.keyValue h (op.name ++ ".infinite") args)])]) := by
  have hk := Operation.eval_keyOf (h := h) ha hs (op.name ++ ".infinite")
  have ho : s.resolve h "options" = .ok options := by rw [Scope.resolve_eq_read (by decide), ho]
  rw [infiniteQueryCall, eval_call (by decide)]
  simp only [Operation.infiniteQueryKey, hk, ho, eval_pageFn, Outcome.ok_bind]
  rfl

theorem call_infiniteQueryHook_plain (hr : ¬m.isReactHook) (ha : op.Admits args) (pageParamKey options : Value) :
    let scope := infiniteScope s pageParamKey args options
    let page := Expr.apply (m.fetch op [op.documentRef, pagedArgs op]) []
    (m.infiniteQueryHook errorType op).call h s [pageParamKey, args, options] = (do
      let hook ← scope.read "useInfiniteQuery"
      h.call .undefined hook [.object (options.own h ++
        [("queryFn", pageValue page scope), ("queryKey", op.keyValue h (op.name ++ ".infinite") args)])]) := by
  intro scope page
  rw [infiniteQueryHook, call_exportHook, infiniteQueryBody, if_neg hr]
  exact eval_infiniteQueryCall ha read_args_queryScope read_options_queryScope page

theorem call_infiniteQueryHook_reactHook (hr : m.isReactHook) (ha : op.Admits args) (pageParamKey options : Value) :
    let scope := (infiniteScope s pageParamKey args options).declare ["query"]
    let page := Expr.apply (.ident "query") [pagedArgs op]
    (m.infiniteQueryHook errorType op).call h s [pageParamKey, args, options] = (do
      let query ← (m.fetch op [op.documentRef]).eval h scope
      let hook ← (scope.set "query" query).read "useInfiniteQuery"
      h.call .undefined hook [.object (options.own h ++
        [("queryFn", pageValue page (scope.set "query" query)),
          ("queryKey", op.keyValue h (op.name ++ ".infinite") args)])]) := by
  intro scope page
  rw [infiniteQueryHook, call_exportHook, infiniteQueryBody, if_pos hr]
  show ((m.fetch op [op.documentRef]).eval h scope >>= fun query =>
    (infiniteQueryCall op (pageFn page)).eval h (scope.set "query" query)) = _
  refine bind_congr fun query => eval_infiniteQueryCall ha ?_ ?_ page
  · rw [read_set_declare_query (by decide), infiniteScope, read_args_queryScope]
  · rw [read_set_declare_query (by decide), infiniteScope, read_options_queryScope]

-- What the accessor of keys and the hooks for queries do, in any module and with any arguments that are admitted. The
-- options of the user are passed on behind the key and the function, and so may override both.
structure Runs (h : Host) (s : Scope) (m : Mapped) (errorType : String) (op : Operation) (args : Value) : Prop where
  getKey : (keyAccessor op).call h s [args] = .ok (op.keyValue h op.name args)
  query  : ∀ options, (m.queryHook errorType op).call h s [args, options] = (do
    let scope := queryScope s args options
    let hook ← scope.read "useQuery"
    let queryFn ← (m.queryFn op).eval h scope
    h.call .undefined hook [.object (options.own h ++
      [("queryFn", queryFn), ("queryKey", op.keyValue h op.name args)])])
  pages  : ¬m.isReactHook → ∀ pageParamKey options, ∃ queryFn,
    let scope := infiniteScope s pageParamKey args options
    (m.infiniteQueryHook errorType op).call h s [pageParamKey, args, options] = (do
      let hook ← scope.read "useInfiniteQuery"
      h.call .undefined hook [.object (options.own h ++
        [("queryFn", queryFn), ("queryKey", op.keyValue h (op.name ++ ".infinite") args)])]) ∧
    ∀ fields, ∃ paged, Paged h args ((Value.object fields).field "pageParam") paged ∧
      queryFn.call h [.object fields] = (do
        let scope := scope.set "metaData" (.object fields)
        let (receiver, fetch) ← scope.follow h m.mapper.callee
        let document ← scope.resolve h op.document
        let send ← h.call receiver fetch [document, paged]
        h.call .undefined send [])
  hookPages : m.isReactHook → ∀ pageParamKey options, ∃ queryFn : Value → Value,
    let scope := (infiniteScope s pageParamKey args options).declare ["query"]
    (m.infiniteQueryHook errorType op).call h s [pageParamKey, args, options] = (do
      let query ← (m.fetch op [op.documentRef]).eval h scope
      let hook ← (scope.set "query" query).read "useInfiniteQuery"
      h.call .undefined hook [.object (options.own h ++
        [("queryFn", queryFn query), ("queryKey", op.keyValue h (op.name ++ ".infinite") args)])]) ∧
    ∀ query fields, ∃ paged, Paged h args ((Value.object fields).field "pageParam") paged ∧
      (queryFn query).call h [.object fields] = h.call .undefined query [paged]

end Mapped

theorem hooks_run_on_admitted (ha : op.Admits args) (h : Host) (s : Scope) (m : Mapped) (errorType : String) :
    m.Runs h s errorType op args := by
  constructor
  case getKey    => exact Mapped.call_keyAccessor ha
  case query     => exact Mapped.call_queryHook ha
  case pages     =>
    intro hr pageParamKey options
    refine ⟨_, Mapped.call_infiniteQueryHook_plain hr ha pageParamKey options, fun fields => ?_⟩
    rw [Mapped.call_pageValue]
    exact Mapped.eval_fetchPage ha (Mapped.read_args_set_metaData Mapped.read_args_queryScope) Scope.read_set_self
  case hookPages =>
    intro hr pageParamKey options
    refine ⟨fun query => _, Mapped.call_infiniteQueryHook_reactHook hr ha pageParamKey options, fun query fields => ?_⟩
    rw [Mapped.call_pageValue]
    refine Mapped.eval_queryPage ha (Mapped.read_args_set_metaData ?_) Scope.read_set_self ?_
    · rw [Mapped.read_set_declare_query (by decide), Mapped.infiniteScope, Mapped.read_args_queryScope]
    · exact Mapped.read_query_set_metaData

theorem hooks_run_on_admitted_feed :
    let host : Host := {
      isTruthy := (· ≠ 0)
      fields   := fun _ => []
      member   := fun _ name => .error (.noObject name)
      call     := fun _ function values => .ok (.array (function :: values)) }
    let scope : Scope := [
      ("useQuery", some (.foreign 1)), ("useInfiniteQuery", some (.foreign 2)), ("fetchPage", some (.foreign 3)),
      ("FeedDocument", some (.text "query feed"))]
    let m : Mapped := { mapper := .internal "fetchPage", isReactHook := false }
    let op : Operation := .conventional .query "feed"
    let args : Value := .object [
      ("headers", .foreign 4), ("variables", .object [("first", .foreign 10), ("after", .null)])]
    op.Admits args ∧ op.Admits .undefined ∧
    m.Runs host scope "unknown" op args ∧
    (Mapped.keyAccessor op).call host scope [] = .ok (.array [.text "feed"]) ∧
    (Mapped.pagedArgs op).eval host
        [("metaData", some (.object [("pageParam", .object [("after", .text "c")])])), ("args", some args)] =
      .ok (.object [
        ("variables", .object [("after", .text "c"), ("first", .foreign 10), ("after", .null)]),
        ("headers", .foreign 4), ("variables", .object [("first", .foreign 10), ("after", .null)])]) := by
  intro host scope m op args
  have ha : op.Admits args := .inl ⟨_, rfl⟩
  exact ⟨ha, .inr ⟨rfl, rfl⟩, hooks_run_on_admitted ha host scope m "unknown", rfl, rfl⟩

end QueryHooks
