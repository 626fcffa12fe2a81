import Mathlib.Data.String.Basic
import QueryHooks.Proofs.Keys
import QueryHooks.Proofs.Text.Contains

namespace QueryHooks

open TypeScript

namespace Json.Entries

-- The entries of a plain object: each key once, in ascending order.
def Ascending (entries : Entries) : Prop :=
  entries.Pairwise (·.1 < ·.1)

theorem mem_put {entries : Entries} (h : e ∈ put key value entries) : e = (key, value) ∨ e ∈ entries := by
  induction entries
  case nil             => exact .inl <| List.mem_singleton.mp h
  case cons e' es hi =>
    rw [put] at h
    split at h
    case isTrue         => exact List.mem_cons.mp h
    case isFalse =>
      split at h
      case isTrue  => exact (List.mem_cons.mp h).imp_right (.tail _)
      case isFalse =>
        cases List.mem_cons.mp h
        case inl h => exact .inr <| h ▸ .head _
        case inr h => exact (hi h).imp_right (.tail _)

theorem Ascending.put {entries : Entries} (h : Ascending entries) (key : String) (value : Json) :
    Ascending (entries.put key value) := by
  induction entries
  case nil           => exact List.pairwise_singleton ..
  case cons e es hi =>
    have ⟨hh, ht⟩ := List.pairwise_cons.mp h
    rw [Entries.put]
    split
    case isTrue hl =>
      refine List.pairwise_cons.mpr ⟨fun e' he => ?_, h⟩
      cases he
      case head    => exact hl
      case tail he => exact hl.trans (hh e' he)
    case isFalse hl =>
      split
      case isTrue hk =>
        exact List.pairwise_cons.mpr ⟨fun e' he => hk ▸ hh e' he, ht⟩
      case isFalse hk =>
        refine List.pairwise_cons.mpr ⟨fun e' he => ?_, hi ht⟩
        cases mem_put he
        case inl he => exact he ▸ lt_of_le_of_ne (not_lt.mp hl) (Ne.symm hk)
        case inr he => exact hh e' he

-- Objects that are read have their entries in order.
theorem ascending_ofList (entries : List (String × Json)) : Ascending (ofList entries) := by
  have h {es : Entries} (hes : Ascending es) : Ascending (entries.foldl (fun es e => es.put e.1 e.2) es) := by
    induction entries generalizing es
    case nil          => exact hes
    case cons e _ hi => exact hi (hes.put e.1 e.2)
  exact h .nil

theorem Ascending.nodup {entries : Entries} (h : Ascending entries) : (entries.map (·.1)).Nodup :=
  List.pairwise_map.mpr <| h.imp ne_of_lt

theorem get?_eq_some_iff {entries : Entries} (h : (entries.map (·.1)).Nodup) :
    entries.get? key = some value ↔ (key, value) ∈ entries := by
  induction entries
  case nil           => simp [get?]
  case cons e es hi =>
    have ⟨hn, hs⟩ := List.nodup_cons.mp h
    have hi := hi hs
    rw [get?] at hi
    rw [get?, List.lookup_cons]
    split
    case h_1 hk =>
      have hm : (e.1, value) ∉ es := (hn <| List.mem_map_of_mem (f := (·.1)) ·)
      grind
    case h_2 hk =>
      grind

theorem get?_of_not_mem {entries : Entries} (h : key ∉ entries.map (·.1)) : entries.get? key = none := by
  refine List.lookup_eq_none_iff.mpr fun e he => ?_
  exact bne_iff_ne.mpr fun hk => h <| hk ▸ List.mem_map_of_mem (f := (·.1)) he

end Json.Entries

namespace TypeScript.Entry

def key? : Entry → Option String
  | keyed key _ => some key
  | spread _    => none

end TypeScript.Entry

namespace Request

-- The parameters with these keys do not stand among the others.
def placedKeys : List String := ["method", "headers", "body"]

def otherParams (params : Json.Entries) : Json.Entries :=
  params.filter (·.1 ∉ placedKeys)

def paramEntry (param : String × Json) : Entry :=
  .keyed param.1 (.raw param.2.print)

-- The method is that of the parameters, if they have one.
def methodOf (standard : Expr) (params : Json.Entries) : Expr :=
  (params.get? "method").elim standard (.raw ·.print)

variable {r : Request} {params others : Json.Entries} {param : String × Json}

theorem methodOf_cons_of_ne (h : param.1 ≠ "method") : methodOf method (param :: params) = methodOf method params := by
  have ⟨_, _⟩ := param
  simp [methodOf, Json.Entries.get?, List.lookup_cons, beq_false_of_ne (Ne.symm h)]

theorem methodOf_cons_of_eq (h : param.1 = "method") : methodOf method (param :: params) = .raw param.2.print := by
  have ⟨_, _⟩ := param
  simp [methodOf, Json.Entries.get?, List.lookup_cons, beq_of_eq h.symm]

theorem methodOf_of_not_mem (h : "method" ∉ params.map (·.1)) : methodOf method params = method := by
  rw [methodOf, Json.Entries.get?_of_not_mem h]
  rfl

theorem otherParams_cons_of_mem (h : param.1 ∈ placedKeys) : otherParams (param :: params) = otherParams params := by
  simp [otherParams, h]

theorem otherParams_cons_of_not_mem (h : param.1 ∉ placedKeys) :
    otherParams (param :: params) = param :: otherParams params := by
  simp [otherParams, h]

theorem setEntry_of_new (h : ∀ e ∈ entries, e.key? ≠ some key) :
    setEntry key value entries = entries ++ [.keyed key value] := by
  induction entries
  case nil             => rfl
  case cons e es hi =>
    have ⟨he, hs⟩ := List.forall_mem_cons.mp h
    cases e
    case keyed key' _ =>
      have hk : key' ≠ key := fun hk => he <| congrArg some hk
      rw [setEntry, if_neg hk, hi hs, List.cons_append]
    case spread       => rw [setEntry, hi hs, List.cons_append]

theorem setParam_of_ne (hh : param.1 ≠ "headers") (hb : param.1 ≠ "body") :
    setParam entries param = setEntry param.1 (.raw param.2.print) entries := by
  fun_cases setParam entries param
  case case1 => contradiction
  case case2 => contradiction
  case case3 => rfl

theorem setParam_of_eq (h : param.1 = "headers" ∨ param.1 = "body") :
    setParam entries param = entries := by
  fun_cases setParam entries param
  case case1          => rfl
  case case2          => rfl
  case case3 hh hb    => exact (h.elim hh hb).elim

-- The entries that all parameters result in. The method stays the first, and what it was is not of interest any more
-- once the parameters have had one.
theorem foldl_setParam (hn : ((others ++ params).map (·.1)).Nodup) :
    params.foldl setParam (.keyed "method" method :: others.map paramEntry) =
      .keyed "method" (methodOf method params) :: (others ++ otherParams params).map paramEntry := by
  induction params generalizing method others
  case nil => simp [methodOf, otherParams, Json.Entries.get?]
  case cons param params hi =>
    have hs : ((others ++ params).map (·.1)).Nodup :=
      hn.sublist <| ((List.sublist_cons_self ..).append_left others).map _
    rw [List.foldl_cons]
    by_cases hm : param.1 = "method"
    case pos =>
      have hp : "method" ∉ params.map (·.1) := by
        rw [List.map_append] at hn
        exact hm ▸ (List.nodup_cons.mp (List.nodup_append.mp hn).right.left).left
      have he : param.1 ∈ placedKeys := by simp [hm, placedKeys]
      rw [setParam_of_ne (by simp [hm]) (by simp [hm]), hm, setEntry, if_pos rfl, hi hs]
      rw [methodOf_of_not_mem hp, methodOf_cons_of_eq hm, otherParams_cons_of_mem he]
    case neg =>
      rw [methodOf_cons_of_ne hm]
      by_cases hp : param.1 = "headers" ∨ param.1 = "body"
      case pos =>
        have he : param.1 ∈ placedKeys := by cases hp <;> simp [*, placedKeys]
        rw [setParam_of_eq hp, hi hs, otherParams_cons_of_mem he]
      case neg =>
        have ⟨hh, hb⟩ := not_or.mp hp
        have he : param.1 ∉ placedKeys := by simp [placedKeys, hm, hh, hb]
        have hk : ∀ e ∈ others.map paramEntry, e.key? ≠ some param.1 := by
          have ⟨_, _, hd⟩ := List.nodup_append.mp (List.map_append ▸ hn)
          intro e h hk
          have ⟨o, ho, hoe⟩ := List.mem_map.mp h
          rw [← hoe] at hk
          exact hd _ (List.mem_map_of_mem ho) _ (.head _) (Option.some.inj hk)
        rw [setParam_of_ne hh hb, setEntry, if_neg (Ne.symm hm), setEntry_of_new hk]
        have hi := @hi (others ++ [param]) method (by simpa using hn)
        rw [List.map_append, ← List.append_cons] at hi
        rw [otherParams_cons_of_not_mem he, ← hi]
        rfl

-- All entries, in the order they are written in.
def arranged (method headers : Expr) (params : Json.Entries) : List Entry :=
  [.keyed "method" method] ++ (otherParams params).map paramEntry ++ [.keyed "headers" headers, .keyed "body" body]

theorem init_eq (hn : (r.paramEntries.map (·.1)).Nodup) :
    r.init = .object (arranged (methodOf (.text "POST") r.paramEntries) r.headers r.paramEntries) := by
  have h : r.paramEntries.foldl setParam (.keyed "method" (.text "POST") :: List.map paramEntry []) = _ :=
    foldl_setParam hn
  rw [List.map_nil] at h
  rw [init, h]
  rfl

theorem nodup_arranged {headers : Expr} (hn : (params.map (·.1)).Nodup) :
    ((arranged method headers params).filterMap (·.key?)).Nodup := by
  have hk : ((otherParams params).map paramEntry).filterMap (·.key?) = (otherParams params).map (·.1) := by
    rw [List.filterMap_map, ← List.filterMap_eq_map]
    rfl
  have ho : ((otherParams params).map (·.1)).Nodup := hn.sublist <| List.filter_sublist.map _
  have hp : ∀ key ∈ (otherParams params).map (·.1), key ∉ placedKeys := by
    intro key h
    have ⟨param, h, hk⟩ := List.mem_map.mp h
    exact hk ▸ of_decide_eq_true (List.mem_filter.mp h).right
  rw [arranged, List.filterMap_append, List.filterMap_append, hk]
  simp only [Entry.key?, placedKeys, List.filterMap_cons, List.filterMap_nil] at hp ⊢
  grind

theorem paramEntry_mem_arranged {standard headers : Expr} (hn : (params.map (·.1)).Nodup) (hp : param ∈ params)
    (hh : param.1 ≠ "headers") (hb : param.1 ≠ "body") :
    paramEntry param ∈ arranged (methodOf standard params) headers params := by
  by_cases hm : param.1 = "method"
  case pos =>
    have he : params.get? "method" = some param.2 := (Json.Entries.get?_eq_some_iff hn).mpr (hm ▸ hp)
    rw [arranged, methodOf, he, paramEntry, hm]
    exact List.mem_append_left _ (.head _)
  case neg =>
    have he : param ∈ otherParams params := by simp [otherParams, placedKeys, hp, hm, hh, hb]
    exact List.mem_append_left _ <| List.mem_append_right _ <| List.mem_map_of_mem he

theorem contains_send : Text.Contains (r.send.printIn .standard 1) (r.init.printAt 2) := by
  let call : Expr := .apply (.ident "fetch") [r.endpointExpr, r.init]
  have hc : Text.Contains (call.printAt 2) (r.init.printAt 2) :=
    Text.Contains.refl _ |>.append_left _ |>.append_left _ |>.append_right _
  have hs : Text.Contains ((Stmt.define "res" (.await call)).printAt 2) (r.init.printAt 2) :=
    hc.append_left _ |>.append_left _ |>.append_right _
  exact hs.append_right _ |>.append_left _ |>.append_right _ |>.append_right _ |>.append_left _

theorem contains_code : Text.Contains r.code (r.init.printAt 2) := by
  have hr : Text.Contains ((Stmt.returns (some (.arrow r.send))).printAt 1) (r.init.printAt 2) :=
    contains_send.append_left _ |>.append_right _
  have hf : Text.Contains r.function.print (r.init.printAt 2) :=
    hr.append_right _ |>.append_left _ |>.append_right _ |>.append_left _
  exact hf.append_left _

-- The standard entries with the parameters in and among them: what stands where, and that no parameter is lost.
structure HasParams (params : Json.Entries) (entries : List Entry) : Prop where
  nodup : (entries.filterMap (·.key?)).Nodup
  shape : ∃ method own,
    entries =
      [.keyed "method" method] ++
      (params.filter (·.1 ∉ ["method", "headers", "body"])).map (fun (key, value) => .keyed key (.raw value.print)) ++
      [.keyed "headers" (.object (
          [.keyed "Content-Type" (.text "application/json")] ++ own ++
          [.spread (.optionalMember (.ident "args") "headers"), .spread (.ident "headers")])),
        .keyed "body" body] ∧
    (∀ value, ("method", value) ∈ params → method = .raw value.print) ∧
    ("method" ∉ params.map (·.1) → method = .text "POST") ∧
    (∀ value, ("headers", value) ∈ params → own = [.spread (.raw value.print)]) ∧
    ("headers" ∉ params.map (·.1) → own = [])
  kept  : ∀ param ∈ params, param.1 ≠ "headers" → param.1 ≠ "body" → paramEntry param ∈ entries

theorem hasParams_init (h : r.paramEntries.Ascending) :
    ∃ entries, r.init = .object entries ∧ HasParams r.paramEntries entries := by
  have hn := h.nodup
  refine ⟨_, init_eq hn, nodup_arranged hn, ?shape, fun _ => paramEntry_mem_arranged hn⟩
  case shape =>
    refine ⟨_, r.ownHeaders, rfl, fun value hm => ?_, methodOf_of_not_mem, fun value hm => ?_, fun hm => ?_⟩
    · rw [methodOf, (Json.Entries.get?_eq_some_iff hn).mpr hm]
      rfl
    · rw [ownHeaders, (Json.Entries.get?_eq_some_iff hn).mpr hm]
      rfl
    · rw [ownHeaders, Json.Entries.get?_of_not_mem hm]
      rfl

theorem ignoresBody_iff : r.ignoresBody ↔ "body" ∈ r.paramEntries.map (·.1) := by
  rw [ignoresBody, Json.Entries.get?, List.lookup_isSome_iff, List.mem_map]
  simp only [beq_iff_eq, eq_comm (a := "body")]

end Request

theorem filter_isWarning_mapped (c : Config) (m : Mapped) (inline : Option Request) (ops : List Operation) :
    (generationEvents (.mapped m inline) c ops).filter (·.isWarning) =
      if (c.usage ops).fetcherInUse && inline.any (·.ignoresBody) then [.bodyUnused] else [] := by
  have he : HooksFile.events (.mapped m inline) (.run c (.mapped m inline) ops) =
      (if (c.usage ops).fetcherInUse && inline.any (·.ignoresBody) then [.bodyUnused] else []) ++ [.fileAssembled] := by
    simp [HooksFile.events, Strategy.request?, Strategy.needsKeyEnums, Pass.usage_run]
  rw [filter_isWarning_eq, he, List.filter_append]
  split <;> rfl

theorem HooksFile.inline_run (c : Config) (s : Strategy) (documents : String) (ops : List Operation) :
    (ofPass c s documents (.run c s ops)).inline =
      if ∃ op ∈ ops, op.kind ≠ .subscription then s.request?.map (·.code) else none := by
  show (if (Pass.run c s ops).usage.fetcherInUse then s.request?.map (·.code) else none) = _
  rw [Pass.usage_run]
  simp only [Config.fetcherInUse_usage]

-- The init object is the standard one with the parameters in it. A body among them is told about once, where the
-- function is written into the file.
theorem request_init_exact {c : Config} (hf : c.fetcher = .fetch endpoint params)
    (h : Json.Entries.Ascending (params.getD [])) (documents : String) (ops : List Operation) :
    let r : Request := { endpoint, params }
    ∃ file entries, generate c documents ops = .ok file ∧
      r.init = .object entries ∧ Request.HasParams (params.getD []) entries ∧
      Request.body.print = "JSON.stringify(\x7b query, variables: args?.variables \x7d)" ∧
      file.inline = (if ∃ op ∈ ops, op.kind ≠ .subscription then some r.code else none) ∧
      Text.Contains r.code (r.init.printAt 2) ∧
      (Report.generate c { operations := ops, documents }).events.filter (·.isWarning) =
        if (∃ op ∈ ops, op.kind ≠ .subscription) ∧ "body" ∈ (params.getD []).map (·.1) then [.bodyUnused] else [] := by
  intro r
  have hs : Strategy.ofFetcher c.fetcher =
      .ok (.mapped { mapper := .internal Request.functionName, isReactHook := false } (some r)) := hf ▸ rfl
  have ⟨entries, hi, hp⟩ := Request.hasParams_init (r := r) h
  have hw : (Report.generate c { operations := ops, documents }).events.filter (·.isWarning) =
      if (∃ op ∈ ops, op.kind ≠ .subscription) ∧ "body" ∈ (params.getD []).map (·.1) then [.bodyUnused] else [] := by
    have hb : r.ignoresBody ↔ "body" ∈ (params.getD []).map (·.1) := Request.ignoresBody_iff
    rw [events_generate hs, filter_isWarning_mapped]
    simp only [Option.any_some, Bool.and_eq_true, Config.fetcherInUse_usage, hb]
  refine ⟨_, entries, generate_of_ofFetcher hs documents ops, hi, hp, ?_, ?_, Request.contains_code, hw⟩
  · decide +kernel
  · exact HooksFile.inline_run ..

theorem request_init_exact_overridden :
    let params := some <| Json.Entries.ofList [
      ("method", .string "GET"), ("credentials", .string "include"), ("body", .null), ("cache", .string "no-store"),
      ("headers", .object [("x-api-key", .string "secret")])]
    let c := Config.standard (.fetch "/graphql" params)
    let ops : List Operation := [.conventional .query "user"]
    let r : Request := { endpoint := "/graphql", params }
    c.fetcher = .fetch "/graphql" params ∧ Json.Entries.Ascending (params.getD []) ∧
    (∃ file entries, generate c "" ops = .ok file ∧
      r.init = .object entries ∧ Request.HasParams (params.getD []) entries) ∧
    r.init.print = "\x7b\n  method: \"GET\",\n  cache: \"no-store\",\n  credentials: \"include\",\n" ++
      "  headers: \x7b\n    'Content-Type': 'application/json',\n    ...\x7b\"x-api-key\":\"secret\"\x7d,\n" ++
      "    ...args?.headers,\n    ...headers\n  \x7d,\n" ++
      "  body: JSON.stringify(\x7b query, variables: args?.variables \x7d)\n\x7d" ∧
    (Report.generate c { operations := ops, documents := "" }).events.filter (·.isWarning) = [.bodyUnused] := by
  intro params c ops r
  have h : Json.Entries.Ascending (params.getD []) := Json.Entries.ascending_ofList _
  obtain ⟨file, entries, hg, hi, hp, _, _, _, hw⟩ := request_init_exact (c := c) rfl h "" ops
  refine ⟨rfl, h, ⟨file, entries, hg, hi, hp⟩, ?_, ?_⟩
  · decide +kernel
  · rw [hw]
    exact if_pos (by decide +kernel)

end QueryHooks
