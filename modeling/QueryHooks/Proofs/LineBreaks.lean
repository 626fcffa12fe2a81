import QueryHooks.Proofs.Assembly
import QueryHooks.Proofs.ImportLines
import QueryHooks.Proofs.RequestLiterals

namespace QueryHooks

open TypeScript
open Text (Contains)

theorem TypeScript.Stmt.quotedAll_eq_flatMap (ss : List Stmt) : quotedAll ss = ss.flatMap quoted := by
  induction ss <;> simp_all [-Stmt.quoted]

namespace Strategy

variable {op : Operation}

theorem broken_of_anyBroken_quoted {m : Mapped} {inline : Option Request} {part : Part}
    (h : AnyBroken ((mapped m inline).quoted op part)) : Broken op.name := by
  have hi : ¬Broken ".infinite" := by decide
  have hh : ¬Broken "headers" := by decide
  cases part
  case document      => exact absurd h anyBroken_nil
  case subscription  => exact absurd h anyBroken_nil
  case fetcher       => exact absurd (anyBroken_singleton.mp h) hh
  case infiniteQuery => exact (broken_append.mp <| anyBroken_singleton.mp h).resolve_right hi
  all_goals exact anyBroken_singleton.mp h

theorem anyBroken_statement {s : Strategy} (h : s.statement? errorType op part = some st) :
    AnyBroken st.quoted ↔ AnyBroken (s.quoted op part) := by
  simp only [AnyBroken, mem_quoted_statement h]

end Strategy

namespace Config

variable {c : Config} {op : Operation} {ops : List Operation}

-- The hooks around a fetch function have their keys in quotes.
theorem anyBroken_statements_mapped (m : Mapped) (inline : Option Request) :
    AnyBroken (Stmt.quotedAll (c.statements (.mapped m inline) op)) ↔ op.kind ≠ .subscription ∧ Broken op.name := by
  rw [Stmt.quotedAll_eq_flatMap, anyBroken_flatMap]
  constructor
  case mp  =>
    intro ⟨st, hs, h⟩
    have ⟨part, hp, hs⟩ := mem_statements.mp hs
    rw [Strategy.anyBroken_statement hs] at h
    refine ⟨fun hk => ?_, Strategy.broken_of_anyBroken_quoted h⟩
    rw [hk] at hp
    cases List.mem_singleton.mp hp
    exact anyBroken_nil h
  case mpr =>
    intro ⟨hk, h⟩
    have hq (part) {st} (hp : part ∈ c.parts op.kind) (ht : (Strategy.mapped m inline).quoted op part = [op.name])
        (hs : (Strategy.mapped m inline).statement? c.errorType op part = some st) :
        ∃ st ∈ c.statements (.mapped m inline) op, AnyBroken st.quoted :=
      ⟨st, mem_statements.mpr ⟨part, hp, hs⟩, (Strategy.anyBroken_statement hs).mpr <| ht ▸ anyBroken_singleton.mpr h⟩
    cases hk' : op.kind
    case query        => exact hq .query (by simp [hk', parts]) rfl rfl
    case mutation     => exact hq .mutation (by simp [hk', parts]) rfl rfl
    case subscription => contradiction

-- Those from factories have them in the enums.
theorem anyBroken_statements_native (n : Native) : ¬AnyBroken (Stmt.quotedAll (c.statements (.native n) op)) := by
  rw [Stmt.quotedAll_eq_flatMap, anyBroken_flatMap]
  intro ⟨st, hs, h⟩
  have ⟨part, _, hs⟩ := mem_statements.mp hs
  rw [Strategy.anyBroken_statement hs] at h
  exact anyBroken_nil h

theorem anyBroken_keys (k : Kind) (ops : List Operation) :
    AnyBroken (Operation.keys k ops) ↔ ∃ op ∈ ops, op.kind = k ∧ Broken op.name := by
  constructor
  case mp  =>
    intro ⟨_, hp, h⟩
    obtain ⟨op, ho, hk, rfl⟩ := Operation.mem_keys.mp hp
    exact ⟨op, ho, hk, broken_capitalize.mp h⟩
  case mpr =>
    intro ⟨op, ho, hk, h⟩
    exact ⟨_, Operation.mem_keys.mpr ⟨op, ho, hk, rfl⟩, broken_capitalize.mpr h⟩

-- The value of a member is broken if the member is, since it is the same name.
theorem anyBroken_member {m : String × String} (h : m ∈ Operation.keyMembers k ops) :
    AnyBroken (quotedKey m.1 ++ [m.2]) ↔ Broken m.1 := by
  obtain ⟨n, _, rfl⟩ := List.mem_map.mp h
  rw [anyBroken_append, anyBroken_quotedKey, anyBroken_singleton]
  exact or_iff_left_of_imp broken_capitalize.mpr

theorem anyBroken_keyEnumOf (enum : String) (k : Kind) (ops : List Operation) :
    AnyBroken ((HooksFile.keyEnumOf enum k ops).flatMap (·.quoted)) ↔ ∃ op ∈ ops, op.kind = k ∧ Broken op.name := by
  rw [HooksFile.keyEnumOf]
  split
  case isFalse ha =>
    refine iff_of_false anyBroken_nil ?_
    rintro ⟨op, ho, hk, _⟩
    exact ha <| Operation.anyOf_iff.mpr ⟨op, ho, hk⟩
  case isTrue     =>
    rw [← anyBroken_keys, List.flatMap_singleton, TypeDef.quoted, List.flatMap_map, anyBroken_flatMap, Operation.keys]
    simp only [AnyBroken, List.mem_map, exists_exists_and_eq_and]
    exact exists_congr fun m => and_congr_right anyBroken_member

-- The names are in quotes either as keys of the hooks or in the enums.
theorem anyBroken_names (s : Strategy) :
    AnyBroken ((HooksFile.keyEnumsOf s (.run c s ops)).flatMap (·.quoted)) ∨
      AnyBroken (ops.flatMap fun op => Stmt.quotedAll (c.statements s op)) ↔
      ∃ op ∈ ops, op.kind ≠ .subscription ∧ Broken op.name := by
  cases s
  case mapped m inline =>
    rw [anyBroken_flatMap, anyBroken_flatMap]
    simp only [anyBroken_statements_mapped]
    exact or_iff_right nofun
  case native n        =>
    have hs : ¬AnyBroken (ops.flatMap fun op => Stmt.quotedAll (c.statements (.native n) op)) := by
      rw [anyBroken_flatMap]
      exact fun ⟨_, _, h⟩ => anyBroken_statements_native n h
    have he : HooksFile.keyEnumsOf (.native n) (.run c (.native n) ops) = _ := HooksFile.keyEnums_ofPass c n "" ops
    have hk (op : Operation) : op.kind ≠ .subscription ↔ op.kind = .query ∨ op.kind = .mutation := by
      cases op.kind <;> simp
    rw [or_iff_left hs, he, List.flatMap_append, anyBroken_append, anyBroken_keyEnumOf, anyBroken_keyEnumOf]
    simp only [hk, or_and_right, and_or_left, exists_or]

theorem anyBroken_literals (c : Config) (s : Strategy) (ops : List Operation) :
    AnyBroken (c.literals s ops) ↔
      ∃ op ∈ ops, op.kind ≠ .subscription ∧ (Broken op.name ∨ ∃ r, s.request? = some r ∧
        (¬r.takesEnvironment ∧ Broken r.endpoint ∨ AnyBroken (r.paramEntries.map (·.1)))) := by
  have hr : AnyBroken ((s.requests ops).flatMap (·.quoted)) ↔ (∃ op ∈ ops, op.kind ≠ .subscription) ∧
      ∃ r, s.request? = some r ∧ (¬r.takesEnvironment ∧ Broken r.endpoint ∨ AnyBroken (r.paramEntries.map (·.1))) := by
    rw [Strategy.requests]
    split
    case isFalse h => exact iff_of_false anyBroken_nil fun h' => h h'.left
    case isTrue h  =>
      rw [and_iff_right h, anyBroken_flatMap]
      simp only [Option.mem_toList, Request.anyBroken_quoted]
  rw [literals, anyBroken_append, anyBroken_append, or_assoc, anyBroken_names, hr]
  grind

end Config

-- Only what is external is imported besides the hooks.
theorem HooksFile.prepend_of_internal {m : Mapped} (hm : m.mapper.source? = none) (c : Config) (inline : Option Request)
    (documents : String) (ops : List Operation) :
    (ofPass c (.mapped m inline) documents (.run c (.mapped m inline) ops)).prepend =
      (c.runtimeImports ops).map (·.print) := by
  rw [prepend, imports_ofPass, Pass.usage_run, runtimeImports_usage fun _ _ => Config.references_of_usage,
    fetcherImports, Strategy.imports_mapped_of_internal hm, List.filterMap_nil, ite_self, List.append_nil]

-- A literal of the content is one of those that are put in quotes, or comes along with the documents or with raw code.
-- One of the former is broken if the name of a query or a mutation is, or the endpoint or a key of the fetch function
-- that is written into the file. An import is broken if its module is.
theorem literal_broken_iff {c : Config} (hs : Strategy.ofFetcher c.fetcher = .ok s) (documents : String)
    (ops : List Operation) :
    ∃ file, generate c documents ops = .ok file ∧
      (∀ t ∈ c.literals s ops, Contains file.content (quote t)) ∧
      ((∀ v ∈ c.verbatim s documents ops, Whole v) → ∀ t ∈ literalsIn file.content,
        t ∈ c.literals s ops ∨ ∃ v ∈ c.verbatim s documents ops, t ∈ literalsIn v) ∧
      ((∃ t ∈ c.literals s ops, Broken (quote t)) ↔
        ∃ op ∈ ops, op.kind ≠ .subscription ∧ (Broken op.name ∨ ∃ r, s.request? = some r ∧
          (¬r.takesEnvironment ∧ Broken r.endpoint ∨ ∃ key ∈ r.paramEntries.map (·.1), Broken key))) ∧
      ∀ i ∈ file.imports, (Broken i.print ↔ Broken i.source) ∧
        (i.source = c.reactQueryImportFrom ∨ i.source = c.subscriptionImportFrom ∨
          ∃ m ∈ s.mappers, m.source? = some i.source ∧ Text.Trimmed i.source.toList) := by
  have hw := c.woven_content s documents ops
  refine ⟨_, generate_of_ofFetcher hs documents ops, fun t => hw.contains, fun hv t => hw.mem_of_mem_literalsIn hv, ?_,
    fun i hi => ⟨Import.broken_print fun e he => ?_, HooksFile.source_of_mem_imports hs hi⟩⟩
  · simp only [broken_quote]
    exact c.anyBroken_literals s ops
  · have he := (HooksFile.mem_imported_ofPass hs documents).mp <| List.mem_flatMap.mpr ⟨i, hi, he⟩
    have ⟨⟨_, _, h⟩, _⟩ := he
    exact ⟨h.isIdentifier_name hs, h.isIdentifier hs⟩

-- The name of a subscription is not in quotes.
theorem literal_broken_iff_subscription :
    let c := Config.standard (.mapper "./a\nb#run" false)
    let s := Strategy.mapped { mapper := .named "./a\nb" { name := "run" }, isReactHook := false } none
    let documents := "const a = 'b';\n"
    let ops := [.conventional .query "user", .conventional .subscription "a\nb"]
    Strategy.ofFetcher c.fetcher = .ok s ∧ ∃ file, generate c documents ops = .ok file ∧
      (¬∃ t ∈ c.literals s ops, Broken (quote t)) ∧ ¬AnyBroken (literalsIn file.content) ∧
      ∀ i ∈ file.imports, Broken i.print ↔ Broken i.source := by
  intro c s documents ops
  have hs : Strategy.ofFetcher c.fetcher = .ok s := by rfl
  have ⟨file, hg, _, hl, hb, hi⟩ := literal_broken_iff hs documents ops
  have hn : ¬∃ t ∈ c.literals s ops, Broken (quote t) := by
    have hn : ¬∃ op ∈ ops, op.kind ≠ .subscription ∧ Broken op.name := by decide
    refine hb.not.mpr ?_
    rintro ⟨op, ho, hk, h | ⟨_, hr, _⟩⟩
    case inl => exact hn ⟨op, ho, hk, h⟩
    case inr => contradiction
  have hv : ∀ v ∈ c.verbatim s documents ops, Whole v ∧ ¬AnyBroken (literalsIn v) := by decide +kernel
  refine ⟨hs, file, hg, hn, fun ⟨t, ht, h⟩ => ?_, fun i h => (hi i h).left⟩
  cases hl (fun v hm => (hv v hm).left) t ht
  case inl hm => exact hn ⟨t, hm, broken_quote.mpr h⟩
  case inr hm =>
    have ⟨v, hm, ht⟩ := hm
    exact (hv v hm).right ⟨t, ht, h⟩

theorem literal_broken :
    let c := { Config.standard (.fetch "/graphql\n" none) with reactQueryImportFrom := "react\nquery" }
    let line := "import \x7b useQuery, UseQueryOptions \x7d from 'react\nquery';"
    ∃ file, generate c "" [.conventional .query "user"] = .ok file ∧
      Contains file.content "'/graphql\n'" ∧ "/graphql\n" ∈ literalsIn file.content ∧ Broken "/graphql\n" ∧
      file.prepend = [line] ∧ Broken line := by
  intro c line
  let r : Request := { endpoint := "/graphql\n", params := none }
  let s := Strategy.mapped { mapper := .internal "fetcher", isReactHook := false } (some r)
  let ops := [Operation.conventional .query "user"]
  have hs : Strategy.ofFetcher c.fetcher = .ok s := rfl
  have hw := c.woven_content s "" ops
  have hv : ∀ v ∈ c.verbatim s "" ops, Whole v := by decide +kernel
  have hl : "/graphql\n" ∈ c.literals s ops := by decide +kernel
  have hq : quote "/graphql\n" = "'/graphql\n'" := by decide
  have hp : (c.runtimeImports ops).map (·.print) = [line] := by decide +kernel
  exact ⟨_, generate_of_ofFetcher hs "" ops, hq ▸ hw.contains hl, hw.mem_literalsIn hv hl, by decide,
    (HooksFile.prepend_of_internal rfl ..).trans hp, by decide⟩

end QueryHooks
