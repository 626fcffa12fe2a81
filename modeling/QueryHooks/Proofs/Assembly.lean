import QueryHooks.Proofs.Keys
import QueryHooks.Proofs.LocalNames
import QueryHooks.Proofs.Text.Trim

namespace QueryHooks

open TypeScript
open Text (join)

namespace Config

-- The text of an import of these names from a module.
def importLine (source : String) (typeOnly : Bool) (names : List String) : List String :=
  if names = [] then []
  else ["import " ++ (if typeOnly then "type " else "") ++ "\x7b " ++ join ", " names ++ " \x7d from " ++
    quote source ++ ";"]

def linesFrom (c : Config) (source : String) (u : RuntimeUsage) : List String :=
  if c.useTypeImports then importLine source false u.values ++ importLine source true u.types
  else importLine source false (u.values ++ u.types)

theorem print_importNames (source : String) (typeOnly : Bool) (names : List String) :
    (importNames source typeOnly names).map (·.print) = importLine source typeOnly names := by
  have hi : (names.map fun name => ({ name } : ImportItem)).map (·.print) = names := by
    rw [List.map_map]
    exact List.map_id names
  cases names
  case nil  => rfl
  case cons =>
    rw [importNames, List.isEmpty_cons, if_neg Bool.false_ne_true, List.map_singleton, Import.print, Import.clauses, hi]
    simp [importLine, String.append_assoc]

theorem print_importsFrom (c : Config) (source : String) (u : RuntimeUsage) :
    (c.importsFrom source u).map (·.print) = c.linesFrom source u := by
  rw [importsFrom, linesFrom]
  split
  case isTrue  => rw [List.map_append, print_importNames, print_importNames]
  case isFalse => rw [print_importNames]

end Config

namespace RuntimeUsage

-- The part of the usage that the code refers to, with each name once and in order.
structure Restricts (u : RuntimeUsage) (code : String) (referred : RuntimeUsage) : Prop where
  ascending : referred.Ascending
  nodup     : (referred.values ++ referred.types).Nodup
  values    : ∀ n, n ∈ referred.values ↔ n ∈ u.values ∧ references code n
  types     : ∀ n, n ∈ referred.types ↔ n ∈ u.types ∧ references code n

theorem restricts_referredBy (h : u.Ascending) (hn : (u.values ++ u.types).Nodup) (code : String) :
    Restricts u code (u.referredBy code) where
  ascending := ⟨h.values.sublist List.filter_sublist, h.types.sublist List.filter_sublist⟩
  nodup     := hn.sublist <| List.filter_sublist.append List.filter_sublist
  values _  := List.mem_filter
  types _   := List.mem_filter

end RuntimeUsage

theorem Config.restricts_usage (c : Config) (ops : List Operation) (code : String) (r : Runtime) :
    ((c.usage ops).of r).Restricts code (((c.usage ops).of r).referredBy code) := by
  refine RuntimeUsage.restricts_referredBy (c.ascending_usage ops r) ?_ code
  have hn : ((c.usage ops).reactQuery.values ++ (c.usage ops).reactQuery.types ++
      ((c.usage ops).subscription.values ++ (c.usage ops).subscription.types)).Nodup := by
    simpa [Usage.names] using c.nodup_names_usage ops
  obtain ⟨hq, hs, _⟩ := List.nodup_append.mp hn
  cases r
  case reactQuery   => exact hq
  case subscription => exact hs

namespace HooksFile

-- Of what the strategy provides, that which the code refers to. Each import comes from one of the strategy's.
structure Provided (provided : List Import) (code : String) (imports : List Import) : Prop where
  imported : imports.flatMap (·.imported) =
    (provided.flatMap (·.imported)).filter (references code ·.binding)
  origin   : ∀ i ∈ imports, ∃ p ∈ provided,
    i.source = p.source ∧ i.typeOnly = p.typeOnly ∧ i.imported = p.imported.filter (references code ·.binding)

theorem provided_fetcherImports (c : Config) (s : Strategy) (u : Usage) (code : String) :
    Provided (if u.fetcherInUse then s.imports c.useTypeImports else []) code (fetcherImports c s u code) where
  imported := by
    rw [imported_fetcherImports]
    split <;> rfl
  origin   := by
    intro i hi
    have ⟨hu, p, hp, hi⟩ := mem_fetcherImports.mp hi
    refine ⟨p, (if_pos hu).symm ▸ hp, ?_⟩
    rw [eq_pruned_of_prune? hi]
    exact ⟨rfl, rfl, imported_pruned code p⟩

theorem bindings_ne_nil_of_mem_fetcherImports (h : i ∈ fetcherImports c s u code) : i.bindings ≠ [] := by
  have ⟨_, p, _, hi⟩ := mem_fetcherImports.mp h
  rw [prune?_eq] at hi
  split at hi <;> cases hi
  case isFalse he => exact fun hb => he <| Import.isEmpty_iff.mpr hb

-- The text without the blanks that it ends in.
structure Kept (text kept : String) : Prop where
  blanks : ∃ blanks : List Char, text.toList = kept.toList ++ blanks ∧ ∀ c ∈ blanks, Text.isBlank c
  last   : ∀ c ∈ kept.toList.getLast?, Text.isBlank c = false

theorem kept_trimEnd (text : String) : Kept text (.ofList (Text.trimEnd text.toList)) where
  blanks := String.toList_ofList ▸ Text.trimEnd_append_blanks _
  last   := String.toList_ofList ▸ Text.getLast?_trimEnd _

theorem sections_ofPass (c : Config) (s : Strategy) (documents : String) (p : Pass) :
    (ofPass c s documents p).sections =
      (if .ofList (Text.trimEnd documents.toList) = "" then []
        else [.ofList (Text.trimEnd documents.toList) ++ "\n"]) ++
      (ofPass c s documents p).inline.toList ++ (keyEnumsOf s p).map (·.print) ++
      (if join "\n" p.fragments = "" then [] else [join "\n" p.fragments]) := by
  simp only [sections, hooks, ofPass, String.isEmpty_iff]

theorem keyEnumsOf_run (hs : Strategy.ofFetcher c.fetcher = .ok s) (ops : List Operation) :
    keyEnumsOf s (.run c s ops) =
      if c.fetcher.isNative then
        keyEnumOf "EQueryKey" .query ops ++ keyEnumOf "EMutationKey" .mutation ops
      else [] := by
  split
  case isTrue hn  =>
    obtain ⟨n, rfl⟩ := Strategy.native_of_ofFetcher hn hs
    exact keyEnums_ofPass c n "" ops
  case isFalse hn =>
    obtain ⟨m, inline, rfl⟩ := Strategy.mapped_of_ofFetcher hn hs
    rfl

-- The file of a pass over the operations, with any fragments in place of theirs.
structure Assembled (c : Config) (s : Strategy) (documents : String) (ops : List Operation) (fragments : List String)
    (f : HooksFile) : Prop where
  -- The imports from the runtime modules come first, then those that the strategy provides, if there is a hook that
  -- fetches.
  imports : ∃ reactQuery subscription own,
    f.imports =
      c.importsFrom c.reactQueryImportFrom reactQuery ++ c.importsFrom c.subscriptionImportFrom subscription ++ own ∧
    f.prepend =
      c.linesFrom c.reactQueryImportFrom reactQuery ++ c.linesFrom c.subscriptionImportFrom subscription ++
        own.map (·.print) ∧
    (Pass.run c s ops).usage.reactQuery.Restricts (join "\n" fragments) reactQuery ∧
    (Pass.run c s ops).usage.subscription.Restricts (join "\n" fragments) subscription ∧
    Provided (if (Pass.run c s ops).usage.fetcherInUse then s.imports c.useTypeImports else [])
      (join "\n" fragments) own
  bound   : ∀ i ∈ f.imports, i.bindings ≠ []
  inline  : f.inline = if (Pass.run c s ops).usage.fetcherInUse then s.request?.map (·.code) else none
  content : ∃ kept, Kept documents kept ∧
    f.content = join "\n" (
      (if kept = "" then [] else [kept ++ "\n"]) ++
      f.inline.toList ++
      (if c.fetcher.isNative then
        keyEnumOf "EQueryKey" .query ops ++ keyEnumOf "EMutationKey" .mutation ops
      else []).map (·.print) ++
      (if join "\n" fragments = "" then [] else [join "\n" fragments]))

end HooksFile

-- The text of the fragments decides what is imported, whatever it is, and changes nothing else.
theorem assembled_from_any_fragments {c : Config} (hs : Strategy.ofFetcher c.fetcher = .ok s) (documents : String)
    (ops : List Operation) (fragments : List String) :
    let file := HooksFile.ofPass c s documents { Pass.run c s ops with fragments }
    file.Assembled c s documents ops fragments ∧
      ((Pass.run c s ops).usage.fetcherInUse ↔ ∃ op ∈ ops, op.kind ≠ .subscription) := by
  intro file
  have hu : (Pass.run c s ops).usage = c.usage ops := Pass.usage_run ops
  refine ⟨?_, hu ▸ Config.fetcherInUse_usage⟩
  constructor
  case imports =>
    have hi : file.imports =
        c.importsFrom c.reactQueryImportFrom ((c.usage ops).reactQuery.referredBy (join "\n" fragments)) ++
        c.importsFrom c.subscriptionImportFrom ((c.usage ops).subscription.referredBy (join "\n" fragments)) ++
        HooksFile.fetcherImports c s (c.usage ops) (join "\n" fragments) := by
      rw [← HooksFile.importsOfRuntime_eq, ← HooksFile.importsOfRuntime_eq, ← hu]
      rfl
    rw [hu]
    refine ⟨_, _, _, hi, ?_, c.restricts_usage ops _ .reactQuery, c.restricts_usage ops _ .subscription,
      HooksFile.provided_fetcherImports ..⟩
    rw [HooksFile.prepend, hi, List.map_append, List.map_append, Config.print_importsFrom, Config.print_importsFrom]
  case bound   =>
    intro i h
    cases List.mem_append.mp h
    case inl h =>
      cases List.mem_append.mp h
      case inl h => exact HooksFile.bindings_ne_nil_of_mem_importsOfRuntime h
      case inr h => exact HooksFile.bindings_ne_nil_of_mem_importsOfRuntime h
    case inr h => exact HooksFile.bindings_ne_nil_of_mem_fetcherImports h
  case inline  => rfl
  case content =>
    refine ⟨_, HooksFile.kept_trimEnd documents, ?_⟩
    rw [← HooksFile.keyEnumsOf_run hs]
    exact congrArg (join "\n") (HooksFile.sections_ofPass ..)

theorem assembled_from_any_fragments_split :
    let c := { Config.standard (.mapper "./lib/fetcher#run as get" false) with useTypeImports := true }
    let documents := "const a = 1;\n\t\n"
    let ops := [.conventional .query "user", .conventional .mutation "save", .conventional .subscription "event"]
    let fragments := ["const get = useQuery; // UseMutationOptions, IUseFetcherArgs", "", "x.gql"]
    ∃ s, Strategy.ofFetcher c.fetcher = .ok s ∧
    let file := HooksFile.ofPass c s documents { Pass.run c s ops with fragments }
    (file.Assembled c s documents ops fragments ∧
      ((Pass.run c s ops).usage.fetcherInUse ↔ ∃ op ∈ ops, op.kind ≠ .subscription)) ∧
    file.prepend = [
      "import \x7b useQuery \x7d from '@tanstack/react-query';",
      "import type \x7b UseMutationOptions \x7d from '@tanstack/react-query';",
      "import \x7b run as get \x7d from './lib/fetcher';",
      "import type \x7b IUseFetcherArgs \x7d from './lib/fetcher';"] ∧
    file.content =
      "const a = 1;\n\nconst get = useQuery; // UseMutationOptions, IUseFetcherArgs\n\nx.gql" :=
  ⟨_, rfl, assembled_from_any_fragments rfl .., by decide +kernel, by decide +kernel⟩

end QueryHooks
