import QueryHooks.Proofs.Assembly
import QueryHooks.Proofs.RequestInit

namespace QueryHooks

open Text (join)

variable {c : Config} {m : Mapped} {inline inline' : Option Request}

namespace Config

-- What an operation is rendered as depends on the function that is called, and not on where it is from.
theorem fragment_inline (fetcher : Fetcher) (op : Operation) :
    { c with fetcher }.fragment (.mapped m inline) op = c.fragment (.mapped m inline') op := by
  have h : (Strategy.mapped m inline).statement? c.errorType op =
      (Strategy.mapped m inline').statement? c.errorType op := by
    funext part
    cases part <;> rfl
  rw [fragment, fragment, statements, statements, ← h]
  rfl

theorem steps_inline (fetcher : Fetcher) (op : Operation) :
    { c with fetcher }.steps (.mapped m inline) op = c.steps (.mapped m inline') op := by
  have h : (Strategy.mapped m inline).steps = (Strategy.mapped m inline').steps := by
    funext part
    cases part <;> rfl
  rw [steps, steps, ← h]
  rfl

end Config

theorem Pass.run_inline (fetcher : Fetcher) (ops : List Operation) :
    run { c with fetcher } (.mapped m inline) ops = run c (.mapped m inline') ops := by
  induction ops using List.reverseRecOn
  case nil                        => rfl
  case append_singleton ops op hi =>
    rw [run_append_singleton, run_append_singleton, hi, visit, visit, Config.fragment_inline, Config.steps_inline]

namespace HooksFile

-- The section with the function stands between the documents and the hooks.
theorem content_mapped (c : Config) (m : Mapped) (inline : Option Request) (documents : String) (ops : List Operation) :
    (ofPass c (.mapped m inline) documents (.run c (.mapped m inline) ops)).content = join "\n" (
      (if .ofList (Text.trimEnd documents.toList) = "" then []
        else [.ofList (Text.trimEnd documents.toList) ++ "\n"]) ++
      (if ∃ op ∈ ops, op.kind ≠ .subscription then inline.toList.map (·.code) else []) ++
      (if join "\n" (Pass.run c (.mapped m inline) ops).fragments = "" then []
        else [join "\n" (Pass.run c (.mapped m inline) ops).fragments])) := by
  have hi : (if ∃ op ∈ ops, op.kind ≠ .subscription then inline.map (·.code) else none).toList =
      if ∃ op ∈ ops, op.kind ≠ .subscription then inline.toList.map (·.code) else [] := by
    split
    case isTrue  => exact Option.toList_map ..
    case isFalse => rfl
  have hk : keyEnumsOf (.mapped m inline) (.run c (.mapped m inline) ops) = [] := rfl
  rw [content, sections_ofPass, inline_run, hk, List.map_nil, List.append_nil, ← hi]
  rfl

end HooksFile

-- The strategy with its own function is that of a plain function with its name, with the function in the file.
theorem fetch_is_mapper_with_section (c : Config) (endpoint : String) (params : Option Json.Entries)
    (documents : String) (ops : List Operation) :
    let fetching := { c with fetcher := .fetch endpoint params }
    let mapping := { c with fetcher := .mapper "fetcher" false }
    let r : Request := { endpoint, params }
    ∃ s s' own plain,
      Strategy.ofFetcher fetching.fetcher = .ok s ∧ Strategy.ofFetcher mapping.fetcher = .ok s' ∧
      generate fetching documents ops = .ok own ∧ generate mapping documents ops = .ok plain ∧
      Pass.run fetching s ops = Pass.run mapping s' ops ∧
      own.fragments = plain.fragments ∧ own.prepend = plain.prepend ∧
      ∃ kept, HooksFile.Kept documents kept ∧
        let before := if kept = "" then [] else [kept ++ "\n"]
        let after := if plain.hooks = "" then [] else [plain.hooks]
        plain.content = join "\n" (before ++ after) ∧
        own.content = join "\n" (
          before ++ (if ∃ op ∈ ops, op.kind ≠ .subscription then [r.code] else []) ++ after) := by
  intro fetching mapping r
  let m : Mapped := { mapper := .internal "fetcher", isReactHook := false }
  have hs : Strategy.ofFetcher fetching.fetcher = .ok (.mapped m (some r)) := rfl
  have hs' : Strategy.ofFetcher mapping.fetcher = .ok (.mapped m none) := rfl
  have hp : Pass.run fetching (.mapped m (some r)) ops = Pass.run mapping (.mapped m none) ops :=
    Pass.run_inline (c := mapping) fetching.fetcher ops
  refine ⟨_, _, _, _, hs, hs', generate_of_ofFetcher hs documents ops, generate_of_ofFetcher hs' documents ops, hp,
    ?_, ?_, _, HooksFile.kept_trimEnd documents, ?_, ?_⟩
  · exact congrArg (·.fragments) hp
  · rw [hp]
    rfl
  · rw [HooksFile.content_mapped]
    simp only [Option.toList_none, List.map_nil, ite_self, List.append_nil]
    rfl
  · rw [HooksFile.content_mapped, hp]
    rfl

end QueryHooks
