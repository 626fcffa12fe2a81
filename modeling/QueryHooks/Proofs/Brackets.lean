import QueryHooks.Proofs.MapperImports
import QueryHooks.Proofs.Request
import QueryHooks.Proofs.Strategy.Closed

namespace QueryHooks

open TypeScript

theorem Mapper.closed_callee {m : Mapper} (h : isPath m.callee.toList) : Closed m.callee :=
  .of_not_mem_marks fun _ hc => not_mem_marks_of (by decide) (isPathChar_of_isPath h hc)

namespace Config

variable {c : Config} {s : Strategy}

theorem closed_fragment (hs : Strategy.ofFetcher c.fetcher = .ok s) (he : Closed c.errorType) (h : op.ClosedNames) :
    Closed (c.fragment s op) := by
  have hm : ∀ m ∈ s.mappers, Closed m.callee := fun m hm => m.closed_callee <| Strategy.isPath_callee hs hm
  refine Closed.concat fun t ht => ?_
  obtain ⟨st, hst, rfl⟩ := List.mem_map.mp ht
  obtain ⟨part, _, hst⟩ := mem_statements.mp hst
  exact st.closed_printIn 0 <| Strategy.allClosed_statement h he hm hst

end Config

theorem HooksFile.inline_ofPass {c : Config} {s : Strategy} (documents : String) (p : Pass)
    (h : t ∈ (ofPass c s documents p).inline) : ∃ r, s.request? = some r ∧ t = r.code := by
  have h : t ∈ if p.usage.fetcherInUse then s.request?.map (·.code) else none := h
  split at h
  case isFalse => contradiction
  case isTrue  =>
    have ⟨r, hr, ht⟩ := Option.map_eq_some_iff.mp h
    exact ⟨r, hr, ht.symm⟩

-- Code is closed if the texts are that stand in it as they are. So all fragments are closed, and the fetch function is,
-- for any parameters, and any endpoint that is not taken from the environment.
theorem printed_code_closed :
    (∀ (e : Expr) (level : Nat), AllClosed e.verbatim → Closed (e.printAt level)) ∧
    (∀ (a : Arrow) (level : Nat), AllClosed a.verbatim → Closed (a.printAt level)) ∧
    (∀ (st : Stmt) (level : Nat), AllClosed st.verbatim → Closed (st.printAt level)) ∧
    (∀ f : Function, AllClosed f.verbatim → Closed f.print) ∧
    (∀ d : TypeDef, AllClosed d.verbatim → Closed d.print) ∧
    (∀ i : Import, AllClosed i.verbatim → Closed i.print) ∧
    (∀ name, isIdentifier name → Closed name) ∧
    (∀ r : Request, ¬r.takesEnvironment → Closed r.code) ∧
    ∀ (c : Config) (s : Strategy) (documents : String) (ops : List Operation),
      Strategy.ofFetcher c.fetcher = .ok s → Closed c.errorType → (∀ op ∈ ops, op.ClosedNames) →
        ∃ file, generate c documents ops = .ok file ∧
          (∀ fragment ∈ file.fragments, Closed fragment ∧ Terminated fragment) ∧
          ((∀ r, s.request? = some r → ¬r.takesEnvironment) → ∀ code ∈ file.inline, Closed code) := by
  have hr (r : Request) (h : ¬r.takesEnvironment) : Closed r.code := Request.closed_code fun ht => absurd ht h
  refine ⟨fun e level h => e.closed_printIn level h, fun a level h => a.closed_printIn level h,
    fun st level h => st.closed_printIn level h, fun f h => f.closed_print h, fun d h => d.closed_print h,
    fun i h => i.closed_print h, fun _ h => .of_isIdentifier h, hr, fun c s documents ops hs he ho => ?_⟩
  refine ⟨_, generate_of_ofFetcher hs documents ops, fun fragment hf => ?_, fun h code hc => ?_⟩
  · have hf : fragment ∈ (Pass.run c s ops).fragments := hf
    rw [Pass.fragments_run] at hf
    obtain ⟨op, hop, rfl⟩ := List.mem_map.mp hf
    exact ⟨Config.closed_fragment hs he (ho op hop), c.terminated_fragment s op⟩
  · have ⟨r, hq, hc⟩ := HooksFile.inline_ofPass documents _ hc
    exact hc ▸ hr r (h r hq)

theorem printed_code_closed_quotes :
    let r : Request := { endpoint := "/graphql'); f(\\", params := some [("key')", .string "]\\\"")] }
    let c := { Config.standard (.fetch r.endpoint r.params) with errorType := "Failure<[Code, '(']>" }
    let ops : List Operation := [.conventional .query "user", .conventional .subscription "userAdded"]
    ¬r.takesEnvironment ∧ Closed c.errorType ∧ (∀ op ∈ ops, op.ClosedNames) ∧
    ∃ file, generate c "" ops = .ok file ∧ (∀ fragment ∈ file.fragments, Closed fragment ∧ Terminated fragment) ∧
      ∀ code ∈ file.inline, Closed code := by
  intro r c ops
  have hr : ¬r.takesEnvironment := by decide
  have he : Closed c.errorType := by decide
  have ho : ∀ op ∈ ops, op.ClosedNames := by
    refine List.forall_mem_cons.mpr ⟨?_, List.forall_mem_singleton.mpr ?_⟩
    · exact Operation.closedNames_conventional .query (by decide)
    · exact Operation.closedNames_conventional .subscription (by decide)
  have ⟨_, _, _, _, _, _, _, _, h⟩ := printed_code_closed
  obtain ⟨file, hg, hf, hi⟩ := h c _ "" ops rfl he ho
  refine ⟨hr, he, ho, file, hg, hf, hi fun r' h => ?_⟩
  cases h
  exact hr

end QueryHooks
