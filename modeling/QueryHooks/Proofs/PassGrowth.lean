import QueryHooks.Proofs.Pass

namespace QueryHooks

open Operation (namesOf)

namespace Pass

variable {c : Config} {s : Strategy} {p p' p'' : Pass}

-- The state `p'` has all that `p` has, in the same places.
structure Extends (p' p : Pass) : Prop where
  fragments    : p.fragments <+: p'.fragments
  queries      : p.queries <+: p'.queries
  mutations    : p.mutations <+: p'.mutations
  values       : ∀ r, (p.usage.of r).values ⊆ (p'.usage.of r).values
  types        : ∀ r, (p.usage.of r).types ⊆ (p'.usage.of r).types
  fetcherInUse : p.usage.fetcherInUse → p'.usage.fetcherInUse

namespace Extends

theorem refl (p : Pass) : p.Extends p where
  fragments    := List.prefix_refl _
  queries      := List.prefix_refl _
  mutations    := List.prefix_refl _
  values _     := List.Subset.refl _
  types _      := List.Subset.refl _
  fetcherInUse := id

theorem trans (h' : p''.Extends p') (h : p'.Extends p) : p''.Extends p where
  fragments    := h.fragments.trans h'.fragments
  queries      := h.queries.trans h'.queries
  mutations    := h.mutations.trans h'.mutations
  values r     := List.Subset.trans (h.values r) (h'.values r)
  types r      := List.Subset.trans (h.types r) (h'.types r)
  fetcherInUse := h'.fetcherInUse ∘ h.fetcherInUse

end Extends

theorem prefix_register (names : List String) (name : String) : names <+: register names name := by
  rw [register]
  split
  · exact List.prefix_refl _
  · exact List.prefix_append ..

-- One visit, from any state.
theorem extends_visit (p : Pass) (op : Operation) : (visit c s p op).Extends p where
  fragments    := List.prefix_append ..
  queries      := by
    show p.queries <+: if op.kind = .query then _ else _
    split
    · exact prefix_register ..
    · exact List.prefix_refl _
  mutations    := by
    show p.mutations <+: if op.kind = .mutation then _ else _
    split
    · exact prefix_register ..
    · exact List.prefix_refl _
  values       := (p.usage.includes_run _).values
  types        := (p.usage.includes_run _).types
  fetcherInUse := (p.usage.includes_run _).fetcherInUse

theorem extends_run_append (ops ops' : List Operation) : (run c s (ops ++ ops')).Extends (run c s ops) := by
  induction ops' using List.reverseRecOn
  case nil                         =>
    rw [List.append_nil]
    exact .refl _
  case append_singleton ops' op hi =>
    rw [← List.append_assoc, run_append_singleton]
    exact (extends_visit _ op).trans hi

end Pass

-- The state after a pass is known from the operations alone, and further visits only add to it.
theorem pass_closed_form (c : Config) (s : Strategy) (ops : List Operation) :
    (Pass.run c s ops).fragments = ops.map (c.fragment s) ∧
    (Pass.run c s ops).queries = firstsBy id (namesOf .query ops) ∧
    (Pass.run c s ops).mutations = firstsBy id (namesOf .mutation ops) ∧
    ((Pass.run c s ops).usage.fetcherInUse ↔ ∃ op ∈ ops, op.kind = .query ∨ op.kind = .mutation) ∧
    (Pass.run c s ops).usage = c.usage ops ∧
    (Pass.run c s ops).usage.Ascending ∧
    ∀ ops', (Pass.run c s (ops ++ ops')).Extends (Pass.run c s ops) := by
  have hu : (Pass.run c s ops).usage = c.usage ops := Pass.usage_run ops
  have hk (op : Operation) : op.kind ≠ .subscription ↔ op.kind = .query ∨ op.kind = .mutation := by
    cases op.kind <;> simp
  refine ⟨Pass.fragments_run ops, Pass.queries_run ops, Pass.mutations_run ops, ?_, hu, ?_, Pass.extends_run_append ops⟩
  · simp only [hu, Config.fetcherInUse_usage, hk]
  · exact hu ▸ c.ascending_usage ops

end QueryHooks
