import QueryHooks.Proofs.Pass
import QueryHooks.Proofs.Strategy.Statement
import QueryHooks.Proofs.TypeScript.Terminated

namespace QueryHooks

open TypeScript
open Text (join)

namespace Config

variable {c : Config} {s : Strategy}

theorem mem_statements :
    st ∈ c.statements s op ↔ ∃ part ∈ c.parts op.kind, s.statement? c.errorType op part = some st := by
  simp [statements]

theorem mentions_fragment (hs : st ∈ c.statements s op) (h : Mentions st.print ident) :
    Mentions (c.fragment s op) ident :=
  h.concat <| List.mem_map_of_mem hs

theorem mentions_fragment_of_callee (hs : st ∈ c.statements s op) (hf : f ∈ st.callees) :
    Mentions (c.fragment s op) f :=
  have ⟨_, _, h⟩ := mem_statements.mp hs
  mentions_fragment hs <| Strategy.mentions_of_mem_callees h f hf

end Config

namespace Strategy

theorem terminated_queryHook (n : Native) (op : Operation) : Terminated (n.queryHook op).print := by
  rw [Native.queryHook]
  split <;> exact Stmt.terminated_exported_constant ..

theorem terminated_fetcherAccessor? {m : Mapped} (h : m.fetcherAccessor? op = some st) : Terminated st.print := by
  rw [Mapped.fetcherAccessor?] at h
  split at h <;> cases h
  exact Stmt.terminated_expr _

theorem terminated_statement :
    ∀ {s : Strategy} {part : Part}, s.statement? errorType op part = some st → Terminated st.print
  | mapped .., .query, rfl         => Stmt.terminated_exported_constant ..
  | mapped .., .infiniteQuery, rfl => Stmt.terminated_exported_constant ..
  | mapped .., .mutation, rfl      => Stmt.terminated_exported_constant ..
  | mapped .., .getKey, rfl        => Stmt.terminated_expr _
  | mapped .., .fetcher, h         => terminated_fetcherAccessor? h
  | native n, .query, rfl          => terminated_queryHook n _
  | native _, .infiniteQuery, rfl  => Stmt.terminated_exported_constant ..
  | native _, .mutation, rfl       => Stmt.terminated_exported_constant ..
  | _, .document, rfl              => Stmt.terminated_expr _
  | _, .subscription, rfl          => Stmt.terminated_exported_constant ..

end Strategy

namespace Config

variable {c : Config} {s : Strategy}

-- Every kind of operation has a hook.
theorem statements_ne_nil (c : Config) (s : Strategy) (op : Operation) : c.statements s op ≠ [] := by
  cases hk : op.kind <;> cases s <;> simp [statements, parts, hk, Strategy.statement?]

theorem terminated_fragment (c : Config) (s : Strategy) (op : Operation) : Terminated (c.fragment s op) := by
  refine Terminated.concat (by simpa using c.statements_ne_nil s op) fun t ht => ?_
  obtain ⟨st, hs, rfl⟩ := List.mem_map.mp ht
  obtain ⟨part, _, hs⟩ := mem_statements.mp hs
  exact Strategy.terminated_statement hs

end Config

namespace HookMethod

def names (m : HookMethod) : List String :=
  m.options :: m.values

theorem forall_mem_names {m : HookMethod} {p : String → Prop} :
    (∀ n ∈ m.names, p n) ↔ p m.options ∧ p m.hook ∧ ∀ n, m.helper = some n → p n := by
  simp [names, values]

end HookMethod

theorem Part.isIdentifier_of_mem_names {part : Part} (hm : part.method? = some m) : ∀ n ∈ m.names, isIdentifier n := by
  cases part <;> cases hm <;> decide

namespace Config

variable {c : Config}

theorem mem_usage :
    n ∈ ((c.usage ops).of r).values ∨ n ∈ ((c.usage ops).of r).types ↔
      ∃ op ∈ ops, ∃ m ∈ c.methods op.kind, m.runtime = r ∧ n ∈ m.names := by
  rw [mem_values_usage, mem_types_usage]
  simp only [HookMethod.names, List.mem_cons, and_or_left, exists_or, or_comm]

theorem isIdentifier_of_mem_methods (hm : m ∈ c.methods k) (hn : n ∈ m.names) : isIdentifier n :=
  have ⟨_, _, hm⟩ := List.mem_filterMap.mp hm
  Part.isIdentifier_of_mem_names hm n hn

end Config

theorem Operation.mentions_subscriptionHook_of_mem_names :
    ∀ n ∈ HookMethod.subscription.names, Mentions (subscriptionHook op).print n := by
  rw [HookMethod.forall_mem_names]
  refine ⟨mentions_subscriptionHook_options, mentions_subscriptionHook_hook, fun n hn => ?_⟩
  cases hn
  exact mentions_subscriptionHook_gql

-- The hooks around a fetch function call the hook that is recorded for them, and name the type of its options.
theorem Mapped.mentions_of_mem_names {f : Mapped} {inline : Option Request}
    (hs : (Strategy.mapped f inline).statement? errorType op part = some st) (hm : part.method? = some m) :
    ∀ n ∈ m.names, Mentions st.print n := by
  rw [HookMethod.forall_mem_names]
  cases part <;> cases hm <;> cases hs
  case query         => exact ⟨mentions_queryHook_options, mentions_queryHook_hook, nofun⟩
  case infiniteQuery => exact ⟨mentions_infiniteQueryHook_options, mentions_infiniteQueryHook_hook, nofun⟩
  case mutation      => exact ⟨mentions_mutationHook_options, mentions_mutationHook_hook, nofun⟩
  case subscription  => exact HookMethod.forall_mem_names.mp Operation.mentions_subscriptionHook_of_mem_names

namespace Pass

variable {c : Config} {s : Strategy}

-- The text that is searched for the identifiers to import.
def code (p : Pass) : String :=
  join "\n" p.fragments

theorem mentions_code (ho : op ∈ ops) (h : Mentions (c.fragment s op) ident) : Mentions (run c s ops).code ident := by
  rw [code]
  rw [fragments_run]
  exact h.join _ <| List.mem_map_of_mem ho

theorem references_of_callee (ho : op ∈ ops) (hs : st ∈ c.statements s op) (hf : f ∈ st.callees) (hi : isIdentifier f) :
    references (run c s ops).code f :=
  (mentions_code ho <| Config.mentions_fragment_of_callee hs hf).references hi

-- The fragments are searched one by one, whatever comes around them.
theorem references_code_iff (h : isIdentifier n) :
    references (run c s ops).code n ↔ ∃ op ∈ ops, references (c.fragment s op) n := by
  have hn : n ≠ "" := by simpa [String.toList_eq_nil_iff] using ne_nil_of_isIdentifierChars h
  have ht : ∀ t ∈ ops.map (c.fragment s), Terminated t :=
    List.forall_mem_map.mpr fun op _ => c.terminated_fragment s op
  rw [code, fragments_run, references_join hn (all_isIdentChar_of_isIdentifierChars h) ht]
  simp

end Pass
end QueryHooks
