import QueryHooks.Operation.CacheKey
import QueryHooks.Proofs.Text.Name
import QueryHooks.Proofs.TypeScript.Quoted
import QueryHooks.Proofs.TypeScript.Reference
import QueryHooks.TypeScript.Print

namespace QueryHooks

open TypeScript
open Text (isName)

namespace Operation

theorem print_keyOf_required (base : String) :
    (keyOf base true).print = "[" ++ (quote base ++ ", args.variables]") := by
  simp only [keyOf, if_true, Expr.print, Expr.printAt, Expr.printIn, Expr.printAllIn, Expr.text, Literal.print,
    argsParam, Text.join, String.append_assoc]
  rfl

theorem print_keyOf_optional (base : String) :
    (keyOf base false).print =
      "args?.variables ? [" ++ (quote base ++ (", args.variables] : [" ++ (quote base ++ "]"))) := by
  simp only [keyOf, Bool.false_eq_true, if_false, argsVariables, Expr.print, Expr.printAt, Expr.printIn,
    Expr.printAllIn, Expr.text, Literal.print, argsParam, Text.join, String.append_assoc]
  rfl

theorem print_mutationKey (op : Operation) : op.mutationKey.print = "[" ++ (quote op.name ++ "]") := by
  simp only [mutationKey, Expr.print, Expr.printAt, Expr.printIn, Expr.printAllIn, Expr.text, Literal.print, Text.join,
    String.append_assoc]

theorem print_keyOf_inj {base base' : String} {required required' : Bool} :
    (keyOf base required).print = (keyOf base' required').print ↔ base = base' ∧ required = required' := by
  constructor
  case mpr =>
    rintro ⟨rfl, rfl⟩
    rfl
  case mp  =>
    intro h
    cases required <;> cases required' <;> simp only [print_keyOf_required, print_keyOf_optional] at h
    case false.false => exact ⟨(quote_append_inj.mp <| String.append_right_inj _ |>.mp h).left, rfl⟩
    case true.true   => exact ⟨(quote_append_inj.mp <| String.append_right_inj _ |>.mp h).left, rfl⟩
    -- The one key begins with the test for variables, the other with a bracket.
    case false.true  => simpa using congrArg (·.toList.head?) h
    case true.false  => simpa using congrArg (·.toList.head?) h

theorem print_mutationKey_inj {a b : Operation} : a.mutationKey.print = b.mutationKey.print ↔ a.name = b.name := by
  rw [print_mutationKey, print_mutationKey, String.append_right_inj, quote_append_inj]
  simp

-- Behind the name, the key of a mutation ends.
theorem print_mutationKey_ne_keyOf (op : Operation) (base : String) (required : Bool) :
    op.mutationKey.print ≠ (keyOf base required).print := by
  intro h
  rw [print_mutationKey] at h
  cases required
  case false =>
    rw [print_keyOf_optional] at h
    simpa using congrArg (·.toList.head?) h
  case true  =>
    rw [print_keyOf_required] at h
    have h := (quote_append_inj.mp <| String.append_right_inj _ |>.mp h).right
    contradiction

-- The suffix for the pages of an infinite query has a dot, which no name of GraphQL has.
theorem name_ne_infinite {name : String} (h : isName name) (base : String) : name ≠ base ++ ".infinite" := by
  rintro rfl
  have hi : isIdentifierChars (base ++ ".infinite").toList := Text.isIdentifier_of_isName h
  have hd := List.all_eq_true.mp (all_isIdentChar_of_isIdentifierChars hi) '.' (by simp)
  contradiction

end Operation

-- Two keys of a kind are printed alike if they belong to the same name and both do or do not require variables. Keys of
-- different kinds are never printed alike, but for one case: the pages of an infinite query and a plain query whose
-- name has the suffix itself.
theorem printed_keys_identify (a b : Operation) :
    (a.queryKey.print = b.queryKey.print ↔ a.name = b.name ∧ a.hasRequiredVariables = b.hasRequiredVariables) ∧
    (a.infiniteQueryKey.print = b.infiniteQueryKey.print ↔
      a.name = b.name ∧ a.hasRequiredVariables = b.hasRequiredVariables) ∧
    (a.mutationKey.print = b.mutationKey.print ↔ a.name = b.name) ∧
    a.mutationKey.print ≠ b.queryKey.print ∧
    a.mutationKey.print ≠ b.infiniteQueryKey.print ∧
    (a.infiniteQueryKey.print = b.queryKey.print ↔
      b.name = a.name ++ ".infinite" ∧ a.hasRequiredVariables = b.hasRequiredVariables) ∧
    (isName b.name → a.infiniteQueryKey.print ≠ b.queryKey.print) := by
  have hp : a.infiniteQueryKey.print = b.queryKey.print ↔
      b.name = a.name ++ ".infinite" ∧ a.hasRequiredVariables = b.hasRequiredVariables := by
    rw [Operation.infiniteQueryKey, Operation.queryKey, Operation.print_keyOf_inj, eq_comm (a := b.name)]
  refine ⟨Operation.print_keyOf_inj, ?_, Operation.print_mutationKey_inj, ?_, ?_, hp, fun hn he => ?_⟩
  · rw [Operation.infiniteQueryKey, Operation.infiniteQueryKey, Operation.print_keyOf_inj, String.append_left_inj]
  · exact Operation.print_mutationKey_ne_keyOf _ _ _
  · exact Operation.print_mutationKey_ne_keyOf _ _ _
  · exact Operation.name_ne_infinite hn _ (hp.mp he).left

theorem printed_keys_identify_feed :
    let a := Operation.conventional .query "feed"
    let b := { Operation.conventional .query "feedInfinite" with hasRequiredVariables := true }
    isName b.name ∧ a.infiniteQueryKey.print ≠ b.queryKey.print ∧
    a.infiniteQueryKey.print = "args?.variables ? ['feed.infinite', args.variables] : ['feed.infinite']" ∧
    b.queryKey.print = "['feedInfinite', args.variables]" := by
  intro a b
  have hn : isName b.name := by decide
  obtain ⟨_, _, _, _, _, _, h⟩ := printed_keys_identify a b
  exact ⟨hn, h hn, by decide +kernel, by decide +kernel⟩

end QueryHooks
