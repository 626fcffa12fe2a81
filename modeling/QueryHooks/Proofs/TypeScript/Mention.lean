import QueryHooks.Proofs.TypeScript.Reference
import QueryHooks.TypeScript.Print

namespace QueryHooks.TypeScript

open Text (join concat)

-- The text comes with the identifier in front, and is the end of it.
def Begins (text ident : String) : Prop :=
  ∃ after, text = ident ++ after ∧ closes after

namespace Begins

theorem append_right (t : String) (h : Begins s ident) : Begins (s ++ t) ident := by
  obtain ⟨after, rfl, ha⟩ := h
  exact ⟨after ++ t, String.append_assoc .., closes_append ha⟩

theorem mentions (hs : opens s) (h : Begins t ident) : Mentions (s ++ t) ident := by
  obtain ⟨after, rfl, ha⟩ := h
  exact String.append_assoc .. ▸ .between hs ha

theorem join (sep : String) (h : Begins s ident) : Begins (Text.join sep (s :: ss)) ident := by
  cases ss
  case nil  => exact h
  case cons => exact h.append_right _ |>.append_right _

end Begins

variable {layout : Layout} {level : Nat}

theorem Ty.begins_generic : Begins (generic name args).print name := by
  simp only [Ty.print, String.append_assoc]
  exact ⟨_, rfl, closes_append rfl⟩

theorem closes_typeArguments (args : List Ty) : closes (typeArguments args ++ "(") := by
  rw [typeArguments]
  split
  · rfl
  · simp only [String.append_assoc]
    exact closes_append rfl

theorem Layout.mentions_object (he : e ∈ entries) (h : Mentions e ident) :
    Mentions (layout.object level entries) ident := by
  rw [Layout.object]
  split
  · simp_all
  · dsimp only
    split
    · exact (h.join _ he).append_left _ |>.append_right _
    · have h := h.append_left <| indent (level + 1)
      have h := h.join ",\n" <| List.mem_map_of_mem he
      exact h.append_left _ |>.append_right _ |>.append_right _ |>.append_right _

namespace Expr

theorem begins_call : Begins ((call (ident name) typeArgs args).printIn layout level) name := by
  have h : Begins (name ++ (typeArguments typeArgs ++ "(")) name := ⟨_, rfl, closes_typeArguments _⟩
  rw [← String.append_assoc] at h
  exact h.append_right _ |>.append_right _

-- The first of several type arguments stands between signs.
theorem mentions_call_of_typeArg {args : List Expr} {tys : List Ty} :
    Mentions ((call callee (.named name :: ty :: tys) args).printIn layout level) name := by
  have ht : typeArguments (.named name :: ty :: tys) =
      "<" ++ name ++ (", " ++ join ", " (Ty.printAll (ty :: tys)) ++ ">") := by
    simp [typeArguments, Ty.printAll, Ty.print, Text.join_cons_cons, String.append_assoc]
  have h : Mentions (typeArguments (.named name :: ty :: tys)) name :=
    ht ▸ .between rfl (closes_append <| closes_append rfl)
  exact h.append_left _ |>.append_right _ |>.append_right _ |>.append_right _

theorem begins_call_of_callee (h : Begins (callee.printIn layout level) name) :
    Begins ((call callee typeArgs args).printIn layout level) name :=
  h.append_right _ |>.append_right _ |>.append_right _ |>.append_right _

theorem begins_member_of_object {of : Expr} (h : Begins (of.printIn layout level) name) :
    Begins ((member of name').printIn layout level) name :=
  h.append_right _ |>.append_right _

theorem mentions_call_of_arg (ha : a ∈ args) (h : Mentions (a.printIn layout level) name) :
    Mentions ((call callee typeArgs args).printIn layout level) name := by
  have h := h.join ", " <| List.mem_map_of_mem ha
  rw [← Expr.printAllIn_eq_map] at h
  exact h.append_left _ |>.append_right _

theorem mentions_call_of_begins_arg (h : Begins (a.printIn layout level) name) :
    Mentions ((call callee typeArgs (a :: args)).printIn layout level) name :=
  h.join ", " |>.mentions (opens_append rfl) |>.append_right _

theorem mentions_object_of_entry (he : e ∈ entries) (h : Mentions (e.printIn layout (level + 1)) name) :
    Mentions ((object entries).printIn layout level) name := by
  rw [Expr.printIn, Entry.printAllIn_eq_map]
  exact Layout.mentions_object (List.mem_map_of_mem he) h

end Expr

namespace Entry

-- All values but identifiers come behind their keys.
theorem printIn_keyed (hv : ∀ name, value ≠ .ident name) :
    (keyed key value).printIn layout level = quoteKey key ++ ": " ++ value.printIn layout level := by
  cases value
  case ident name => exact absurd rfl (hv name)
  all_goals rfl

theorem mentions_keyed (hv : ∀ name, value ≠ .ident name) (h : Mentions (value.printIn layout level) name) :
    Mentions ((keyed key value).printIn layout level) name :=
  printIn_keyed hv ▸ h.append_left _

theorem mentions_keyed_of_begins (hv : ∀ name, value ≠ .ident name) (h : Begins (value.printIn layout level) name) :
    Mentions ((keyed key value).printIn layout level) name :=
  printIn_keyed hv ▸ h.mentions (opens_append rfl)

end Entry

namespace Arrow

variable {a : Arrow}

theorem mentions_of_param (hp : p ∈ a.params) (h : Mentions p.print name) : Mentions (a.printIn layout level) name := by
  have h := h.join ", " <| List.mem_map_of_mem hp
  have h : Mentions (Param.printAll a.params) name := h.append_left _ |>.append_right _
  cases a
  exact h.append_left _ |>.append_right _ |>.append_right _ |>.append_right _

theorem mentions_of_body (h : Mentions (a.body.printIn layout level) name) :
    Mentions (a.printIn layout level) name := by
  cases a
  exact h.append_left _

theorem mentions_of_begins_body (h : Begins (a.body.printIn layout level) name) :
    Mentions (a.printIn layout level) name := by
  cases a
  exact h.mentions (opens_append rfl)

end Arrow

theorem Body.mentions_block_of_stmt (hs : s ∈ stmts) (h : Mentions (s.printIn layout (level + 1)) name) :
    Mentions ((Body.block stmts).printIn layout level) name := by
  have h := h.concat <| List.mem_map_of_mem hs
  rw [← Stmt.printAllIn_eq_map] at h
  exact h.append_left _ |>.append_right _ |>.append_right _

namespace Stmt

theorem mentions_define_of_begins (h : Begins (init.printIn layout level) name) :
    Mentions ((define name' init).printIn layout level) name :=
  h.mentions (opens_append rfl) |>.append_right _

theorem mentions_returns (h : Mentions (value.printIn layout level) name) :
    Mentions ((returns (some value)).printIn layout level) name :=
  h.append_left _ |>.append_right _

theorem mentions_returns_of_begins (h : Begins (value.printIn layout level) name) :
    Mentions ((returns (some value)).printIn layout level) name :=
  h.mentions (opens_append rfl) |>.append_right _

theorem mentions_expr (h : Mentions (of.printIn layout level) name) : Mentions ((expr of).printIn layout level) name :=
  h.append_left _ |>.append_right _

theorem print_exported_constant (binding : Binding) (ty : Option Ty) (init : Expr) :
    (exported (constant binding ty init)).print =
      "export const " ++ binding.print ++ annotation ty ++ " = " ++ init.print ++ ";\n" := by
  have h (t : String) : trimIndent ("const " ++ t) = "const " ++ t := by
    simp [← String.toList_inj, trimIndent, Text.trimStart_of_not_blank (c := 'c') rfl]
  have hi : indent 0 = "" := rfl
  simp only [Stmt.print, Expr.print, printAt, Expr.printAt, printIn, hi, String.empty_append, String.append_assoc, h]
  simp only [← String.append_assoc]
  rfl

theorem mentions_exported_constant (h : Mentions init.print name) :
    Mentions (exported (constant binding ty init)).print name := by
  rw [print_exported_constant]
  exact h.append_left _ |>.append_right _

theorem mentions_exported_constant_of_begins (h : Begins init.print name) :
    Mentions (exported (constant binding ty init)).print name := by
  rw [print_exported_constant]
  exact h.mentions (opens_append rfl) |>.append_right _

-- What is bound without a type is mentioned, since no colon follows it.
theorem mentions_exported_constant_of_name (hn : name ∈ binding.names) :
    Mentions (exported (constant binding none init)).print name := by
  have h : Mentions ("export const " ++ binding.print ++ " = ") name := by
    cases binding
    case single name' =>
      cases List.mem_singleton.mp hn
      exact .between rfl rfl
    case members pairs =>
      obtain ⟨p, hp, rfl⟩ := List.mem_map.mp hn
      have h := Mentions.join_of_ends ", " " \x7d" (opens_append rfl) rfl rfl <|
        List.mem_map_of_mem (f := fun p => p.1 ++ ": " ++ p.2) hp
      have h : Mentions (Binding.members pairs).print p.2 := by
        rw [Binding.print, String.append_assoc]
        exact h.append_left _
      exact h.append_left _ |>.append_right _
  rw [print_exported_constant]
  simp only [ annotation, String.append_empty]
  exact h.append_right _ |>.append_right _

end Stmt
end QueryHooks.TypeScript
