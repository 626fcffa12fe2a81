import QueryHooks.Proofs.Text.Respacing
import QueryHooks.TypeScript.Print

namespace QueryHooks

open Text (Respacing)

def Text.Respacing.tight : Respacing where
  replace c := if c = ' ' ∨ c = '\n' then [] else [c]
  blank c hc := by
    split
    case isTrue  => nofun
    case isFalse => simp [hc]
  visible c hc := by
    refine if_neg fun h => ?_
    rcases h with rfl | rfl <;> contradiction

namespace TypeScript

open Text (join concat)

-- The text without its spaces and line breaks.
def condense (text : String) : String :=
  Respacing.tight.apply text

theorem condense_append (s t : String) : condense (s ++ t) = condense s ++ condense t :=
  Respacing.tight.apply_append s t

theorem condense_concat (ss : List String) : condense (concat ss) = concat (ss.map condense) :=
  Respacing.tight.apply_concat ss

theorem condense_commas (ss : List String) : condense (join ", " ss) = join "," (ss.map condense) :=
  Respacing.tight.apply_join ", " ss

theorem condense_indent (level : Nat) : condense (indent level) = "" := by
  have h : (List.replicate (2 * level) ' ').flatMap Respacing.tight.replace = [] := by simp [Respacing.tight]
  rw [condense, Respacing.apply, toList_indent, h, String.ofList_nil]

theorem condense_trimIndent (text : String) : condense (trimIndent text) = trimIndent (condense text) := by
  simp [condense, Respacing.apply, trimIndent, Respacing.trimStart_flatMap]

-- The entries are separated by commas, on one line or on several.
theorem Layout.condense_object (layout : Layout) (level : Nat) (entries : List String) :
    condense (layout.object level entries) = "\x7b" ++ join "," (entries.map condense) ++ "\x7d" := by
  rw [Layout.object]
  split
  case isTrue h  =>
    rw [List.isEmpty_iff.mp h]
    rfl
  case isFalse   =>
    dsimp only
    split
    case isTrue  =>
      rw [condense_append, condense_append, condense_commas]
      rfl
    case isFalse =>
      have hi : (entries.map (indent (level + 1) ++ ·)).map condense = entries.map condense := by
        simp [condense_append, condense_indent]
      have hj : condense (join ",\n" (entries.map (indent (level + 1) ++ ·))) = join "," (entries.map condense) :=
        hi ▸ Respacing.tight.apply_join ",\n" _
      have hb : condense "\n" = "" := rfl
      simp only [condense_append, hj, hb, condense_indent, String.append_empty]
      rfl

variable {layout layout' : Layout}

mutual

theorem Expr.condense_printIn : ∀ (e : Expr) (level level' : Nat),
    condense (e.printIn layout level) = condense (e.printIn layout' level')
  | .ident _, _, _                      => rfl
  | .literal _, _, _                    => rfl
  | .call callee _ args, level, level'  => by
    simp only [Expr.printIn, condense_append, condense_commas, callee.condense_printIn level level',
      Expr.condense_printAllIn args level level']
  | .arrow function, level, level'      => function.condense_printIn level level'
  | .object entries, level, level'      => by
    simp only [Expr.printIn, Layout.condense_object, Entry.condense_printAllIn entries (level + 1) (level' + 1)]
  | .member object _, level, level'     => by
    simp only [Expr.printIn, condense_append, object.condense_printIn level level']
  | .optionalMember object _, level, level' => by
    simp only [Expr.printIn, condense_append, object.condense_printIn level level']
  | .await of, level, level'            => by
    simp only [Expr.printIn, condense_append, of.condense_printIn level level']
  | .coalesce left right, level, level' => by
    simp only [Expr.printIn, condense_append, left.condense_printIn level level', right.condense_printIn level level']
  | .ternary cond thenExpr elseExpr, level, level' => by
    simp only [Expr.printIn, condense_append, cond.condense_printIn level level',
      thenExpr.condense_printIn level level', elseExpr.condense_printIn level level']
  | .array items, level, level'         => by
    simp only [Expr.printIn, condense_append, condense_commas, Expr.condense_printAllIn items level level']
  | .assign target value, level, level' => by
    simp only [Expr.printIn, condense_append, target.condense_printIn level level', value.condense_printIn level level']
  | .paren of, level, level'            => by
    simp only [Expr.printIn, condense_append, of.condense_printIn level level']
  | .raw _, _, _                        => rfl

theorem Expr.condense_printAllIn : ∀ (es : List Expr) (level level' : Nat),
    (Expr.printAllIn layout level es).map condense = (Expr.printAllIn layout' level' es).map condense
  | [], _, _               => rfl
  | e :: es, level, level' =>
    List.cons_eq_cons.mpr ⟨e.condense_printIn level level', Expr.condense_printAllIn es level level'⟩

theorem Entry.condense_printIn : ∀ (e : Entry) (level level' : Nat),
    condense (e.printIn layout level) = condense (e.printIn layout' level')
  | .keyed key value, level, level' => by
    have hv := value.condense_printIn level level'
    cases value
    case ident => rfl
    all_goals simp only [Entry.printIn, condense_append, hv]
  | .spread of, level, level'       => by
    simp only [Entry.printIn, condense_append, of.condense_printIn level level']

theorem Entry.condense_printAllIn : ∀ (es : List Entry) (level level' : Nat),
    (Entry.printAllIn layout level es).map condense = (Entry.printAllIn layout' level' es).map condense
  | [], _, _               => rfl
  | e :: es, level, level' =>
    List.cons_eq_cons.mpr ⟨e.condense_printIn level level', Entry.condense_printAllIn es level level'⟩

theorem Arrow.condense_printIn : ∀ (a : Arrow) (level level' : Nat),
    condense (a.printIn layout level) = condense (a.printIn layout' level')
  | ⟨_, _, _, _, body⟩, level, level' => by
    simp only [Arrow.printIn, condense_append, body.condense_printIn level level']

theorem Body.condense_printIn : ∀ (b : Body) (level level' : Nat),
    condense (b.printIn layout level) = condense (b.printIn layout' level')
  | .expr value, level, level'  => value.condense_printIn level level'
  | .block stmts, level, level' => by
    simp only [Body.printIn, condense_append, condense_concat, condense_indent,
      Stmt.condense_printAllIn stmts (level + 1) (level' + 1)]

theorem Stmt.condense_printIn : ∀ (s : Stmt) (level level' : Nat),
    condense (s.printIn layout level) = condense (s.printIn layout' level')
  | .constant _ _ init, level, level' => by
    simp only [Stmt.printIn, condense_append, condense_indent, init.condense_printIn level level']
  | .expr of, level, level'           => by
    simp only [Stmt.printIn, condense_append, condense_indent, of.condense_printIn level level']
  | .returns none, level, level'      => by
    simp only [Stmt.printIn, condense_append, condense_indent]
  | .returns (some value), level, level' => by
    simp only [Stmt.printIn, condense_append, condense_indent, value.condense_printIn level level']
  | .when cond body, level, level'    => by
    simp only [Stmt.printIn, condense_append, condense_concat, condense_indent, cond.condense_printIn level level',
      Stmt.condense_printAllIn body (level + 1) (level' + 1)]
  | .throws value, level, level'      => by
    simp only [Stmt.printIn, condense_append, condense_indent, value.condense_printIn level level']
  | .exported of, level, level'       => by
    simp only [Stmt.printIn, condense_append, condense_indent, condense_trimIndent, of.condense_printIn level level']

theorem Stmt.condense_printAllIn : ∀ (ss : List Stmt) (level level' : Nat),
    (Stmt.printAllIn layout level ss).map condense = (Stmt.printAllIn layout' level' ss).map condense
  | [], _, _               => rfl
  | s :: ss, level, level' =>
    List.cons_eq_cons.mpr ⟨s.condense_printIn level level', Stmt.condense_printAllIn ss level level'⟩

end

-- Apart from white space, a tree is printed as if all its object literals stood on one line.
theorem layout_changes_spacing_only (level : Nat) :
    (∀ e : Expr, condense (e.printAt level) = condense (e.printIn .oneLine level)) ∧
    (∀ a : Arrow, condense (a.printAt level) = condense (a.printIn .oneLine level)) ∧
    (∀ s : Stmt, condense (s.printAt level) = condense (s.printIn .oneLine level)) ∧
    ∀ (e : Entry) (es : List Entry),
      (Expr.object (e :: es)).printIn .oneLine level =
        "\x7b " ++ join ", " ((e :: es).map (·.printIn .oneLine (level + 1))) ++ " \x7d" ∧
      condense ((Expr.object (e :: es)).printAt level) =
        "\x7b" ++ join "," ((e :: es).map fun e => condense (e.printIn .oneLine (level + 1))) ++ "\x7d" := by
  refine ⟨fun e => e.condense_printIn level level, fun a => a.condense_printIn level level,
    fun s => s.condense_printIn level level, fun e es => ⟨?_, ?_⟩⟩
  · rw [Expr.printIn, Entry.printAllIn_eq_map]
    rfl
  · have h : (Entry.printAllIn .standard (level + 1) (e :: es)).map condense =
        (Entry.printAllIn .oneLine (level + 1) (e :: es)).map condense :=
      Entry.condense_printAllIn (e :: es) (level + 1) (level + 1)
    rw [Expr.printAt, Expr.printIn, Layout.condense_object, h, Entry.printAllIn_eq_map, List.map_map]
    rfl

end TypeScript
end QueryHooks
