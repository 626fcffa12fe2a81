import QueryHooks.Proofs.Text.Trim
import QueryHooks.Proofs.TypeScript.Mention
import QueryHooks.Proofs.TypeScript.Subexpr

namespace QueryHooks.TypeScript

namespace Expr

@[simp]
def ident? : Expr → Option String
  | ident name => some name
  | _          => none

-- The identifiers that the expression is made of, wherever they stand in it.
@[simp]
def idents (e : Expr) : List String :=
  e.collect ident?

end Expr

mutual

-- The identifiers that have no dots right in front of them, and no colon right behind them. Whether the expression as a
-- whole is free of these is given for its front and its back.
@[simp]
def Expr.exposed (front back : Bool) : Expr → List String
  | .ident name                     => if front && back then [name] else []
  | .literal _                      => []
  | .call callee _ args             => callee.exposed front true ++ Expr.exposedAll args
  | .arrow function                 => function.exposed back
  | .object entries                 => Entry.exposedAll entries
  | .member object _                => object.exposed front true
  | .optionalMember object _        => object.exposed front true
  | .await of                       => of.exposed true back
  | .coalesce left right            => left.exposed front true ++ right.exposed true back
  | .ternary cond thenExpr elseExpr =>
    cond.exposed front true ++ thenExpr.exposed true false ++ elseExpr.exposed true back
  | .array items                    => Expr.exposedAll items
  | .assign target value            => target.exposed front true ++ value.exposed true back
  | .paren of                       => of.exposed true true
  | .raw _                          => []

@[simp]
def Expr.exposedAll : List Expr → List String
  | []      => []
  | e :: es => e.exposed true true ++ Expr.exposedAll es

@[simp]
def Entry.exposed : Entry → List String
  | .keyed _ value => value.exposed true true
  | .spread of     => of.exposed false true

@[simp]
def Entry.exposedAll : List Entry → List String
  | []      => []
  | e :: es => e.exposed ++ Entry.exposedAll es

@[simp]
def Arrow.exposed (back : Bool) : Arrow → List String
  | ⟨_, _, _, _, body⟩ => body.exposed back

@[simp]
def Body.exposed (back : Bool) : Body → List String
  | .expr value  => value.exposed true back
  | .block stmts => Stmt.exposedAll stmts

@[simp]
def Stmt.exposed : Stmt → List String
  | .constant _ _ init    => init.exposed true true
  | .expr of              => of.exposed true true
  | .returns none         => []
  | .returns (some value) => value.exposed true true
  | .when cond body       => cond.exposed true true ++ Stmt.exposedAll body
  | .throws value         => value.exposed true true
  | .exported of          => of.exposed

@[simp]
def Stmt.exposedAll : List Stmt → List String
  | []      => []
  | s :: ss => s.exposed ++ Stmt.exposedAll ss

end

-- The identifier that the text of the expression begins with.
@[simp]
def Expr.first? : Expr → Option String
  | .ident name          => some name
  | .call callee _ _     => callee.first?
  | .member of _         => of.first?
  | .optionalMember of _ => of.first?
  | .coalesce left _     => left.first?
  | .ternary cond _ _    => cond.first?
  | .assign target _     => target.first?
  | _                    => none

mutual

-- The identifier that the text of the expression ends with.
@[simp]
def Expr.last? : Expr → Option String
  | .ident name           => some name
  | .arrow function       => function.last?
  | .await of             => of.last?
  | .coalesce _ right     => right.last?
  | .ternary _ _ elseExpr => elseExpr.last?
  | .assign _ value       => value.last?
  | _                     => none

@[simp]
def Arrow.last? : Arrow → Option String
  | ⟨_, _, _, _, body⟩ => body.last?

@[simp]
def Body.last? : Body → Option String
  | .expr value => value.last?
  | .block _    => none

end

@[simp]
def Entry.hidden? : Entry → Option String
  | .keyed _ _ => none
  | .spread of => of.first?

namespace Expr

-- What the expression itself hides: the beginnings of what it spreads, and the end of its first branch.
@[simp]
def hides : Expr → List String
  | object entries       => entries.filterMap Entry.hidden?
  | ternary _ thenExpr _ => thenExpr.last?.toList
  | _                    => []

-- The identifiers that the expression or a part of it hides.
@[simp]
def hidden (e : Expr) : List String :=
  (e.collect fun part => some part.hides).flatten

end Expr

-- The text has the identifier on its own, if the ends of the text that are given as free are those of a word.
def Within (front back : Bool) (text ident : String) : Prop :=
  ∃ before after, text = before ++ ident ++ after ∧ (opens before ∨ front ∧ before = "") ∧
    (closes after ∨ back ∧ after = "")

namespace Within

theorem refl (name : String) : Within true true name name :=
  ⟨"", "", by simp, .inr ⟨rfl, rfl⟩, .inr ⟨rfl, rfl⟩⟩

theorem append_left (h : Within front back t ident) (s : String) (hs : front → opens s) :
    Within f back (s ++ t) ident := by
  obtain ⟨before, after, rfl, hb, ha⟩ := h
  refine ⟨s ++ before, after, by simp [String.append_assoc], .inl ?_, ha⟩
  rcases hb with hb | ⟨hf, rfl⟩
  case inl => exact opens_append hb
  case inr => simpa using hs hf

theorem append_right (h : Within front back s ident) (t : String) (ht : back → closes t) :
    Within front b (s ++ t) ident := by
  obtain ⟨before, after, rfl, hb, ha⟩ := h
  refine ⟨before, after ++ t, by simp [String.append_assoc], hb, .inl ?_⟩
  rcases ha with ha | ⟨hf, rfl⟩
  case inl => exact closes_append ha
  case inr => simpa using ht hf

-- What comes behind the sign that ends the identifier makes no difference.
theorem extend (h : Within front false s ident) (t : String) : Within front back (s ++ t) ident :=
  h.append_right t (by simp)

theorem between (h : Within front back t ident) (hs : front → opens s) (hu : back → closes u) :
    Mentions (s ++ t ++ u) ident := by
  have h : Within false false (s ++ t ++ u) ident := h.append_left s hs |>.append_right u hu
  obtain ⟨before, after, ht, hb, ha⟩ := h
  exact ⟨before, after, ht, by simpa using hb, by simpa using ha⟩

theorem of_mentions (h : Mentions t ident) : Within front back t ident := by
  obtain ⟨before, after, rfl, hb, ha⟩ := h
  exact ⟨before, after, rfl, .inl hb, .inl ha⟩

theorem join (sep : String) (ho : opens sep) (hc : closes sep) (hs : s ∈ ss) (h : Within true true s ident) :
    Within true true (Text.join sep ss) ident := by
  induction ss
  case nil => contradiction
  case cons t ss hi =>
    by_cases hn : ss = []
    case pos => simp_all
    case neg =>
      rw [Text.join_cons hn]
      cases hs
      case head    => exact h.append_right sep (fun _ => hc) |>.extend _
      case tail hs => exact (hi hs).append_left _ fun _ => opens_append ho

theorem references (h : Within true true code ident) (hi : isIdentifier ident) : references code ident := by
  obtain ⟨before, after, rfl, hb, ha⟩ := h
  have hb : mayPrecede before.toList.getLast? := by
    rcases hb with hb | ⟨_, rfl⟩
    case inl => exact mayPrecede_of_opens hb
    case inr => rfl
  have ha : mayFollow after.toList := by
    rcases ha with ha | ⟨_, rfl⟩
    case inl => exact mayFollow_of_closes ha
    case inr => rfl
  exact (references_iff hi).mpr ⟨before.toList, after.toList, by simp, hb, ha⟩

end Within

theorem isBlank_head_of_isIdentifier (h : isIdentifier ident) : ∀ c ∈ ident.toList.head?, Text.isBlank c = false :=
  fun c hc => Text.isBlank_of_isIdentChar <|
    List.all_eq_true.mp (all_isIdentChar_of_isIdentifierChars h) c (List.mem_of_mem_head? hc)

-- Trimming stops at the identifier, if not before it. So what is in front is lost, or ends as it did.
theorem Mentions.exported (h : Mentions t ident) (hi : isIdentifier ident) :
    Mentions ("export " ++ trimIndent t) ident := by
  obtain ⟨before, after, rfl, hb, ha⟩ := h
  have hn := ne_nil_of_isIdentifierChars hi
  have hs : ∀ c ∈ (ident.toList ++ after.toList).head?, Text.isBlank c = false := by
    rw [List.head?_append_of_ne_nil _ hn]
    exact isBlank_head_of_isIdentifier hi
  by_cases hd : before.toList.dropWhile Text.isBlank = []
  case pos =>
    have ht : trimIndent (before ++ ident ++ after) = ident ++ after := by
      simp [trimIndent, Text.trimStart, List.append_assoc, List.dropWhile_append, hd,
        Text.dropWhile_isBlank_eq_self hs]
    rw [ht, ← String.append_assoc]
    exact .between rfl ha
  case neg =>
    have ht : trimIndent (before ++ ident ++ after) = trimIndent before ++ ident ++ after := by
      simp [trimIndent, Text.trimStart, List.append_assoc, List.dropWhile_append, hd, ← String.toList_inj]
    have ho : opens (trimIndent before) := by
      have hl := List.getLast?_eq_some_getLast hd
      have hb' := Text.getLast?_dropWhile hl
      simp_all [opens, trimIndent, Text.trimStart]
    rw [ht]
    exact (Mentions.between ho ha).append_left _

theorem opens_indent_succ (level : Nat) : opens (indent (level + 1)) := by
  rw [opens, toList_indent, Nat.mul_succ, List.replicate_succ', List.getLast?_concat]
  rfl

theorem closes_indent (level : Nat) : closes ("\n" ++ indent level ++ "\x7d") := by
  have hn : Text.isBlank '\n' = true := rfl
  have hs : Text.isBlank ' ' = true := rfl
  simp [closes, Text.trimStart, hn, hs]
  decide

theorem Layout.within_object (he : e ∈ entries) (h : Within true true e ident) (layout : Layout) (level : Nat) :
    Within front back (layout.object level entries) ident := by
  rw [Layout.object]
  split
  · simp_all
  · dsimp only
    split
    · have h := h.join ", " rfl rfl he
      exact h.append_left "\x7b " (fun _ => rfl) |>.append_right _ fun _ => rfl
    · have h := h.append_left (f := true) (indent (level + 1)) fun _ => opens_indent_succ level
      have h := h.join ",\n" rfl rfl <| List.mem_map_of_mem he
      have h := h.append_left (f := front) "\x7b\n" (fun _ => rfl)
      have h := h.append_right (b := back) ("\n" ++ indent level ++ "\x7d") fun _ => closes_indent level
      simpa [String.append_assoc] using h

variable {layout : Layout}

mutual

theorem Expr.within_printIn (hx : isIdentifier x) : ∀ (e : Expr) (level : Nat) (front back : Bool),
    x ∈ e.exposed front back → Within front back (e.printIn layout level) x
  | .ident name, _, front, back, h => by
    rw [Expr.exposed] at h
    split at h
    case isTrue hc =>
      obtain ⟨rfl, rfl⟩ := Bool.and_eq_true_iff.mp hc
      cases List.mem_singleton.mp h
      exact .refl _
    case isFalse => contradiction
  | .call callee typeArgs args, level, front, back, h => by
    rcases List.mem_append.mp h with h | h
    case inl =>
      have h := (callee.within_printIn hx level front true h).append_right (b := false) (typeArguments typeArgs ++ "(")
        fun _ => closes_typeArguments typeArgs
      rw [← String.append_assoc] at h
      exact h.extend _ |>.extend _
    case inr =>
      have ⟨t, ht, h⟩ := Expr.within_printAllIn hx args level h
      have h := h.join ", " rfl rfl ht
      exact h.append_left _ (fun _ => opens_append rfl) |>.append_right _ fun _ => rfl
  | .arrow function, level, front, back, h => function.within_printIn hx level front back h
  | .object entries, level, front, back, h => by
    have ⟨t, ht, h⟩ := Entry.within_printAllIn hx entries (level + 1) h
    exact Layout.within_object ht h layout level
  | .member object name, level, front, back, h =>
    (object.within_printIn hx level front true h).append_right "." (fun _ => rfl) |>.extend name
  | .optionalMember object name, level, front, back, h =>
    (object.within_printIn hx level front true h).append_right "?." (fun _ => rfl) |>.extend name
  | .await of, level, front, back, h => (of.within_printIn hx level true back h).append_left "await " fun _ => rfl
  | .coalesce left right, level, front, back, h => by
    rcases List.mem_append.mp h with h | h
    case inl =>
      exact (left.within_printIn hx level front true h).append_right " ?? " (fun _ => rfl) |>.extend _
    case inr =>
      exact (right.within_printIn hx level true back h).append_left _ fun _ => opens_append rfl
  | .ternary cond thenExpr elseExpr, level, front, back, h => by
    rcases List.mem_append.mp h with h | h
    case inl =>
      rcases List.mem_append.mp h with h | h
      case inl =>
        have h := (cond.within_printIn hx level front true h).append_right (b := false) " ? " fun _ => rfl
        exact h.extend _ |>.extend _ |>.extend _
      case inr =>
        have h := (thenExpr.within_printIn hx level true false h).append_left (f := front)
          (cond.printIn layout level ++ " ? ") fun _ => opens_append rfl
        exact h.extend " : " |>.extend _
    case inr =>
      exact (elseExpr.within_printIn hx level true back h).append_left _ fun _ => opens_append rfl
  | .array items, level, front, back, h => by
    have ⟨t, ht, h⟩ := Expr.within_printAllIn hx items level h
    have h := h.join ", " rfl rfl ht
    exact h.append_left "[" (fun _ => rfl) |>.append_right _ fun _ => rfl
  | .assign target value, level, front, back, h => by
    rcases List.mem_append.mp h with h | h
    case inl =>
      exact (target.within_printIn hx level front true h).append_right " = " (fun _ => rfl) |>.extend _
    case inr =>
      exact (value.within_printIn hx level true back h).append_left _ fun _ => opens_append rfl
  | .paren of, level, front, back, h =>
    (of.within_printIn hx level true true h).append_left "(" (fun _ => rfl) |>.append_right _ fun _ => rfl

theorem Expr.within_printAllIn (hx : isIdentifier x) : ∀ (es : List Expr) (level : Nat), x ∈ Expr.exposedAll es →
    ∃ t ∈ Expr.printAllIn layout level es, Within true true t x
  | e :: es, level, h => by
    rcases List.mem_append.mp h with h | h
    case inl => exact ⟨_, .head _, e.within_printIn hx level true true h⟩
    case inr =>
      have ⟨t, ht, h⟩ := Expr.within_printAllIn hx es level h
      exact ⟨t, .tail _ ht, h⟩

theorem Entry.within_printIn (hx : isIdentifier x) : ∀ (e : Entry) (level : Nat), x ∈ e.exposed →
    Within true true (e.printIn layout level) x
  | .keyed key value, level, h => by
    have hv := value.within_printIn hx level true true h
    have hk : Within true true (quoteKey key ++ ": " ++ value.printIn layout level) x :=
      hv.append_left _ fun _ => opens_append rfl
    cases value
    case ident name =>
      rw [Entry.printIn]
      split
      case isTrue he => exact he ▸ hv
      case isFalse   => exact hk
    all_goals exact hk
  | .spread of, level, h => (of.within_printIn hx level false true h).append_left "..." (by simp)

theorem Entry.within_printAllIn (hx : isIdentifier x) : ∀ (es : List Entry) (level : Nat), x ∈ Entry.exposedAll es →
    ∃ t ∈ Entry.printAllIn layout level es, Within true true t x
  | e :: es, level, h => by
    rcases List.mem_append.mp h with h | h
    case inl => exact ⟨_, .head _, e.within_printIn hx level h⟩
    case inr =>
      have ⟨t, ht, h⟩ := Entry.within_printAllIn hx es level h
      exact ⟨t, .tail _ ht, h⟩

theorem Arrow.within_printIn (hx : isIdentifier x) : ∀ (a : Arrow) (level : Nat) (front back : Bool),
    x ∈ a.exposed back → Within front back (a.printIn layout level) x
  | ⟨_, _, _, _, body⟩, level, _, back, h =>
    (body.within_printIn hx level back h).append_left _ fun _ => opens_append rfl

theorem Body.within_printIn (hx : isIdentifier x) : ∀ (b : Body) (level : Nat) (back : Bool),
    x ∈ b.exposed back → Within true back (b.printIn layout level) x
  | .expr value, level, back, h  => value.within_printIn hx level true back h
  | .block stmts, level, back, h => by
    have ⟨t, ht, h⟩ := Stmt.mentions_printAllIn hx stmts level h
    exact .of_mentions <| h.concat ht |>.append_left _ |>.append_right _ |>.append_right _

-- The statements of a block stand on lines of their own, which are indented.
theorem Stmt.mentions_printIn (hx : isIdentifier x) : ∀ (s : Stmt) (level : Nat), x ∈ s.exposed →
    Mentions (s.printIn layout (level + 1)) x
  | .constant binding ty init, level, h =>
    (init.within_printIn hx (level + 1) true true h).between (fun _ => opens_append rfl) fun _ => rfl
  | .expr of, level, h =>
    (of.within_printIn hx (level + 1) true true h).between (fun _ => opens_indent_succ level) fun _ => rfl
  | .returns (some value), level, h =>
    (value.within_printIn hx (level + 1) true true h).between (fun _ => opens_append rfl) fun _ => rfl
  | .when cond body, level, h => by
    rcases List.mem_append.mp h with h | h
    case inl =>
      have h := (cond.within_printIn hx (level + 1) true true h).between (s := indent (level + 1) ++ "if (")
        (u := ") \x7b\n") (fun _ => opens_append rfl) fun _ => rfl
      exact h.append_right _ |>.append_right _ |>.append_right _
    case inr =>
      have ⟨t, ht, h⟩ := Stmt.mentions_printAllIn hx body (level + 1) h
      exact h.concat ht |>.append_left _ |>.append_right _ |>.append_right _
  | .throws value, level, h =>
    (value.within_printIn hx (level + 1) true true h).between (fun _ => opens_append rfl) fun _ => rfl
  | .exported of, level, h => by
    have h := Mentions.exported (of.mentions_printIn hx level h) hx |>.append_left (indent (level + 1))
    rwa [← String.append_assoc] at h

theorem Stmt.mentions_printAllIn (hx : isIdentifier x) : ∀ (ss : List Stmt) (level : Nat), x ∈ Stmt.exposedAll ss →
    ∃ t ∈ Stmt.printAllIn layout (level + 1) ss, Mentions t x
  | s :: ss, level, h => by
    rcases List.mem_append.mp h with h | h
    case inl => exact ⟨_, .head _, s.mentions_printIn hx level h⟩
    case inr =>
      have ⟨t, ht, h⟩ := Stmt.mentions_printAllIn hx ss level h
      exact ⟨t, .tail _ ht, h⟩

end

-- The identifier is exposed, or it is hidden in the expression or at an end of it.
@[simp]
def Expr.Accounts (front back : Bool) (e : Expr) (x : String) : Prop :=
  x ∈ e.exposed front back ∨ (!front ∧ e.first? = some x) ∨ (!back ∧ e.last? = some x) ∨ x ∈ e.hidden

mutual

theorem Expr.accounts : ∀ (e : Expr) (front back : Bool), x ∈ e.idents → e.Accounts front back x
  | .ident _, front, back, h => by cases front <;> cases back <;> simp_all
  | .call callee _ args, front, _, h => by
    rcases List.mem_append.mp h with h | h
    case inl => rcases callee.accounts front true h with h | h | h | h <;> simp_all
    case inr => rcases Expr.accounts_all args h with h | h <;> simp_all
  | .arrow function, _, back, h => by simpa using function.accounts back h
  | .object entries, _, _, h => by simpa using Entry.accounts_all entries h
  | .member of _, front, _, h => by simpa using of.accounts front true h
  | .optionalMember of _, front, _, h => by simpa using of.accounts front true h
  | .await of, _, back, h => by simpa using of.accounts true back h
  | .coalesce left right, front, back, h => by
    rcases List.mem_append.mp h with h | h
    case inl => rcases left.accounts front true h with h | h | h | h <;> simp_all
    case inr => rcases right.accounts true back h with h | h | h | h <;> simp_all
  | .ternary cond thenExpr elseExpr, front, back, h => by
    rcases List.mem_append.mp h with h | h
    case inl =>
      rcases List.mem_append.mp h with h | h
      case inl => rcases cond.accounts front true h with h | h | h | h <;> simp_all
      case inr => rcases thenExpr.accounts true false h with h | h | h | h <;> simp_all
    case inr => rcases elseExpr.accounts true back h with h | h | h | h <;> simp_all
  | .array items, _, _, h => by simpa using Expr.accounts_all items h
  | .assign target value, front, back, h => by
    rcases List.mem_append.mp h with h | h
    case inl => rcases target.accounts front true h with h | h | h | h <;> simp_all
    case inr => rcases value.accounts true back h with h | h | h | h <;> simp_all
  | .paren of, _, _, h => by simpa using of.accounts true true h

theorem Expr.accounts_all : ∀ (es : List Expr), x ∈ Expr.collectAll Expr.ident? es →
    x ∈ Expr.exposedAll es ∨ x ∈ (Expr.collectAll (fun e => some e.hides) es).flatten
  | e :: es, h => by
    rcases List.mem_append.mp h with h | h
    case inl => rcases e.accounts true true h with h | h | h | h <;> simp_all
    case inr => rcases Expr.accounts_all es h with h | h <;> simp_all

theorem Entry.accounts : ∀ (e : Entry), x ∈ e.collect Expr.ident? →
    x ∈ e.exposed ∨ e.hidden? = some x ∨ x ∈ (e.collect fun e => some e.hides).flatten
  | .keyed _ value, h => by simpa using value.accounts true true h
  | .spread of, h => by simpa using of.accounts false true h

theorem Entry.accounts_all : ∀ (es : List Entry), x ∈ Entry.collectAll Expr.ident? es →
    x ∈ Entry.exposedAll es ∨ x ∈ es.filterMap Entry.hidden? ∨
      x ∈ (Entry.collectAll (fun e => some e.hides) es).flatten
  | e :: es, h => by
    rcases List.mem_append.mp h with h | h
    case inl => rcases e.accounts h with h | h | h <;> simp_all
    case inr => rcases Entry.accounts_all es h with h | h | h <;> simp_all

theorem Arrow.accounts : ∀ (a : Arrow) (back : Bool), x ∈ a.collect Expr.ident? →
    x ∈ a.exposed back ∨ (!back ∧ a.last? = some x) ∨ x ∈ (a.collect fun e => some e.hides).flatten
  | ⟨_, _, _, _, body⟩, back, h => by simpa using body.accounts back h

theorem Body.accounts : ∀ (b : Body) (back : Bool), x ∈ b.collect Expr.ident? →
    x ∈ b.exposed back ∨ (!back ∧ b.last? = some x) ∨ x ∈ (b.collect fun e => some e.hides).flatten
  | .expr value, back, h => by simpa using value.accounts true back h
  | .block stmts, _, h => by simpa using Stmt.accounts_all stmts h

theorem Stmt.accounts : ∀ (s : Stmt), x ∈ s.collect Expr.ident? →
    x ∈ s.exposed ∨ x ∈ (s.collect fun e => some e.hides).flatten
  | .constant _ _ init, h => by simpa using init.accounts true true h
  | .expr of, h => by simpa using of.accounts true true h
  | .returns (some value), h => by simpa using value.accounts true true h
  | .when cond body, h => by
    rcases List.mem_append.mp h with h | h
    case inl => rcases cond.accounts true true h with h | h | h | h <;> simp_all
    case inr => rcases Stmt.accounts_all body h with h | h <;> simp_all
  | .throws value, h => by simpa using value.accounts true true h
  | .exported of, h => by simpa using of.accounts h

theorem Stmt.accounts_all : ∀ (ss : List Stmt), x ∈ Stmt.collectAll Expr.ident? ss →
    x ∈ Stmt.exposedAll ss ∨ x ∈ (Stmt.collectAll (fun e => some e.hides) ss).flatten
  | s :: ss, h => by
    rcases List.mem_append.mp h with h | h
    case inl => rcases s.accounts h with h | h <;> simp_all
    case inr => rcases Stmt.accounts_all ss h with h | h <;> simp_all

end

namespace Expr

theorem references_printIn (hx : isIdentifier x) (h : x ∈ exposed true true e) :
    references (e.printIn layout level) x :=
  (e.within_printIn hx level true true h).references hx

-- The search finds all identifiers but those that only stand between dots or a colon and the rest of the expression.
theorem idents_referenced (e : Expr) (hx : isIdentifier x) :
    (x ∈ e.exposed true true → references e.print x) ∧
      (x ∈ e.idents → x ∈ e.exposed true true ∨ x ∈ e.hidden) := by
  constructor
  case left  => exact references_printIn hx
  case right =>
    intro h
    simpa only [Accounts, Bool.not_true, Bool.false_eq_true, false_and, false_or] using e.accounts true true h

theorem idents_referenced_call :
    let e := call (.ident "useQuery") [] [object [.keyed "fetcher" (ident "fetcher"), .spread (ident "options")]]
    e.print = "useQuery(\x7b fetcher, ...options \x7d)" ∧ e.exposed true true = ["useQuery", "fetcher"] ∧
      e.hidden = ["options"] ∧ references e.print "useQuery" ∧ references e.print "fetcher" := by
  have h := fun x hx => idents_referenced (x := x)
    (call (.ident "useQuery") [] [object [.keyed "fetcher" (ident "fetcher"), .spread (ident "options")]]) hx
  exact ⟨by decide, by decide, by decide, (h _ (by decide)).left (by decide), (h _ (by decide)).left (by decide)⟩

-- The identifiers that are spread or come before the colon of a conditional are lost.
theorem idents_unreferenced :
    let spread := object [.spread (ident "options")]
    let branch := ternary (ident "cond") (ident "x") (ident "y")
    (spread.print = "\x7b ...options \x7d" ∧ spread.idents = ["options"] ∧ isIdentifier "options" ∧
      references spread.print "options" = false) ∧
      branch.print = "cond ? x : y" ∧ branch.idents = ["cond", "x", "y"] ∧ branch.idents.all isIdentifier ∧
        references branch.print "x" = false := by
  decide

end Expr
end QueryHooks.TypeScript
