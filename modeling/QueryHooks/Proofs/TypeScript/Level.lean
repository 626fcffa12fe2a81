import QueryHooks.Proofs.Text.Respacing
import QueryHooks.Proofs.Text.Trim
import QueryHooks.Proofs.TypeScript.OneLine

namespace QueryHooks

open Text (Respacing)

-- Behind each line break come the spaces of `k` levels.
def Text.Respacing.deeper (k : Nat) : Respacing where
  replace c := if c = '\n' then '\n' :: List.replicate (2 * k) ' ' else [c]
  blank c hc d hd := by
    split at hd
    case isFalse   => exact List.mem_singleton.mp hd ▸ hc
    case isTrue    =>
      cases List.mem_cons.mp hd
      case inl h => exact h ▸ rfl
      case inr h => exact List.eq_of_mem_replicate h ▸ rfl
  visible c hc := by
    refine if_neg ?_
    rintro rfl
    contradiction

theorem Text.append_join (h : ss ≠ []) (s sep : String) :
    s ++ join (sep ++ s) ss = join sep (ss.map (s ++ ·)) := by
  induction ss
  case nil          => contradiction
  case cons t ss hi =>
    by_cases hn : ss = []
    case pos => simp [hn]
    case neg =>
      have hm : ss.map (s ++ ·) ≠ [] := by simpa using hn
      rw [List.map_cons, join_cons hn, join_cons hm, ← hi hn]
      simp only [String.append_assoc]

namespace TypeScript

open Text (Avoids join concat isBlank)

def deepen (k : Nat) (text : String) : String :=
  (Respacing.deeper k).apply text

section

variable {k : Nat}

theorem deepen_append (s t : String) : deepen k (s ++ t) = deepen k s ++ deepen k t :=
  (Respacing.deeper k).apply_append s t

theorem OneLine.deepen (h : OneLine t) : deepen k t = t := by
  refine (Respacing.deeper k).apply_eq_self fun c hc => if_neg ?_
  exact ne_of_beq_false (h c hc)

theorem deepen_join (h : OneLine sep) (ss : List String) : deepen k (join sep ss) = join sep (ss.map (deepen k)) := by
  rw [deepen, Respacing.apply_join]
  exact congrArg (join · _) h.deepen

theorem deepen_lineBreak : deepen k "\n" = "\n" ++ indent k := by
  rw [← String.toList_inj]
  simp [deepen, Respacing.deeper]

theorem deepen_trimIndent (text : String) : deepen k (trimIndent text) = trimIndent (deepen k text) := by
  simp [deepen, Respacing.apply, trimIndent, Respacing.trimStart_flatMap]

theorem oneLine_deepen_iff : OneLine (deepen k t) ↔ OneLine t := by
  constructor
  case mp  =>
    have hb : '\n' ∈ (Respacing.deeper k).replace '\n' := by simp [Respacing.deeper]
    rw [oneLine_iff, oneLine_iff, deepen, Respacing.toList_apply]
    exact fun h hm => h <| List.mem_flatMap.mpr ⟨_, hm, hb⟩
  case mpr =>
    intro h
    rwa [h.deepen]

theorem fits_deepen (t : String) : Layout.standard.fits (deepen k t) = Layout.standard.fits t := by
  by_cases h : OneLine t
  case pos => rw [h.deepen]
  case neg =>
    have h' : ¬OneLine (deepen k t) := oneLine_deepen_iff.not.mpr h
    have ht : '\n' ∈ t.toList := not_not.mp (oneLine_iff.not.mp h)
    have hd : '\n' ∈ (deepen k t).toList := not_not.mp (oneLine_iff.not.mp h')
    simp [Layout.standard, ht, hd]

theorem indent_deeper : indent (i + k) = indent k ++ indent i :=
  Nat.add_comm i k ▸ indent_add

-- A text on one line, with the line break at its end.
def EndsLine (text : String) : Prop :=
  text.toList.getLast? = some '\n' ∧ '\n' ∉ text.toList.dropLast

instance : Decidable (EndsLine text) :=
  inferInstanceAs <| Decidable (_ ∧ _)

theorem EndsLine.deepen (h : EndsLine t) : deepen k t = t ++ indent k := by
  have ⟨line, hl⟩ := List.getLast?_eq_some_iff.mp h.left
  have hn : OneLine (.ofList line) := by
    have h := h.right
    rw [hl, List.dropLast_concat] at h
    rwa [oneLine_iff, String.toList_ofList]
  have ht : t = .ofList line ++ "\n" := by
    rw [← String.toList_inj, hl, String.toList_append, String.toList_ofList]
    rfl
  rw [ht, deepen_append, hn.deepen, deepen_lineBreak, String.append_assoc]

-- An object literal as it is written on one line.
def inlineObject (entries : List String) : String :=
  "\x7b " ++ join ", " entries ++ " \x7d"

theorem Layout.object_eq (layout : Layout) (level : Nat) (entries : List String) :
    layout.object level entries =
      if entries.isEmpty then "\x7b\x7d"
      else if layout.fits (inlineObject entries) then inlineObject entries
      else "\x7b\n" ++ join ",\n" (entries.map (indent (level + 1) ++ ·)) ++ "\n" ++ indent level ++ "\x7d" :=
  rfl

theorem deepen_inlineObject (entries : List String) :
    deepen k (inlineObject entries) = inlineObject (entries.map (deepen k)) := by
  simp (disch := decide) only [inlineObject, deepen_append, deepen_join, OneLine.deepen]

-- Texts on lines of their own.
theorem append_deepen_join (hn : ss ≠ []) (hs : EndsLine sep) :
    indent k ++ deepen k (join sep ss) = join sep (ss.map fun s => indent k ++ deepen k s) := by
  have hm : ss.map (deepen k) ≠ [] := by simpa using hn
  rw [deepen, Respacing.apply_join, ← deepen, hs.deepen]
  exact (Text.append_join hm _ sep).trans (congrArg _ (List.map_map ..))

theorem Layout.object_deepen (level : Nat) (entries : List String) :
    standard.object (level + k) (entries.map (deepen k)) = deepen k (standard.object level entries) := by
  rw [object_eq, object_eq, List.isEmpty_map, ← deepen_inlineObject, fits_deepen]
  split
  case isTrue     => exact (OneLine.deepen (by decide)).symm
  case isFalse he =>
    split
    case isTrue  => rfl
    case isFalse =>
      have hn : entries.map (indent (level + 1) ++ ·) ≠ [] := fun h =>
        he (List.isEmpty_iff.mpr (List.map_eq_nil_iff.mp h))
      have hs : EndsLine ",\n" := by decide
      have hl := append_deepen_join (k := k) hn hs
      have hj : (entries.map (deepen k)).map (indent (level + k + 1) ++ ·) =
          (entries.map (indent (level + 1) ++ ·)).map fun s => indent k ++ deepen k s := by
        simp [deepen_append, (oneLine_indent _).deepen, Nat.add_right_comm level k 1, indent_deeper,
          String.append_assoc]
      rw [hj, ← hl]
      simp (disch := decide) only [deepen_append, EndsLine.deepen, OneLine.deepen, (oneLine_indent level).deepen,
        indent_deeper, String.append_assoc]

-- A statement brings its own indentation with it, which is in front of the first line and not behind the last one.
def Shifted (k : Nat) (text' text : String) : Prop :=
  text' ++ indent k = indent k ++ deepen k text

namespace Shifted

theorem append_right (h : Shifted k text' text) (t : String) :
    text' ++ (indent k ++ t) = indent k ++ (deepen k text ++ t) := by
  rw [← String.append_assoc, h, String.append_assoc]

theorem concat_nil : Shifted k (concat []) (concat []) := by
  simp [Shifted, concat, OneLine.deepen .empty]

theorem concat_cons (h : Shifted k text' text) (hs : Shifted k (concat texts') (concat texts)) :
    Shifted k (concat (text' :: texts')) (concat (text :: texts)) := by
  rw [Shifted, concat, concat, String.append_assoc, hs, h.append_right, deepen_append]

end Shifted

-- The text ends with a visible character and a line break.
def Ended (text : String) : Prop :=
  ∃ cs c, isBlank c = false ∧ text.toList = cs ++ [c, '\n']

namespace Ended

theorem append_left (s : String) (h : Ended t) : Ended (s ++ t) := by
  have ⟨cs, c, hc, ht⟩ := h
  refine ⟨s.toList ++ cs, c, hc, ?_⟩
  rw [String.toList_append, ht, List.append_assoc]

theorem trimIndent (h : Ended t) : Ended (trimIndent t) := by
  have ⟨cs, c, hc, ht⟩ := h
  have hb : ∀ d ∈ [c, '\n'].head?, isBlank d = false := fun d hd => Option.mem_some.mp hd ▸ hc
  have ⟨cs', hs⟩ := Text.exists_trimStart_append cs hb
  refine ⟨cs', c, hc, ?_⟩
  rw [TypeScript.trimIndent, String.toList_ofList, ht, hs]

theorem getLast? (h : Ended t) : t.toList.getLast? = some '\n' := by
  have ⟨cs, c, _, ht⟩ := h
  simp [ht]

theorem trimIndent_append (h : Ended s) (t : String) :
    TypeScript.trimIndent (s ++ t) = TypeScript.trimIndent s ++ t := by
  have ⟨cs, c, hc, hs⟩ := h
  have hm : c ∈ s.toList := by simp [hs]
  have hn : ¬(s.toList.dropWhile isBlank).isEmpty := fun he =>
    List.not_mem_nil (List.isEmpty_iff.mp he ▸ (Text.mem_dropWhile_isBlank hc).mpr hm)
  rw [← String.toList_inj]
  simp [TypeScript.trimIndent, Text.trimStart, List.dropWhile_append, hn]

end Ended

theorem trimIndent_indent_append (level : Nat) (t : String) : trimIndent (indent level ++ t) = trimIndent t := by
  have hb : ∀ c ∈ List.replicate (2 * level) ' ', isBlank c := fun c hc => List.eq_of_mem_replicate hc ▸ rfl
  rw [trimIndent, String.toList_append, toList_indent, Text.trimStart, List.dropWhile_append_of_pos hb]
  rfl

theorem Stmt.ended_printIn : ∀ (s : Stmt) (level : Nat), Ended (s.printIn .standard level)
  | .constant _ _ _, _     => .append_left _ ⟨[], ';', rfl, rfl⟩
  | .expr _, _             => .append_left _ ⟨[], ';', rfl, rfl⟩
  | .returns none, _       => .append_left _ ⟨"return".toList, ';', rfl, rfl⟩
  | .returns (some _), _   => .append_left _ ⟨[], ';', rfl, rfl⟩
  | .when _ _, _           => .append_left _ ⟨[], '\x7d', rfl, rfl⟩
  | .throws _, _           => .append_left _ ⟨[], ';', rfl, rfl⟩
  | .exported of, level    => (of.ended_printIn level).trimIndent.append_left _

mutual

theorem Expr.printIn_add : ∀ (e : Expr) (level : Nat), TextsOneLine e.verbatim e.quoted →
    e.printIn .standard (level + k) = deepen k (e.printIn .standard level)
  | .ident _, _, h                     => (OneLine.deepen (h.verbatim _ <| .head _)).symm
  | .literal _, _, h                   => (Literal.oneLine_print h.quoted).deepen.symm
  | .call callee typeArgs args, level, h => by
    have ⟨h, ha⟩ := TextsOneLine.append_iff.mp h
    have ⟨hc, ht⟩ := TextsOneLine.append_iff.mp h
    simp (disch := decide) only [Expr.printIn, deepen_append, deepen_join, OneLine.deepen,
      (oneLine_typeArguments ht).deepen, callee.printIn_add level hc, Expr.printAllIn_add args level ha]
  | .arrow function, level, h          => function.printIn_add level h
  | .object entries, level, h          => by
    have he := Entry.printAllIn_add entries (level + 1) h
    rw [Expr.printIn, Nat.add_right_comm, he, Layout.object_deepen, Expr.printIn]
  | .member object _, level, h         => by
    have ⟨hv, hn⟩ := List.forall_mem_append.mp h.verbatim
    have hn := (hn _ <| .head _ : OneLine _)
    simp (disch := decide) only [Expr.printIn, deepen_append, OneLine.deepen, hn.deepen,
      object.printIn_add level ⟨hv, h.quoted⟩]
  | .optionalMember object _, level, h => by
    have ⟨hv, hn⟩ := List.forall_mem_append.mp h.verbatim
    have hn := (hn _ <| .head _ : OneLine _)
    simp (disch := decide) only [Expr.printIn, deepen_append, OneLine.deepen, hn.deepen,
      object.printIn_add level ⟨hv, h.quoted⟩]
  | .await of, level, h                => by
    simp (disch := decide) only [Expr.printIn, deepen_append, OneLine.deepen, of.printIn_add level h]
  | .coalesce left right, level, h     => by
    have ⟨hl, hr⟩ := TextsOneLine.append_iff.mp h
    simp (disch := decide) only [Expr.printIn, deepen_append, OneLine.deepen, left.printIn_add level hl,
      right.printIn_add level hr]
  | .ternary cond thenExpr elseExpr, level, h => by
    have ⟨h, he⟩ := TextsOneLine.append_iff.mp h
    have ⟨hc, ht⟩ := TextsOneLine.append_iff.mp h
    simp (disch := decide) only [Expr.printIn, deepen_append, OneLine.deepen, cond.printIn_add level hc,
      thenExpr.printIn_add level ht, elseExpr.printIn_add level he]
  | .array items, level, h             => by
    simp (disch := decide) only [Expr.printIn, deepen_append, deepen_join, OneLine.deepen,
      Expr.printAllIn_add items level h]
  | .assign target value, level, h     => by
    have ⟨ht, hv⟩ := TextsOneLine.append_iff.mp h
    simp (disch := decide) only [Expr.printIn, deepen_append, OneLine.deepen, target.printIn_add level ht,
      value.printIn_add level hv]
  | .paren of, level, h                => by
    simp (disch := decide) only [Expr.printIn, deepen_append, OneLine.deepen, of.printIn_add level h]
  | .raw _, _, h                       => (OneLine.deepen (h.verbatim _ <| .head _)).symm

theorem Expr.printAllIn_add : ∀ (es : List Expr) (level : Nat),
    TextsOneLine (Expr.verbatimAll es) (Expr.quotedAll es) →
    Expr.printAllIn .standard (level + k) es = (Expr.printAllIn .standard level es).map (deepen k)
  | [], _, _          => rfl
  | e :: es, level, h => by
    have ⟨he, hs⟩ := TextsOneLine.append_iff.mp h
    exact List.cons_eq_cons.mpr ⟨e.printIn_add level he, Expr.printAllIn_add es level hs⟩

theorem Entry.printIn_add : ∀ (e : Entry) (level : Nat), TextsOneLine e.verbatim e.quoted →
    e.printIn .standard (level + k) = deepen k (e.printIn .standard level)
  | .keyed key value, level, h => by
    have ⟨hk, hq⟩ := List.forall_mem_append.mp h.quoted
    have hv := value.printIn_add level ⟨h.verbatim, hq⟩
    rw [Entry.printIn_keyed_eq, Entry.printIn_keyed_eq]
    split
    case isTrue hn  => exact (OneLine.deepen (oneLine_of_isNamed hn h.verbatim)).symm
    case isFalse hn =>
      have hk := oneLine_quoteKey (if_neg hn ▸ hk)
      simp (disch := decide) only [deepen_append, OneLine.deepen, hk.deepen, hv]
  | .spread of, level, h       => by
    simp (disch := decide) only [Entry.printIn, deepen_append, OneLine.deepen, of.printIn_add level h]

theorem Entry.printAllIn_add : ∀ (es : List Entry) (level : Nat),
    TextsOneLine (Entry.verbatimAll es) (Entry.quotedAll es) →
    Entry.printAllIn .standard (level + k) es = (Entry.printAllIn .standard level es).map (deepen k)
  | [], _, _          => rfl
  | e :: es, level, h => by
    have ⟨he, hs⟩ := TextsOneLine.append_iff.mp h
    exact List.cons_eq_cons.mpr ⟨e.printIn_add level he, Entry.printAllIn_add es level hs⟩

theorem Arrow.printIn_add : ∀ (a : Arrow) (level : Nat), TextsOneLine a.verbatim a.quoted →
    a.printIn .standard (level + k) = deepen k (a.printIn .standard level)
  | ⟨typeParams, params, returnType, isAsync, body⟩, level, h => by
    have ⟨h, hb⟩ := TextsOneLine.append_iff.mp h
    have ⟨h, hr⟩ := TextsOneLine.append_iff.mp h
    have ⟨ht, hp⟩ := TextsOneLine.append_iff.mp h
    have hr := oneLine_annotation hr
    simp (disch := decide) only [Arrow.printIn, deepen_append, OneLine.deepen, (oneLine_asyncMark isAsync).deepen,
      (TypeParam.oneLine_printAll ht).deepen, (Param.oneLine_printAll hp).deepen, hr.deepen, body.printIn_add level hb]

theorem Body.printIn_add : ∀ (b : Body) (level : Nat), TextsOneLine b.verbatim b.quoted →
    b.printIn .standard (level + k) = deepen k (b.printIn .standard level)
  | .expr value, level, h  => value.printIn_add level h
  | .block stmts, level, h => by
    have hs := (Stmt.shifted_printAllIn stmts (level + 1) h).append_right
    simp (disch := decide) only [Body.printIn, deepen_append, OneLine.deepen, EndsLine.deepen,
      (oneLine_indent level).deepen, Nat.add_right_comm level k 1, indent_deeper, String.append_assoc, hs]

theorem Stmt.shifted_printIn : ∀ (s : Stmt) (level : Nat), TextsOneLine s.verbatim s.quoted →
    Shifted k (s.printIn .standard (level + k)) (s.printIn .standard level)
  | .constant binding ty init, level, h  => by
    have ⟨hv, hi⟩ := List.forall_mem_append.mp h.verbatim
    have ⟨hb, ht⟩ := List.forall_mem_append.mp hv
    have ⟨hq, hj⟩ := List.forall_mem_append.mp h.quoted
    have ht := oneLine_annotation ⟨ht, hq⟩
    simp (disch := decide) only [Shifted, Stmt.printIn, deepen_append, OneLine.deepen, EndsLine.deepen,
      (oneLine_indent level).deepen, (Binding.oneLine_print hb).deepen, ht.deepen, indent_deeper,
      init.printIn_add level ⟨hi, hj⟩, String.append_assoc]
  | .expr of, level, h                   => by
    simp (disch := decide) only [Shifted, Stmt.printIn, deepen_append, EndsLine.deepen, (oneLine_indent level).deepen,
      indent_deeper, of.printIn_add level h, String.append_assoc]
  | .returns none, level, _              => by
    simp (disch := decide) only [Shifted, Stmt.printIn, deepen_append, EndsLine.deepen, (oneLine_indent level).deepen,
      indent_deeper, String.append_assoc]
  | .returns (some value), level, h      => by
    simp (disch := decide) only [Shifted, Stmt.printIn, deepen_append, OneLine.deepen, EndsLine.deepen,
      (oneLine_indent level).deepen, indent_deeper, value.printIn_add level h, String.append_assoc]
  | .when cond body, level, h            => by
    have ⟨hc, hb⟩ := TextsOneLine.append_iff.mp h
    have hb := (Stmt.shifted_printAllIn body (level + 1) hb).append_right
    simp (disch := decide) only [Shifted, Stmt.printIn, deepen_append, OneLine.deepen, EndsLine.deepen,
      (oneLine_indent level).deepen, Nat.add_right_comm level k 1, indent_deeper, cond.printIn_add level hc,
      String.append_assoc, hb]
  | .throws value, level, h              => by
    simp (disch := decide) only [Shifted, Stmt.printIn, deepen_append, OneLine.deepen, EndsLine.deepen,
      (oneLine_indent level).deepen, indent_deeper, value.printIn_add level h, String.append_assoc]
  | .exported of, level, h               => by
    have ho := congrArg trimIndent (of.shifted_printIn level h)
    rw [(of.ended_printIn _).trimIndent_append, trimIndent_indent_append] at ho
    simp (disch := decide) only [Shifted, Stmt.printIn, deepen_append, OneLine.deepen, deepen_trimIndent,
      (oneLine_indent level).deepen, indent_deeper, String.append_assoc, ho]

theorem Stmt.shifted_printAllIn : ∀ (ss : List Stmt) (level : Nat),
    TextsOneLine (Stmt.verbatimAll ss) (Stmt.quotedAll ss) →
    Shifted k (concat (Stmt.printAllIn .standard (level + k) ss)) (concat (Stmt.printAllIn .standard level ss))
  | [], _, _          => .concat_nil
  | s :: ss, level, h => by
    have ⟨hs, hss⟩ := TextsOneLine.append_iff.mp h
    exact (s.shifted_printIn level hs).concat_cons (Stmt.shifted_printAllIn ss level hss)

end

end

-- The line break at the end of a text begins no line.
def indentLinesFrom (k : Nat) (atStart : Bool) : List Char → List Char
  | []      => []
  | c :: cs => (if atStart then List.replicate (2 * k) ' ' else []) ++ c :: indentLinesFrom k (c == '\n') cs

-- The text with the spaces of `k` levels at the start of each line.
def indentLines (k : Nat) (text : String) : String :=
  .ofList (indentLinesFrom k true text.toList)

theorem indentLinesFrom_true (h : cs ≠ []) :
    indentLinesFrom k true cs = List.replicate (2 * k) ' ' ++ indentLinesFrom k false cs := by
  cases cs
  case nil  => contradiction
  case cons => rfl

theorem indentLinesFrom_append (h : cs.getLast? = some '\n') :
    indentLinesFrom k false cs ++ List.replicate (2 * k) ' ' = cs.flatMap (Respacing.deeper k).replace := by
  induction cs
  case nil          => contradiction
  case cons c cs hi =>
    by_cases hn : cs = []
    case pos =>
      subst hn
      obtain rfl : c = '\n' := by simpa using h
      simp [indentLinesFrom, Respacing.deeper]
    case neg =>
      rw [List.getLast?_cons, List.getLast?_eq_some_getLast hn] at h
      have hi := hi <| (List.getLast?_eq_some_getLast hn).trans h
      rw [List.flatMap_cons, ← hi]
      by_cases hc : c = '\n'
      case pos => simp [indentLinesFrom, indentLinesFrom_true hn, hc, Respacing.deeper]
      case neg => simp [indentLinesFrom, beq_false_of_ne hc, hc, Respacing.deeper]

theorem indentLines_append_indent (h : Ended t) : indentLines k t ++ indent k = indent k ++ deepen k t := by
  have hn : t.toList ≠ [] := by
    intro hn
    have h := h.getLast?
    rw [hn] at h
    contradiction
  rw [← String.toList_inj]
  simp [indentLines, deepen, indentLinesFrom_true hn, ← indentLinesFrom_append h.getLast?]

theorem Shifted.eq_indentLines (h : Shifted k text' text) (ht : Ended text) : text' = indentLines k text := by
  have h := h.trans (indentLines_append_indent ht).symm
  exact (String.append_left_inj _).mp h

-- Is an object literal with these entries written on one line?
def Layout.onOneLine (layout : Layout) (entries : List String) : Bool :=
  entries.isEmpty || layout.fits (inlineObject entries)

theorem Layout.oneLine_object_iff : OneLine (standard.object level entries) ↔ standard.onOneLine entries := by
  have hb : ¬OneLine "\x7b\n" := by decide
  rw [onOneLine, object_eq]
  split
  case isTrue h  => exact iff_of_true (by decide) (by rw [h, Bool.true_or])
  case isFalse h =>
    split
    case isTrue hf  =>
      have hn : OneLine (inlineObject entries) := by simp_all [standard, oneLine_iff]
      simp only [hf, hn, Bool.or_true]
    case isFalse hf => simp [h, hf, Avoids.append_iff, hb]

theorem Layout.onOneLine_deepen (k : Nat) (entries : List String) :
    standard.onOneLine (entries.map (deepen k)) = standard.onOneLine entries := by
  rw [onOneLine, onOneLine, List.isEmpty_map, ← deepen_inlineObject, fits_deepen]

-- At a deeper level, there are more spaces in front of the lines, and that is all.
theorem level_shifts_lines (i k : Nat) :
    (∀ e : Expr, TextsOneLine e.verbatim e.quoted → e.printAt (i + k) = deepen k (e.printAt i)) ∧
    (∀ a : Arrow, TextsOneLine a.verbatim a.quoted → a.printAt (i + k) = deepen k (a.printAt i)) ∧
    (∀ s : Stmt, TextsOneLine s.verbatim s.quoted → s.printAt (i + k) = indentLines k (s.printAt i)) ∧
    ∀ es : List Entry, TextsOneLine (Entry.verbatimAll es) (Entry.quotedAll es) →
      (Layout.standard.onOneLine (Entry.printAllIn .standard (i + k + 1) es) =
        Layout.standard.onOneLine (Entry.printAllIn .standard (i + 1) es)) ∧
      (OneLine ((Expr.object es).printAt (i + k)) ↔ OneLine ((Expr.object es).printAt i)) := by
  refine ⟨fun e h => e.printIn_add i h, fun a h => a.printIn_add i h,
    fun s h => (s.shifted_printIn i h).eq_indentLines (s.ended_printIn i), fun es h => ⟨?_, ?_⟩⟩
  · rw [Nat.add_right_comm, Entry.printAllIn_add es (i + 1) h, Layout.onOneLine_deepen]
  · rw [Expr.printAt, (Expr.object es).printIn_add i h, oneLine_deepen_iff, Expr.printAt]

-- An exported function that calls another one with an object, and the object.
theorem level_shifts_lines_exported :
    let entries : List Entry := [
      .keyed "query key" (.text "it's"),
      .keyed "run" (.arrow ⟨[], [⟨"x", some .unknown, true⟩], none, true, .block [.returns (some (.ident "x"))]⟩)]
    let arrow : Arrow :=
      ⟨[⟨"T", none, none⟩], [], some (.named "T"), false, .expr (.apply (.ident "f") [.object entries])⟩
    let stmt : Stmt := .exportConstant "g" (.arrow arrow)
    (.object entries : Expr).printAt (1 + 2) = deepen 2 ((.object entries : Expr).printAt 1) ∧
    arrow.printAt (1 + 2) = deepen 2 (arrow.printAt 1) ∧
    stmt.printAt (1 + 2) = indentLines 2 (stmt.printAt 1) ∧
    (OneLine ((Expr.object entries).printAt (1 + 2)) ↔ OneLine ((Expr.object entries).printAt 1)) := by
  have ⟨he, ha, hs, ho⟩ := level_shifts_lines 1 2
  exact ⟨he _ ⟨by decide, by decide⟩, ha _ ⟨by decide, by decide⟩, hs _ ⟨by decide, by decide⟩,
    (ho _ ⟨by decide, by decide⟩).right⟩

end TypeScript
end QueryHooks
