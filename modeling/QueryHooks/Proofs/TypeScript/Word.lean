import Mathlib.Data.List.TakeWhile
import QueryHooks.Proofs.Mapper
import QueryHooks.Proofs.TypeScript.Terminated

namespace QueryHooks.TypeScript

open Mapper (isPathChar)

-- Identifiers and dots.
def IsPathText (text : String) : Prop :=
  ∀ c ∈ text.toList, isPathChar c

instance : DecidablePred IsPathText :=
  fun text => List.decidableBAll _ text.toList

-- Blanks and signs, at least one of them.
def IsSignText (text : String) : Prop :=
  text.toList ≠ [] ∧ text.toList.any isPathChar = false

instance : DecidablePred IsSignText :=
  fun text => inferInstanceAs <| Decidable (text.toList ≠ [] ∧ _)

structure Word where
  path   : String
  behind : String
  deriving DecidableEq

-- What a path begins with, up to the first dot.
def rootOf (path : String) : String :=
  .ofList (path.toList.takeWhile (· ≠ '.'))

theorem IsPathText.append (hs : IsPathText s) (ht : IsPathText t) : IsPathText (s ++ t) := by
  intro c hc
  rw [String.toList_append] at hc
  exact (List.mem_append.mp hc).elim (hs c) (ht c)

theorem isPathChar_of_isIdentChar (h : isIdentChar c) : isPathChar c := by
  rw [isPathChar, h, Bool.true_or]

theorem isPathText_of_all (h : text.toList.all isIdentChar) : IsPathText text :=
  fun c hc => isPathChar_of_isIdentChar <| List.all_eq_true.mp h c hc

theorem ne_dot_of_isIdentChar (h : isIdentChar c) : c ≠ '.' := by
  rintro rfl
  contradiction

-- The root of a member is that of its object.
theorem rootOf_member (h : s.toList.all isIdentChar) (t : String) : rootOf (s ++ "." ++ t) = s := by
  have hs : ∀ c ∈ s.toList, decide (c ≠ '.') = true :=
    fun c hc => decide_eq_true <| ne_dot_of_isIdentChar <| List.all_eq_true.mp h c hc
  have ht : (s ++ "." ++ t).toList = s.toList ++ '.' :: t.toList := by simp
  rw [rootOf, ht, List.takeWhile_append_of_pos hs, List.takeWhile_cons_of_neg (by decide), List.append_nil,
    String.ofList_toList]

theorem rootOf_of_all (h : s.toList.all isIdentChar) : rootOf s = s := by
  have hs : ∀ c ∈ s.toList, decide (c ≠ '.') = true :=
    fun c hc => decide_eq_true <| ne_dot_of_isIdentChar <| List.all_eq_true.mp h c hc
  rw [rootOf, List.takeWhile_eq_self_iff.mpr hs, String.ofList_toList]

theorem not_mayPrecede_of_isPathChar (h : isPathChar c) : mayPrecede (some c) = false := by
  rw [isPathChar, Bool.or_eq_true, beq_iff_eq] at h
  rcases h with h | rfl
  case inl => exact not_mayPrecede_of_isIdentChar h
  case inr => rfl

section

variable {ident : List Char} (hn : ident ≠ []) (hi : ident.all isIdentChar)

include hi

-- An identifier that a path begins with, and that does not go on, is its first segment.
theorem eq_takeWhile_of_prefix (hp : ∀ c ∈ path, isPathChar c) (hc : isPathChar d = false) (h : ident <+: path)
    (hf : mayFollow ((path ++ d :: cs).drop ident.length)) :
    ident = path.takeWhile (· ≠ '.') ∧ (path = ident → d ≠ ':') := by
  obtain ⟨rest, rfl⟩ := h
  rw [List.append_assoc, List.drop_left] at hf
  have ha : ∀ c ∈ ident, decide (c ≠ '.') = true :=
    fun c hm => decide_eq_true <| ne_dot_of_isIdentChar <| List.all_eq_true.mp hi c hm
  rw [List.takeWhile_append_of_pos ha]
  cases rest
  case nil         =>
    refine ⟨by simp, fun _ => ?_⟩
    rintro rfl
    simp [mayFollow, Text.trimStart, Text.isBlank] at hf
  case cons c rest =>
    have hd : c = '.' := by
      have h := hp c (by simp)
      have hf : isIdentChar c = false := by simpa [mayFollow] using And.left <| Bool.and_eq_true_iff.mp hf
      simpa [isPathChar, hf] using h
    refine ⟨by simp [hd], fun h => ?_⟩
    simp at h

include hn

theorem occurs_path (hp : ∀ c ∈ path, isPathChar c) (hd : isPathChar d = false)
    (h : Occurs ident 0 prev (path ++ d :: cs)) :
    (ident = path.takeWhile (· ≠ '.') ∧ mayPrecede prev ∧ (path = ident → d ≠ ':')) ∨ Occurs ident 0 (some d) cs := by
  have hm : d ∉ ident := not_mem_of_all_isIdentChar hi <| by
    rw [isPathChar, Bool.or_eq_false_iff] at hd
    exact hd.left
  induction path generalizing prev
  case nil            =>
    rw [List.nil_append, occurs_zero_cons] at h
    exact .inr <| h.resolve_left fun h => not_prefix_cons hn hm cs h.left
  case cons c path ih =>
    rw [List.cons_append, occurs_zero_cons] at h
    rcases h with ⟨hx, hb, hf⟩ | h
    case inl =>
      rw [← List.cons_append, prefix_append_cons_iff hm] at hx
      obtain ⟨he, hk⟩ := eq_takeWhile_of_prefix hi hp hd hx hf
      exact .inl ⟨he, hb, hk⟩
    case inr =>
      refine (ih (fun c hc => hp c <| .tail _ hc) h).imp_left fun h => ?_
      simp [not_mayPrecede_of_isPathChar (hp c <| .head _)] at h

-- Nothing is found among blanks and signs.
theorem occurs_of_occurs_append (hd : ∀ d ∈ ds, isPathChar d = false) (h : Occurs ident 0 prev (ds ++ cs)) :
    ∃ prev', Occurs ident 0 prev' cs := by
  induction ds generalizing prev
  case nil          => exact ⟨prev, h⟩
  case cons d ds ih =>
    have h : Occurs ident 0 prev ([] ++ d :: (ds ++ cs)) := h
    have hp : ∀ c ∈ ([] : List Char), isPathChar c := List.forall_mem_nil _
    refine ih (fun d hm => hd d <| .tail _ hm) <| (occurs_path hn hi hp (hd d <| .head _) h).resolve_left ?_
    exact fun h => hn h.left

end

namespace Word

def text (w : Word) : String :=
  w.path ++ w.behind

structure Valid (w : Word) : Prop where
  path   : IsPathText w.path
  behind : IsSignText w.behind

theorem valid_iff {path behind : String} : Valid ⟨path, behind⟩ ↔ IsPathText path ∧ IsSignText behind :=
  ⟨fun h => ⟨h.path, h.behind⟩, fun h => ⟨h.left, h.right⟩⟩

def beginsWithColon (behind : String) : Bool :=
  behind.toList.head? == some ':'

-- A path of one segment that a colon follows.
def IsKey (w : Word) : Prop :=
  rootOf w.path = w.path ∧ beginsWithColon w.behind

instance : DecidablePred IsKey :=
  fun w => inferInstanceAs <| Decidable (rootOf w.path = w.path ∧ beginsWithColon w.behind)

-- What the paths of a row begin with, apart from keys.
def roots (ws : List Word) : List String :=
  (ws.filter (¬·.IsKey)).map (rootOf ·.path)

@[simp]
theorem roots_nil : roots [] = [] :=
  rfl

theorem roots_cons (path behind : String) (ws : List Word) :
    roots (⟨path, behind⟩ :: ws) =
      if rootOf path = path ∧ beginsWithColon behind then roots ws else rootOf path :: roots ws := by
  rw [roots, List.filter_cons]
  split <;> split <;> simp_all [IsKey, roots]

theorem roots_append (ws ws' : List Word) : roots (ws ++ ws') = roots ws ++ roots ws' := by
  simp [roots]

theorem mem_roots {ws : List Word} (hw : w ∈ ws) (hk : ¬w.IsKey) : rootOf w.path ∈ roots ws :=
  List.mem_map.mpr ⟨w, List.mem_filter.mpr ⟨hw, by simpa using hk⟩, rfl⟩

theorem occurs_text {w : Word} {ident : String} (hn : ident.toList ≠ []) (hi : ident.toList.all isIdentChar)
    (hw : w.Valid) (h : Occurs ident.toList 0 prev (w.text.toList ++ cs)) :
    (¬w.IsKey ∧ rootOf w.path = ident) ∨ ∃ prev', Occurs ident.toList 0 prev' cs := by
  have ⟨hne, hd⟩ := hw.behind
  obtain ⟨d, ds, hb⟩ := List.exists_cons_of_ne_nil hne
  rw [hb] at hd
  have hd : ∀ c ∈ d :: ds, isPathChar c = false := fun c hc => Bool.eq_false_iff.mpr <| List.any_eq_false.mp hd c hc
  rw [text, String.toList_append, hb, List.append_assoc] at h
  rcases occurs_path hn hi hw.path (hd d <| .head _) h with ⟨hr, _, hk⟩ | h
  case inl =>
    have he : rootOf w.path = ident := by rw [rootOf, ← hr, String.ofList_toList]
    refine .inl ⟨fun ⟨hp, hc⟩ => ?_, he⟩
    exact hk (congrArg String.toList <| hp.symm.trans he) <| by simpa [beginsWithColon, hb] using hc
  case inr => exact .inr <| occurs_of_occurs_append hn hi (fun d hm => hd d <| .tail _ hm) h

theorem mem_roots_of_occurs {ws : List Word} {ident : String} (hn : ident.toList ≠ [])
    (hi : ident.toList.all isIdentChar) (hw : ∀ w ∈ ws, w.Valid)
    (h : Occurs ident.toList 0 prev (Text.concat (ws.map text)).toList) : ident ∈ roots ws := by
  induction ws generalizing prev
  case nil          => exact absurd h <| occurs_nil hn
  case cons w ws ih =>
    rw [List.map_cons, Text.concat, String.toList_append] at h
    rcases occurs_text hn hi (hw w <| .head _) h with ⟨hk, rfl⟩ | ⟨_, h⟩
    case inl => exact mem_roots (.head _) hk
    case inr =>
      have h := ih (fun w hm => hw w <| .tail _ hm) h
      exact roots_append [w] ws ▸ List.mem_append_right _ h

-- The search finds nothing but what paths begin with.
theorem mem_roots_of_references {ws : List Word} (hi : isIdentifier ident) (hw : ∀ w ∈ ws, w.Valid)
    (h : references (Text.concat (ws.map text)) ident) : ident ∈ roots ws := by
  have hn := ne_nil_of_isIdentifierChars hi
  have ha := all_isIdentChar_of_isIdentifierChars hi
  have he : ident ≠ "" := by simpa [String.toList_eq_nil_iff] using hn
  exact mem_roots_of_occurs hn ha hw <| (references_iff_occurs he ha).mp h

end Word
end QueryHooks.TypeScript
