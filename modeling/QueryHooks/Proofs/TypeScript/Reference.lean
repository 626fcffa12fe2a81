import Mathlib.Data.List.Basic
import QueryHooks.Proofs.Text.Avoids
import QueryHooks.TypeScript.Identifier

namespace QueryHooks.TypeScript

theorem ne_nil_of_isIdentifierChars (h : isIdentifierChars cs) : cs ≠ [] := by
  rintro rfl
  simp [isIdentifierChars] at h

theorem all_isIdentChar_of_isIdentifierChars (h : isIdentifierChars cs) : cs.all isIdentChar := by
  cases cs
  case nil => rfl
  case cons c cs =>
    simp only [isIdentifierChars, Bool.and_eq_true] at h
    rw [List.all_cons, isIdentChar_of_isIdentStart h.left, h.right, Bool.and_self]

theorem isIdentifier_of_isBinding (h : isBinding name) : isIdentifier name :=
  (Bool.and_eq_true_iff.mp h).left

theorem not_mem_of_all_isIdentChar {ident : List Char} (hi : ident.all isIdentChar) (hc : isIdentChar c = false) :
    c ∉ ident := by
  intro hm
  have h := List.all_eq_true.mp hi c hm
  simp [h] at hc

theorem avoids_of_isIdentifier {p : Char → Bool} (hp : ∀ c, p c → isIdentChar c = false) (h : isIdentifier name) :
    Text.Avoids p name := by
  refine fun c hc => Bool.eq_false_iff.mpr fun h' => ?_
  exact not_mem_of_all_isIdentChar (all_isIdentChar_of_isIdentifierChars h) (hp c h') hc

theorem not_mayPrecede_of_isIdentChar (h : isIdentChar c) : mayPrecede (some c) = false := by
  simp [mayPrecede, h]

-- The identifier stands on its own somewhere in a text that comes behind the character `prev`, and not within the first
-- `skip` characters of it.
def Occurs (ident : List Char) (skip : Nat) (prev : Option Char) (cs : List Char) : Prop :=
  ∃ before after, cs = before ++ ident ++ after ∧ skip ≤ before.length ∧
    mayPrecede (before.getLast?.or prev) ∧ mayFollow after

theorem occurs_nil (hn : ident ≠ []) : ¬Occurs ident skip prev [] := by
  simp [Occurs, hn]

theorem getLast?_cons_or (before : List Char) :
    (c :: before).getLast?.or prev = before.getLast?.or (some c) := by
  cases h : before.getLast? <;> simp [List.getLast?_cons, h]

theorem occurs_succ_cons (prev : Option Char) :
    Occurs ident (skip + 1) prev (c :: cs) ↔ Occurs ident skip (some c) cs := by
  constructor
  case mp =>
    rintro ⟨before, after, h, hs, hb, ha⟩
    cases before
    case nil => simp at hs
    case cons =>
      obtain ⟨rfl, rfl⟩ := List.cons.inj h
      exact ⟨_, after, rfl, Nat.le_of_succ_le_succ hs, getLast?_cons_or _ ▸ hb, ha⟩
  case mpr =>
    rintro ⟨before, after, rfl, hs, hb, ha⟩
    exact ⟨c :: before, after, rfl, Nat.succ_le_succ hs, (getLast?_cons_or before).symm ▸ hb, ha⟩

theorem occurs_zero_cons :
    Occurs ident 0 prev (c :: cs) ↔
      (ident <+: c :: cs ∧ mayPrecede prev ∧ mayFollow ((c :: cs).drop ident.length)) ∨
        Occurs ident 0 (some c) cs := by
  rw [← occurs_succ_cons prev]
  constructor
  case mp =>
    rintro ⟨before, after, h, hs, hb, ha⟩
    cases before
    case nil  => exact .inl <| by simp_all
    case cons => exact .inr ⟨_, after, h, by simp, hb, ha⟩
  case mpr =>
    rintro (⟨⟨after, h⟩, hb, ha⟩ | ⟨before, after, h, _, hb, ha⟩)
    · exact ⟨[], after, h.symm, by simp, by simpa using hb, by simpa [← h] using ha⟩
    · exact ⟨before, after, h, by simp, hb, ha⟩

-- Where the identifier occurs at the front, an occurrence that overlaps it has a character of it in front.
theorem occurs_skip (hi : ident.all isIdentChar) (hp : ident <+: cs) (h : Occurs ident 1 prev cs) :
    Occurs ident ident.length prev cs := by
  obtain ⟨before, after, rfl, hs, hb, ha⟩ := h
  refine ⟨before, after, rfl, ?_, hb, ha⟩
  by_contra hl
  have hn : before ≠ [] := List.length_pos_iff.mp hs
  have hp : before <+: ident := List.prefix_of_prefix_length_le ⟨_, (List.append_assoc ..).symm⟩ hp (by omega)
  have hc := List.all_eq_true.mp hi _ <| hp.subset (List.getLast_mem hn)
  simp [List.getLast?_eq_some_getLast hn, not_mayPrecede_of_isIdentChar hc] at hb

theorem findReference_iff (hn : ident ≠ []) (hi : ident.all isIdentChar) :
    findReference ident skip prev cs ↔ Occurs ident skip prev cs := by
  fun_induction findReference ident skip prev cs
  case case1             => simp [occurs_nil hn]
  case case2 ih          => rw [ih, occurs_succ_cons]
  case case3 prev c cs hp ih =>
    rw [occurs_zero_cons, Bool.or_eq_true, Bool.and_eq_true, ih]
    have hp := List.isPrefixOf_iff_prefix.mp hp
    have hl := List.length_pos_iff.mpr hn
    have hs : Occurs ident 0 (some c) cs ↔ Occurs ident (ident.length - 1) (some c) cs := by
      constructor
      case mpr => exact fun ⟨before, after, h, _, ho⟩ => ⟨before, after, h, by simp, ho⟩
      case mp =>
        intro h
        have h := occurs_skip hi hp <| (occurs_succ_cons prev).mpr h
        rwa [← Nat.succ_pred_eq_of_pos hl, Nat.succ_eq_add_one, occurs_succ_cons] at h
    simp [hp, hs]
  case case4 hp ih =>
    rw [ih, occurs_zero_cons]
    simp [List.isPrefixOf_iff_prefix.not.mp hp]

-- The code has the identifier in a place where it is no member, no key, and no part of a longer one.
def Refers (code ident : List Char) : Prop :=
  ∃ before after, code = before ++ ident ++ after ∧ mayPrecede before.getLast? ∧ mayFollow after

theorem references_iff_occurs (hn : ident ≠ "") (hi : ident.toList.all isIdentChar) :
    references code ident ↔ Occurs ident.toList 0 none code.toList := by
  have hn' : ident.toList ≠ [] := by simpa [String.toList_eq_nil_iff] using hn
  have he : ident.isEmpty = false := by simpa using hn
  simp [references, he, findReference_iff hn' hi]

theorem references_iff (h : isIdentifier ident) : references code ident ↔ Refers code.toList ident.toList := by
  have hn : ident ≠ "" := by simpa [String.toList_eq_nil_iff] using ne_nil_of_isIdentifierChars h
  rw [references_iff_occurs hn (all_isIdentChar_of_isIdentifierChars h)]
  simp [Occurs, Refers]

-- What comes behind the text begins a word.
def opens (text : String) : Bool :=
  text.toList.getLast?.any fun c => mayPrecede (some c)

-- What comes before the text ends a word, and is not the key of an entry.
def closes (text : String) : Bool :=
  !text.toList.head?.any isIdentChar && (Text.trimStart text.toList).head?.any (· != ':')

theorem opens_append (h : opens t) : opens (s ++ t) := by
  cases hl : t.toList.getLast? <;> simp_all [opens, List.getLast?_append]

theorem closes_append (h : closes s) : closes (s ++ t) := by
  simp only [closes, Bool.and_eq_true, Option.any_eq_true, Text.trimStart] at h ⊢
  obtain ⟨hh, c, hc, hn⟩ := h
  have hs : s.toList ≠ [] := by
    intro hs
    simp [hs] at hc
  have hd : s.toList.dropWhile Text.isBlank ≠ [] := by
    intro hd
    simp [hd] at hc
  refine ⟨?_, c, ?_, hn⟩
  · simpa [List.head?_append_of_ne_nil _ hs] using hh
  · simpa [List.dropWhile_append, hd, List.head?_append_of_ne_nil _ hd] using hc

theorem mayPrecede_of_opens (h : opens s) : mayPrecede s.toList.getLast? := by
  cases hl : s.toList.getLast? <;> simp_all [opens]

theorem mayFollow_of_closes (h : closes s) : mayFollow s.toList := by
  simp only [closes, Bool.and_eq_true, Option.any_eq_true, bne_iff_ne] at h
  obtain ⟨hh, c, hc, hn⟩ := h
  simp [mayFollow, hh, hc, hn]

-- The text has the identifier in a place where it stands on its own, whatever the text is part of.
def Mentions (text ident : String) : Prop :=
  ∃ before after, text = before ++ ident ++ after ∧ opens before ∧ closes after

namespace Mentions

theorem between (hb : opens before) (ha : closes after) : Mentions (before ++ ident ++ after) ident :=
  ⟨before, after, rfl, hb, ha⟩

theorem append_left (s : String) (h : Mentions t ident) : Mentions (s ++ t) ident := by
  obtain ⟨before, after, rfl, hb, ha⟩ := h
  exact ⟨s ++ before, after, by simp [String.append_assoc], opens_append hb, ha⟩

theorem append_right (t : String) (h : Mentions s ident) : Mentions (s ++ t) ident := by
  obtain ⟨before, after, rfl, hb, ha⟩ := h
  exact ⟨before, after ++ t, by simp [String.append_assoc], hb, closes_append ha⟩

theorem concat (hs : s ∈ ss) (h : Mentions s ident) : Mentions (Text.concat ss) ident := by
  induction hs
  case head   => exact h.append_right _
  case tail i => exact i.append_left _

theorem join (sep : String) (hs : s ∈ ss) (h : Mentions s ident) : Mentions (Text.join sep ss) ident := by
  induction ss
  case nil => contradiction
  case cons t ss hi =>
    by_cases hn : ss = []
    case pos => simp_all
    case neg =>
      rw [Text.join_cons hn]
      cases hs
      case head    => exact (h.append_right _).append_right _
      case tail hs => exact (hi hs).append_left _

-- At the end of one of the texts, the identifier is followed by the separator or by what comes behind the last one.
theorem join_of_ends (sep after : String)
    (hb : opens before) (hs : closes sep) (ha : closes after) (h : before ++ ident ∈ ss) :
    Mentions (Text.join sep ss ++ after) ident := by
  induction ss
  case nil => contradiction
  case cons s ss hi =>
    cases ss
    case nil =>
      cases List.mem_singleton.mp h
      exact .between hb ha
    case cons t ss =>
      rw [Text.join_cons_cons]
      cases h
      case head   => exact (between hb hs).append_right _ |>.append_right _
      case tail h => exact String.append_assoc .. ▸ (hi h).append_left _

theorem references (h : Mentions code ident) (hi : isIdentifier ident) : references code ident := by
  obtain ⟨before, after, rfl, hb, ha⟩ := h
  rw [references_iff hi]
  exact ⟨before.toList, after.toList, by simp, mayPrecede_of_opens hb, mayFollow_of_closes ha⟩

end Mentions
end QueryHooks.TypeScript
