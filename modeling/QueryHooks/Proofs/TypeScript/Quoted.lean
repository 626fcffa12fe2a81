import Mathlib.Data.List.TakeWhile
import QueryHooks.Proofs.Text.Avoids
import QueryHooks.Proofs.TypeScript.Reference
import QueryHooks.TypeScript.Quoted

namespace QueryHooks.TypeScript

-- The text up to the closing quote, and what is left behind it. Behind a backslash, any character stands for itself.
def readQuoted : List Char → Option (List Char × List Char)
  | []              => none
  | '\'' :: cs      => some ([], cs)
  | '\\' :: []      => none
  | '\\' :: c :: cs => (readQuoted cs).map fun (value, rest) => (c :: value, rest)
  | c :: cs         => (readQuoted cs).map fun (value, rest) => (c :: value, rest)

theorem readQuoted_escapeChars (cs rest : List Char) :
    readQuoted (escapeChars cs ++ '\'' :: rest) = some (cs, rest) := by
  fun_induction escapeChars cs
  case case1             => rfl
  case case2 cs hi       => simp [readQuoted, hi]
  case case3 cs hi       => simp [readQuoted, hi]
  case case4 c cs h h' hi =>
    rw [List.cons_append, readQuoted, hi]
    · rfl
    all_goals simp_all

-- But for backslashes, quoting adds no character and loses none.
theorem mem_escapeChars (hc : c ≠ '\\') : c ∈ escapeChars cs ↔ c ∈ cs := by
  fun_induction escapeChars cs <;> simp_all

theorem avoids_quote_iff {p : Char → Bool} (hq : p '\'' = false) (hb : p '\\' = false) :
    Text.Avoids p (quote s) ↔ Text.Avoids p s := by
  have he : Text.Avoids p (escape s) ↔ Text.Avoids p s := by
    rw [Text.Avoids, toList_escape, Text.Avoids]
    refine forall_congr' fun c => ?_
    by_cases hc : c = '\\'
    case pos => exact iff_of_true (fun _ => hc ▸ hb) fun _ => hc ▸ hb
    case neg => rw [mem_escapeChars hc]
  have hm : Text.Avoids p "'" := fun c hc => List.mem_singleton.mp hc ▸ hq
  rw [quote, Text.Avoids.append_iff, Text.Avoids.append_iff, and_iff_left hm, and_iff_right hm, he]

theorem toList_quote_append (s t : String) :
    (quote s ++ t).toList = '\'' :: (escapeChars s.toList ++ '\'' :: t.toList) := by
  simp [quote]

theorem quote_append_inj : quote s ++ t = quote s' ++ t' ↔ s = s' ∧ t = t' := by
  constructor
  case mpr =>
    rintro ⟨rfl, rfl⟩
    rfl
  case mp  =>
    intro h
    have h := congrArg (·.toList) h
    simp only [toList_quote_append, List.cons.injEq, true_and] at h
    have hr := readQuoted_escapeChars s.toList t.toList
    rw [h, readQuoted_escapeChars, Option.some.injEq, Prod.mk.injEq] at hr
    exact ⟨String.toList_inj.mp hr.left.symm, String.toList_inj.mp hr.right.symm⟩

-- The text with a replacement for each occurrence of a character.
def replaceAll (c : Char) (replacement cs : List Char) : List Char :=
  cs.flatMap fun d => if d = c then replacement else [d]

-- Backslashes are replaced first, so those that come with the quotes are not doubled.
theorem escapeChars_eq_replaceAll (cs : List Char) :
    escapeChars cs = replaceAll '\'' ['\\', '\''] (replaceAll '\\' ['\\', '\\'] cs) := by
  fun_induction escapeChars cs <;> simp_all [replaceAll]

-- The name of a key, which is an identifier or a quoted text, and what is left behind it.
def readKey : List Char → Option (List Char × List Char)
  | '\'' :: cs => readQuoted cs
  | cs         =>
    let name := cs.takeWhile isIdentChar
    if isIdentifierChars name then some (name, cs.dropWhile isIdentChar) else none

theorem readKey_of_isIdentifierChars (hi : isIdentifierChars name) (hr : rest.head?.any isIdentChar = false) :
    readKey (name ++ rest) = some (name, rest) := by
  have ha : ∀ c ∈ name, isIdentChar c := List.all_eq_true.mp <| all_isIdentChar_of_isIdentifierChars hi
  have ht : (name ++ rest).takeWhile isIdentChar = name := by
    rw [List.takeWhile_append_of_pos ha]
    cases rest <;> simp_all
  have hd : (name ++ rest).dropWhile isIdentChar = rest := by
    rw [List.dropWhile_append_of_pos ha]
    cases rest <;> simp_all
  -- An identifier has no quote at its front.
  have hq (cs) : name ++ rest ≠ '\'' :: cs := by
    intro h
    cases name
    case nil  => contradiction
    case cons =>
      cases (List.cons.inj h).left
      exact absurd (ha _ <| .head _) (by decide)
  rw [readKey, ht, hd, if_pos hi]
  exact hq

-- Where an identifier cannot go on, the key that comes in front is read back.
theorem readKey_quoteKey_append (name : String) (rest : List Char) (hr : rest.head?.any isIdentChar = false) :
    readKey ((quoteKey name).toList ++ rest) = some (name.toList, rest) := by
  rw [quoteKey]
  split
  case isTrue h => exact readKey_of_isIdentifierChars h hr
  case isFalse  =>
    have h := toList_quote_append name (.ofList rest)
    rw [String.toList_append, String.toList_ofList] at h
    rw [h, readKey, readQuoted_escapeChars]

theorem quoteKey_inj : quoteKey name = quoteKey name' ↔ name = name' := by
  constructor
  case mpr => exact congrArg quoteKey
  case mp  =>
    intro h
    have hn := readKey_quoteKey_append name [] rfl
    rw [h, readKey_quoteKey_append name' [] rfl, Option.some.injEq, Prod.mk.injEq] at hn
    exact String.toList_inj.mp hn.left.symm

-- In front of any text, a quoted text is read up to its own closing quote. A key is read back as the name it is for.
theorem quoted_text_read_back :
    (∀ s : String, (escape s).toList = replaceAll '\'' ['\\', '\''] (replaceAll '\\' ['\\', '\\'] s.toList)) ∧
    (∀ s t : String, ∃ cs, (quote s ++ t).toList = '\'' :: cs ∧ readQuoted cs = some (s.toList, t.toList)) ∧
    (∀ name : String, readKey (quoteKey name).toList = some (name.toList, [])) ∧
    ∀ name name' : String, quoteKey name = quoteKey name' ↔ name = name' := by
  refine ⟨fun s => ?_, fun s t => ?_, fun name => ?_, fun _ _ => quoteKey_inj⟩
  · rw [toList_escape, escapeChars_eq_replaceAll]
  · exact ⟨_, toList_quote_append s t, readQuoted_escapeChars ..⟩
  · simpa using readKey_quoteKey_append name [] rfl

-- A backslash at the end of a text does not escape the closing quote.
example : readKey ((quoteKey "it's \\").toList ++ ": 'x'".toList) = some ("it's \\".toList, ": 'x'".toList) := by
  decide +kernel

end QueryHooks.TypeScript
