import QueryHooks.Proofs.TypeScript.Mention

namespace QueryHooks.TypeScript

open Text (join concat isBlank)

theorem prefix_append_cons_iff {ident xs : List Char} (hc : c ∉ ident) :
    ident <+: xs ++ c :: ys ↔ ident <+: xs := by
  induction ident generalizing xs
  case nil => simp
  case cons i ident hi =>
    rw [List.mem_cons, not_or] at hc
    cases xs
    case nil  => simp [Ne.symm hc.left]
    case cons => simp [hi hc.right]

theorem not_prefix_cons {ident : List Char} (hn : ident ≠ []) (hc : c ∉ ident) (cs : List Char) :
    ¬ident <+: c :: cs := by
  rw [← List.nil_append (c :: cs), prefix_append_cons_iff hc, List.prefix_nil]
  exact hn

-- Whether an occurrence is the key of an entry is decided by the first character behind it that is not blank.
theorem mayFollow_append_cons (hc : isBlank c = false) (xs ys : List Char) :
    mayFollow (xs ++ c :: ys) = mayFollow (xs ++ [c]) := by
  have h (ys) : (Text.trimStart (xs ++ c :: ys)).head? = (Text.trimStart xs).head?.or (some c) := by
    simp only [Text.trimStart, List.dropWhile_append]
    split
    case isTrue he => simp [hc, List.isEmpty_iff.mp he]
    case isFalse   => simp
  simp [mayFollow, h, List.head?_append]

-- A character that belongs to no identifier and is not blank cuts the occurrences in two.
theorem occurs_append_cons (hn : ident ≠ []) (hc : c ∉ ident) (hb : isBlank c = false) (ys : List Char) :
    Occurs ident 0 prev (xs ++ c :: ys) ↔ Occurs ident 0 prev (xs ++ [c]) ∨ Occurs ident 0 (some c) ys := by
  induction xs generalizing prev
  case nil          => simp [occurs_zero_cons, not_prefix_cons hn hc, occurs_nil hn]
  case cons x xs hi =>
    have hd (h : ident <+: x :: xs) (ys) : (x :: (xs ++ c :: ys)).drop ident.length =
        (x :: xs).drop ident.length ++ c :: ys := by
      rw [← List.cons_append, List.drop_append_of_le_length h.length_le]
    have hf (ys) : (ident <+: x :: (xs ++ c :: ys) ∧ mayPrecede prev ∧
        mayFollow ((x :: (xs ++ c :: ys)).drop ident.length)) ↔
        ident <+: x :: xs ∧ mayPrecede prev ∧ mayFollow ((x :: xs).drop ident.length ++ [c]) := by
      rw [← List.cons_append, prefix_append_cons_iff hc, List.cons_append]
      refine and_congr_right fun h => ?_
      rw [hd h, mayFollow_append_cons hb]
    rw [List.cons_append, List.cons_append, occurs_zero_cons, occurs_zero_cons, hi, hf, hf, or_assoc]

-- What comes in front of an occurrence at the beginning makes no difference if it may precede.
theorem occurs_some (hc : mayPrecede (some c)) : Occurs ident 0 (some c) cs ↔ Occurs ident 0 none cs := by
  have h (before : List Char) : mayPrecede (before.getLast?.or (some c)) = mayPrecede (before.getLast?.or none) := by
    cases before.getLast?
    case none => exact hc
    case some => rfl
  simp only [Occurs, h]

theorem occurs_newline_cons (hn : ident ≠ []) (hc : '\n' ∉ ident) :
    Occurs ident 0 none ('\n' :: cs) ↔ Occurs ident 0 none cs := by
  rw [occurs_zero_cons, occurs_some rfl]
  simp [not_prefix_cons hn hc]

-- The text ends with a statement and the end of its line.
def Terminated (text : String) : Prop :=
  ∃ body, text = body ++ ";\n"

namespace Terminated

theorem append_left (s : String) (h : Terminated t) : Terminated (s ++ t) := by
  obtain ⟨body, rfl⟩ := h
  exact ⟨s ++ body, (String.append_assoc ..).symm⟩

theorem concat (hn : ss ≠ []) (h : ∀ s ∈ ss, Terminated s) : Terminated (Text.concat ss) := by
  induction ss
  case nil          => contradiction
  case cons s ss hi =>
    cases ss
    case nil  => simpa [Text.concat] using h s (.head _)
    case cons => exact (hi (by simp) fun _ ht => h _ <| .tail _ ht).append_left s

end Terminated

section

variable {ident : String} (hn : ident ≠ "") (hi : ident.toList.all isIdentChar)

include hn hi

theorem references_append (hs : Terminated s) :
    references (s ++ "\n" ++ t) ident ↔ references s ident ∨ references t ident := by
  obtain ⟨body, rfl⟩ := hs
  have hn' : ident.toList ≠ [] := by simpa [String.toList_eq_nil_iff] using hn
  have hc (c : Char) (h : isIdentChar c = false) : c ∉ ident.toList := not_mem_of_all_isIdentChar hi h
  have hl (cs) : Occurs ident.toList 0 none (body.toList ++ ';' :: '\n' :: cs) ↔
      Occurs ident.toList 0 none (body.toList ++ [';']) ∨ Occurs ident.toList 0 none cs := by
    rw [occurs_append_cons hn' (hc _ rfl) rfl, occurs_some rfl, occurs_newline_cons hn' (hc _ rfl)]
  have hb : (body ++ ";\n").toList = body.toList ++ [';', '\n'] := by simp
  have ht : (body ++ ";\n" ++ "\n" ++ t).toList = body.toList ++ ';' :: '\n' :: '\n' :: t.toList := by simp
  rw [references_iff_occurs hn hi, references_iff_occurs hn hi, references_iff_occurs hn hi, ht, hb, hl, hl,
    occurs_newline_cons hn' (hc _ rfl)]
  simp [occurs_nil hn']

-- The search in all texts is a search in each of them.
theorem references_join (hs : ∀ s ∈ ss, Terminated s) :
    references (join "\n" ss) ident ↔ ∃ s ∈ ss, references s ident := by
  induction ss
  case nil           => simp [references_iff_occurs hn hi, occurs_nil, String.toList_eq_nil_iff, hn]
  case cons s ss hi' =>
    by_cases he : ss = []
    case pos => simp [he]
    case neg =>
      rw [Text.join_cons he, references_append hn hi (hs s <| .head _), hi' fun _ ht => hs _ <| .tail _ ht]
      simp

end

namespace Stmt

theorem terminated_expr (e : Expr) : Terminated (expr e).print :=
  ⟨_, rfl⟩

theorem terminated_exported_constant (binding : Binding) (ty : Option Ty) (init : Expr) :
    Terminated (exported (constant binding ty init)).print :=
  ⟨_, print_exported_constant ..⟩

end Stmt
end QueryHooks.TypeScript
