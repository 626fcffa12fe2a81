import QueryHooks.Text.Capital
import QueryHooks.TypeScript.Identifier

namespace QueryHooks.Text

open TypeScript (isIdentifier isIdentifierChars isIdentStart isIdentChar)

def isNameStart (c : Char) : Bool :=
  c.isAlpha || c == '_'

def isNameChar (c : Char) : Bool :=
  c.isAlphanum || c == '_'

-- A name as GraphQL has it, `[_A-Za-z][_0-9A-Za-z]*`.
def isName (name : String) : Bool :=
  match name.toList with
  | []      => false
  | c :: cs => isNameStart c && cs.all isNameChar

theorem isIdentChar_of_isNameChar (h : isNameChar c) : isIdentChar c := by
  simp_all [isNameChar, isIdentChar]

theorem exists_of_isName (h : isName name) :
    ∃ c cs, name.toList = c :: cs ∧ isNameStart c ∧ cs.all isIdentChar := by
  rw [isName] at h
  split at h
  case h_1          => contradiction
  case h_2 c cs heq =>
    have ⟨hc, hcs⟩ := Bool.and_eq_true_iff.mp h
    have hcs := List.all_eq_true.mp hcs
    exact ⟨c, cs, heq, hc, List.all_eq_true.mpr fun c h => isIdentChar_of_isNameChar <| hcs c h⟩

theorem toNat_lt_of_isNameStart (h : isNameStart c) : c.toNat < 128 := by
  have h : (decide ('A'.val ≤ c.val ∧ c.val ≤ 'Z'.val) || decide ('a'.val ≤ c.val) && decide (c.val ≤ 'z'.val)) ||
      c == '_' := h
  simp only [Bool.or_eq_true, Bool.and_eq_true, decide_eq_true_eq, beq_iff_eq] at h
  rcases h with (⟨_, h⟩ | ⟨_, h⟩) | rfl
  case inl.inl => exact Nat.lt_of_le_of_lt (UInt32.le_iff_toNat_le.mp h) (by decide)
  case inl.inr => exact Nat.lt_of_le_of_lt (UInt32.le_iff_toNat_le.mp h) (by decide)
  case inr     => decide

-- The table of upper-case forms agrees with ASCII on the first letters of names.
theorem uppercase_of_isNameStart (h : isNameStart c) : ∃ c', uppercase c = [c'] ∧ isIdentStart c' := by
  have hall : ∀ n < 128, isNameStart (.ofNat n) → uppercase (.ofNat n) = [(Char.ofNat n).toUpper] ∧
      isIdentStart (Char.ofNat n).toUpper := by
    decide +kernel
  have h := hall c.toNat (toNat_lt_of_isNameStart h)
  rw [Char.ofNat_toNat] at h
  exact ⟨_, h ‹_›⟩

theorem isIdentStart_of_isNameStart (h : isNameStart c) : isIdentStart c := by
  simp_all [isNameStart, isIdentStart]

theorem isIdentifier_of_isName (h : isName name) : isIdentifier name := by
  obtain ⟨c, cs, he, hc, hcs⟩ := exists_of_isName h
  rw [isIdentifier, he, isIdentifierChars, isIdentStart_of_isNameStart hc, hcs, Bool.and_self]

theorem isIdentifier_capitalize (h : isName name) : isIdentifier (capitalize name) := by
  obtain ⟨c, cs, he, hc, hcs⟩ := exists_of_isName h
  obtain ⟨c', hu, hc'⟩ := uppercase_of_isNameStart hc
  rw [isIdentifier, toList_capitalize, he, capitalizeChars, hu, List.singleton_append, isIdentifierChars, hc', hcs,
    Bool.and_self]

end QueryHooks.Text
