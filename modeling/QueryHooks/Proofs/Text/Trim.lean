import Mathlib.Data.List.TakeWhile
import QueryHooks.TypeScript.Identifier

namespace QueryHooks.Text

open TypeScript (isIdentChar)

structure Trimmed (cs : List Char) : Prop where
  head : ∀ c ∈ cs.head?, isBlank c = false
  last : ∀ c ∈ cs.getLast?, isBlank c = false

theorem head?_dropWhile_isBlank (cs : List Char) : ∀ c ∈ (cs.dropWhile isBlank).head?, isBlank c = false := by
  intro c hc
  have h := cs.head?_dropWhile_not isBlank
  rwa [Option.mem_def.mp hc] at h

theorem dropWhile_isBlank_eq_self {cs : List Char} (h : ∀ c ∈ cs.head?, isBlank c = false) :
    cs.dropWhile isBlank = cs := by
  cases cs
  case nil       => rfl
  case cons c cs => exact trimStart_of_not_blank (h c rfl)

-- Trimming does not go beyond a character that is not blank.
theorem exists_trimStart_append {ys : List Char} (xs : List Char) (h : ∀ c ∈ ys.head?, isBlank c = false) :
    ∃ xs', trimStart (xs ++ ys) = xs' ++ ys := by
  rw [trimStart, List.dropWhile_append]
  split
  case isTrue  => exact ⟨[], dropWhile_isBlank_eq_self h⟩
  case isFalse => exact ⟨_, rfl⟩

-- A character that is not blank is the first one left if there are only blanks in front of it.
theorem head?_trimStart_eq_some (hc : isBlank c = false) :
    (trimStart cs).head? = some c ↔ ∃ blanks rest, cs = blanks ++ c :: rest ∧ ∀ b ∈ blanks, isBlank b := by
  constructor
  case mp  =>
    intro h
    obtain ⟨rest, hr⟩ := List.head?_eq_some_iff.mp h
    refine ⟨cs.takeWhile isBlank, rest, ?_, fun _ => List.mem_takeWhile_imp⟩
    rw [← hr, trimStart, List.takeWhile_append_dropWhile]
  case mpr =>
    rintro ⟨blanks, rest, rfl, hb⟩
    rw [trimStart, List.dropWhile_append_of_pos hb, List.dropWhile_cons_of_neg (by simp [hc])]
    rfl

-- What stays behind the blanks ends like the whole text.
theorem getLast?_dropWhile {p : Char → Bool} {cs : List Char} (h : c ∈ (cs.dropWhile p).getLast?) :
    c ∈ cs.getLast? := by
  have ⟨before, hs⟩ := cs.dropWhile_suffix p
  rw [← hs, List.getLast?_append, Option.mem_def.mp h]
  rfl

theorem mem_dropWhile_isBlank {cs : List Char} (hc : isBlank c = false) : c ∈ cs.dropWhile isBlank ↔ c ∈ cs := by
  have ht : c ∉ cs.takeWhile isBlank := fun hm => by simp [List.mem_takeWhile_imp hm] at hc
  have h : c ∈ cs.takeWhile isBlank ++ cs.dropWhile isBlank ↔ c ∈ cs := by rw [List.takeWhile_append_dropWhile]
  rwa [List.mem_append, or_iff_right ht] at h

-- Only blanks are lost.
theorem mem_trim (hc : isBlank c = false) : c ∈ trim cs ↔ c ∈ cs := by
  rw [trim, trimEnd, trimStart, List.mem_reverse, mem_dropWhile_isBlank hc, List.mem_reverse, mem_dropWhile_isBlank hc]

theorem getLast?_trimEnd (cs : List Char) : ∀ c ∈ (trimEnd cs).getLast?, isBlank c = false := by
  intro c hc
  rw [trimEnd, List.getLast?_reverse] at hc
  exact head?_dropWhile_isBlank _ c hc

-- What is taken off the end is blank.
theorem trimEnd_append_blanks (cs : List Char) : ∃ blanks, cs = trimEnd cs ++ blanks ∧ ∀ c ∈ blanks, isBlank c := by
  refine ⟨(cs.reverse.takeWhile isBlank).reverse, ?_, fun c hc => ?_⟩
  · rw [trimEnd, ← List.reverse_append, List.takeWhile_append_dropWhile, List.reverse_reverse]
  · exact List.mem_takeWhile_imp (List.mem_reverse.mp hc)

theorem trimmed_trim (cs : List Char) : Trimmed (trim cs) where
  head := by
    intro c hc
    rw [trim, trimEnd, List.head?_reverse] at hc
    have hc := getLast?_dropWhile hc
    rw [List.getLast?_reverse] at hc
    exact head?_dropWhile_isBlank cs c hc
  last := getLast?_trimEnd _

namespace Trimmed

theorem trim_eq_self (h : Trimmed cs) : trim cs = cs := by
  have hr : cs.reverse.dropWhile isBlank = cs.reverse := by
    refine dropWhile_isBlank_eq_self fun c hc => h.last c ?_
    rwa [List.head?_reverse] at hc
  rw [trim, trimStart, dropWhile_isBlank_eq_self h.head, trimEnd, hr, List.reverse_reverse]

theorem of_not_blank (h : ∀ c ∈ cs, isBlank c = false) : Trimmed cs where
  head c hc := h c <| List.mem_of_mem_head? hc
  last c hc := h c <| List.mem_of_mem_getLast? hc

-- Between two texts that are trimmed, there may be anything.
theorem append_append (hx : Trimmed xs) (hnx : xs ≠ []) (ys : List Char) (hz : Trimmed zs) (hnz : zs ≠ []) :
    Trimmed (xs ++ ys ++ zs) where
  head c hc := by
    have hh := List.head?_eq_some_head hnx
    simp only [List.head?_append, hh, Option.some_or] at hc
    exact hx.head c <| hh.trans hc
  last c hc := by
    have hl := List.getLast?_eq_some_getLast hnz
    simp only [List.getLast?_append, hl, Option.some_or] at hc
    exact hz.last c <| hl.trans hc

end Trimmed

theorem trim_trim (cs : List Char) : trim (trim cs) = trim cs :=
  (trimmed_trim cs).trim_eq_self

theorem toNat_lt_of_isIdentChar (h : isIdentChar c) : c.toNat < 128 := by
  have h : ((decide ('A'.val ≤ c.val ∧ c.val ≤ 'Z'.val) || decide ('a'.val ≤ c.val) && decide (c.val ≤ 'z'.val)) ||
      decide ('0'.val ≤ c.val) && decide (c.val ≤ '9'.val)) || c == '_' || c == '$' := h
  simp only [Bool.or_eq_true, Bool.and_eq_true, decide_eq_true_eq, beq_iff_eq] at h
  have hr {b : Char} (h : c.val ≤ b.val) (hb : b.toNat < 128) : c.toNat < 128 :=
    Nat.lt_of_le_of_lt (UInt32.le_iff_toNat_le.mp h) hb
  rcases h with (((⟨_, h⟩ | ⟨_, h⟩) | ⟨_, h⟩) | rfl) | rfl
  case inl.inl.inl.inl => exact hr h (by decide)
  case inl.inl.inl.inr => exact hr h (by decide)
  case inl.inl.inr     => exact hr h (by decide)
  case inl.inr         => decide
  case inr             => decide

theorem isBlank_of_isIdentChar (h : isIdentChar c) : isBlank c = false := by
  have hall : ∀ n < 128, isIdentChar (.ofNat n) → isBlank (.ofNat n) = false := by decide
  have hc := hall c.toNat (toNat_lt_of_isIdentChar h)
  rw [Char.ofNat_toNat] at hc
  exact hc h

end QueryHooks.Text
