import QueryHooks.Text.Blank
import QueryHooks.Text.Join

namespace QueryHooks.Text

structure Respacing where
  replace : Char → List Char
  blank   : ∀ c, isBlank c → ∀ d ∈ replace c, isBlank d
  visible : ∀ c, isBlank c = false → replace c = [c]

namespace Respacing

def apply (r : Respacing) (text : String) : String :=
  .ofList (text.toList.flatMap r.replace)

variable (r : Respacing)

@[simp]
theorem toList_apply (text : String) : (r.apply text).toList = text.toList.flatMap r.replace := by
  simp [apply]

theorem apply_append (s t : String) : r.apply (s ++ t) = r.apply s ++ r.apply t := by
  simp [apply]

theorem apply_concat (ss : List String) : r.apply (concat ss) = concat (ss.map r.apply) := by
  induction ss
  case nil          => rfl
  case cons s ss hi => rw [concat, apply_append, hi, List.map_cons, concat]

theorem apply_join (sep : String) (ss : List String) : r.apply (join sep ss) = join (r.apply sep) (ss.map r.apply) := by
  induction ss
  case nil          => rfl
  case cons s ss hi =>
    by_cases hn : ss = []
    case pos => simp [hn]
    case neg =>
      have hm : ss.map r.apply ≠ [] := by simpa using hn
      rw [join_cons hn, apply_append, apply_append, hi, List.map_cons, join_cons hm]

-- A text without any of the blanks that are replaced stays as it is.
theorem apply_eq_self {text : String} (h : ∀ c ∈ text.toList, r.replace c = [c]) : r.apply text = text := by
  have hm : text.toList.map r.replace = text.toList.map ([·]) := List.map_congr_left h
  rw [apply, List.flatMap_def, hm, ← List.flatMap_def, List.flatMap_singleton', String.ofList_toList]

theorem trimStart_flatMap (cs : List Char) : trimStart (cs.flatMap r.replace) = (trimStart cs).flatMap r.replace := by
  induction cs
  case nil          => rfl
  case cons c cs hi =>
    cases hc : isBlank c
    case true  =>
      have ht : trimStart (c :: cs) = trimStart cs := List.dropWhile_cons_of_pos hc
      rw [List.flatMap_cons, trimStart, List.dropWhile_append_of_pos (r.blank c hc), ht]
      exact hi
    case false =>
      rw [List.flatMap_cons, r.visible c hc, List.singleton_append, trimStart_of_not_blank hc,
        trimStart_of_not_blank hc, List.flatMap_cons, r.visible c hc, List.singleton_append]

end Respacing
end QueryHooks.Text
