import QueryHooks.Proofs.Text.Caseless
import QueryHooks.Proofs.TypeScript.Bracket

namespace QueryHooks

open TypeScript

namespace Text

theorem caseless_of_mem_marks (h : c ∈ marks) : Caseless c := by
  have hall : marks.all isCaseless := by decide +kernel
  exact caseless_of_isCaseless <| List.all_eq_true.mp hall c h

theorem not_mem_marks_of_mem_uppercase (hc : c ∉ marks) (hd : d ∈ uppercase c) : d ∉ marks :=
  fun hm => hc <| (caseless_of_mem_marks hm).eq_of_mem_uppercase hd ▸ hm

theorem closed_capitalize (h : Closed name) : Closed (capitalize name) := by
  rw [Closed, toList_capitalize]
  rw [Closed] at h
  cases hn : name.toList
  case nil       => rfl
  case cons c cs =>
    rw [hn] at h
    rw [capitalizeChars]
    by_cases hc : c ∈ marks
    case pos => exact (caseless_of_mem_marks hc).uppercase_eq ▸ h
    case neg =>
      have hs : Scan.step {} c = some {} := Scan.stepCode_of_not_mem_marks hc []
      rw [Scan.run, hs] at h
      rw [Scan.run_append, Scan.run_of_not_mem_marks fun d hd => not_mem_marks_of_mem_uppercase hc hd]
      exact h

end Text
end QueryHooks
