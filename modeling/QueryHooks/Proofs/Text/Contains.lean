import Mathlib.Data.String.Basic
import QueryHooks.Proofs.Text.Trim

namespace QueryHooks.Text

-- The part stands somewhere in the text.
def Contains (text part : String) : Prop :=
  ∃ before after, text = before ++ part ++ after

namespace Contains

theorem refl (text : String) : Contains text text :=
  ⟨"", "", by simp⟩

theorem append_left (h : Contains text part) (before : String) : Contains (before ++ text) part := by
  have ⟨before', after, h⟩ := h
  exact ⟨before ++ before', after, by simp [h, String.append_assoc]⟩

theorem append_right (h : Contains text part) (after : String) : Contains (text ++ after) part := by
  have ⟨before, after', h⟩ := h
  exact ⟨before, after' ++ after, by simp [h, String.append_assoc]⟩

-- What does not begin with a blank is not trimmed away.
theorem trimStart (h : Contains text part) (hp : part.toList.head? = some c) (hc : isBlank c = false) :
    Contains (.ofList (Text.trimStart text.toList)) part := by
  obtain ⟨before, after, rfl⟩ := h
  have hb : ∀ d ∈ (part.toList ++ after.toList).head?, isBlank d = false := by
    simp [hp, hc]
  have ⟨before', ht⟩ := exists_trimStart_append before.toList hb
  refine ⟨.ofList before', after, ?_⟩
  rw [String.toList_append, String.toList_append, List.append_assoc, ht]
  simp [← String.toList_inj]

end Contains
end QueryHooks.Text
