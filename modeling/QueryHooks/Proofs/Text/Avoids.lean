import QueryHooks.Text.Join

namespace QueryHooks.Text

def Avoids (p : Char → Bool) (text : String) : Prop :=
  ∀ c ∈ text.toList, p c = false

instance : Decidable (Avoids p text) :=
  List.decidableBAll _ text.toList

namespace Avoids

variable {p : Char → Bool}

theorem empty : Avoids p "" :=
  fun _ hc => absurd hc List.not_mem_nil

theorem append_iff : Avoids p (s ++ t) ↔ Avoids p s ∧ Avoids p t := by
  rw [Avoids, String.toList_append]
  exact List.forall_mem_append

theorem append (hs : Avoids p s) (ht : Avoids p t) : Avoids p (s ++ t) :=
  append_iff.mpr ⟨hs, ht⟩

theorem wrap (hl : Avoids p left) (h : Avoids p s) (hr : Avoids p right) : Avoids p (left ++ s ++ right) :=
  (hl.append h).append hr

theorem join_iff (hp : Avoids p sep) : Avoids p (join sep ss) ↔ ∀ s ∈ ss, Avoids p s := by
  induction ss
  case nil          => exact iff_of_true empty nofun
  case cons s ss hi =>
    by_cases hn : ss = []
    case pos => simp [hn]
    case neg => rw [join_cons hn, append_iff, append_iff, hi, List.forall_mem_cons, and_iff_left hp]

end Avoids
end QueryHooks.Text
