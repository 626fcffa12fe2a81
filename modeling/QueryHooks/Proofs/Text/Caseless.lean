import QueryHooks.Proofs.Text.Avoids
import QueryHooks.Text.Capital

namespace QueryHooks

theorem toNat_ofNat_of_ne_zero (h : (Char.ofNat n).toNat ≠ 0) : (Char.ofNat n).toNat = n := by
  by_cases hv : n.isValidChar
  case pos => rw [Char.ofNat, dif_pos hv]; rfl
  case neg =>
    rw [Char.ofNat, dif_neg hv] at h
    contradiction

namespace Text

structure Caseless (c : Char) : Prop where
  uppercase_eq        : uppercase c = [c]
  eq_of_mem_uppercase : c ∈ uppercase d → d = c

-- Each run is asked for the one character that it would take to this one.
def isCaseless (c : Char) : Bool :=
  c.toNat ≠ 0 && uppercase c = [c] && wideUppercase.all (fun entry => !(entry.2.map Char.ofNat).contains c) &&
    caseRuns.all fun run => !run.covers (c.toNat - run.distance).toNat

theorem caseless_of_isCaseless (h : isCaseless c) : Caseless c := by
  simp only [isCaseless, Bool.and_eq_true, decide_eq_true_eq, List.all_eq_true, Bool.not_eq_true'] at h
  obtain ⟨⟨⟨hpos, hu⟩, hw⟩, hr⟩ := h
  refine ⟨hu, @fun d hd => ?_⟩
  rw [uppercase] at hd
  split at hd
  case h_1 codes he =>
    obtain ⟨before, after, he, _⟩ := List.lookup_eq_some_iff.mp he
    have hn := hw (d.toNat, codes) (he ▸ List.mem_append_right _ (.head _))
    rw [List.contains_iff_mem.mpr hd] at hn
    contradiction
  case h_2 =>
    split at hd
    case h_2        => exact (List.mem_singleton.mp hd).symm
    case h_1 run hf =>
      cases List.mem_singleton.mp hd
      have hn := toNat_ofNat_of_ne_zero hpos
      have he : (d.toNat : Int) = (d.toNat + run.distance).toNat - run.distance := by omega
      have hc := List.find?_some (p := (CaseRun.covers · d.toNat)) hf
      have hf := hr run (List.mem_of_find?_eq_some hf)
      rw [hn, ← he, Int.toNat_natCast, hc] at hf
      contradiction

theorem avoids_capitalize_iff {p : Char → Bool} (hp : ∀ c, p c → Caseless c) :
    Avoids p (capitalize name) ↔ Avoids p name := by
  rw [Avoids, toList_capitalize, Avoids]
  cases name.toList
  case nil       => rfl
  case cons c cs =>
    rw [capitalizeChars, List.forall_mem_append, List.forall_mem_cons]
    refine and_congr_left fun _ => ?_
    cases hc : p c
    case true  => simp [(hp c hc).uppercase_eq, hc]
    case false =>
      refine iff_of_true (fun d hd => Bool.eq_false_iff.mpr fun h => ?_) rfl
      rw [(hp d h).eq_of_mem_uppercase hd, h] at hc
      contradiction

end Text
end QueryHooks
