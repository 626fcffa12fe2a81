import QueryHooks.Proofs.Fragment
import QueryHooks.Proofs.Text.Trim

namespace QueryHooks

namespace TypeScript

-- Between these texts, an identifier is no part of a longer one, no member, and no key of an entry.
structure Standalone (before after : String) : Prop where
  start : ∀ c ∈ before.toList.getLast?, isIdentChar c = false ∧ c ≠ '.'
  stop  : ∀ c ∈ after.toList.head?, isIdentChar c = false
  noKey : ¬∃ blanks rest, after.toList = blanks ++ ':' :: rest ∧ ∀ c ∈ blanks, Text.isBlank c

theorem mayPrecede_iff : mayPrecede prev ↔ ∀ c ∈ prev, isIdentChar c = false ∧ c ≠ '.' := by
  cases prev <;> simp [mayPrecede]

theorem mayFollow_iff : mayFollow cs ↔
    (∀ c ∈ cs.head?, isIdentChar c = false) ∧
      ¬∃ blanks rest, cs = blanks ++ ':' :: rest ∧ ∀ c ∈ blanks, Text.isBlank c := by
  rw [mayFollow, Bool.and_eq_true, bne_iff_ne, ne_eq, Text.head?_trimStart_eq_some rfl]
  cases cs.head? <;> simp

theorem standalone_iff : Standalone before after ↔ mayPrecede before.toList.getLast? ∧ mayFollow after.toList := by
  rw [mayPrecede_iff, mayFollow_iff]
  exact ⟨fun h => ⟨h.start, h.stop, h.noKey⟩, fun ⟨hb, hs, hk⟩ => ⟨hb, hs, hk⟩⟩

theorem references_iff_standalone (hn : ident ≠ "") (hi : ident.toList.all isIdentChar) :
    references code ident ↔ ∃ before after, code = before ++ ident ++ after ∧ Standalone before after := by
  rw [references_iff_occurs hn hi]
  constructor
  case mp  =>
    rintro ⟨before, after, h, _, hb, ha⟩
    rw [Option.or_none] at hb
    refine ⟨.ofList before, .ofList after, ?_, standalone_iff.mpr ⟨by simpa using hb, by simpa using ha⟩⟩
    simp [← String.toList_inj, h]
  case mpr =>
    rintro ⟨before, after, rfl, h⟩
    have ⟨hb, ha⟩ := standalone_iff.mp h
    exact ⟨before.toList, after.toList, by simp, Nat.zero_le _, by simpa using hb, ha⟩

end TypeScript

open TypeScript

-- The search finds each identifier that stands on its own somewhere. Whole statements that are put one below the other
-- can be searched one by one, and fragments are whole statements.
theorem search_complete (hn : ident ≠ "") (hi : ident.toList.all isIdentChar) :
    (∀ code, references code ident ↔ ∃ before after, code = before ++ ident ++ after ∧ Standalone before after) ∧
    (∀ texts, (∀ text ∈ texts, Terminated text) →
      (references (Text.join "\n" texts) ident ↔ ∃ text ∈ texts, references text ident)) ∧
    ∀ c s ops, ∀ text ∈ (Pass.run c s ops).fragments, Terminated text := by
  refine ⟨fun _ => references_iff_standalone hn hi, fun _ => references_join hn hi, fun c s ops => ?_⟩
  rw [Pass.fragments_run]
  exact List.forall_mem_map.mpr fun op _ => c.terminated_fragment s op

-- The occurrence in the word `aaa` is taken first, and the search goes on behind it.
theorem search_complete_overlapping :
    let texts := ["x.aa;\n", "f(aaa, aa);\n"]
    "aa" ≠ "" ∧ "aa".toList.all isIdentChar ∧ (∀ text ∈ texts, Terminated text) ∧
      references (Text.join "\n" texts) "aa" ∧ ¬references "x.aa;\n" "aa" := by
  intro texts
  have hn : "aa" ≠ "" := by decide
  have hi : "aa".toList.all isIdentChar := by decide
  have ht : ∀ text ∈ texts, Terminated text :=
    List.forall_mem_cons.mpr ⟨⟨"x.aa", rfl⟩, List.forall_mem_singleton.mpr ⟨"f(aaa, aa)", rfl⟩⟩
  have ⟨hs, hj, _⟩ := search_complete hn hi
  have h : references "f(aaa, aa);\n" "aa" :=
    (hs _).mpr ⟨"f(aaa, ", ");\n", rfl, standalone_iff.mpr (by decide)⟩
  exact ⟨hn, hi, ht, (hj texts ht).mpr ⟨_, .tail _ <| .head _, h⟩, by decide⟩

end QueryHooks
