import QueryHooks.Proofs.Text.Caseless
import QueryHooks.Proofs.TypeScript.Literals
import QueryHooks.Proofs.TypeScript.Quoted
import QueryHooks.Proofs.TypeScript.Reference

namespace QueryHooks.TypeScript

open Text (Avoids Caseless capitalize)

-- The characters that a literal cannot go beyond.
def endsLine (c : Char) : Bool :=
  c == '\n' || c == '\r'

theorem endsLine_iff : endsLine c ↔ c = '\n' ∨ c = '\r' := by
  simp [endsLine]

def Broken (text : String) : Prop :=
  ¬Avoids endsLine text

instance : Decidable (Broken text) :=
  inferInstanceAs <| Decidable (¬_)

theorem broken_append : Broken (s ++ t) ↔ Broken s ∨ Broken t := by
  rw [Broken, Avoids.append_iff, not_and_or, Broken, Broken]

theorem broken_quote : Broken (quote t) ↔ Broken t :=
  (avoids_quote_iff rfl rfl).not

theorem caseless_of_endsLine (h : endsLine c) : Caseless c := by
  rcases endsLine_iff.mp h with rfl | rfl <;> exact Text.caseless_of_isCaseless (by decide +kernel)

theorem broken_capitalize : Broken (capitalize name) ↔ Broken name :=
  (Text.avoids_capitalize_iff fun _ => caseless_of_endsLine).not

theorem not_broken_of_isIdentifier (h : isIdentifier name) : ¬Broken name := by
  refine not_not.mpr <| avoids_of_isIdentifier (fun c hc => ?_) h
  rcases endsLine_iff.mp hc with rfl | rfl <;> rfl

def AnyBroken (ts : List String) : Prop :=
  ∃ t ∈ ts, Broken t

instance : Decidable (AnyBroken ts) :=
  inferInstanceAs <| Decidable (∃ t ∈ ts, Broken t)

theorem anyBroken_nil : ¬AnyBroken [] :=
  nofun

theorem anyBroken_append : AnyBroken (ss ++ ts) ↔ AnyBroken ss ∨ AnyBroken ts := by
  simp [AnyBroken, or_and_right, exists_or]

theorem anyBroken_singleton : AnyBroken [t] ↔ Broken t := by
  simp [AnyBroken]

theorem anyBroken_flatMap {as : List α} {f : α → List String} :
    AnyBroken (as.flatMap f) ↔ ∃ a ∈ as, AnyBroken (f a) := by
  simp only [AnyBroken, List.mem_flatMap]
  grind

-- Only what is no identifier is put in quotes, so this makes no difference.
theorem anyBroken_quotedKey : AnyBroken (quotedKey key) ↔ Broken key := by
  rw [quotedKey]
  split
  case isTrue h => exact iff_of_false anyBroken_nil (not_broken_of_isIdentifier h)
  case isFalse  => exact anyBroken_singleton

end QueryHooks.TypeScript
