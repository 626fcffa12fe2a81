import QueryHooks.Proofs.Assembly
import QueryHooks.Proofs.RequestInit
import QueryHooks.Proofs.TypeScript.Woven

namespace QueryHooks

open TypeScript
open Text (join)

namespace Request

-- The texts that the function and its interface have in quotes, and those that stand in them as they are.
def quoted (r : Request) : List String :=
  argsInterface.quoted ++ r.function.quoted

def verbatim (r : Request) : List String :=
  argsInterface.verbatim ++ r.function.verbatim

theorem woven_code {r : Request} (h : r.verbatim ⊆ vs) : Woven vs r.code r.quoted := by
  have ⟨ha, hf⟩ := List.append_subset.mp h
  exact ((argsInterface.woven_print ha).append_plain (by decide)).append (r.function.woven_print hf)

end Request

-- The fetch function that is written into the file, if one is.
def Strategy.requests (s : Strategy) (ops : List Operation) : List Request :=
  if ∃ op ∈ ops, op.kind ≠ .subscription then s.request?.toList else []

theorem HooksFile.toList_inline (c : Config) (s : Strategy) (documents : String) (ops : List Operation) :
    (ofPass c s documents (.run c s ops)).inline.toList = (s.requests ops).map (·.code) := by
  rw [inline_run, Strategy.requests]
  split
  case isTrue  => exact Option.toList_map ..
  case isFalse => rfl

theorem Config.woven_fragment {c : Config} {s : Strategy} (h : Stmt.verbatimAll (c.statements s op) ⊆ vs) :
    Woven vs (c.fragment s op) (Stmt.quotedAll (c.statements s op)) := by
  have h : AllWoven vs (Stmt.printAllIn .standard 0 (c.statements s op)) _ := Stmt.woven_printAllIn _ 0 h
  rw [Stmt.printAllIn_eq_map] at h
  exact h.concat

-- There is no section for a text that is empty.
theorem TypeScript.Woven.section (h : Woven vs t qs) : AllWoven vs (if t = "" then [] else [t]) qs := by
  split
  case isFalse   => exact List.append_nil qs ▸ .cons h .nil
  case isTrue he =>
    have hq : qs = [] := by
      refine List.eq_nil_iff_forall_not_mem.mpr fun q hq => ?_
      have ⟨before, after, hc⟩ := he ▸ h.contains hq
      have hc := congrArg (·.toList) hc
      simp [quote] at hc
    rw [hq]
    exact .nil

namespace Config

variable {c : Config} {s : Strategy} {ops : List Operation}

-- The texts that the content of a file has in quotes.
def literals (c : Config) (s : Strategy) (ops : List Operation) : List String :=
  (s.requests ops).flatMap (·.quoted) ++
  (HooksFile.keyEnumsOf s (.run c s ops)).flatMap (·.quoted) ++
  ops.flatMap fun op => Stmt.quotedAll (c.statements s op)

-- Those that stand in it as they are.
def verbatim (c : Config) (s : Strategy) (documents : String) (ops : List Operation) : List String :=
  .ofList (Text.trimEnd documents.toList) ::
  (s.requests ops).flatMap (·.verbatim) ++
  (HooksFile.keyEnumsOf s (.run c s ops)).flatMap (·.verbatim) ++
  ops.flatMap fun op => Stmt.verbatimAll (c.statements s op)

theorem woven_content (c : Config) (s : Strategy) (documents : String) (ops : List Operation) :
    Woven (c.verbatim s documents ops) (HooksFile.ofPass c s documents (.run c s ops)).content (c.literals s ops) := by
  have ⟨h, ho⟩ := List.append_subset.mp (List.Subset.refl (c.verbatim s documents ops))
  have ⟨h, he⟩ := List.append_subset.mp h
  have ⟨hd, hr⟩ := List.cons_subset.mp h
  have hd : AllWoven (c.verbatim s documents ops) (if .ofList (Text.trimEnd documents.toList) = "" then []
      else [.ofList (Text.trimEnd documents.toList) ++ "\n"]) [] := by
    split
    case isTrue  => exact .nil
    case isFalse => exact .cons ((Woven.verbatim hd).append_plain (by decide)) .nil
  have hr : AllWoven (c.verbatim s documents ops) ((s.requests ops).map (·.code)) _ :=
    .of_map fun r hm => r.woven_code (subset_of_flatMap hr hm)
  have he : AllWoven (c.verbatim s documents ops) ((HooksFile.keyEnumsOf s (.run c s ops)).map (·.print)) _ :=
    .of_map fun d hm => d.woven_print (subset_of_flatMap he hm)
  have ho : AllWoven (c.verbatim s documents ops) (ops.map (c.fragment s)) _ :=
    .of_map fun op hm =>
      woven_fragment (subset_of_flatMap (f := fun op => Stmt.verbatimAll (c.statements s op)) ho hm)
  rw [← Pass.fragments_run] at ho
  rw [HooksFile.content, HooksFile.sections_ofPass, HooksFile.toList_inline]
  exact (((hd.append hr).append he).append (ho.join (by decide)).section).join (by decide)

end Config
end QueryHooks
