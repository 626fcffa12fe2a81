import QueryHooks.Mapper.Basic
import QueryHooks.Proofs.Report
import QueryHooks.Proofs.TypeScript.Reference

namespace QueryHooks

open TypeScript

namespace Mapper

@[simp]
theorem callee_named : (named source item).callee = item.binding :=
  rfl

@[simp]
theorem callee_default : (default source binding).callee = binding :=
  rfl

-- The local name of an export has been checked.
theorem isBinding_of_readExport (h : readExport source cs = .ok m) : isBinding m.callee := by
  rw [readExport] at h
  split at h
  all_goals
    dsimp only at h
    split at h <;> try contradiction
    split at h <;> try contradiction
    split at h <;> try contradiction
    case isFalse.isFalse.isFalse hb =>
      split at h <;> cases h <;> simpa [callee] using hb

theorem source?_of_readExport (h : readExport source cs = .ok m) : m.source? = some source := by
  rw [readExport] at h
  split at h
  all_goals
    dsimp only at h
    split at h <;> try contradiction
    split at h <;> try contradiction
    split at h <;> try contradiction
    split at h <;> cases h <;> rfl

theorem source?_of_readPath (h : readPath cs = .ok m) : m.source? = none := by
  simp only [readPath] at h
  split at h <;> cases h
  rfl

theorem isBinding_of_readTrimmed (h : readTrimmed cs = .ok m) (hs : m.source?.isSome) : isBinding m.callee := by
  rw [readTrimmed] at h
  split at h
  case isTrue  => contradiction
  case isFalse =>
    split at h
    case h_1 => simp [source?_of_readPath h] at hs
    case h_2 =>
      dsimp only at h
      split at h <;> try contradiction
      split at h <;> try contradiction
      split at h <;> try contradiction
      exact isBinding_of_readExport h

theorem isIdentifier_callee_of_read (h : read text = .ok m) (hs : m.source?.isSome) : isIdentifier m.callee :=
  isIdentifier_of_isBinding <| isBinding_of_readTrimmed (mapError_eq_ok.mp h) hs

theorem segments_cons (c : Char) (cs : List Char) :
    segments (c :: cs) =
      if c = '.' then ([], (segments cs).1 :: (segments cs).2) else (c :: (segments cs).1, (segments cs).2) :=
  rfl

-- Between the dots, each character of a path is in a segment.
theorem mem_segments (h : c ∈ cs) : c = '.' ∨ c ∈ (segments cs).1 ∨ ∃ segment ∈ (segments cs).2, c ∈ segment := by
  induction cs
  case nil           => contradiction
  case cons d cs hi =>
    rw [segments_cons]
    by_cases hd : d = '.'
    case pos =>
      cases h
      case head   => exact .inl hd
      case tail h => exact (hi h).imp_right fun h => by simpa [hd] using h
    case neg =>
      rw [if_neg hd]
      cases h
      case head   => exact .inr <| .inl <| .head _
      case tail h => exact (hi h).imp_right <| .imp_left <| .tail _

theorem segments_of_not_mem (h : '.' ∉ cs) : segments cs = (cs, []) := by
  induction cs
  case nil           => rfl
  case cons c cs hi =>
    rw [List.mem_cons, not_or] at h
    rw [segments_cons, hi h.right]
    exact if_neg (Ne.symm h.left)

def isPathChar (c : Char) : Bool :=
  isIdentChar c || c == '.'

theorem isPathChar_of_isPath (h : isPath cs) (hc : c ∈ cs) : isPathChar c := by
  have hi {segment} (hs : isIdentifier (.ofList segment)) (hc : c ∈ segment) : isIdentChar c := by
    rw [isIdentifier, String.toList_ofList] at hs
    exact List.all_eq_true.mp (all_isIdentChar_of_isIdentifierChars hs) c hc
  have ⟨hb, hr⟩ := Bool.and_eq_true_iff.mp h
  rw [isPathChar, Bool.or_eq_true, beq_iff_eq]
  rcases mem_segments hc with hc | hc | ⟨segment, hs, hc⟩
  case inl     => exact .inr hc
  case inr.inl => exact .inl <| hi (isIdentifier_of_isBinding hb) hc
  case inr.inr => exact .inl <| hi (List.all_eq_true.mp hr segment hs) hc

theorem isPath_of_isBinding (h : isBinding name) : isPath name.toList := by
  have hi := isIdentifier_of_isBinding h
  have hd : '.' ∉ name.toList := not_mem_of_all_isIdentChar (all_isIdentChar_of_isIdentifierChars hi) rfl
  simp [isPath, segments_of_not_mem hd, h]

theorem isPath_callee_of_readTrimmed (h : readTrimmed cs = .ok m) : isPath m.callee.toList := by
  cases m
  case internal path =>
    rw [readTrimmed] at h
    split at h
    case isTrue  => contradiction
    case isFalse =>
      split at h
      case h_1 =>
        rw [readPath] at h
        split at h <;> cases h
        simpa [callee] using ‹isPath cs = true›
      case h_2 =>
        dsimp only at h
        split at h <;> try contradiction
        split at h <;> try contradiction
        split at h <;> try contradiction
        exact absurd (source?_of_readExport h) nofun
  case named   => exact isPath_of_isBinding <| isBinding_of_readTrimmed h rfl
  case default => exact isPath_of_isBinding <| isBinding_of_readTrimmed h rfl

-- What generated code calls is a path, be it one identifier.
theorem isPath_callee_of_read (h : read text = .ok m) : isPath m.callee.toList :=
  isPath_callee_of_readTrimmed <| mapError_eq_ok.mp h

end Mapper
end QueryHooks
