import QueryHooks.Json.Print
import QueryHooks.Proofs.TypeScript.Bracket

namespace QueryHooks

open TypeScript
open Text (join)

-- The characters that numbers are written with.
def isNumberChar (c : Char) : Bool :=
  c.isDigit || c == '-' || c == '+' || c == '.' || c == 'e'

def IsNumberText (text : String) : Prop :=
  ∀ c ∈ text.toList, isNumberChar c

instance : DecidablePred IsNumberText :=
  fun text => List.decidableBAll _ text.toList

namespace IsNumberText

theorem closed (h : IsNumberText t) : Closed t :=
  .of_not_mem_marks fun c hc => not_mem_marks_of (by decide) (h c hc)

theorem append (hs : IsNumberText s) (ht : IsNumberText t) : IsNumberText (s ++ t) := by
  intro c hc
  rw [String.toList_append] at hc
  exact (List.mem_append.mp hc).elim (hs c) (ht c)

theorem ofList_of_digits (h : ∀ c ∈ cs, c.isDigit) : IsNumberText (.ofList cs) := by
  intro c hc
  rw [String.toList_ofList] at hc
  simp [isNumberChar, h c hc]

end IsNumberText

theorem isDigit_of_mem_toDigits (h : c ∈ Nat.toDigits 10 n) : c.isDigit :=
  Nat.isDigit_of_mem_toDigits (by decide) (by decide) h

theorem isNumberText_toString (n : Nat) : IsNumberText (toString n) :=
  .ofList_of_digits fun _ => isDigit_of_mem_toDigits

namespace Number.Binary64

theorem isNumberText_zeros (count : Int) : IsNumberText (zeros count) :=
  .ofList_of_digits fun _ hc => List.eq_of_mem_replicate hc ▸ rfl

theorem isNumberText_scientific (h : ∀ c ∈ digits, c.isDigit) (exponent : Int) :
    IsNumberText (scientific digits exponent) := by
  have he : IsNumberText (if exponent < 0 then "e-" else "e+") := by split <;> decide
  refine IsNumberText.append (.append ?_ he) (isNumberText_toString _)
  split
  case h_1 => exact .ofList_of_digits h
  case h_3 => decide
  case h_2 c cs _ =>
    have ⟨hc, hcs⟩ := List.forall_mem_cons.mp h
    have hp : String.ofList (c :: '.' :: cs) = String.ofList [c] ++ "." ++ String.ofList cs := by
      simp [← String.toList_inj]
    rw [hp]
    exact .append (.append (.ofList_of_digits <| by simpa using hc) (by decide)) (.ofList_of_digits hcs)

theorem isNumberText_magnitudeText (d : Binary64) : IsNumberText d.magnitudeText := by
  have hd : ∀ c ∈ Nat.toDigits 10 d.shortest.digits, c.isDigit := fun _ => isDigit_of_mem_toDigits
  have hp : IsNumberText "." := by decide
  rw [magnitudeText]
  split
  case isTrue  => decide
  case isFalse =>
    dsimp only
    split
    case isTrue  => exact isNumberText_scientific hd _
    case isFalse =>
      split
      case isTrue  => exact .append (.append (.ofList_of_digits hd) (isNumberText_zeros _)) (by decide)
      case isFalse =>
        split
        case isTrue  =>
          have ht (n : Nat) := IsNumberText.ofList_of_digits fun c hc => hd c <| List.mem_of_mem_take (i := n) hc
          have hr (n : Nat) := IsNumberText.ofList_of_digits fun c hc => hd c <| List.mem_of_mem_drop (i := n) hc
          exact .append (.append (ht _) hp) (hr _)
        case isFalse => exact .append (.append (by decide) (isNumberText_zeros _)) (.ofList_of_digits hd)

theorem isNumberText_text (d : Binary64) : IsNumberText d.text := by
  have hs : IsNumberText (if d.negative then "-" else "") := by split <;> decide
  exact hs.append d.isNumberText_magnitudeText

end Number.Binary64

theorem Numeral.closed_print (n : Numeral) : Closed n.print := by
  refine IsNumberText.closed ?_
  cases n
  case double value  => exact value.isNumberText_text
  case integer value =>
    cases value
    case ofNat n   => exact isNumberText_toString n
    case negSucc n => exact .append (by decide) (isNumberText_toString (n + 1))

namespace Json

theorem run_escapeChar (c : Char) :
    Scan.run { place := .quoted '"' } (escapeChar c) = some { place := .quoted '"' } := by
  -- The control characters are few.
  have hall : ∀ n < 0x20,
      Scan.run { place := .quoted '"' } (escapeChar (.ofNat n)) = some { place := .quoted '"' } := by
    decide
  by_cases hn : c.toNat < 0x20
  case pos => exact c.ofNat_toNat ▸ hall c.toNat hn
  case neg =>
    fun_cases escapeChar c
    case case8 => contradiction
    case case9 hq hb _ _ _ _ _ _ =>
      have hq : c ≠ '"' := hq
      have hb : c ≠ '\\' := hb
      simp [Scan.run, Scan.step, hq, hb]
    all_goals rfl

theorem closed_quote (s : String) : Closed (quote s) := by
  have h (cs : List Char) :
      Scan.run { place := .quoted '"' } (cs.flatMap escapeChar) = some { place := .quoted '"' } := by
    induction cs
    case nil           => rfl
    case cons c cs hi =>
      rw [List.flatMap_cons, Scan.run_append, run_escapeChar]
      exact hi
  have hq : (quote s).toList = '"' :: s.toList.flatMap escapeChar ++ ['"'] := by simp [quote]
  rw [Closed, hq]
  exact Scan.run_quoted rfl <| h s.toList

mutual

theorem closed_print : ∀ j : Json, Closed j.print
  | null           => by decide
  | bool true      => by decide
  | bool false     => by decide
  | number value   => value.closed_print
  | string value   => closed_quote value
  | array items    => .wrap rfl (.join rfl (closed_printItems items)) rfl
  | object entries => .wrap rfl (.join rfl (closed_printEntries entries)) rfl

theorem closed_printItems : ∀ items : List Json, ∀ t ∈ printItems items, Closed t
  | item :: _, _, .head _   => item.closed_print
  | _ :: rest, t, .tail _ h => closed_printItems rest t h

theorem closed_printEntries : ∀ entries : List (String × Json), ∀ t ∈ printEntries entries, Closed t
  | (key, value) :: _, _, .head _   => (closed_quote key).append (t := ":") rfl |>.append value.closed_print
  | _ :: rest,         t, .tail _ h => closed_printEntries rest t h

end

end Json
end QueryHooks
