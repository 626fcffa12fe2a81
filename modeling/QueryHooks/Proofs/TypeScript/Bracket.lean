import QueryHooks.Proofs.TypeScript.Reference
import QueryHooks.TypeScript.Print

namespace QueryHooks.TypeScript

open Text (join concat isBlank)

inductive Place where
  | code
  | quoted (quote : Char)
  | escaped (quote : Char)
  deriving DecidableEq

structure Scan where
  place   : Place := .code
  -- The brackets that have to come, the one for the innermost pair first.
  pending : List Char := []
  deriving DecidableEq

def isQuote (c : Char) : Bool :=
  c == '\'' || c == '"'

def closer? : Char → Option Char
  | '('    => some ')'
  | '['    => some ']'
  | '\x7b' => some '\x7d'
  | _      => none

def isCloser (c : Char) : Bool :=
  c == ')' || c == ']' || c == '\x7d'

namespace Scan

def stepCode (pending : List Char) (c : Char) : Option Scan :=
  if isQuote c then some { place := .quoted c, pending }
  else
    match closer? c with
    | some closer => some { pending := closer :: pending }
    | none        =>
      if isCloser c then
        match pending with
        | []                => none
        | closer :: pending => if c = closer then some { pending } else none
      else some { pending }

def step (s : Scan) (c : Char) : Option Scan :=
  match s.place with
  | .code          => stepCode s.pending c
  | .quoted quote  =>
    if c = quote then some { s with place := .code }
    else if c = '\\' then some { s with place := .escaped quote }
    else some s
  | .escaped quote => some { s with place := .quoted quote }

-- There is no way on from a bracket that closes nothing, or another bracket than its counterpart.
def run (s : Scan) : List Char → Option Scan
  | []      => some s
  | c :: cs => (s.step c).bind (run · cs)

theorem run_append (s : Scan) (xs ys : List Char) : s.run (xs ++ ys) = (s.run xs).bind (run · ys) := by
  induction xs generalizing s
  case nil          => rfl
  case cons x xs hi =>
    cases h : s.step x
    case none => simp [run, h]
    case some => simp [run, h, hi]

def under (s : Scan) (pending : List Char) : Scan :=
  { s with pending := s.pending ++ pending }

theorem stepCode_under (h : stepCode ps c = some s) (qs : List Char) : stepCode (ps ++ qs) c = some (s.under qs) := by
  unfold stepCode at h ⊢
  split at h
  case isTrue hq  => cases h; simp [hq, under]
  case isFalse hq =>
    rw [if_neg hq]
    split at h
    case h_1 => cases h; rfl
    case h_2 =>
      split at h
      case isFalse hc => cases h; simp [hc, under]
      case isTrue hc  =>
        cases ps
        case nil  => contradiction
        case cons => grind [under]

theorem step_under (h : step s c = some s') (qs : List Char) : (s.under qs).step c = some (s'.under qs) := by
  obtain ⟨place, ps⟩ := s
  cases place
  case code          => exact stepCode_under h qs
  case quoted quote  => grind [step, under]
  case escaped quote => grind [step, under]

-- What is open around a text makes no difference to the scan of it.
theorem run_under (h : run s cs = some s') (qs : List Char) : (s.under qs).run cs = some (s'.under qs) := by
  induction cs generalizing s
  case nil          => cases h; rfl
  case cons c cs hi =>
    have ⟨t, ht, h⟩ := Option.bind_eq_some_iff.mp h
    rw [run, step_under ht qs]
    exact hi h

end Scan

-- The scan of the text ends as it began: outside of quotes, and with each bracket closed by its counterpart.
def Closed (text : String) : Prop :=
  Scan.run {} text.toList = some {}

instance : Decidable (Closed text) :=
  inferInstanceAs <| Decidable (_ = _)

example : Closed "f('\\')', [x])" := by decide

example : ¬Closed "f(x]" := by decide

-- The text stands in code, and opens and closes brackets such that others are to come behind it than before it.
def Leads (ps : List Char) (text : String) (qs : List Char) : Prop :=
  Scan.run { pending := ps } text.toList = some { pending := qs }

theorem Leads.append (hs : Leads ps s qs) (ht : Leads qs t rs) : Leads ps (s ++ t) rs := by
  rw [Leads, String.toList_append, Scan.run_append, hs]
  exact ht

namespace Closed

theorem leads (h : Closed t) (ps : List Char) : Leads ps t ps :=
  Scan.run_under h ps

theorem append (hs : Closed s) (ht : Closed t) : Closed (s ++ t) :=
  Leads.append hs ht

theorem wrap (ho : Leads [] s ps) (h : Closed t) (hc : Leads ps u []) : Closed (s ++ t ++ u) :=
  ho.append (h.leads ps) |>.append hc

theorem concat (h : ∀ s ∈ ss, Closed s) : Closed (concat ss) := by
  induction ss
  case nil          => rfl
  case cons s ss hi => exact (h s <| .head _).append <| hi fun t ht => h t <| .tail _ ht

theorem join (hp : Closed sep) (h : ∀ s ∈ ss, Closed s) : Closed (join sep ss) := by
  induction ss
  case nil          => rfl
  case cons s ss hi =>
    by_cases hn : ss = []
    case pos => exact hn ▸ h s (.head _)
    case neg =>
      have hs := h s <| .head _
      have hss := hi fun t ht => h t <| .tail _ ht
      exact Text.join_cons hn ▸ (hs.append hp).append hss

end Closed

-- The characters that the scan looks at in code.
def marks : List Char :=
  ['(', ')', '[', ']', '\x7b', '\x7d', '\'', '"']

namespace Scan

theorem stepCode_of_not_mem_marks (h : c ∉ marks) (ps : List Char) : stepCode ps c = some { pending := ps } := by
  have hq : isQuote c = false := by simp_all [marks, isQuote]
  have hc : isCloser c = false := by simp_all [marks, isCloser]
  have ho : closer? c = none := by
    rw [closer?.eq_4] <;> simp_all [marks]
  simp [stepCode, hq, hc, ho]

theorem run_of_not_mem_marks (h : ∀ c ∈ cs, c ∉ marks) (ps : List Char) :
    run { pending := ps } cs = some { pending := ps } := by
  induction cs
  case nil          => rfl
  case cons c cs hi =>
    have hc : step { pending := ps } c = some { pending := ps } := stepCode_of_not_mem_marks (h c <| .head _) ps
    rw [run, hc]
    exact hi fun d hd => h d <| .tail _ hd

end Scan

theorem Closed.of_not_mem_marks (h : ∀ c ∈ t.toList, c ∉ marks) : Closed t :=
  Scan.run_of_not_mem_marks h []

-- No mark belongs to a class of characters if none of the eight does.
theorem not_mem_marks_of {p : Char → Bool} (hp : marks.any p = false) (h : p c) : c ∉ marks :=
  fun hm => List.any_eq_false.mp hp c hm h

theorem not_mem_marks_of_isIdentChar (h : isIdentChar c) : c ∉ marks :=
  not_mem_marks_of (by decide) h

theorem not_mem_marks_of_isBlank (h : isBlank c) : c ∉ marks :=
  not_mem_marks_of (by decide) h

theorem Closed.of_isIdentifier (h : isIdentifier t) : Closed t := by
  have hi := List.all_eq_true.mp <| all_isIdentChar_of_isIdentifierChars h
  exact of_not_mem_marks fun c hc => not_mem_marks_of_isIdentChar (hi c hc)

theorem closed_indent (level : Nat) : Closed (indent level) := by
  refine Closed.of_not_mem_marks fun c hc => ?_
  rw [toList_indent] at hc
  have hc := List.eq_of_mem_replicate hc
  exact hc ▸ by decide

namespace Scan

theorem run_escapeChars (cs : List Char) (ps : List Char) :
    run { place := .quoted '\'', pending := ps } (escapeChars cs) = some { place := .quoted '\'', pending := ps } := by
  fun_induction escapeChars cs
  case case1             => rfl
  case case2 cs hi       => exact hi
  case case3 cs hi       => exact hi
  case case4 c cs h h' hi =>
    have hc : step { place := .quoted '\'', pending := ps } c = some { place := .quoted '\'', pending := ps } := by
      simp_all [step]
    rw [run, hc]
    exact hi

end Scan

theorem Scan.run_quoted (hq : isQuote q) (h : run { place := .quoted q } cs = some { place := .quoted q }) :
    run {} (q :: cs ++ [q]) = some {} := by
  have ho : step {} q = some { place := .quoted q } := by simp [step, stepCode, hq]
  have hc : run { place := .quoted q } [q] = some {} := by simp [run, step]
  rw [List.cons_append, run, ho, Option.bind_some, run_append, h]
  exact hc

theorem closed_quote (s : String) : Closed (quote s) := by
  have h : (quote s).toList = '\'' :: escapeChars s.toList ++ ['\''] := by simp [quote]
  rw [Closed, h]
  exact Scan.run_quoted rfl <| Scan.run_escapeChars s.toList []

theorem closed_quoteKey (name : String) : Closed (quoteKey name) := by
  rw [quoteKey]
  split
  case isTrue h => exact .of_isIdentifier h
  case isFalse  => exact closed_quote name

theorem Scan.run_trimStart (cs ps : List Char) :
    run { pending := ps } (Text.trimStart cs) = run { pending := ps } cs := by
  induction cs
  case nil          => rfl
  case cons c cs hi =>
    by_cases hb : isBlank c
    case neg => rw [Text.trimStart_of_not_blank (by simpa using hb)]
    case pos =>
      have hc : step { pending := ps } c = some { pending := ps } :=
        stepCode_of_not_mem_marks (not_mem_marks_of_isBlank hb) ps
      have ht : Text.trimStart (c :: cs) = Text.trimStart cs := List.dropWhile_cons_of_pos hb
      rw [ht, hi, run, hc, Option.bind_some]

theorem Closed.trimIndent (h : Closed t) : Closed (trimIndent t) := by
  rw [Closed, TypeScript.trimIndent, String.toList_ofList, Scan.run_trimStart]
  exact h

end QueryHooks.TypeScript
