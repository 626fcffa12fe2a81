import QueryHooks.Proofs.Text.Avoids
import QueryHooks.Proofs.TypeScript.Bracket

namespace QueryHooks.TypeScript

open Text (Avoids)

structure Reading where
  place : Place := .code
  -- What has been read of the text in quotes.
  text  : List Char := []
  deriving DecidableEq

namespace Reading

-- The place behind the character, and the literal that ends with it, if one does.
def step (r : Reading) (c : Char) : Reading × List String :=
  match r.place with
  | .code          => (if isQuote c then { place := .quoted c } else {}, [])
  | .quoted quote  =>
    if c = quote then ({}, if quote = '\'' then [.ofList r.text] else [])
    else if c = '\\' then ({ r with place := .escaped quote }, [])
    else ({ r with text := r.text ++ [c] }, [])
  | .escaped quote => ({ place := .quoted quote, text := r.text ++ [c] }, [])

def run (r : Reading) : List Char → Reading × List String
  | []      => (r, [])
  | c :: cs => ((r.step c).1.run cs).map id ((r.step c).2 ++ ·)

theorem run_append (r : Reading) (xs ys : List Char) :
    r.run (xs ++ ys) = ((r.run xs).1.run ys).map id ((r.run xs).2 ++ ·) := by
  induction xs generalizing r
  case nil          => rfl
  case cons x xs hi => simp [run, hi, Prod.map]

theorem run_of_avoids (h : ∀ c ∈ cs, isQuote c = false) : run {} cs = ({}, []) := by
  induction cs
  case nil          => rfl
  case cons c cs hi =>
    have ⟨hc, hcs⟩ := List.forall_mem_cons.mp h
    have hs : step {} c = ({}, []) := by simp [step, hc]
    rw [run, hs, hi hcs]
    rfl

theorem run_escapeChars (text cs : List Char) :
    run { place := .quoted '\'', text } (escapeChars cs) = ({ place := .quoted '\'', text := text ++ cs }, []) := by
  fun_induction escapeChars cs generalizing text
  case case1             => simp [run]
  case case2 cs hi       => simp [run, step, hi]
  case case3 cs hi       => simp [run, step, hi]
  case case4 c cs h h' hi =>
    have hs : step { place := .quoted '\'', text } c = ({ place := .quoted '\'', text := text ++ [c] }, []) := by
      simp_all [step]
    simp [run, hs, hi]

theorem run_trimStart (cs : List Char) : run {} (Text.trimStart cs) = run {} cs := by
  induction cs
  case nil          => rfl
  case cons c cs hi =>
    cases hb : Text.isBlank c
    case false => rw [Text.trimStart_of_not_blank hb]
    case true  =>
      have hm : c ∉ marks := not_mem_marks_of_isBlank hb
      have hq : isQuote c = false := by simp_all [isQuote, marks]
      have hs : step {} c = ({}, []) := by simp [step, hq]
      have ht : Text.trimStart (c :: cs) = Text.trimStart cs := List.dropWhile_cons_of_pos hb
      rw [ht, hi, run, hs]
      rfl

end Reading

-- The reading begins and ends in code, and comes upon these literals.
def Reads (text : String) (ts : List String) : Prop :=
  Reading.run {} text.toList = ({}, ts)

instance : Decidable (Reads text ts) :=
  inferInstanceAs <| Decidable (_ = _)

def literalsIn (text : String) : List String :=
  (Reading.run {} text.toList).2

def Whole (text : String) : Prop :=
  (Reading.run {} text.toList).1 = {}

instance : Decidable (Whole text) :=
  inferInstanceAs <| Decidable (_ = _)

theorem Whole.reads (h : Whole t) : Reads t (literalsIn t) :=
  Prod.ext h rfl

namespace Reads

theorem literalsIn_eq (h : Reads t ts) : literalsIn t = ts :=
  congrArg (·.2) h

theorem append (hs : Reads s ss) (ht : Reads t ts) : Reads (s ++ t) (ss ++ ts) := by
  rw [Reads, String.toList_append, Reading.run_append, hs, ht]
  rfl

theorem of_avoids (h : Avoids isQuote t) : Reads t [] :=
  Reading.run_of_avoids h

theorem quote (t : String) : Reads (quote t) [t] := by
  have hq : (TypeScript.quote t).toList = '\'' :: escapeChars t.toList ++ ['\''] := by simp [TypeScript.quote]
  have ho : Reading.step {} '\'' = ({ place := .quoted '\'' }, []) := rfl
  rw [Reads, hq, List.cons_append, Reading.run, ho, Reading.run_append, Reading.run_escapeChars]
  simp [Reading.run, Reading.step]

theorem trimIndent (h : Reads t ts) : Reads (trimIndent t) ts := by
  rw [Reads, TypeScript.trimIndent, String.toList_ofList, Reading.run_trimStart]
  exact h

end Reads
end QueryHooks.TypeScript
