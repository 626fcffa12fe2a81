import QueryHooks.Document.Datum
import QueryHooks.Number.Width
import QueryHooks.Format.Toml.Text

namespace QueryHooks.Format.Toml

def moreDigits (isDigit : Char → Bool) : Reader (List Char)
  | '_' :: c :: cs => if isDigit c then cons c (moreDigits isDigit cs) else none
  | '_' :: []      => none
  | c :: cs        => if isDigit c then cons c (moreDigits isDigit cs) else some ([], c :: cs)
  | []             => some ([], [])

def digits (isDigit : Char → Bool) : Reader (List Char)
  | c :: cs => if isDigit c then cons c (moreDigits isDigit cs) else none
  | []      => none

-- A whole number does not begin with a zero unless it is one.
def wholeDigits : Reader (List Char)
  | '0' :: cs => some (['0'], cs)
  | cs        => digits Char.isDigit cs

def integer? (i : Int) : Option Datum :=
  if Number.fitsSigned 64 i then some (.number (.integer i)) else none

def based (base : Nat) (cs : List Char) : Option (Datum × List Char) := do
  let (ds, rest) ← digits (fun c => (Text.digitOf? base c).isSome) cs
  let n ← Text.number? base ds
  some (← integer? n, rest)

def fraction : Reader (List Char)
  | '.' :: cs => digits Char.isDigit cs
  | cs        => some ([], cs)

def exponent : Reader (Option Int)
  | c :: cs =>
    if c == 'e' || c == 'E' then do
      let (sign, cs) : Int × List Char :=
        match cs with
        | '-' :: cs => (-1, cs)
        | '+' :: cs => (1, cs)
        | cs        => (1, cs)
      let (ds, rest) ← digits Char.isDigit cs
      some (some (sign * (← Text.number? 10 ds)), rest)
    else some (none, c :: cs)
  | []      => some (none, [])

-- Below all finite numbers there is one more, and above them there is none.
def double? (negative : Bool) (significand : Nat) (exponent : Int) : Option Datum :=
  match Number.Binary64.ofDecimal? significand exponent with
  | some d => some (.number (.double (if negative then d.neg else d)))
  | none   => if negative then some .nonFinite else none

def decimal (negative : Bool) (cs : List Char) : Option (Datum × List Char) := do
  let (whole, cs) ← wholeDigits cs
  let (part, cs) ← fraction cs
  let (power, cs) ← exponent cs
  let n ← Text.number? 10 (whole ++ part)
  if part.isEmpty && power.isNone then
    some (← integer? (if negative then -n else n), cs)
  else
    some (← double? negative n (power.getD 0 - part.length), cs)

def signed (negative : Bool) : Reader Datum
  | 'i' :: 'n' :: 'f' :: cs => some (.nonFinite, cs)
  | 'n' :: 'a' :: 'n' :: cs => some (.nonFinite, cs)
  | cs                      => decimal negative cs

def number : Reader Datum
  | '+' :: cs        => signed false cs
  | '-' :: cs        => signed true cs
  | '0' :: 'x' :: cs => based 16 cs
  | '0' :: 'o' :: cs => based 8 cs
  | '0' :: 'b' :: cs => based 2 cs
  | cs               => signed false cs

end QueryHooks.Format.Toml
