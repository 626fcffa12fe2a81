import QueryHooks.Document.Datum
import QueryHooks.Number.Width
import QueryHooks.Text.Digit

namespace QueryHooks.Word

def isNull (word : String) : Bool :=
  ["", "~", "null", "Null", "NULL"].contains word

def bool? (word : String) : Option Bool :=
  if ["true", "True", "TRUE"].contains word then some true
  else if ["false", "False", "FALSE"].contains word then some false
  else none

def nonFinite (word : String) : Bool :=
  [".inf", ".Inf", ".INF", "+.inf", "+.Inf", "+.INF", "-.inf", "-.Inf", "-.INF", ".nan", ".NaN", ".NAN"].contains word

def digits? (base : Nat) (cs : List Char) : Option Nat :=
  if cs.isEmpty then none else Text.number? base cs

-- More than one digit, the first of them a zero.
def isZeroPadded (cs : List Char) : Bool :=
  match cs with
  | '0' :: c :: cs => (c :: cs).all Char.isDigit
  | _              => false

def unsigned? : List Char → Option Nat
  | '0' :: 'x' :: cs => digits? 16 cs
  | '0' :: 'o' :: cs => digits? 8 cs
  | '0' :: 'b' :: cs => digits? 2 cs
  | cs               => if isZeroPadded cs then none else digits? 10 cs

def integer? : List Char → Option Int
  | '-' :: cs => (unsigned? cs).map (- ·)
  | '+' :: cs => unsigned? cs
  | cs        => unsigned? cs

def exponent? : List Char → Option Int
  | []      => some 0
  | c :: cs =>
    if c == 'e' || c == 'E' then
      match cs with
      | '-' :: cs => (digits? 10 cs).map (- ·)
      | '+' :: cs => digits? 10 cs
      | cs        => digits? 10 cs
    else none

def magnitude? (cs : List Char) : Option Number.Binary64 := do
  let (whole, cs) := cs.span Char.isDigit
  let (fraction, cs) :=
    match cs with
    | '.' :: cs => cs.span Char.isDigit
    | cs        => ([], cs)
  let digits ← digits? 10 (whole ++ fraction)
  let exponent ← exponent? cs
  Number.Binary64.ofDecimal? digits (exponent - fraction.length)

def double? : List Char → Option Number.Binary64
  | '-' :: cs => if isZeroPadded cs then none else (magnitude? cs).map .neg
  | '+' :: cs => if isZeroPadded cs then none else magnitude? cs
  | cs        => if isZeroPadded cs then none else magnitude? cs

-- The datum a bare word stands for. Whole numbers of more than 64 bits, but not more than 128, stand for none.
def settle (word : String) : Option Datum :=
  if isNull word then some .null
  else
    match bool? word, integer? word.toList with
    | some b, _    => some (.bool b)
    | none, some i =>
      if Number.fits 64 i then some (.number (.integer i))
      else if Number.fits 128 i then none
      else some (wide word)
    | none, none   => some (wide word)
where
  wide (word : String) : Datum :=
    match double? word.toList with
    | some d => .number (.double d)
    | none   => if nonFinite word then .nonFinite else .text word

end Word

namespace Datum

mutual

-- The datum with a type of its own for each bare word, if all of it can be read.
def settle : Datum → Option Datum
  | plain word     => Word.settle word
  | list items     => (settleItems items).map list
  | record entries => (settleEntries entries).map record
  | unreadable     => none
  | null           => some null
  | bool b         => some (bool b)
  | number n       => some (number n)
  | nonFinite      => some nonFinite
  | text s         => some (text s)

def settleItems : List Datum → Option (List Datum)
  | []      => some []
  | d :: ds => do some ((← d.settle) :: (← settleItems ds))

def settleEntries : List (Datum × Datum) → Option (List (Datum × Datum))
  | []           => some []
  | (k, d) :: es => do some ((← k.settle, ← d.settle) :: (← settleEntries es))

end

end Datum
end QueryHooks
