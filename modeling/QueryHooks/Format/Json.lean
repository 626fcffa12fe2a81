import QueryHooks.Document.Datum
import QueryHooks.Number.Width
import QueryHooks.Text.Digit

namespace QueryHooks.Format.Json

inductive Token where
  | openList
  | closeList
  | openRecord
  | closeRecord
  | comma
  | colon
  | null
  | bool (value : Bool)
  | number (value : Option Numeral)
  | text (value : Option String)

-- A part of a string: a character, or the number of a code unit.
inductive Piece where
  | char (c : Char)
  | unit (code : Nat)

def escaped? : Char → Option Char
  | '"'  => some '"'
  | '\\' => some '\\'
  | '/'  => some '/'
  | 'b'  => some '\x08'
  | 'f'  => some '\x0c'
  | 'n'  => some '\n'
  | 'r'  => some '\r'
  | 't'  => some '\t'
  | _    => none

-- The parts up to the closing quote, and what follows it.
def pieces : List Char → Option (List Piece × List Char)
  | []                                       => none
  | '"' :: rest                              => some ([], rest)
  | '\\' :: 'u' :: a :: b :: c :: d :: rest  => do
    let code ← Text.number? 16 [a, b, c, d]
    let (ps, rest) ← pieces rest
    some (.unit code :: ps, rest)
  | '\\' :: c :: rest                        => do
    let c ← escaped? c
    let (ps, rest) ← pieces rest
    some (.char c :: ps, rest)
  | c :: rest                                =>
    if c.toNat < 0x20 then none
    else do
      let (ps, rest) ← pieces rest
      some (.char c :: ps, rest)

def isHighSurrogate (code : Nat) : Bool :=
  0xD800 ≤ code && code < 0xDC00

def isLowSurrogate (code : Nat) : Bool :=
  0xDC00 ≤ code && code < 0xE000

-- The characters of a string, if its surrogates come in pairs.
def characters? : List Piece → Option (List Char)
  | []                             => some []
  | .char c :: ps                  => (characters? ps).map (c :: ·)
  | .unit high :: .unit low :: ps  =>
    if isHighSurrogate high && isLowSurrogate low then
      (characters? ps).map (Char.ofNat (0x10000 + (high - 0xD800) * 0x400 + (low - 0xDC00)) :: ·)
    else if isHighSurrogate high || isLowSurrogate high then none
    else (characters? (.unit low :: ps)).map (Char.ofNat high :: ·)
  | .unit code :: ps               =>
    if isHighSurrogate code || isLowSurrogate code then none
    else (characters? ps).map (Char.ofNat code :: ·)

def maxSignificand : Nat := Number.limit 64 - 1

def digitValue (c : Char) : Nat :=
  c.toNat - 48

-- Digits count until the first one that would exceed 64 bits. The others are left.
def significandOf (start : Nat) : List Char → Nat × List Char
  | []      => (start, [])
  | d :: ds =>
    let next := 10 * start + digitValue d
    if next ≤ maxSignificand then significandOf next ds else (start, d :: ds)

-- A number as written: the digits before and after the point, and the power of ten.
structure NumberText where
  negative : Bool
  whole    : List Char
  fraction : Option (List Char)
  power    : Option Int

namespace NumberText

def double? (t : NumberText) : Option Numeral := do
  let (significand, dropped) := significandOf 0 t.whole
  let fraction := t.fraction.getD []
  let (significand, ignored) := significandOf significand fraction
  let exponent : Int := dropped.length - (fraction.length - ignored.length : Nat) + t.power.getD 0
  let d ← Number.Binary64.scaled? significand exponent
  some (.double (if t.negative then d.neg else d))

-- Whole numbers of 64 bits are kept exactly. All others, and minus zero, are rounded.
def numeral? (t : NumberText) : Option Numeral :=
  if t.fraction.isNone && t.power.isNone then
    let (n, dropped) := significandOf 0 t.whole
    if !dropped.isEmpty then t.double?
    else if !t.negative then some (.integer n)
    else if n = 0 || n > Number.limit 63 then t.double?
    else some (.integer (-n))
  else
    t.double?

end NumberText

def wholePart : List Char → Option (List Char × List Char)
  | '0' :: rest => some (['0'], rest)
  | c :: rest   => if c.isDigit then some ((c :: rest).span Char.isDigit) else none
  | []          => none

def digits1 (cs : List Char) : Option (List Char × List Char) :=
  match cs.span Char.isDigit with
  | ([], _) => none
  | parts   => some parts

def fractionPart : List Char → Option (Option (List Char) × List Char)
  | '.' :: rest => (digits1 rest).map fun (ds, rest) => (some ds, rest)
  | rest        => some (none, rest)

def decimalNumber (digits : List Char) : Nat :=
  digits.foldl (fun n c => 10 * n + digitValue c) 0

def powerPart : List Char → Option (Option Int × List Char)
  | c :: rest =>
    if c == 'e' || c == 'E' then
      let (sign, rest) : Int × List Char :=
        match rest with
        | '+' :: rest => (1, rest)
        | '-' :: rest => (-1, rest)
        | rest        => (1, rest)
      (digits1 rest).map fun (ds, rest) => (some (sign * decimalNumber ds), rest)
    else some (none, c :: rest)
  | []        => some (none, [])

def numberText (cs : List Char) : Option (NumberText × List Char) := do
  let (negative, cs) :=
    match cs with
    | '-' :: cs => (true, cs)
    | cs        => (false, cs)
  let (whole, cs) ← wholePart cs
  let (fraction, cs) ← fractionPart cs
  let (power, cs) ← powerPart cs
  some ({ negative, whole, fraction, power }, cs)

def isSpace (c : Char) : Bool :=
  c == ' ' || c == '\t' || c == '\n' || c == '\r'

def nextToken : List Char → Option (Token × List Char)
  | '[' :: rest                      => some (.openList, rest)
  | ']' :: rest                      => some (.closeList, rest)
  | '{' :: rest                      => some (.openRecord, rest)
  | '}' :: rest                      => some (.closeRecord, rest)
  | ',' :: rest                      => some (.comma, rest)
  | ':' :: rest                      => some (.colon, rest)
  | 'n' :: 'u' :: 'l' :: 'l' :: rest => some (.null, rest)
  | 't' :: 'r' :: 'u' :: 'e' :: rest => some (.bool true, rest)
  | 'f' :: 'a' :: 'l' :: 's' :: 'e' :: rest => some (.bool false, rest)
  | '"' :: rest                      =>
    (pieces rest).map fun (ps, rest) => (.text ((characters? ps).map String.ofList), rest)
  | cs                               =>
    (numberText cs).map fun (t, rest) => (.number t.numeral?, rest)

-- Each token takes a character at least, so a text has no more of them than characters.
def tokens? (text : List Char) : Option (List Token) :=
  go text.length text
where
  go : Nat → List Char → Option (List Token)
    | fuel, cs =>
      match fuel, cs.dropWhile isSpace with
      | _, []              => some []
      | 0, _               => none
      | fuel + 1, c :: cs  => do
        let (t, rest) ← nextToken (c :: cs)
        (go fuel rest).map (t :: ·)

def maxDepth : Nat := 127

def limit (depth : Nat) (d : Datum) : Datum :=
  if depth < maxDepth then d else .unreadable

-- A record is only readable if all its keys are.
def record (entries : List (Option String × Datum)) : Datum :=
  match entries.mapM fun (key, d) => key.map fun k => (Datum.text k, d) with
  | some entries => .record entries
  | none         => .unreadable

mutual

-- The fuel is the number of tokens: each step below takes one.
def datum (depth : Nat) : Nat → List Token → Option (Datum × List Token)
  | 0, _         => none
  | fuel + 1, ts =>
    match ts with
    | .null :: ts              => some (.null, ts)
    | .bool b :: ts            => some (.bool b, ts)
    | .number (some n) :: ts   => some (.number n, ts)
    | .text (some s) :: ts     => some (.text s, ts)
    | .number none :: ts       => some (.unreadable, ts)
    | .text none :: ts         => some (.unreadable, ts)
    | .openList :: .closeList :: ts     => some (limit depth (.list []), ts)
    | .openList :: ts                   => do
      let (items, ts) ← items (depth + 1) fuel ts
      some (limit depth (.list items), ts)
    | .openRecord :: .closeRecord :: ts => some (limit depth (.record []), ts)
    | .openRecord :: ts                 => do
      let (entries, ts) ← entries (depth + 1) fuel ts
      some (limit depth (record entries), ts)
    | _                                 => none

def items (depth : Nat) : Nat → List Token → Option (List Datum × List Token)
  | 0, _         => none
  | fuel + 1, ts => do
    let (d, ts) ← datum depth fuel ts
    match ts with
    | .closeList :: ts => some ([d], ts)
    | .comma :: ts     => do
      let (ds, ts) ← items depth fuel ts
      some (d :: ds, ts)
    | _                => none

def entries (depth : Nat) : Nat → List Token → Option (List (Option String × Datum) × List Token)
  | 0, _         => none
  | fuel + 1, ts =>
    match ts with
    | .text key :: .colon :: ts => do
      let (d, ts) ← datum depth fuel ts
      match ts with
      | .closeRecord :: ts => some ([(key, d)], ts)
      | .comma :: ts       => do
        let (es, ts) ← entries depth fuel ts
        some ((key, d) :: es, ts)
      | _                  => none
    | _                         => none

end

-- The datum that the text holds, and nothing after it.
def read (text : String) : Option Datum := do
  let ts ← tokens? text.toList
  match ← datum 0 (2 * ts.length) ts with
  | (d, []) => some d
  | _       => none

end QueryHooks.Format.Json
