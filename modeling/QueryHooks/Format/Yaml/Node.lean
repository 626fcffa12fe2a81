import QueryHooks.Document.Datum
import QueryHooks.Format.Yaml.Token

namespace QueryHooks.Format.Yaml

def empty : Datum := .plain ""

def maxDepth : Nat := 128

def limit (depth : Nat) (d : Datum) : Datum :=
  if depth < maxDepth then d else .unreadable

-- Is a node left out, in front of one of these tokens?
def isOmitted (stops : List Token) (ts : List Token) : Bool :=
  ts.head?.any stops.contains

-- The tokens behind the comma that all but the first item are preceded by. It may also precede the closing bracket.
def separated (first : Bool) (close : Token) (ts : List Token) : Option (List Token) :=
  match ts with
  | []      => none
  | t :: us => if first || t = close then some (t :: us) else if t = .comma then some us else none

mutual

-- The fuel is a multiple of the number of tokens: between two tokens there are only a few calls.
def node (block : Bool) (inRecord : Bool) (depth : Nat) : Nat → List Token → Option (Datum × List Token)
  | 0, _         => none
  | fuel + 1, ts =>
    match ts with
    | .plain word :: ts  => some (.plain word, ts)
    | .text value :: ts  => some (.text value, ts)
    | .openList :: ts    => do
      let (items, ts) ← flowItems true (depth + 1) fuel ts
      some (limit depth (.list items), ts)
    | .openRecord :: ts  => do
      let (entries, ts) ← flowEntries true (depth + 1) fuel ts
      some (limit depth (.record entries), ts)
    | .blockList :: ts   =>
      if block then do
        let (items, ts) ← blockItems (depth + 1) fuel ts
        some (limit depth (.list items), ts)
      else none
    | .blockRecord :: ts =>
      if block then do
        let (entries, ts) ← blockEntries (depth + 1) fuel ts
        some (limit depth (.record entries), ts)
      else none
    | .entry :: ts       =>
      if inRecord then do
        let (items, ts) ← flushItems (depth + 1) fuel (.entry :: ts)
        some (limit depth (.list items), ts)
      else none
    | _                  => none
  termination_by structural fuel => fuel

def blockItems (depth : Nat) : Nat → List Token → Option (List Datum × List Token)
  | 0, _         => none
  | fuel + 1, ts =>
    match ts with
    | .entry :: ts    => do
      let (d, ts) ← if isOmitted [.entry, .blockEnd] ts then some (empty, ts) else node true false depth fuel ts
      let (ds, ts) ← blockItems depth fuel ts
      some (d :: ds, ts)
    | .blockEnd :: ts => some ([], ts)
    | _               => none
  termination_by structural fuel => fuel

-- The items of a list that is indented no further than the key it belongs to.
def flushItems (depth : Nat) : Nat → List Token → Option (List Datum × List Token)
  | 0, _         => none
  | fuel + 1, ts =>
    match ts with
    | .entry :: ts => do
      let (d, ts) ←
        if isOmitted [.entry, .key, .value, .blockEnd] ts then some (empty, ts) else node true false depth fuel ts
      let (ds, ts) ← flushItems depth fuel ts
      some (d :: ds, ts)
    | ts           => some ([], ts)
  termination_by structural fuel => fuel

def blockEntries (depth : Nat) : Nat → List Token → Option (List (Datum × Datum) × List Token)
  | 0, _         => none
  | fuel + 1, ts =>
    match ts with
    | .key :: ts      => do
      let (k, ts) ← blockOperand depth fuel ts
      let (d, ts) ←
        match ts with
        | .value :: ts => blockOperand depth fuel ts
        | ts           => some (empty, ts)
      let (es, ts) ← blockEntries depth fuel ts
      some ((k, d) :: es, ts)
    | .blockEnd :: ts => some ([], ts)
    | _               => none
  termination_by structural fuel => fuel

def blockOperand (depth : Nat) : Nat → List Token → Option (Datum × List Token)
  | 0, _         => none
  | fuel + 1, ts =>
    if isOmitted [.key, .value, .blockEnd] ts then some (empty, ts) else node true true depth fuel ts
  termination_by structural fuel => fuel

def flowItems (first : Bool) (depth : Nat) : Nat → List Token → Option (List Datum × List Token)
  | 0, _         => none
  | fuel + 1, ts =>
    match separated first .closeList ts with
    | some (.closeList :: ts) => some ([], ts)
    | some (.key :: ts)       => do
      let (k, ts) ←
        if isOmitted [.value, .comma, .closeList] ts then some (empty, ts.drop 1) else node false false (depth + 1) fuel ts
      let (d, ts) ← flowValue .closeList (depth + 1) fuel ts
      let (ds, ts) ← flowItems false depth fuel ts
      some (limit depth (.record [(k, d)]) :: ds, ts)
    | some ts                 => do
      let (d, ts) ← node false false depth fuel ts
      let (ds, ts) ← flowItems false depth fuel ts
      some (d :: ds, ts)
    | none                    => none
  termination_by structural fuel => fuel

def flowEntries (first : Bool) (depth : Nat) : Nat → List Token → Option (List (Datum × Datum) × List Token)
  | 0, _         => none
  | fuel + 1, ts =>
    match separated first .closeRecord ts with
    | some (.closeRecord :: ts) => some ([], ts)
    | some (.key :: ts)         => do
      let (k, ts) ←
        if isOmitted [.value, .comma, .closeRecord] ts then some (empty, ts) else node false false depth fuel ts
      let (d, ts) ← flowValue .closeRecord depth fuel ts
      let (es, ts) ← flowEntries false depth fuel ts
      some ((k, d) :: es, ts)
    | some ts                   => do
      let (k, ts) ← node false false depth fuel ts
      let (es, ts) ← flowEntries false depth fuel ts
      some ((k, empty) :: es, ts)
    | none                      => none
  termination_by structural fuel => fuel

def flowValue (close : Token) (depth : Nat) : Nat → List Token → Option (Datum × List Token)
  | 0, _         => none
  | fuel + 1, ts =>
    match ts with
    | .value :: ts => if isOmitted [.comma, close] ts then some (empty, ts) else node false false depth fuel ts
    | ts           => some (empty, ts)
  termination_by structural fuel => fuel

end

-- The node of the only document, and nothing after it.
def document (ts : List Token) : Option Datum := do
  let fuel := 4 * ts.length + 4
  let (d, ts) ←
    match ts with
    | []                   => some (empty, [])
    | .documentStart :: ts =>
      if ts.isEmpty || isOmitted [.documentStart, .documentEnd] ts then some (empty, ts) else node true false 0 fuel ts
    | ts                   => node true false 0 fuel ts
  if (ts.dropWhile (· = .documentEnd)).isEmpty then some d else none

end QueryHooks.Format.Yaml
