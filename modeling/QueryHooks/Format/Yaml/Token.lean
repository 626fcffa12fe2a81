import QueryHooks.Format.Yaml.Scalar

namespace QueryHooks.Format.Yaml

inductive Token where
  | documentStart
  | documentEnd
  -- Collections by indentation.
  | blockList
  | blockRecord
  | blockEnd
  | entry
  -- Collections in brackets.
  | openList
  | closeList
  | openRecord
  | closeRecord
  | comma
  | key
  | value
  | plain (word : String)
  | text (value : String)
  deriving DecidableEq

-- A place where a key may have begun: how many tokens come before it, and where it stands. A key is required at the
-- column of the record that it would be the next key of.
structure Candidate where
  before   : Nat
  index    : Nat
  line     : Nat
  column   : Nat
  required : Bool

-- What has been read: the tokens with the latest first, and the columns of the open block collections and the
-- candidates of the open bracketed ones with the innermost first. The last candidate is that of the block context.
structure Scan where
  cursor     : Cursor
  columns    : List Nat := []
  candidates : List (Option Candidate) := [none]
  keyAllowed : Bool := true
  tokens     : List Token := []
  count      : Nat := 0

namespace Scan

def isFlow (s : Scan) : Bool :=
  s.candidates.length > 1

def add (s : Scan) (t : Token) : Scan :=
  { s with tokens := t :: s.tokens, count := s.count + 1 }

def insert (s : Scan) (before : Nat) (t : Token) : Scan :=
  let (after, tokens) := s.tokens.splitAt (s.count - before)
  { s with tokens := after ++ t :: tokens, count := s.count + 1 }

def skip (s : Scan) (n : Nat) : Scan :=
  { s with cursor := s.cursor.skip n }

def allowKey (s : Scan) (allowed : Bool) : Scan :=
  { s with keyAllowed := allowed }

-- Opens a block collection at a column, if that is further in than the collections that are open.
def roll (s : Scan) (column before : Nat) (t : Token) : Scan :=
  if !s.isFlow && s.columns.head?.all (· < column) then
    { s.insert before t with columns := column :: s.columns }
  else s

-- Closes the block collections further in than the column, or all of them.
def unroll (column : Option Nat) (s : Scan) : Scan :=
  if s.isFlow then s
  else
    let closed := s.columns.takeWhile fun c => column.all (· < c)
    { closed.foldl (fun s _ => s.add .blockEnd) s with columns := s.columns.drop closed.length }

def dropCandidate (s : Scan) : Option Scan :=
  match s.candidates with
  | some c :: cs => if c.required then none else some { s with candidates := none :: cs }
  | _            => some s

def saveCandidate (s : Scan) : Option Scan :=
  if s.keyAllowed then do
    let s ← s.dropCandidate
    let c := s.cursor
    let candidate : Candidate := {
      before   := s.count
      index    := c.index
      line     := c.line
      column   := c.column
      required := !s.isFlow && s.columns.head? == some c.column }
    some { s with candidates := some candidate :: s.candidates.drop 1 }
  else some s

def maxKeyLength : Nat := 1024

-- A key stands on one line, and is not too long.
def isStale (s : Scan) (c : Candidate) : Bool :=
  c.line < s.cursor.line || c.index + maxKeyLength < s.cursor.index

def dropStale (s : Scan) : Option Scan := do
  let candidates ← s.candidates.mapM fun
    | none   => some none
    | some c => if !s.isStale c then some (some c) else if c.required then none else some none
  some { s with candidates }

-- In block context no tab may stand where a key may begin, and a key may begin on each new line.
def skipGap : Nat → Scan → Scan
  | 0, s        => s
  | fuel + 1, s =>
    let c := if s.cursor.index = 0 && s.cursor.startsWith (· == '\uFEFF') then s.cursor.skip 1 else s.cursor
    let c := c.skipWhile fun ch => ch == ' ' || ch == '\t' && (s.isFlow || !s.keyAllowed)
    let c := if c.startsWith (· == '#') then c.skipWhile (!isBreak ·) else c
    if c.startsWith isBreak then
      skipGap fuel { s with cursor := c.nextLine, keyAllowed := s.keyAllowed || !s.isFlow }
    else { s with cursor := c }

def documentMarker (s : Scan) (t : Token) : Option Scan := do
  let s ← (s.unroll none).dropCandidate
  some (((s.allowKey false).skip 3).add t)

def openFlow (s : Scan) (t : Token) : Option Scan := do
  let s ← s.saveCandidate
  some ((({ s with candidates := none :: s.candidates }.allowKey true).skip 1).add t)

def closeFlow (s : Scan) (t : Token) : Option Scan := do
  let s ← s.dropCandidate
  let candidates := if s.isFlow then s.candidates.drop 1 else s.candidates
  some ((({ s with candidates }.allowKey false).skip 1).add t)

def comma (s : Scan) : Option Scan := do
  let s ← s.dropCandidate
  some (((s.allowKey true).skip 1).add .comma)

def entry (s : Scan) : Option Scan := do
  if !s.isFlow && !s.keyAllowed then none
  let s ← (s.roll s.cursor.column s.count .blockList).dropCandidate
  some (((s.allowKey true).skip 1).add .entry)

def key (s : Scan) : Option Scan := do
  if !s.isFlow && !s.keyAllowed then none
  let s ← (s.roll s.cursor.column s.count .blockRecord).dropCandidate
  some (((s.allowKey !s.isFlow).skip 1).add .key)

def value (s : Scan) : Option Scan :=
  match s.candidates with
  | some c :: cs =>
    let s := ({ s with candidates := none :: cs }.insert c.before .key).roll c.column c.before .blockRecord
    some (((s.allowKey false).skip 1).add .value)
  | _            => do
    if !s.isFlow && !s.keyAllowed then none
    let s := s.roll s.cursor.column s.count .blockRecord
    some (((s.allowKey !s.isFlow).skip 1).add .value)

def blockScalar (s : Scan) (literal : Bool) : Option Scan := do
  let s ← s.dropCandidate
  let (text, cursor) ← block literal s.columns.head? (s.cursor.skip 1)
  some ({ s with cursor, keyAllowed := true }.add (.text (.ofList text)))

def quotedScalar (s : Scan) (double : Bool) : Option Scan := do
  let s ← s.saveCandidate
  let (text, cursor) ← quoted double (s.cursor.skip 1)
  some ({ s with cursor, keyAllowed := false }.add (.text (.ofList text)))

def plainScalar (s : Scan) : Option Scan := do
  let s ← s.saveCandidate
  let (word, ended, cursor) ← words s.isFlow (s.columns.head?.elim 0 (· + 1)) s.cursor
  some ({ s with cursor, keyAllowed := ended }.add (.plain (.ofList word)))

def indicatorChars : List Char := [
  '-', '?', ':', ',', '[', ']', '{', '}', '#', '&', '*', '!', '|', '>', '\'', '"', '%', '@', '\x60']

def startsPlain (flow : Bool) (c : Char) (cs : List Char) : Bool :=
  !isGap c && !indicatorChars.contains c ||
  c == '-' && !cs.head?.any isBlank ||
  !flow && (c == '?' || c == ':') && !atGap cs

-- One more token, that begins with the character at the cursor.
def next (s : Scan) (c : Char) (cs : List Char) : Option Scan :=
  if s.cursor.column = 0 && c == '%' then none
  else if s.cursor.column = 0 && isMarker '-' (c :: cs) then s.documentMarker .documentStart
  else if s.cursor.column = 0 && isMarker '.' (c :: cs) then s.documentMarker .documentEnd
  else if c == '[' then s.openFlow .openList
  else if c == '{' then s.openFlow .openRecord
  else if c == ']' then s.closeFlow .closeList
  else if c == '}' then s.closeFlow .closeRecord
  else if c == ',' then s.comma
  else if c == '-' && atGap cs then s.entry
  else if c == '?' && (s.isFlow || atGap cs) then s.key
  else if c == ':' && (s.isFlow || atGap cs) then s.value
  else if c == '|' && !s.isFlow then s.blockScalar true
  else if c == '>' && !s.isFlow then s.blockScalar false
  else if c == '\'' then s.quotedScalar false
  else if c == '"' then s.quotedScalar true
  else if startsPlain s.isFlow c cs then s.plainScalar
  else none

-- The tokens that are left. Each of them takes a character at least, which the fuel counts.
def run : Nat → Scan → Option (List Token)
  | 0, _        => none
  | fuel + 1, s => do
    let s ← (skipGap (s.cursor.rest.length + 1) s).dropStale
    let s := s.unroll (some s.cursor.column)
    match s.cursor.rest with
    | []      => do
      let s ← (s.unroll none).dropCandidate
      some s.tokens.reverse
    | c :: cs => do run fuel (← s.next c cs)

end Scan

-- Anchors, aliases, tags and directives are not read.
def tokens? (text : List Char) : Option (List Token) :=
  if text.all isAllowed then
    let text := normalize text
    Scan.run (text.length + 1) { cursor := { rest := text } }
  else none

end QueryHooks.Format.Yaml
