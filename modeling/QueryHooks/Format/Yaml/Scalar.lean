import QueryHooks.Format.Yaml.Cursor
import QueryHooks.Text.Digit

namespace QueryHooks.Format.Yaml

-- White space within a scalar: the blanks on the first line, and the ends of lines.
structure Gap where
  blanks : List Char := []
  breaks : List Char := []

namespace Gap

-- One end of a line becomes a blank, and of several the first one is dropped.
def fold : List Char → List Char
  | ['\n']         => [' ']
  | '\n' :: breaks => breaks
  | breaks         => breaks

def text (g : Gap) : List Char :=
  if g.breaks.isEmpty then g.blanks else fold g.breaks

def hasBreak (g : Gap) : Bool :=
  !g.breaks.isEmpty

end Gap

-- No tab may stand before the column that a line has to reach.
def gapFrom (column : Nat) : Nat → Gap → Cursor → Option (Gap × Cursor)
  | 0, _, _        => none
  | fuel + 1, g, c =>
    match c.rest with
    | []     => some (g, c)
    | ch :: _ =>
      if isBreak ch then gapFrom column fuel { g with breaks := g.breaks ++ [ch] } c.nextLine
      else if !isBlank ch then some (g, c)
      else if !g.hasBreak then gapFrom column fuel { g with blanks := g.blanks ++ [ch] } (c.skip 1)
      else if ch == '\t' && c.column < column then none
      else gapFrom column fuel g (c.skip 1)

def gap (column : Nat) (c : Cursor) : Option (Gap × Cursor) :=
  gapFrom column (c.rest.length + 1) {} c

def isFlowIndicator (c : Char) : Bool :=
  [',', '[', ']', '{', '}'].contains c

-- The part of a bare word up to white space or an indicator that ends it.
def word (flow : Bool) : List Char → Option (List Char)
  | []      => some []
  | c :: cs =>
    if isGap c then some []
    else if flow && c == ':' && cs.head?.any (fun d => isFlowIndicator d || d == '?') then none
    else if c == ':' && atGap cs || flow && isFlowIndicator c then some []
    else (word flow cs).map (c :: ·)

-- What is left of a bare word after a gap, whether the gap that it ends with has the end of a line in it, and what
-- follows.
def wordsFrom (flow : Bool) (column : Nat) : Nat → Gap → Cursor → Option (List Char × Bool × Cursor)
  | 0, _, _        => none
  | fuel + 1, g, c =>
    if c.atMarker || c.startsWith (· == '#') then some ([], g.hasBreak, c)
    else do
      let w ← word flow c.rest
      let c := c.skip w.length
      if w.isEmpty then some ([], g.hasBreak, c)
      else if !c.startsWith isGap then some (g.text ++ w, false, c)
      else
        let (g', c) ← gap column c
        if !flow && c.column < column then some (g.text ++ w, g'.hasBreak, c)
        else
          let (ws, ended, c) ← wordsFrom flow column fuel g' c
          some (g.text ++ w ++ ws, ended, c)

def words (flow : Bool) (column : Nat) (c : Cursor) : Option (List Char × Bool × Cursor) :=
  wordsFrom flow column (c.rest.length + 1) {} c

def singleRun : List Char → List Char × Nat
  | []                 => ([], 0)
  | '\'' :: '\'' :: cs =>
    let (run, n) := singleRun cs
    ('\'' :: run, n + 2)
  | c :: cs            =>
    if c == '\'' || isGap c then ([], 0)
    else
      let (run, n) := singleRun cs
      (c :: run, n + 1)

def escapes : List (Char × Char) := [
  ('0', '\x00'), ('a', '\x07'), ('b', '\x08'), ('t', '\t'), ('\t', '\t'), ('n', '\n'), ('v', '\x0b'), ('f', '\x0c'),
  ('r', '\r'), ('e', '\x1b'), (' ', ' '), ('"', '"'), ('/', '/'), ('\\', '\\'), ('N', '\u0085'), ('_', '\u00a0'),
  ('L', '\u2028'), ('P', '\u2029')]

def consRun (n : Nat) (c : Option Char) (run : Option (List Char × Nat)) : Option (List Char × Nat) := do
  let c ← c
  let (cs, m) ← run
  some (c :: cs, n + m)

-- An escaped end of a line ends the run.
def doubleRun : List Char → Option (List Char × Nat)
  | []                                             => some ([], 0)
  | '\\' :: 'x' :: a :: b :: cs                    => consRun 4 (Text.charOfHex? [a, b]) (doubleRun cs)
  | '\\' :: 'u' :: a :: b :: c :: d :: cs          => consRun 6 (Text.charOfHex? [a, b, c, d]) (doubleRun cs)
  | '\\' :: 'U' :: a :: b :: c :: d :: e :: f :: g :: h :: cs =>
    consRun 10 (Text.charOfHex? [a, b, c, d, e, f, g, h]) (doubleRun cs)
  | '\\' :: c :: cs                                =>
    if isBreak c then some ([], 0) else consRun 2 (escapes.lookup c) (doubleRun cs)
  | c :: cs                                        =>
    if c == '"' || isGap c then some ([], 0) else consRun 1 (some c) (doubleRun cs)

def quotedFrom (double : Bool) : Nat → Cursor → Option (List Char × Cursor)
  | 0, _        => none
  | fuel + 1, c =>
    if c.atMarker then none
    else do
      let (run, n) ← if double then doubleRun c.rest else some (singleRun c.rest)
      let c := c.skip n
      match c.rest with
      | []      => none
      | ch :: _ =>
        if !isGap ch && ch != '\\' then some (run, c.skip 1)
        else
          let (g, after) ← if ch == '\\' then gap 0 (c.skip 1).nextLine else gap 0 c
          let (text, c) ← quotedFrom double fuel after
          some (run ++ (if ch == '\\' then g.breaks else g.text) ++ text, c)

-- The text in quotes, from behind the first quote.
def quoted (double : Bool) (c : Cursor) : Option (List Char × Cursor) :=
  quotedFrom double (c.rest.length + 1) c

-- What becomes of the ends of lines that a block ends with.
inductive Chomping where
  | strip
  | clip
  | keep
  deriving DecidableEq

def chomping? : Char → Option Chomping
  | '+' => some .keep
  | '-' => some .strip
  | _   => none

-- Zero is no indentation.
def indentation (cs : List Char) : Option (Option Nat × List Char) :=
  match cs with
  | '0' :: _ => none
  | c :: cs  => if c.isDigit then some (Text.digit? c, cs) else some (none, c :: cs)
  | []       => some (none, [])

-- The indicators behind the one that starts the block, which may stand in either order.
def indicators (cs : List Char) : Option (Chomping × Option Nat × List Char) :=
  match cs.head?.bind chomping? with
  | some chomping => do
    let (indent, rest) ← indentation (cs.drop 1)
    some (chomping, indent, rest)
  | none          => do
    let (indent, rest) ← indentation cs
    match indent, rest.head?.bind chomping? with
    | some _, some chomping => some (chomping, indent, rest.drop 1)
    | _, _                  => some (.clip, indent, rest)

-- Spaces up to the indentation, or all of them as long as it is not known.
def skipIndent (indent : Option Nat) (c : Cursor) : Cursor :=
  let spaces := (c.rest.takeWhile (· == ' ')).length
  c.skip (indent.elim spaces fun i => min spaces (i - c.column))

-- The ends of empty lines, and the largest column that one of them, or the line after them, gets to.
def emptyLines (indent : Option Nat) : Nat → Nat → Cursor → Option (List Char × Nat × Cursor)
  | 0, _, _             => none
  | fuel + 1, widest, c =>
    let c := skipIndent indent c
    let widest := max widest c.column
    if indent.all (c.column < ·) && c.startsWith (· == '\t') then none
    else
      match c.rest with
      | []      => some ([], widest, c)
      | ch :: _ =>
        if isBreak ch then do
          let (breaks, widest, c) ← emptyLines indent fuel widest c.nextLine
          some (ch :: breaks, widest, c)
        else some ([], widest, c)

-- A block from one of its lines on: its text but for the ends of lines at its end, these, and what follows.
def linesFrom (literal : Bool) (indent : Nat) : Nat → List Char → List Char → Bool → Cursor →
    Option (List Char × List Char × List Char × Cursor)
  | 0, _, _, _, _                         => none
  | fuel + 1, lineEnd, breaks, blank, c =>
    match c.rest with
    | []      => some ([], lineEnd, breaks, c)
    | ch :: _ =>
      if c.column ≠ indent then some ([], lineEnd, breaks, c)
      else do
        let folds := !literal && lineEnd == ['\n'] && !blank && !isBlank ch
        let joint := if !folds then lineEnd else if breaks.isEmpty then [' '] else []
        let line := c.rest.takeWhile (!isBreak ·)
        let c := c.skip line.length
        let (lineEnd', c) := if c.rest.isEmpty then ([], c) else (c.rest.take 1, c.nextLine)
        let (breaks', _, c) ← emptyLines (some indent) (c.rest.length + 1) 0 c
        let (text, lineEnd', breaks', c) ← linesFrom literal indent fuel lineEnd' breaks' (isBlank ch) c
        some (joint ++ breaks ++ line ++ text, lineEnd', breaks', c)

-- The text of a block, from behind the character that starts it. Its lines are indented by more than the collection
-- it is in, of which the column is given.
def block (literal : Bool) (column : Option Nat) (c : Cursor) : Option (List Char × Cursor) := do
  let (chomping, increment, rest) ← indicators c.rest
  let c := c.skip (c.rest.length - rest.length)
  let c := c.skipWhile isBlank
  let c := if c.startsWith (· == '#') then c.skipWhile (!isBreak ·) else c
  if !c.rest.head?.all isBreak then none
  let c := if c.rest.isEmpty then c else c.nextLine
  let given := increment.map (column.getD 0 + ·)
  let (breaks, widest, c) ← emptyLines given (c.rest.length + 1) 0 c
  let indent := given.getD (max widest (max (column.elim 0 (· + 1)) 1))
  let (text, lineEnd, breaks, c) ← linesFrom literal indent (c.rest.length + 1) [] breaks false c
  let ending := if chomping = .strip then [] else lineEnd
  some (text ++ ending ++ (if chomping = .keep then breaks else []), c)

end QueryHooks.Format.Yaml
