import QueryHooks.Text.Digit

namespace QueryHooks.Format.Toml

abbrev Reader (α : Type) := List Char → Option (α × List Char)

-- No control characters but the tab may be written as they are.
def isPrintable (c : Char) : Bool :=
  c == '\t' || 0x20 ≤ c.toNat && c.toNat ≠ 0x7F

def isBlank (c : Char) : Bool :=
  c == ' ' || c == '\t'

def skipBlanks (cs : List Char) : List Char :=
  cs.dropWhile isBlank

-- What follows the end of a line.
def lineEnd? : List Char → Option (List Char)
  | '\n' :: cs         => some cs
  | '\r' :: '\n' :: cs => some cs
  | _                  => none

def skipComment : List Char → List Char
  | '#' :: cs => cs.dropWhile isPrintable
  | cs        => cs

-- What follows the line, if there is nothing left on it but a comment.
def restOfLine? (cs : List Char) : Option (List Char) :=
  match skipComment (skipBlanks cs) with
  | [] => some []
  | cs => lineEnd? cs

-- What follows blanks, comments and ends of lines.
def skipLines : Nat → List Char → Option (List Char)
  | 0, _         => none
  | fuel + 1, cs =>
    match skipBlanks cs with
    | '#' :: cs  => (lineEnd? (skipComment ('#' :: cs))).bind (skipLines fuel)
    | '\n' :: cs => skipLines fuel cs
    | '\r' :: cs => (lineEnd? ('\r' :: cs)).bind (skipLines fuel)
    | cs         => some cs

def skipGap (cs : List Char) : Option (List Char) :=
  skipLines (cs.length + 1) cs

def cons (c : Char) : Option (List Char × List Char) → Option (List Char × List Char) :=
  Option.map fun (cs, rest) => (c :: cs, rest)

def consCode (digits : List Char) (r : Option (List Char × List Char)) : Option (List Char × List Char) :=
  (Text.charOfHex? digits).bind fun c => cons c r

def escapes : List (Char × Char) := [
  ('b', '\x08'), ('t', '\t'), ('n', '\n'), ('f', '\x0c'), ('r', '\r'), ('"', '"'), ('\\', '\\')]

-- A string on one line with escapes, from behind the first quote.
def basic : Reader (List Char)
  | []                                    => none
  | '"' :: rest                           => some ([], rest)
  | '\\' :: 'u' :: a :: b :: c :: d :: cs => consCode [a, b, c, d] (basic cs)
  | '\\' :: 'U' :: a :: b :: c :: d :: e :: f :: g :: h :: cs => consCode [a, b, c, d, e, f, g, h] (basic cs)
  | '\\' :: c :: cs                       => (escapes.lookup c).bind fun c => cons c (basic cs)
  | c :: cs                               => if isPrintable c then cons c (basic cs) else none

-- A string on one line without escapes.
def literal : Reader (List Char)
  | []           => none
  | '\'' :: rest => some ([], rest)
  | c :: cs      => if isPrintable c then cons c (literal cs) else none

def skipWhite : List Char → List Char
  | []                 => []
  | '\r' :: '\n' :: cs => skipWhite cs
  | c :: cs            => if isBlank c || c == '\n' then skipWhite cs else c :: cs

-- What follows a backslash at the end of a line, the white space on the next lines included.
def continuation? (cs : List Char) : Option (List Char) :=
  (lineEnd? (skipBlanks cs)).map skipWhite

-- The quotes that a string over several lines ends with, of which up to two belong to it.
def closing? (quote : Char) (cs : List Char) : Option (List Char × List Char) :=
  let quotes := (cs.takeWhile (· == quote)).length
  if quotes < 3 then none
  else
    let own := min (quotes - 3) 2
    some (List.replicate own quote, cs.drop (own + 3))

-- A string over several lines with escapes, from behind the first quotes.
def multiBasicFrom : Nat → Reader (List Char)
  | 0, _         => none
  | fuel + 1, cs =>
    match closing? '"' cs with
    | some ending => some ending
    | none        =>
      match cs with
      | []                                    => none
      | '\\' :: 'u' :: a :: b :: c :: d :: cs => consCode [a, b, c, d] (multiBasicFrom fuel cs)
      | '\\' :: 'U' :: a :: b :: c :: d :: e :: f :: g :: h :: cs =>
        consCode [a, b, c, d, e, f, g, h] (multiBasicFrom fuel cs)
      | '\\' :: cs                            =>
        match continuation? cs, cs with
        | some cs, _      => multiBasicFrom fuel cs
        | none, c :: cs   => (escapes.lookup c).bind fun c => cons c (multiBasicFrom fuel cs)
        | none, []        => none
      | '\r' :: '\n' :: cs                    => cons '\n' (multiBasicFrom fuel cs)
      | c :: cs                               =>
        if isPrintable c || c == '\n' then cons c (multiBasicFrom fuel cs) else none

def multiLiteralFrom : Nat → Reader (List Char)
  | 0, _         => none
  | fuel + 1, cs =>
    match closing? '\'' cs with
    | some ending => some ending
    | none        =>
      match cs with
      | []                 => none
      | '\r' :: '\n' :: cs => cons '\n' (multiLiteralFrom fuel cs)
      | c :: cs            =>
        if isPrintable c || c == '\n' then cons c (multiLiteralFrom fuel cs) else none

-- The end of a line right behind the first quotes does not belong to the string.
def multiLine (body : Nat → Reader (List Char)) (cs : List Char) : Option (List Char × List Char) :=
  body (cs.length + 1) ((lineEnd? cs).getD cs)

def string? : List Char → Option (Option (List Char × List Char))
  | '"' :: '"' :: '"' :: cs    => some (multiLine multiBasicFrom cs)
  | '"' :: cs                  => some (basic cs)
  | '\'' :: '\'' :: '\'' :: cs => some (multiLine multiLiteralFrom cs)
  | '\'' :: cs                 => some (literal cs)
  | _                          => none

def isBare (c : Char) : Bool :=
  c.isAlphanum || c == '_' || c == '-'

def simpleKey (cs : List Char) : Option (String × List Char) :=
  match cs with
  | '"' :: cs  => (basic cs).map fun (key, rest) => (.ofList key, rest)
  | '\'' :: cs => (literal cs).map fun (key, rest) => (.ofList key, rest)
  | cs         =>
    match cs.span isBare with
    | ([], _)     => none
    | (key, rest) => some (.ofList key, rest)

def maxDepth : Nat := 80

-- The parts of a key, with dots between them.
def keyFrom : Nat → Reader (List String)
  | 0, _         => none
  | fuel + 1, cs => do
    let (key, rest) ← simpleKey (skipBlanks cs)
    match skipBlanks rest with
    | '.' :: rest => (keyFrom fuel rest).map fun (keys, rest) => (key :: keys, rest)
    | rest        => some ([key], rest)

def key (cs : List Char) : Option (List String × List Char) :=
  (keyFrom (cs.length + 1) cs).filter fun (keys, _) => keys.length < maxDepth

end QueryHooks.Format.Toml
