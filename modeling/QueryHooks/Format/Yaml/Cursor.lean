namespace QueryHooks.Format.Yaml

-- The characters that a document may be made of.
def isAllowed (c : Char) : Bool :=
  let code := c.toNat
  c == '\t' || c == '\n' || c == '\r' || (0x20 ≤ code && code ≤ 0x7E) || code == 0x85 ||
  (0xA0 ≤ code && code ≤ 0xFFFD) || 0x10000 ≤ code

-- The text with one and the same line feed for all ends of lines but the two separators of Unicode.
def normalize : List Char → List Char
  | []                 => []
  | '\r' :: '\n' :: cs => '\n' :: normalize cs
  | '\r' :: cs         => '\n' :: normalize cs
  | '\u0085' :: cs     => '\n' :: normalize cs
  | c :: cs            => c :: normalize cs

def isBreak (c : Char) : Bool :=
  c == '\n' || c == '\u2028' || c == '\u2029'

def isBlank (c : Char) : Bool :=
  c == ' ' || c == '\t'

def isGap (c : Char) : Bool :=
  isBlank c || isBreak c

-- Does the text stop here, or go on with white space?
def atGap (cs : List Char) : Bool :=
  cs.head?.all isGap

-- Three times the character, and then white space.
def isMarker (c : Char) : List Char → Bool
  | c₁ :: c₂ :: c₃ :: cs => c₁ == c && c₂ == c && c₃ == c && atGap cs
  | _                    => false

structure Cursor where
  rest   : List Char
  index  : Nat := 0
  line   : Nat := 0
  column : Nat := 0

namespace Cursor

def skip (c : Cursor) (n : Nat) : Cursor :=
  { c with rest := c.rest.drop n, index := c.index + n, column := c.column + n }

def nextLine (c : Cursor) : Cursor where
  rest   := c.rest.drop 1
  index  := c.index + 1
  line   := c.line + 1
  column := 0

def skipWhile (c : Cursor) (p : Char → Bool) : Cursor :=
  c.skip (c.rest.takeWhile p).length

def startsWith (c : Cursor) (p : Char → Bool) : Bool :=
  c.rest.head?.any p

-- The markers between documents stand at the beginning of a line, also within scalars.
def atMarker (c : Cursor) : Bool :=
  c.column = 0 && (isMarker '-' c.rest || isMarker '.' c.rest)

end Cursor
end QueryHooks.Format.Yaml
