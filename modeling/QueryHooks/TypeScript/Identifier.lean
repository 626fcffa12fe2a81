import QueryHooks.Text.Blank

namespace QueryHooks.TypeScript

-- The printed code only ever needs ASCII identifiers, and every other name is written in quotes. So the classes
-- below are ASCII on purpose.
def isIdentStart (c : Char) : Bool :=
  c.isAlpha || c == '_' || c == '$'

def isIdentChar (c : Char) : Bool :=
  c.isAlphanum || c == '_' || c == '$'

theorem isIdentChar_of_isIdentStart {c : Char} (h : isIdentStart c) : isIdentChar c := by
  simp_all [isIdentStart, isIdentChar, Char.isAlphanum]
  grind

def isIdentifierChars : List Char → Bool
  | []      => false
  | c :: cs => isIdentStart c && cs.all isIdentChar

def isIdentifier (name : String) : Bool :=
  isIdentifierChars name.toList

def reservedWords : List String := [
  "break", "case", "catch", "class", "const", "continue", "debugger", "default", "delete", "do", "else", "enum",
  "export", "extends", "false", "finally", "for", "function", "if", "import", "in", "instanceof", "new", "null",
  "return", "super", "switch", "this", "throw", "true", "try", "typeof", "var", "void", "while", "with", "yield",
  "let", "static", "implements", "interface", "package", "private", "protected", "public", "await", "async"]

-- The names a declaration or an import may introduce.
def isBinding (name : String) : Bool :=
  isIdentifier name && !reservedWords.contains name

-- An occurrence that goes on an identifier, or that names a member, refers to something else.
def mayPrecede : Option Char → Bool
  | none   => true
  | some c => !isIdentChar c && c != '.'

-- An occurrence before a colon is the key of an entry.
def mayFollow (rest : List Char) : Bool :=
  !rest.head?.any isIdentChar && (Text.trimStart rest).head? != some ':'

-- The occurrences are taken from left to right and do not overlap: past one, as many characters are skipped as are
-- left of it.
def findReference (ident : List Char) : Nat → Option Char → List Char → Bool
  | _, _, []                  => false
  | skip + 1, _, c :: cs      => findReference ident skip (some c) cs
  | 0, before, c :: cs        =>
    if ident.isPrefixOf (c :: cs) then
      mayPrecede before && mayFollow ((c :: cs).drop ident.length) ||
        findReference ident (ident.length - 1) (some c) cs
    else
      findReference ident 0 (some c) cs

-- Does the code use the identifier as a binding of its own, and not as a member, as a key or within a longer one?
def references (code ident : String) : Bool :=
  !ident.isEmpty && findReference ident.toList 0 none code.toList

end QueryHooks.TypeScript
