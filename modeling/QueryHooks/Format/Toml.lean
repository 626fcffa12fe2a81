import QueryHooks.Format.Toml.Value

namespace QueryHooks.Format.Toml

-- The tables so far, and the path of the one that keys are defined in.
structure State where
  root : Table := .empty .header
  path : List String := []

namespace State

def define (s : State) (path : List String) (d : Datum) : Option State := do
  let root ← s.root.update false (Table.define path.dropLast (path.getLastD "") d) s.path
  some { s with root }

def openTable (s : State) (path : List String) : Option State := do
  let root ← s.root.openTable path.dropLast (path.getLastD "")
  some { root, path }

def openArray (s : State) (path : List String) : Option State := do
  let root ← s.root.openArray path.dropLast (path.getLastD "")
  some { root, path }

end State

def header (s : State) : Reader State
  | '[' :: cs => do
    match ← key cs with
    | (path, ']' :: ']' :: rest) => some (← s.openArray path, ← restOfLine? rest)
    | _                          => none
  | cs        => do
    match ← key cs with
    | (path, ']' :: rest) => some (← s.openTable path, ← restOfLine? rest)
    | _                   => none

def definition (s : State) (cs : List Char) : Option (State × List Char) := do
  match ← key cs with
  | (path, '=' :: rest) =>
    let rest := skipBlanks rest
    let (d, rest) ← value 0 (2 * rest.length + 2) rest
    some (← s.define path d, ← restOfLine? rest)
  | _                   => none

-- Each statement takes a character at least, which the fuel counts.
def statements : Nat → State → List Char → Option Table
  | 0, _, _         => none
  | fuel + 1, s, cs =>
    match skipBlanks cs with
    | []        => some s.root
    | '#' :: cs => (restOfLine? ('#' :: cs)).bind (statements fuel s)
    | '[' :: cs => (header s cs).bind fun (s, rest) => statements fuel s rest
    | cs        =>
      match lineEnd? cs with
      | some rest => statements fuel s rest
      | none      => (definition s cs).bind fun (s, rest) => statements fuel s rest

def skipMark : List Char → List Char
  | '\uFEFF' :: cs => cs
  | cs             => cs

-- Dates and times are not read.
def read (text : String) : Option Datum :=
  let cs := skipMark text.toList
  (statements (cs.length + 1) {} cs).map (·.toDatum)

end QueryHooks.Format.Toml
