import QueryHooks.Text.Join
import QueryHooks.Text.Split

namespace QueryHooks

namespace Path

def names (path : String) : List String :=
  (Text.split '/' path.toList).map .ofList

-- A name that leads nowhere else.
def isIdle (name : String) : Bool :=
  name == "" || name == "."

def trim (names : List String) : List String :=
  (names.reverse.dropWhile isIdle).reverse

-- The directory that a path lies in, empty if the path does not name one.
def parent (path : String) : String :=
  match names path with
  | []            => ""
  | first :: rest =>
    match trim rest with
    | []           => ""
    | name :: rest => Text.join "/" (first :: trim (name :: rest).dropLast)

end Path

-- A place by the names on the way to it, the last of them first.
abbrev Place := List String

def Place.move (p : Place) (name : String) : Place :=
  if Path.isIdle name then p
  else if name == ".." then p.tail
  else name :: p

structure FileTree where
  -- The working directory, which exists just like those above it.
  here        : Place := []
  directories : List Place := []
  -- The files with their texts. What else a file may contain is no text.
  files       : List (Place × Option String) := []

namespace FileTree

def isDirectory (t : FileTree) (p : Place) : Bool :=
  p.isSuffixOf t.here || t.directories.contains p

def text? (t : FileTree) (p : Place) : Option String :=
  if t.isDirectory p then none else (t.files.lookup p).join

def start (t : FileTree) (path : String) : Place :=
  if path.toList.head? = some '/' then [] else t.here

-- Only directories can be walked through. What the last name stands for need not exist.
def locate? (t : FileTree) (path : String) : Option Place :=
  (Path.names path).foldlM (fun p name => if t.isDirectory p then some (p.move name) else none) (t.start path)

def read? (t : FileTree) (path : String) : Option String :=
  (t.locate? path).bind t.text?

def put (t : FileTree) (p : Place) (text : String) : FileTree :=
  { t with files := (p, some text) :: t.files }

def save? (t : FileTree) (path text : String) : Option FileTree := do
  let p ← t.locate? path
  if t.isDirectory p then none else some (t.put p text)

-- Makes the directories that are missing on a way. Those before a file that stands in it stay.
def makeOnWay (t : FileTree) (p : Place) : List String → Bool × FileTree
  | []            => (true, t)
  | name :: names =>
    let next := p.move name
    if t.isDirectory next then makeOnWay t next names
    else if (t.files.lookup next).isSome then (false, t)
    else makeOnWay { t with directories := next :: t.directories } next names

theorem locate?_put (t : FileTree) : (t.put p text).locate? path = t.locate? path :=
  rfl

theorem isDirectory_put (t : FileTree) : (t.put p text).isDirectory q = t.isDirectory q :=
  rfl

theorem text?_put_self {t : FileTree} (h : t.isDirectory p = false) : (t.put p text).text? p = some text := by
  simp [text?, isDirectory_put, h]
  simp [put]

theorem text?_put_of_ne {t : FileTree} (h : q ≠ p) : (t.put p text).text? q = t.text? q := by
  simp [text?, isDirectory_put]
  simp [put, List.lookup_cons, beq_false_of_ne h]

theorem read?_of_save? {t t' : FileTree} (h : t.save? path text = some t') : t'.read? path = some text := by
  obtain ⟨p, hp, h⟩ := Option.bind_eq_some_iff.mp h
  split at h
  case isTrue => contradiction
  case isFalse hd =>
    cases h
    simp only [read?, locate?_put, hp, Option.bind_some]
    exact text?_put_self (Bool.eq_false_iff.mpr hd)

end FileTree

-- The reasons of a system for what it refuses.
structure Refusals where
  read            : FileTree → String → String
  makeDirectories : FileTree → String → String
  write           : FileTree → String → String

namespace FileTree

variable (t : FileTree) (f : Refusals)

def read (path : String) : Except String String :=
  match t.read? path with
  | none      => .error (f.read t path)
  | some text => .ok text

def makeDirectories (path : String) : Except String Unit × FileTree :=
  match t.makeOnWay (t.start path) (Path.names path) with
  | (false, t') => (.error (f.makeDirectories t path), t')
  | (true, t')  => (.ok (), t')

def write (path text : String) : Except String Unit × FileTree :=
  match t.save? path text with
  | none    => (.error (f.write t path), t)
  | some t' => (.ok (), t')

theorem read?_of_write {t t' : FileTree} (h : t.write f path text = (.ok (), t')) : t'.read? path = some text := by
  rw [write] at h
  split at h
  case h_1    => cases h
  case h_2 hs => cases h; exact read?_of_save? hs

end FileTree
end QueryHooks
