import QueryHooks.Document.Datum

namespace QueryHooks.Format.Toml

-- How a table has come about, which decides what keys and headers may add to it.
inductive Origin where
  | header
  | implied
  | dotted
  deriving DecidableEq

mutual

structure Table where
  origin  : Origin
  entries : List (String × Item)

inductive Item where
  | value (d : Datum)
  | table (t : Table)
  -- The tables of an array, with the latest first.
  | tables (ts : List Table)

end

namespace Table

def empty (origin : Origin) : Table where
  origin
  entries := []

def put (key : String) (item : Item) : List (String × Item) → List (String × Item)
  | []                       => [(key, item)]
  | (key', item') :: entries =>
    if key' = key then (key, item) :: entries else (key', item') :: put key item entries

-- The table changed at a path. Tables on the way that are not there yet are made, and dots lead through no table
-- that has a header of its own.
def update (dotted : Bool) (change : Table → Option Table) : List String → Table → Option Table
  | [], t          => change t
  | key :: path, t => do
    let item ←
      match t.entries.lookup key with
      | none                   =>
        (update dotted change path (empty (if dotted then .dotted else .implied))).map .table
      | some (.value _)        => none
      | some (.table child)    =>
        if dotted && child.origin = .header then none else (update dotted change path child).map .table
      | some (.tables [])      => none
      | some (.tables (t :: ts)) => (update dotted change path t).map fun t => .tables (t :: ts)
    some { t with entries := put key item t.entries }

-- The table with a value for a key, which may have dots.
def define (path : List String) (key : String) (d : Datum) (t : Table) : Option Table :=
  t.update true (fun t =>
    if (t.origin = .dotted) = path.isEmpty || (t.entries.lookup key).isSome then none
    else some { t with entries := put key (.value d) t.entries }) path

-- The table with a header for a table.
def openTable (path : List String) (key : String) (t : Table) : Option Table :=
  t.update false (fun t => do
    let opened ←
      match t.entries.lookup key with
      | none                => some (empty .header)
      | some (.table child) => if child.origin = .implied then some { child with origin := .header } else none
      | _                   => none
    some { t with entries := put key (.table opened) t.entries }) path

-- The table with a header for one more table of an array.
def openArray (path : List String) (key : String) (t : Table) : Option Table :=
  t.update false (fun t => do
    let tables ←
      match t.entries.lookup key with
      | none              => some [empty .header]
      | some (.tables ts) => some (empty .header :: ts)
      | _                 => none
    some { t with entries := put key (.tables tables) t.entries }) path

mutual

def toDatum : Table → Datum
  | ⟨_, entries⟩ => .record (entriesToData entries)

def itemToDatum : Item → Datum
  | .value d   => d
  | .table t   => t.toDatum
  | .tables ts => .list (tablesToData ts).reverse

def tablesToData : List Table → List Datum
  | []      => []
  | t :: ts => t.toDatum :: tablesToData ts

def entriesToData : List (String × Item) → List (Datum × Datum)
  | []               => []
  | (key, item) :: es => (.text key, itemToDatum item) :: entriesToData es

end

end Table
end QueryHooks.Format.Toml
