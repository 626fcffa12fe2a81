import QueryHooks.Number.Shortest

namespace QueryHooks

open Number (Binary64)

-- Numbers that are written without point and exponent, and fit 64 bits, stay whole.
inductive Numeral where
  | integer (value : Int)
  | double (value : Binary64)
  deriving DecidableEq

inductive Json where
  | null
  | bool (value : Bool)
  | number (value : Numeral)
  | string (value : String)
  | array (items : List Json)
  | object (entries : List (String × Json))

namespace Json

abbrev Entries := List (String × Json)

namespace Entries

-- The entries with `key` standing for `value`, in key order. A value given before is replaced.
def put (key : String) (value : Json) : Entries → Entries
  | []                         => [(key, value)]
  | (key', value') :: entries =>
    if key < key' then (key, value) :: (key', value') :: entries
    else if key = key' then (key, value) :: entries
    else (key', value') :: put key value entries

def get? (key : String) (entries : Entries) : Option Json :=
  entries.lookup key

def ofList (entries : List (String × Json)) : Entries :=
  entries.foldl (fun es (key, value) => put key value es) []

end Entries
end Json
end QueryHooks
