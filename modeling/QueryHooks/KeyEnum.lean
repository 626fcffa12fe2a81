import QueryHooks.Text.Capital
import QueryHooks.TypeScript.Tree

namespace QueryHooks

structure Collision where
  member  : String
  kept    : String
  dropped : String
  deriving DecidableEq

structure KeyEnum where
  members    : List (String × String) := []
  collisions : List Collision := []
  deriving DecidableEq

namespace KeyEnum

-- Where several names have the same member, the first of them is its value.
def add (e : KeyEnum) (name : String) : KeyEnum :=
  let member := Text.capitalize name
  match e.members.lookup member with
  | none      => { e with members := e.members ++ [(member, name)] }
  | some kept => { e with collisions := e.collisions ++ [{ member, kept, dropped := name }] }

def ofNames (names : List String) : KeyEnum :=
  names.foldl add {}

def toTypeDef (e : KeyEnum) (name : String) : TypeScript.TypeDef :=
  .enum name (e.members.map fun (member, value) => (member, .text value))

end KeyEnum
end QueryHooks
