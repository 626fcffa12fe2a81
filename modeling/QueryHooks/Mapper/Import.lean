import QueryHooks.Mapper.Basic

namespace QueryHooks.Mapper

open TypeScript (Import ImportItem)

-- Of several items with the same binding, the first one stays.
def insertItem (items : List ImportItem) (item : ImportItem) : List ImportItem :=
  if items.any (·.binding = item.binding) then items else items ++ [item]

def namedItem? (source : String) : Mapper → Option ImportItem
  | named source' item => if source' = source then some item else none
  | _                  => none

def defaultBinding? (source : String) : Mapper → Option String
  | default source' binding => if source' = source then some binding else none
  | _                       => none

-- The import of the extra names and of those mappers that come from `source`.
def importFrom (source : String) (mappers : List Mapper) (extra : List String) (typeOnly : Bool) : Import where
  default? := mappers.findSome? (defaultBinding? source)
  items    := ((extra.map fun name => { name : ImportItem }) ++ mappers.filterMap (namedItem? source)).foldl insertItem []
  source
  typeOnly

end QueryHooks.Mapper
