import QueryHooks.Format.Yaml.Node

namespace QueryHooks.Format.Yaml

-- The datum of the only document that the text holds. A text without any is the empty word.
def read (text : String) : Option Datum :=
  (tokens? text.toList).bind document

end QueryHooks.Format.Yaml
