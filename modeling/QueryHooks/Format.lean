import QueryHooks.Format.Json
import QueryHooks.Format.Toml
import QueryHooks.Format.Yaml
import QueryHooks.Source

namespace QueryHooks

def Input.name : Input → String
  | settings   => "settings"
  | operations => "operations"

def Format.read : Format → String → Option Datum
  | yaml => Yaml.read
  | json => Json.read
  | toml => Toml.read

-- The readers that the command line uses. They refuse anchors, tags and directives in YAML, and dates in TOML.
def Readers.standard : Readers where
  datum?  format _ text     := format.read text
  refusal format input text :=
    match format.read text with
    | none   => "not well-formed"
    | some _ => "not " ++ input.name

end QueryHooks
