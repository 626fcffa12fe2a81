namespace QueryHooks

inductive Format where
  | yaml
  | json
  | toml
  deriving DecidableEq

namespace Format

def name : Format → String
  | yaml => "YAML"
  | json => "JSON"
  | toml => "TOML"

end Format

inductive MapperFault where
  | blank
  | separators
  | noSource
  | noExport
  | unnamedDefault
  | badExport (name : String)
  | badIdentifier (name : String)
  deriving DecidableEq

namespace MapperFault

def message : MapperFault → String
  | blank              => "mapper is empty"
  | separators         => "expected a single '#' separator"
  | noSource           => "module source is empty"
  | noExport           => "export name is empty"
  | unnamedDefault     => "default exports need a local name (\x60default as Name\x60)"
  | badExport name     => "'" ++ name ++ "' is not a valid export name"
  | badIdentifier name => "'" ++ name ++ "' is not a valid identifier"

end MapperFault

-- The reasons are in the words of the system or of the reader that refused.
inductive Error where
  | unreadable (path reason : String)
  | malformed (format : Format) (path reason : String)
  | unknownFormat (path : String)
  | invalidMapper (mapper : String) (fault : MapperFault)
  | missingCombinedFactory
  | unwritable (path reason : String)
  deriving DecidableEq

namespace Error

def message : Error → String
  | unreadable path reason       => "Failed to read " ++ path ++ ": " ++ reason
  | malformed format path reason => "Failed to parse " ++ format.name ++ " in " ++ path ++ ": " ++ reason
  | unknownFormat path           =>
    "Unsupported file extension for " ++ path ++ " (expected .yml, .yaml, .json or .toml)"
  | invalidMapper mapper fault   => "Invalid mapper '" ++ mapper ++ "': " ++ fault.message
  | missingCombinedFactory       =>
    "Fetcher option 'queryAndQueryClientFunc' is required when isQueryAndQueryClient is enabled"
  | unwritable path reason       => "Failed to write " ++ path ++ ": " ++ reason

end Error
end QueryHooks
