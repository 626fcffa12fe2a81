import QueryHooks.Text.Join

namespace QueryHooks.Manual

def version : List String :=
  ["hookgen 0.1.0"]

def overview : List String := [
  "Typed react-query hooks for GraphQL operations",
  "",
  "Usage: hookgen [COMMAND]",
  "",
  "Commands:",
  "  generate  Generate the hooks file",
  "  help      Print this message or the help of the given subcommand(s)",
  "",
  "Options:",
  "  -h, --help     Print help",
  "  -V, --version  Print version"]

def generate : List String := [
  "Generate the hooks file",
  "",
  "Usage: hookgen generate [OPTIONS] --config <CONFIG_PATH> --operations <OPERATIONS_PATH>",
  "",
  "Options:",
  "      --config <CONFIG_PATH>          Codegen configuration (.yml, .yaml, .json or .toml)",
  "      --operations <OPERATIONS_PATH>  Operations list produced by the document traversal stage",
  "      --out <OUT_PATH>                Output file; stdout when omitted",
  "  -h, --help                          Print help"]

def misuse : List String := [
  "error: the arguments are not those of a command",
  "",
  "For more information, try '--help'."]

-- The lines as a text.
def text (lines : List String) : String :=
  Text.concat (lines.map (· ++ "\n"))

end QueryHooks.Manual
