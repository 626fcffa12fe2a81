import QueryHooks.Json.Basic
import QueryHooks.Text.Join

namespace QueryHooks

namespace Numeral

def print : Numeral → String
  | integer value => toString value
  | double value  => value.text

end Numeral

namespace Json

open Text (join)

def hexDigit (n : Nat) : Char :=
  if n < 10 then .ofNat (48 + n) else .ofNat (87 + n)

def escapeChar (c : Char) : List Char :=
  match c with
  | '"'    => ['\\', '"']
  | '\\'   => ['\\', '\\']
  | '\x08' => ['\\', 'b']
  | '\x0c' => ['\\', 'f']
  | '\n'   => ['\\', 'n']
  | '\r'   => ['\\', 'r']
  | '\t'   => ['\\', 't']
  | c      =>
    if c.toNat < 0x20 then ['\\', 'u', '0', '0', hexDigit (c.toNat / 16), hexDigit (c.toNat % 16)]
    else [c]

def quote (s : String) : String :=
  "\"" ++ .ofList (s.toList.flatMap escapeChar) ++ "\""

mutual

def print : Json → String
  | null           => "null"
  | bool true      => "true"
  | bool false     => "false"
  | number value   => value.print
  | string value   => quote value
  | array items    => "[" ++ join "," (printItems items) ++ "]"
  | object entries => "\x7b" ++ join "," (printEntries entries) ++ "\x7d"

def printItems : List Json → List String
  | []           => []
  | item :: rest => item.print :: printItems rest

def printEntries : List (String × Json) → List String
  | []                   => []
  | (key, value) :: rest => (quote key ++ ":" ++ value.print) :: printEntries rest

end

end Json
end QueryHooks
