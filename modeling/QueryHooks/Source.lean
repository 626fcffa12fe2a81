import QueryHooks.Document.Datum
import QueryHooks.Error

namespace QueryHooks

def Format.ofExtension? : String → Option Format
  | "yml"  => some .yaml
  | "yaml" => some .yaml
  | "json" => some .json
  | "toml" => some .toml
  | _      => none

-- What a file is read as.
inductive Input where
  | settings
  | operations

-- The readers of the formats. A text that is not well-formed, or does not hold what it is read as, is refused for a
-- reason that the reader states in its own words.
structure Readers where
  datum?  : Format → Input → String → Option Datum
  refusal : Format → Input → String → String

-- A file by its path, with the text in it, or the reason why there is none.
structure Source where
  path : String
  text : Except String String

namespace Source

def fileName (path : String) : List Char :=
  (path.toList.reverse.takeWhile (· ≠ '/')).reverse

-- What follows the last dot of the file name, unless that is how the name begins.
def extension? (path : String) : Option String :=
  let reversed := (fileName path).reverse
  match reversed.dropWhile (· ≠ '.') with
  | _ :: _ :: _ => some (.ofList (reversed.takeWhile (· ≠ '.')).reverse)
  | _           => none

def format? (path : String) : Option Format :=
  (extension? path).bind fun extension => Format.ofExtension? extension.toLower

-- The extension is looked at only after the file has been read.
def decode (r : Readers) (input : Input) (ofDatum? : Format → Datum → Option α) (s : Source) : Except Error α :=
  match s.text with
  | .error reason => .error (.unreadable s.path reason)
  | .ok text      =>
    match format? s.path with
    | none        => .error (.unknownFormat s.path)
    | some format =>
      match (r.datum? format input text).bind (ofDatum? format) with
      | none   => .error (.malformed format s.path (r.refusal format input text))
      | some a => .ok a

end Source
end QueryHooks
