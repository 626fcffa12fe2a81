import QueryHooks.Format.Toml.Number
import QueryHooks.Format.Toml.Table

namespace QueryHooks.Format.Toml

mutual

-- The fuel is a multiple of the length of the text.
def value (depth : Nat) : Nat → Reader Datum
  | 0, _         => none
  | fuel + 1, cs =>
    match cs with
    | 't' :: 'r' :: 'u' :: 'e' :: cs        => some (.bool true, cs)
    | 'f' :: 'a' :: 'l' :: 's' :: 'e' :: cs => some (.bool false, cs)
    | '[' :: cs                             =>
      if depth + 1 < maxDepth then (items (depth + 1) fuel cs).map fun (ds, rest) => (.list ds, rest) else none
    | '{' :: cs                             =>
      if depth + 1 < maxDepth then do
        match skipBlanks cs with
        | '}' :: rest => some (.record [], rest)
        | cs          => (pairs (depth + 1) fuel (.empty .header) cs).map fun (t, rest) => (t.toDatum, rest)
      else none
    | cs                                    =>
      match string? cs with
      | some string => string.map fun (s, rest) => (.text (.ofList s), rest)
      | none        => number cs
  termination_by structural fuel => fuel

-- A comma may stand behind the last item, too.
def items (depth : Nat) : Nat → Reader (List Datum)
  | 0, _         => none
  | fuel + 1, cs => do
    match ← skipGap cs with
    | ']' :: rest => some ([], rest)
    | cs          =>
      let (d, rest) ← value depth fuel cs
      match ← skipGap rest with
      | ']' :: rest => some ([d], rest)
      | ',' :: rest =>
        let (ds, rest) ← items depth fuel rest
        some (d :: ds, rest)
      | _           => none
  termination_by structural fuel => fuel

def pairs (depth : Nat) : Nat → Table → Reader Table
  | 0, _, _         => none
  | fuel + 1, t, cs => do
    let (path, rest) ← key cs
    match rest with
    | '=' :: rest =>
      let (d, rest) ← value depth fuel (skipBlanks rest)
      let t ← t.define path.dropLast (path.getLastD "") d
      match skipBlanks rest with
      | '}' :: rest => some (t, rest)
      | ',' :: rest => pairs depth fuel t rest
      | _           => none
    | _           => none
  termination_by structural fuel => fuel

end

end QueryHooks.Format.Toml
