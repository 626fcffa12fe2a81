import QueryHooks.Json.Basic

namespace QueryHooks

-- What a document says, in any format. Keys keep their order and may be repeated.
inductive Datum where
  | null
  | bool (value : Bool)
  | number (value : Numeral)
  -- A number with no place among the finite ones.
  | nonFinite
  | text (value : String)
  -- A bare word. What it stands for depends on what is asked for: any bare word is a text.
  | plain (word : String)
  | list (items : List Datum)
  | record (entries : List (Datum × Datum))
  -- Well-formed, but without a value. It may be skipped, and must not be read.
  | unreadable

end QueryHooks
