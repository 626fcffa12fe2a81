import QueryHooks.Document.Word

namespace QueryHooks

abbrev Fields := List (String × Datum)

namespace Datum

def text? : Datum → Option String
  | text value => some value
  | plain word => some word
  | _          => none

def bool? : Datum → Option Bool
  | bool value => some value
  | plain word => Word.bool? word
  | _          => none

def list? : Datum → Option (List Datum)
  | list items => some items
  | _          => none

def isNull : Datum → Bool
  | null       => true
  | plain word => Word.isNull word
  | _          => false

def optional (read : Datum → Option α) (d : Datum) : Option (Option α) :=
  if d.isNull then some none else (read d).map some

-- The field that a key selects, by its name or by its place. Fails where the key is neither.
def fieldName? (names : List String) : Datum → Option (Option String)
  | text name           => some (if names.contains name then some name else none)
  | plain name          => some (if names.contains name then some name else none)
  | number (.integer i) => if 0 ≤ i then some names[i.toNat]? else none
  | _                   => none

-- The fields of a record. No field may be given twice, and in a closed structure no other keys.
def recordFields? (names : List String) (closed : Bool) : List (Datum × Datum) → Option Fields
  | []           => some []
  | (key, d) :: es => do
    let fields ← recordFields? names closed es
    match ← fieldName? names key with
    | some name => if (fields.lookup name).isSome then none else some ((name, d) :: fields)
    | none      => if closed then none else some fields

-- A structure may also be written as the list of its fields, of which the last ones may be left out.
def fields? (names : List String) (closed : Bool) : Datum → Option Fields
  | record entries => recordFields? names closed entries
  | list items     => if items.length ≤ names.length then some (names.zip items) else none
  | _              => none

mutual

-- The datum as a plain data value. Keys have to be texts, and the last one of several equal keys counts.
def json? : Datum → Option Json
  | null           => some .null
  | bool b         => some (.bool b)
  | number n       => some (.number n)
  | nonFinite      => some .null
  | text s         => some (.string s)
  | list items     => (jsonItems? items).map .array
  | record entries => (jsonEntries? entries).map fun es => .object (Json.Entries.ofList es)
  | plain _        => none
  | unreadable     => none

def jsonItems? : List Datum → Option (List Json)
  | []      => some []
  | d :: ds => do some ((← d.json?) :: (← jsonItems? ds))

def jsonEntries? : List (Datum × Datum) → Option (List (String × Json))
  | []                => some []
  | (text k, d) :: es => do some ((k, ← d.json?) :: (← jsonEntries? es))
  | _                 => none

end

end Datum

namespace Fields

def required (fields : Fields) (name : String) (read : Datum → Option α) : Option α :=
  (fields.lookup name).bind read

def withDefault (fields : Fields) (name : String) (read : Datum → Option α) (fallback : α) : Option α :=
  match fields.lookup name with
  | some d => read d
  | none   => some fallback

end Fields
end QueryHooks
