import QueryHooks.TypeScript.Identifier

namespace QueryHooks.TypeScript

def escapeChars : List Char → List Char
  | []         => []
  | '\\' :: cs => '\\' :: '\\' :: escapeChars cs
  | '\'' :: cs => '\\' :: '\'' :: escapeChars cs
  | c :: cs    => c :: escapeChars cs

def escape (s : String) : String :=
  .ofList (escapeChars s.toList)

def quote (s : String) : String :=
  "'" ++ escape s ++ "'"

def quoteKey (name : String) : String :=
  if isIdentifier name then name else quote name

@[simp]
theorem toList_escape (s : String) : (escape s).toList = escapeChars s.toList := by
  simp [escape]

theorem escapeChars_append (cs ds : List Char) :
    escapeChars (cs ++ ds) = escapeChars cs ++ escapeChars ds := by
  fun_induction escapeChars cs <;> simp_all [escapeChars]

theorem quoteKey_of_isIdentifier (h : isIdentifier name) : quoteKey name = name := by
  simp [quoteKey, h]

end QueryHooks.TypeScript
