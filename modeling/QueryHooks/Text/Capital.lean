import QueryHooks.Text.CaseTable

namespace QueryHooks.Text

-- The upper-case form may be several letters long, and is the letter itself where there is none.
def uppercase (c : Char) : List Char :=
  match wideUppercase.lookup c.toNat with
  | some codes => codes.map Char.ofNat
  | none =>
    match caseRuns.find? (·.covers c.toNat) with
    | some run => [Char.ofNat (c.toNat + run.distance).toNat]
    | none     => [c]

def capitalizeChars : List Char → List Char
  | []      => []
  | c :: cs => uppercase c ++ cs

-- The name with its first letter in upper case, as exported identifiers and key enums spell it.
def capitalize (s : String) : String :=
  .ofList (capitalizeChars s.toList)

@[simp]
theorem toList_capitalize (s : String) : (capitalize s).toList = capitalizeChars s.toList := by
  simp [capitalize]

example : capitalize "testQuery" = "TestQuery" := by decide +kernel

example : capitalize "ßa" = "SSa" := by decide +kernel

end QueryHooks.Text
