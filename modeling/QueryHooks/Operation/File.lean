import QueryHooks.Document.Fields
import QueryHooks.Operation.Basic

namespace QueryHooks

structure OperationsFile where
  operations : List Operation
  documents  : String

namespace Kind

def ofField? : Option String → Option Kind
  | some name => ofName? name
  | none      => none

-- A kind is written as its name, or as a record with the name for its only key and nothing for its value.
def ofDatum? : Datum → Option Kind
  | .text name              => ofName? name
  | .record [(key, .null)]  => (Datum.fieldName? names key).bind ofField?
  | _                       => none

end Kind

namespace Operation

def fieldNames : List String :=
  ["kind", "name", "resultTypeName", "variablesTypeName", "hasRequiredVariables", "documentVariableName"]

def ofDatum? (d : Datum) : Option Operation := do
  let fields ← d.fields? fieldNames false
  let kind ← fields.required "kind" Kind.ofDatum?
  let name ← fields.required "name" Datum.text?
  let result ← fields.withDefault "resultTypeName" (Datum.optional Datum.text?) none
  let variablesType ← fields.withDefault "variablesTypeName" (Datum.optional Datum.text?) none
  let required ← fields.withDefault "hasRequiredVariables" Datum.bool? false
  let document ← fields.withDefault "documentVariableName" (Datum.optional Datum.text?) none
  let op := conventional kind name
  some { op with
    resultType           := result.getD op.resultType
    variablesType        := variablesType.getD op.variablesType
    document             := document.getD op.document
    hasRequiredVariables := required }

def listOfDatum? (d : Datum) : Option (List Operation) :=
  d.list?.bind (·.mapM ofDatum?)

end Operation

namespace OperationsFile

def fieldNames : List String := ["operations", "documents"]

def ofList? (d : Datum) : Option OperationsFile :=
  (Operation.listOfDatum? d).map fun operations => { operations, documents := "" }

def ofDocument? (d : Datum) : Option OperationsFile := do
  let fields ← d.fields? fieldNames false
  let operations ← fields.required "operations" Operation.listOfDatum?
  let documents ← fields.withDefault "documents" Datum.text? ""
  some { operations, documents }

def ofDatum? (d : Datum) : Option OperationsFile := do
  let d ← d.settle
  ofList? d <|> ofDocument? d

end OperationsFile
end QueryHooks
