import QueryHooks.Document.Fields
import QueryHooks.Error

namespace QueryHooks

structure NativeSetting where
  queryFunc               : Option String := none
  queryAndQueryClientFunc : Option String := none
  infiniteQueryFunc       : Option String := none
  mutationFunc            : Option String := none
  isQueryAndQueryClient   : Bool := false
  isReactHook             : Bool := false

-- The four ways to write the `fetcher` setting.
inductive FetcherSetting where
  | name (text : String)
  | custom (func : String) (isReactHook : Bool)
  | fetch (endpoint : String) (params : Option Json)
  | native (setting : NativeSetting)

namespace FetcherSetting

def customFieldNames : List String := ["func", "isReactHook"]

def custom? (d : Datum) : Option FetcherSetting := do
  let fields ← d.fields? customFieldNames true
  let func ← fields.required "func" Datum.text?
  let isReactHook ← fields.withDefault "isReactHook" Datum.bool? false
  some (custom func isReactHook)

def fetchFieldNames : List String := ["endpoint", "fetchParams"]

def fetch? (d : Datum) : Option FetcherSetting := do
  let fields ← d.fields? fetchFieldNames true
  let endpoint ← fields.required "endpoint" Datum.text?
  let params ← fields.withDefault "fetchParams" (Datum.optional Datum.json?) none
  some (fetch endpoint params)

def nativeFieldNames : List String :=
  ["queryFunc", "queryAndQueryClientFunc", "infiniteQueryFunc", "mutationFunc", "isQueryAndQueryClient", "isReactHook"]

def native? (d : Datum) : Option FetcherSetting := do
  let fields ← d.fields? nativeFieldNames true
  let func (name : String) := fields.withDefault name (Datum.optional Datum.text?) none
  let queryFunc ← func "queryFunc"
  let queryAndQueryClientFunc ← func "queryAndQueryClientFunc"
  let infiniteQueryFunc ← func "infiniteQueryFunc"
  let mutationFunc ← func "mutationFunc"
  let isQueryAndQueryClient ← fields.withDefault "isQueryAndQueryClient" Datum.bool? false
  let isReactHook ← fields.withDefault "isReactHook" Datum.bool? false
  some (native {
    queryFunc, queryAndQueryClientFunc, infiniteQueryFunc, mutationFunc, isQueryAndQueryClient, isReactHook })

-- The first form that fits, of a name and the three closed records.
def ofDatum? (d : Datum) : Option FetcherSetting := do
  let d ← d.settle
  d.text?.map name <|> custom? d <|> fetch? d <|> native? d

end FetcherSetting

structure Settings where
  fetcher                : Option FetcherSetting := none
  errorType              : String := "unknown"
  exposeFetcher          : Bool := true
  exposeQueryKeys        : Bool := false
  exposeDocument         : Bool := false
  addInfiniteQuery       : Bool := false
  useTypeImports         : Bool := false
  reactQueryImportFrom   : String := "@tanstack/react-query"
  subscriptionImportFrom : String := "@apollo/client"

namespace Settings

def fieldNames : List String := [
  "fetcher", "errorType", "exposeFetcher", "exposeQueryKeys", "exposeDocument", "addInfiniteQuery", "useTypeImports",
  "reactQueryImportFrom", "subscriptionImportFrom"]

def ofFields? (fields : Fields) : Option Settings := do
  let default : Settings := {}
  let fetcher ← fields.withDefault "fetcher" (Datum.optional FetcherSetting.ofDatum?) default.fetcher
  let errorType ← fields.withDefault "errorType" Datum.text? default.errorType
  let exposeFetcher ← fields.withDefault "exposeFetcher" Datum.bool? default.exposeFetcher
  let exposeQueryKeys ← fields.withDefault "exposeQueryKeys" Datum.bool? default.exposeQueryKeys
  let exposeDocument ← fields.withDefault "exposeDocument" Datum.bool? default.exposeDocument
  let addInfiniteQuery ← fields.withDefault "addInfiniteQuery" Datum.bool? default.addInfiniteQuery
  let useTypeImports ← fields.withDefault "useTypeImports" Datum.bool? default.useTypeImports
  let reactQueryImportFrom ← fields.withDefault "reactQueryImportFrom" Datum.text? default.reactQueryImportFrom
  let subscriptionImportFrom ← fields.withDefault "subscriptionImportFrom" Datum.text? default.subscriptionImportFrom
  some {
    fetcher, errorType, exposeFetcher, exposeQueryKeys, exposeDocument, addInfiniteQuery, useTypeImports,
    reactQueryImportFrom, subscriptionImportFrom }

-- A file without any content is one without settings. In JSON the settings may be listed without their names.
def ofDatum? (format : Format) : Datum → Option Settings
  | .plain ""    => some {}
  | .list items  =>
    if format = .json then ((Datum.list items).fields? fieldNames false).bind ofFields? else none
  | d            => (d.fields? fieldNames false).bind ofFields?

end Settings
end QueryHooks
