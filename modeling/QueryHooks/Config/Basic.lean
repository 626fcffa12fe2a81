import QueryHooks.Config.File
import QueryHooks.Report
import QueryHooks.Text.Blank

namespace QueryHooks

-- The factories of the native client, as mapper texts.
structure NativeConfig where
  query    : String := "createQueryHook"
  combined : Option String := some "createQueryAndQueryClientHook"
  infinite : String := "createInfiniteQueryHook"
  mutation : String := "createMutationHook"
  -- Queries get their hook, and one for the client, from the combined factory.
  isCombined : Bool := true

namespace NativeConfig

def isComplete (c : NativeConfig) : Bool :=
  !c.isCombined || c.combined.isSome

-- Settings that name no factory keep the usual one, except for the combined factory.
def ofSetting (s : NativeSetting) : NativeConfig :=
  let default : NativeConfig := {}
  { query      := s.queryFunc.getD default.query
    combined   := s.queryAndQueryClientFunc
    infinite   := s.infiniteQueryFunc.getD default.infinite
    mutation   := s.mutationFunc.getD default.mutation
    isCombined := s.isQueryAndQueryClient }

end NativeConfig

-- How the hooks get at their data.
inductive Fetcher where
  | fetch (endpoint : String) (params : Option Json.Entries)
  | mapper (func : String) (isReactHook : Bool)
  | native (config : NativeConfig)

namespace Fetcher

def standard : Fetcher :=
  .fetch "/graphql" none

def strategyName : Fetcher → String
  | fetch ..  => "fetch"
  | mapper .. => "custom-mapper"
  | native _  => "native-client"

def isNative : Fetcher → Bool
  | native _ => true
  | _        => false

def ofName (text : String) : Fetcher :=
  let trimmed := Text.trim text.toList
  if trimmed = "fetch".toList then standard
  else if trimmed = "native".toList then native {}
  else mapper text false

def paramEntries? : Option Json → Option Json.Entries
  | some (.object entries) => some entries
  | _                      => none

def ofSetting : FetcherSetting → Except Error Fetcher
  | .name text               => .ok (ofName text)
  | .custom func isReactHook => .ok (mapper func isReactHook)
  | .fetch endpoint params   => .ok (fetch endpoint (paramEntries? params))
  | .native setting          =>
    let config := NativeConfig.ofSetting setting
    if config.isComplete then .ok (native config) else .error .missingCombinedFactory

end Fetcher

namespace FetcherSetting

-- What a fetcher setting says to no effect.
def events : FetcherSetting → List Event
  | native setting                => if setting.isReactHook then [.reactHookUnused] else []
  | fetch _ (some (.object _))    => []
  | fetch _ (some params)         => [.paramsUnused params]
  | _                             => []

end FetcherSetting

structure Config where
  fetcher                : Fetcher
  errorType              : String
  exposeFetcher          : Bool
  exposeQueryKeys        : Bool
  exposeDocument         : Bool
  addInfiniteQuery       : Bool
  useTypeImports         : Bool
  reactQueryImportFrom   : String
  subscriptionImportFrom : String

namespace Config

-- The options that are set, but that the fetcher never makes use of.
def ignoredOptions (c : Config) : List String :=
  if c.fetcher.isNative && c.exposeQueryKeys then ["exposeQueryKeys"] else []

def events (c : Config) : List Event :=
  c.ignoredOptions.map (.optionUnused · c.fetcher.strategyName)

def ofSettings (s : Settings) : Except Error Config := do
  let fetcher ← s.fetcher.elim (.ok .standard) Fetcher.ofSetting
  .ok { s with fetcher }

-- The configuration, with what the settings say to no effect.
def resolve (s : Settings) : Report Config := do
  .tell (s.fetcher.elim [] FetcherSetting.events)
  let config ← .ofExcept (ofSettings s)
  .tell config.events
  return config

end Config
end QueryHooks
