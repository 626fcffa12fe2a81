import QueryHooks.Strategy.Mapped
import QueryHooks.Strategy.Native
import QueryHooks.Strategy.Request
import QueryHooks.Strategy.Subscription

namespace QueryHooks

open TypeScript

-- The statements that an operation may call for.
inductive Part where
  | query
  | infiniteQuery
  | mutation
  | subscription
  | document
  | getKey
  | fetcher
  deriving DecidableEq

inductive Strategy where
  | mapped (function : Mapped) (inline : Option Request)
  | native (factories : Native)

namespace Strategy

-- The strategy that the fetcher of a configuration stands for. The mappers are read here.
def ofFetcher : Fetcher → Except Error Strategy
  | .fetch endpoint params   =>
    .ok (mapped { mapper := .internal Request.functionName, isReactHook := false } (some { endpoint, params }))
  | .mapper func isReactHook => do
    let mapper ← Mapper.read func
    .ok (mapped { mapper, isReactHook } none)
  | .native config           => (Native.read config).map native

def statement? (s : Strategy) (errorType : String) (op : Operation) (part : Part) : Option Stmt :=
  match part, s with
  | .subscription, _         => some op.subscriptionHook
  | .document, _             => some (op.accessor "document" op.documentRef)
  | .query, mapped m _         => some (m.queryHook errorType op)
  | .infiniteQuery, mapped m _ => some (m.infiniteQueryHook errorType op)
  | .mutation, mapped m _      => some (m.mutationHook errorType op)
  | .getKey, mapped _ _        => some (Mapped.keyAccessor op)
  | .fetcher, mapped m _       => m.fetcherAccessor? op
  | .query, native n           => some (n.queryHook op)
  | .infiniteQuery, native n   => some (n.infiniteQueryHook op)
  | .mutation, native n        => some (n.mutationHook op)
  | .getKey, native _          => none
  | .fetcher, native _         => none

def hasFetcherAccessor : Strategy → Bool
  | mapped m _ => !m.isReactHook
  | native _   => false

-- What rendering a part records.
def steps (s : Strategy) : Part → List Usage.Step
  | .query         => [.record .query, .markFetcher]
  | .infiniteQuery => [.record .infiniteQuery, .markFetcher]
  | .mutation      => [.record .mutation, .markFetcher]
  | .subscription  => [.record .subscription]
  | .fetcher       => if s.hasFetcherAccessor then [.markFetcher] else []
  | .document      => []
  | .getKey        => []

-- The imports that make the fetch function, or the factories, available.
def imports (s : Strategy) (useTypeImports : Bool) : List Import :=
  match s with
  | mapped m _ => m.imports useTypeImports
  | native n   => n.imports

-- The fetch function that is written into the file.
def request? : Strategy → Option Request
  | mapped _ inline => inline
  | native _        => none

def needsKeyEnums : Strategy → Bool
  | mapped .. => false
  | native _  => true

end Strategy
end QueryHooks
