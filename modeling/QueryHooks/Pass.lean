import QueryHooks.Strategy.Basic

namespace QueryHooks

open TypeScript

namespace Config

-- The parts of an operation of some kind, in the order they are written in.
def parts (c : Config) : Kind → List Part
  | .query        =>
    [.query] ++
    (if c.addInfiniteQuery then [.infiniteQuery] else []) ++
    (if c.exposeDocument then [.document] else []) ++
    (if c.exposeQueryKeys then [.getKey] else []) ++
    (if c.exposeFetcher then [.fetcher] else [])
  | .mutation     =>
    [.mutation] ++
    (if c.exposeDocument then [.document] else []) ++
    (if c.exposeFetcher then [.fetcher] else [])
  | .subscription => [.subscription]

def statements (c : Config) (s : Strategy) (op : Operation) : List Stmt :=
  (c.parts op.kind).filterMap (s.statement? c.errorType op)

def fragment (c : Config) (s : Strategy) (op : Operation) : String :=
  Text.concat ((c.statements s op).map (·.print))

def steps (c : Config) (s : Strategy) (op : Operation) : List Usage.Step :=
  (c.parts op.kind).flatMap s.steps

end Config

structure Pass where
  fragments : List String := []
  usage     : Usage := {}
  -- The names of queries and mutations, each once, in the order they first occur in.
  queries   : List String := []
  mutations : List String := []

namespace Pass

def register (names : List String) (name : String) : List String :=
  if names.contains name then names else names ++ [name]

def visit (c : Config) (s : Strategy) (p : Pass) (op : Operation) : Pass where
  fragments := p.fragments ++ [c.fragment s op]
  usage     := p.usage.run (c.steps s op)
  queries   := if op.kind = .query then register p.queries op.name else p.queries
  mutations := if op.kind = .mutation then register p.mutations op.name else p.mutations

def run (c : Config) (s : Strategy) (ops : List Operation) : Pass :=
  ops.foldl (visit c s) {}

end Pass
end QueryHooks
