namespace QueryHooks

-- The modules that the generated file takes its hooks from.
inductive Runtime where
  | reactQuery
  | subscription
  deriving DecidableEq

-- A hook of a runtime module, with the type of its options and another value that calling it takes.
structure HookMethod where
  hook    : String
  options : String
  helper  : Option String := none
  runtime : Runtime
  deriving DecidableEq

namespace HookMethod

def query : HookMethod where
  hook    := "useQuery"
  options := "UseQueryOptions"
  runtime := .reactQuery

def infiniteQuery : HookMethod where
  hook    := "useInfiniteQuery"
  options := "UseInfiniteQueryOptions"
  runtime := .reactQuery

def mutation : HookMethod where
  hook    := "useMutation"
  options := "UseMutationOptions"
  runtime := .reactQuery

def subscription : HookMethod where
  hook    := "useSubscription"
  options := "SubscriptionHookOptions"
  helper  := some "gql"
  runtime := .subscription

def values (m : HookMethod) : List String :=
  m.hook :: m.helper.toList

end HookMethod

-- Names in ascending order, each one once.
abbrev Names := List String

namespace Names

def insert (name : String) : Names → Names
  | []            => [name]
  | name' :: names =>
    if name < name' then name :: name' :: names
    else if name = name' then name' :: names
    else name' :: insert name names

theorem mem_insert {names : Names} : n ∈ names.insert name ↔ n = name ∨ n ∈ names := by
  fun_induction insert name names <;> grind

end Names

structure RuntimeUsage where
  values : Names := []
  types  : Names := []
  deriving DecidableEq

namespace RuntimeUsage

def record (u : RuntimeUsage) (m : HookMethod) : RuntimeUsage where
  values := m.values.foldl (fun names name => names.insert name) u.values
  types  := u.types.insert m.options

end RuntimeUsage

structure Usage where
  reactQuery   : RuntimeUsage := {}
  subscription : RuntimeUsage := {}
  fetcherInUse : Bool := false
  deriving DecidableEq

namespace Usage

def of (u : Usage) : Runtime → RuntimeUsage
  | .reactQuery   => u.reactQuery
  | .subscription => u.subscription

inductive Step where
  | record (m : HookMethod)
  | markFetcher
  deriving DecidableEq

def step (u : Usage) : Step → Usage
  | .record m    =>
    match m.runtime with
    | .reactQuery   => { u with reactQuery := u.reactQuery.record m }
    | .subscription => { u with subscription := u.subscription.record m }
  | .markFetcher => { u with fetcherInUse := true }

def run (u : Usage) (steps : List Step) : Usage :=
  steps.foldl step u

@[simp]
theorem run_nil (u : Usage) : u.run [] = u :=
  rfl

theorem run_append (u : Usage) : u.run (ss ++ ss') = (u.run ss).run ss' := by
  simp [run]

end Usage
end QueryHooks
