import QueryHooks.Json.Print

namespace QueryHooks

-- The levels, from the most talkative to the gravest.
inductive Level where
  | trace
  | debug
  | info
  | warn
  | error
  deriving DecidableEq

inductive Event where
  | reactHookUnused
  | paramsUnused (params : Json)
  | optionUnused (option strategy : String)
  | inputsLoaded (config : String) (operations : Nat)
  | hooksRendered (operation : String)
  | bodyUnused
  | memberTaken (enum member kept dropped : String)
  | fileAssembled
  | hooksGenerated
  | fileWritten (path : String)

namespace Event

def level : Event → Level
  | reactHookUnused  => .debug
  | paramsUnused ..  => .warn
  | optionUnused ..  => .warn
  | inputsLoaded ..  => .debug
  | hooksRendered .. => .debug
  | bodyUnused       => .warn
  | memberTaken ..   => .warn
  | fileAssembled    => .debug
  | hooksGenerated   => .info
  | fileWritten ..   => .info

-- The part of the program that an event comes from, as log filters name it.
def target : Event → String
  | reactHookUnused  => "hookgen::hooks::config"
  | paramsUnused ..  => "hookgen::hooks::config"
  | optionUnused ..  => "hookgen::hooks::config"
  | inputsLoaded ..  => "hookgen::cli::generate"
  | hooksRendered .. => "hookgen::hooks::visitor"
  | bodyUnused       => "hookgen::hooks::fetcher::fetch"
  | memberTaken ..   => "hookgen::hooks::emitter"
  | fileAssembled    => "hookgen::hooks::emitter"
  | hooksGenerated   => "hookgen::hooks"
  | fileWritten ..   => "hookgen::cli::generate"

def message : Event → String
  | reactHookUnused  => "isReactHook has no effect on native factories"
  | paramsUnused ..  => "fetchParams is not an object, ignoring"
  | optionUnused ..  => "option has no effect with this fetcher"
  | inputsLoaded ..  => "loaded inputs"
  | hooksRendered .. => "rendering hooks"
  | bodyUnused       => "fetchParams.body is ignored, the fetcher sends the operation"
  | memberTaken ..   => "operation names collide on the same enum member"
  | fileAssembled    => "assembled file"
  | hooksGenerated   => "generated hooks"
  | fileWritten ..   => "wrote hooks file"

def fields : Event → List (String × String)
  | reactHookUnused                      => []
  | paramsUnused params                  => [("value", params.print)]
  | optionUnused option strategy         => [("option", option), ("strategy", strategy)]
  | inputsLoaded config operations       => [("config", config), ("operations", toString operations)]
  | hooksRendered operation              => [("operation", operation)]
  | bodyUnused                           => []
  | memberTaken enum member kept dropped =>
    [("enum_name", enum), ("member", member), ("kept", kept), ("dropped", dropped)]
  | fileAssembled                        => []
  | hooksGenerated                       => []
  | fileWritten path                     => [("path", path)]

def isWarning (e : Event) : Bool :=
  e.level = .warn

end Event
end QueryHooks
