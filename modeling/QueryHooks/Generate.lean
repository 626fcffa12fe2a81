import QueryHooks.HooksFile
import QueryHooks.Operation.File
import QueryHooks.Report
import QueryHooks.Source

namespace QueryHooks

-- The file for the operations, in their order. Only building the strategy can fail.
def generate (c : Config) (documents : String) (ops : List Operation) : Except Error HooksFile := do
  let s ← Strategy.ofFetcher c.fetcher
  .ok (.ofPass c s documents (.run c s ops))

def generationEvents (s : Strategy) (c : Config) (ops : List Operation) : List Event :=
  ops.map (.hooksRendered ·.name) ++ HooksFile.events s (.run c s ops) ++ [.hooksGenerated]

namespace Source

variable (r : Readers) (s : Source)

def settings : Except Error Settings :=
  s.decode r .settings Settings.ofDatum?

def operations : Except Error OperationsFile :=
  s.decode r .operations fun _ => OperationsFile.ofDatum?

end Source

namespace Report

def configure (r : Readers) (config : Source) : Report Config := do
  Config.resolve (← .ofExcept (config.settings r))

def load (r : Readers) (configPath : String) (operations : Source) : Report OperationsFile := do
  let input ← .ofExcept (operations.operations r)
  .tell [.inputsLoaded configPath input.operations.length]
  return input

def generate (c : Config) (input : OperationsFile) : Report HooksFile := do
  let s ← .ofExcept (Strategy.ofFetcher c.fetcher)
  .tell (generationEvents s c input.operations)
  .ofExcept (QueryHooks.generate c input.documents input.operations)

end Report
end QueryHooks
