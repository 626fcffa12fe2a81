import QueryHooks.Command.FileTree
import QueryHooks.Report
import QueryHooks.Source

namespace QueryHooks

-- What the program does to its surroundings. Where the system refuses, it gives its reason.
structure Effects (m : Type → Type) where
  read            : String → m (Except String String)
  makeDirectories : String → m (Except String Unit)
  write           : String → String → m (Except String Unit)
  print           : String → m Unit
  printError      : String → m Unit
  log             : Event → m Unit

namespace Effects

variable {m : Type → Type} [Monad m] (h : Effects m)

def source (path : String) : m Source := do
  return { path, text := ← h.read path }

-- The events up to a failure are logged.
def tell (r : Report α) : ExceptT Error m α := ExceptT.mk do
  r.events.forM h.log
  return r.result

-- What the system refuses to do for a path that is written to.
def orUnwritable (path : String) (action : m (Except String Unit)) : ExceptT Error m Unit := ExceptT.mk do
  return (← action).mapError (.unwritable path)

def makeParent (path : String) : ExceptT Error m Unit :=
  let parent := Path.parent path
  if parent.isEmpty then pure () else orUnwritable parent (h.makeDirectories parent)

-- Saves a text, in new directories if need be. These stay even if the text cannot be saved.
def save (path text : String) : ExceptT Error m Unit := do
  h.makeParent path
  orUnwritable path (h.write path text)

end Effects

-- Surroundings that are data: the files, and all that has been printed and logged.
structure World where
  files  : FileTree
  stdout : String := ""
  stderr : String := ""
  events : List Event := []

namespace World

def onFiles (action : FileTree → α × FileTree) : StateM World α := fun w =>
  let (a, files) := action w.files
  (a, { w with files })

def effects (f : Refusals) : Effects (StateM World) where
  read path            := onFiles fun t => (t.read f path, t)
  makeDirectories path := onFiles (·.makeDirectories f path)
  write path text      := onFiles (·.write f path text)
  print text           := modify fun w => { w with stdout := w.stdout ++ text }
  printError text      := modify fun w => { w with stderr := w.stderr ++ text }
  log e                := modify fun w => { w with events := w.events ++ [e] }

end World
end QueryHooks
