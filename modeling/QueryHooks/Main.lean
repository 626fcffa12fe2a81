import QueryHooks.Command.LogFilter
import QueryHooks.Command.Run
import QueryHooks.Format

open QueryHooks

namespace QueryHooks.CommandLine

-- The reason is what the system says.
def attempt (action : IO α) : IO (Except String α) := do
  try
    return .ok (← action)
  catch e =>
    return .error (toString e)

def eventLine (e : Event) : String :=
  let fields := e.fields.map fun (name, value) => " " ++ name ++ "=" ++ value
  e.level.name ++ " " ++ e.target ++ ": " ++ e.message ++ Text.concat fields

def effects (filter : LogFilter) : Effects IO where
  read path            := attempt (IO.FS.readFile path)
  makeDirectories path := attempt (IO.FS.createDirAll path)
  write path text      := attempt (IO.FS.writeFile path text)
  print                := IO.print
  printError           := IO.eprint
  log e                := if filter.logs e then IO.eprintln (eventLine e) else pure ()

end QueryHooks.CommandLine

def main (args : List String) : IO UInt32 := do
  let filter := LogFilter.ofSetting (← IO.getEnv "HOOKGEN_LOG")
  execute (CommandLine.effects filter) .standard args
