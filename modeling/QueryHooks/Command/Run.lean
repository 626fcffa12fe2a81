import QueryHooks.Command.Arguments
import QueryHooks.Command.Effects
import QueryHooks.Command.Manual
import QueryHooks.Generate

namespace QueryHooks

section

variable {m : Type → Type} [Monad m] (h : Effects m) (r : Readers)

namespace Job

variable (j : Job)

-- The configuration is read and resolved before the operations are looked at.
def file : ExceptT Error m HooksFile := do
  let c ← h.tell <| .configure r (← h.source j.config)
  let input ← h.tell <| .load r j.config (← h.source j.operations)
  h.tell <| .generate c input

-- The text is printed or saved as a whole.
def deliver (text : String) : ExceptT Error m Unit :=
  match j.out? with
  | none      => h.print text
  | some path => do
    h.save path text
    h.log (.fileWritten path)

def generate : ExceptT Error m Unit := do
  let file ← j.file h r
  j.deliver h file.render

def execute : m UInt32 := do
  match ← (j.generate h r).run with
  | .ok ()   => return 0
  | .error e =>
    h.printError (e.message ++ "\n")
    return 1

end Job

def Command.execute : Command → m UInt32
  | overview     => do h.print (Manual.text Manual.overview); return 0
  | version      => do h.print (Manual.text Manual.version); return 0
  | manual       => do h.print (Manual.text Manual.generate); return 0
  | generate job => job.execute h r

-- Does what the arguments ask for, and ends with the exit code.
def execute (args : List String) : m UInt32 :=
  match Command.ofArguments? args with
  | some command => command.execute h r
  | none         => do
    h.printError (Manual.text Manual.misuse)
    return 2

end

-- How a run ends.
structure Outcome extends World where
  code : UInt32

def World.outcome (action : StateM World UInt32) (t : FileTree) : Outcome :=
  let (code, w) := action.run { files := t }
  { w with code }

-- The run with some arguments, where some files are given.
def run (r : Readers) (f : Refusals) (t : FileTree) (args : List String) : Outcome :=
  World.outcome (execute (World.effects f) r args) t

end QueryHooks
