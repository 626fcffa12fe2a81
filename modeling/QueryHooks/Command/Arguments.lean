namespace QueryHooks

-- What there is to generate: the paths of the two input files, and of the output if it is not to be printed.
structure Job where
  config     : String
  operations : String
  out?       : Option String

namespace Job

inductive Flag where
  | config
  | operations
  | out

def Flag.ofName? (name : String) : Option Flag :=
  match name with
  | "--config"     => some .config
  | "--operations" => some .operations
  | "--out"        => some .out
  | _              => none

-- The values that have been given so far.
structure Draft where
  config?     : Option String := none
  operations? : Option String := none
  out?        : Option String := none

namespace Draft

def get? (d : Draft) : Flag → Option String
  | .config     => d.config?
  | .operations => d.operations?
  | .out        => d.out?

def put (d : Draft) (value : String) : Flag → Draft
  | .config     => { d with config? := value }
  | .operations => { d with operations? := value }
  | .out        => { d with out? := value }

-- No flag is given twice, and none without a value.
def set? (d : Draft) (f : Flag) (value : String) : Option Draft :=
  if value.isEmpty || (d.get? f).isSome then none else some (d.put value f)

def job? (d : Draft) : Option Job := do
  some { config := ← d.config?, operations := ← d.operations?, out? := d.out? }

end Draft
end Job

inductive Command where
  | overview
  | version
  | manual
  | generate (job : Job)

namespace Command

-- What follows a short flag in the same argument is not looked at.
def isShort (flag : Char) (arg : String) : Bool :=
  ['-', flag].isPrefixOf arg.toList

def asksHelp (arg : String) : Bool :=
  arg == "--help" || isShort 'h' arg

-- Whether an argument can be the value of the flag before it.
def isValue (arg : String) : Bool :=
  arg == "-" || arg.toList.head? ≠ some '-'

-- A flag, with its value if that is in the same argument.
def flag? (arg : String) : Option (Job.Flag × Option String) :=
  match arg.toList.span (· ≠ '=') with
  | (name, [])         => (Job.Flag.ofName? (.ofList name)).map (·, none)
  | (name, _ :: value) => (Job.Flag.ofName? (.ofList name)).map (·, some (.ofList value))

-- The arguments are read up to the first one that asks for help or does not fit.
def generate? (d : Job.Draft) : List String → Option Command
  | []          => d.job?.map .generate
  | arg :: args =>
    if asksHelp arg then some .manual
    else if arg == "--" then
      if args.isEmpty then d.job?.map .generate else none
    else
      match flag? arg, args with
      | some (f, some value), args      => (d.set? f value).bind (generate? · args)
      | some (f, none), value :: args   => if isValue value then (d.set? f value).bind (generate? · args) else none
      | _, _                            => none

def help? : List String → Option Command
  | []           => some .overview
  | ["generate"] => some .manual
  | ["help"]     => some .overview
  | _            => none

-- None if the arguments are not those of a command.
def ofArguments? : List String → Option Command
  | []                 => some .overview
  | "generate" :: args => generate? {} args
  | "help" :: args     => help? args
  | arg :: args        =>
    if asksHelp arg then some .overview
    else if arg == "--version" || isShort 'V' arg then some .version
    else if arg == "--" && args.isEmpty then some .overview
    else none

end Command
end QueryHooks
