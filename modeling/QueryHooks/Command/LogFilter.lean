import QueryHooks.Event
import QueryHooks.Text.Digit
import QueryHooks.Text.Split

namespace QueryHooks

namespace Level

-- The place of a level, counted from the gravest.
def rank : Level → Nat
  | error => 1
  | warn  => 2
  | info  => 3
  | debug => 4
  | trace => 5

def name : Level → String
  | error => "ERROR"
  | warn  => "WARN"
  | info  => "INFO"
  | debug => "DEBUG"
  | trace => "TRACE"

-- Names are written in any case.
def ofName? (name : String) : Option Level :=
  [error, warn, info, debug, trace].find? (·.name == name.toUpper)

end Level

structure LogDirective where
  target? : Option String
  -- The rank of the least grave level that is logged, zero if none is.
  rank    : Nat

namespace LogDirective

def number? : List Char → Option Nat
  | '+' :: c :: cs => Text.number? 10 (c :: cs)
  | c :: cs        => Text.number? 10 (c :: cs)
  | []             => none

def rank? (word : String) : Option Nat :=
  if word.toLower == "off" then some 0
  else
    match Level.ofName? word with
    | some level => some level.rank
    | none       => (number? word.toList).filter (· ≤ Level.trace.rank)

-- A target with its level, a level for all targets, or a target that is logged as a whole.
def ofText? (cs : List Char) : Option LogDirective :=
  match cs.span (· ≠ '=') with
  | ([], _)          => none
  | (word, [])       =>
    match rank? (.ofList word) with
    | some rank => some { target? := none, rank }
    | none      => some { target? := some (.ofList word), rank := Level.trace.rank }
  | (target, [_])    => some { target? := some (.ofList target), rank := Level.trace.rank }
  | (target, _ :: l) => (rank? (.ofList l)).map fun rank => { target? := some (.ofList target), rank }

def covers (d : LogDirective) (e : Event) : Bool :=
  d.target?.all fun target => target.toList.isPrefixOf e.target.toList

-- Zero for all targets, and greater the longer the target is.
def weight (d : LogDirective) : Nat :=
  match d.target? with
  | none        => 0
  | some target => target.length + 1

end LogDirective

structure LogFilter where
  directives : List LogDirective

namespace LogFilter

-- Of two directives for one target, the later one holds.
def heavier (d : LogDirective) (best : Option LogDirective) : Option LogDirective :=
  match best with
  | none      => some d
  | some best => if d.weight ≤ best.weight then some best else some d

def directive? (f : LogFilter) (e : Event) : Option LogDirective :=
  (f.directives.filter (·.covers e)).foldr heavier none

def logs (f : LogFilter) (e : Event) : Bool :=
  (f.directive? e).any (e.level.rank ≤ ·.rank)

def program (level : Level) : LogFilter where
  directives := [{ target? := "hookgen", rank := level.rank }]

-- Without a directive, errors are logged.
def ofText (text : String) : LogFilter :=
  match (Text.split ',' text.toList).filterMap LogDirective.ofText? with
  | []         => { directives := [{ target? := none, rank := Level.error.rank }] }
  | directives => { directives }

-- The filter that is asked for, either as a level for the whole program or as directives.
def ofSetting : Option String → LogFilter
  | none      => program .info
  | some text => ((Level.ofName? text).map program).getD (ofText text)

end LogFilter
end QueryHooks
