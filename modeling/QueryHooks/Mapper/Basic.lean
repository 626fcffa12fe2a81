import QueryHooks.Error
import QueryHooks.Text.Blank
import QueryHooks.TypeScript.Tree
import QueryHooks.TypeScript.Identifier

namespace QueryHooks

open TypeScript (ImportItem isBinding isIdentifier)

-- A path, written as it is called, or an export of a module, written `module#export`, `module#export as Local` or
-- `module#default as Local`.
inductive Mapper where
  | internal (path : String)
  | named (source : String) (item : ImportItem)
  | default (source binding : String)
  deriving DecidableEq

namespace Mapper

-- The path that generated code calls.
def callee : Mapper → String
  | internal path     => path
  | named _ item      => item.binding
  | default _ binding => binding

def source? : Mapper → Option String
  | internal _       => none
  | named source _   => some source
  | default source _ => some source

-- The text before the first occurrence of the separator, and the text behind it.
def splitFirst (separator : List Char) : List Char → Option (List Char × List Char)
  | []      => none
  | c :: cs =>
    if separator.isPrefixOf (c :: cs) then some ([], (c :: cs).drop separator.length)
    else (splitFirst separator cs).map fun (before, after) => (c :: before, after)

-- The parts of a path, of which there is always a first one.
def segments : List Char → List Char × List (List Char)
  | []      => ([], [])
  | c :: cs =>
    let (head, rest) := segments cs
    if c = '.' then ([], head :: rest) else (c :: head, rest)

def isPath (cs : List Char) : Bool :=
  let (head, rest) := segments cs
  isBinding (.ofList head) && rest.all (isIdentifier <| .ofList ·)

def readPath (cs : List Char) : Except MapperFault Mapper :=
  let path := .ofList cs
  if isPath cs then .ok (.internal path) else .error (.badIdentifier path)

-- An export, and the name it is given in the generated file.
def readExport (source : String) (cs : List Char) : Except MapperFault Mapper :=
  let (name, renamed) :=
    match splitFirst [' ', 'a', 's', ' '] cs with
    | some (name, renamed) => (String.ofList (Text.trim name), some (String.ofList (Text.trim renamed)))
    | none                 => (String.ofList cs, none)
  let item := { name, renamed : ImportItem }
  if name = "default" && renamed.isNone then .error .unnamedDefault
  else if name ≠ "default" && !isIdentifier name then .error (.badExport name)
  else if !isBinding item.binding then .error (.badIdentifier item.binding)
  else if name = "default" then .ok (.default source item.binding)
  else .ok (.named source item)

def readTrimmed (cs : List Char) : Except MapperFault Mapper :=
  if cs.isEmpty then .error .blank
  else
    match splitFirst ['#'] cs with
    | none => readPath cs
    | some (source, identifier) =>
      let source := Text.trim source
      let identifier := Text.trim identifier
      if identifier.contains '#' then .error .separators
      else if source.isEmpty then .error .noSource
      else if identifier.isEmpty then .error .noExport
      else readExport (.ofList source) identifier

-- The mapper that a text names, or what is wrong with the text.
def read (text : String) : Except Error Mapper :=
  (readTrimmed (Text.trim text.toList)).mapError (.invalidMapper text)

def print : Mapper → String
  | internal path         => path
  | named source item     => source ++ "#" ++ item.name ++ item.renamed.elim "" (" as " ++ ·)
  | default source binding => source ++ "#default as " ++ binding

end Mapper
end QueryHooks
