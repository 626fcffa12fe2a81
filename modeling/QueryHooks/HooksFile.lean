import QueryHooks.KeyEnum
import QueryHooks.Pass

namespace QueryHooks

open TypeScript
open Text (join)

structure HooksFile where
  imports   : List Import
  documents : String
  inline    : Option String
  keyEnums  : List TypeDef
  fragments : List String

namespace HooksFile

def hooks (f : HooksFile) : String :=
  join "\n" f.fragments

def sections (f : HooksFile) : List String :=
  (if f.documents.isEmpty then [] else [f.documents ++ "\n"]) ++
  f.inline.toList ++
  f.keyEnums.map (·.print) ++
  (if f.hooks.isEmpty then [] else [f.hooks])

def prepend (f : HooksFile) : List String :=
  f.imports.map (·.print)

def content (f : HooksFile) : String :=
  join "\n" f.sections

-- The text of the file: the imports, an empty line, and the content.
def render (f : HooksFile) : String :=
  if f.prepend.isEmpty then f.content else join "\n" f.prepend ++ "\n\n" ++ f.content

def importOf (code source : String) (typeOnly : Bool) (names : List String) : List Import :=
  match names.filter (references code) with
  | []    => []
  | names => [{ items := names.map fun name => { name }, source, typeOnly }]

-- The imports from one runtime module, of those of the recorded names that the code refers to.
def importsOfRuntime (code source : String) (split : Bool) (u : RuntimeUsage) : List Import :=
  if split then importOf code source false u.values ++ importOf code source true u.types
  else importOf code source false (u.values ++ u.types)

def runtimeImports (c : Config) (u : Usage) (code : String) : List Import :=
  importsOfRuntime code c.reactQueryImportFrom c.useTypeImports u.reactQuery ++
  importsOfRuntime code c.subscriptionImportFrom c.useTypeImports u.subscription

-- The import without the bindings that the code does not refer to, if any are left.
def prune? (code : String) (i : Import) : Option Import :=
  let pruned := { i with
    default? := i.default?.filter (references code)
    items    := i.items.filter (references code ·.binding) }
  if pruned.isEmpty then none else some pruned

def fetcherImports (c : Config) (s : Strategy) (u : Usage) (code : String) : List Import :=
  if u.fetcherInUse then (s.imports c.useTypeImports).filterMap (prune? code) else []

def keyEnum? (name : String) (names : List String) : Option TypeDef :=
  if names.isEmpty then none else some ((KeyEnum.ofNames names).toTypeDef name)

def keyEnumsOf (s : Strategy) (p : Pass) : List TypeDef :=
  if s.needsKeyEnums then
    (keyEnum? queryKeyEnum p.queries).toList ++ (keyEnum? mutationKeyEnum p.mutations).toList
  else []

def ofPass (c : Config) (s : Strategy) (documents : String) (p : Pass) : HooksFile :=
  let code := join "\n" p.fragments
  { imports   := runtimeImports c p.usage code ++ fetcherImports c s p.usage code
    documents := .ofList (Text.trimEnd documents.toList)
    inline    := if p.usage.fetcherInUse then s.request?.map (·.code) else none
    keyEnums  := keyEnumsOf s p
    fragments := p.fragments }

-- What is worth telling about the file, in the order its parts are put together.
def events (s : Strategy) (p : Pass) : List Event :=
  (if p.usage.fetcherInUse && s.request?.any (·.ignoresBody) then [.bodyUnused] else []) ++
  (if s.needsKeyEnums then collisions queryKeyEnum p.queries ++ collisions mutationKeyEnum p.mutations else []) ++
  [.fileAssembled]
where
  collisions (enum : String) (names : List String) : List Event :=
    (KeyEnum.ofNames names).collisions.map fun c => .memberTaken enum c.member c.kept c.dropped

end HooksFile
end QueryHooks
