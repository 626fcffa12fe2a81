import QueryHooks.Main
import QueryHooks.Proofs.Assembly
import QueryHooks.Proofs.Brackets
import QueryHooks.Proofs.CacheKey
import QueryHooks.Proofs.Command
import QueryHooks.Proofs.Exports
import QueryHooks.Proofs.HookCalls
import QueryHooks.Proofs.IgnoredOptions
import QueryHooks.Proofs.ImportGrowth
import QueryHooks.Proofs.InlineFetcher
import QueryHooks.Proofs.InputForms
import QueryHooks.Proofs.Keys
import QueryHooks.Proofs.LineBreaks
import QueryHooks.Proofs.LocalNames
import QueryHooks.Proofs.MapperGrammar
import QueryHooks.Proofs.MapperImports
import QueryHooks.Proofs.NativeImports
import QueryHooks.Proofs.PassGrowth
import QueryHooks.Proofs.RequestInit
import QueryHooks.Proofs.RuntimeImports
import QueryHooks.Proofs.Search
import QueryHooks.Proofs.Strategy.Scope
import QueryHooks.Proofs.TypeImports
import QueryHooks.Proofs.TypeScript.Evaluate
import QueryHooks.Proofs.TypeScript.Exposed
import QueryHooks.Proofs.TypeScript.Layout
import QueryHooks.Proofs.TypeScript.Level
