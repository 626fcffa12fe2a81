import QueryHooks.Generate
import QueryHooks.Proofs.Fragment
import QueryHooks.Proofs.Report

namespace QueryHooks

open TypeScript

-- The configuration that results where nothing but the fetcher is set.
def Config.standard (fetcher : Fetcher) : Config :=
  { ({} : Settings) with fetcher }

namespace Strategy

theorem mapped_of_ofFetcher (hn : ¬f.isNative) (hs : ofFetcher f = .ok s) : ∃ m inline, s = mapped m inline := by
  cases f
  case fetch endpoint params   => exact ⟨_, _, (Except.ok.inj hs).symm⟩
  case mapper func isReactHook =>
    have ⟨_, _, hs⟩ := bind_eq_ok.mp hs
    exact ⟨_, _, (Except.ok.inj hs).symm⟩
  case native config           => exact absurd rfl hn

theorem native_of_ofFetcher (hn : f.isNative) (hs : ofFetcher f = .ok s) : ∃ n, s = native n := by
  cases f
  case native config =>
    have ⟨n, _, hs⟩ := map_eq_ok.mp hs
    exact ⟨n, hs.symm⟩
  all_goals contradiction

end Strategy

theorem generate_of_ofFetcher (hs : Strategy.ofFetcher c.fetcher = .ok s) (documents : String) (ops : List Operation) :
    generate c documents ops = .ok (.ofPass c s documents (.run c s ops)) := by
  simp [generate, hs, bind, Except.bind]

namespace HooksFile

variable (c : Config) (s : Strategy) (documents : String) (p : Pass)

theorem imports_ofPass :
    (ofPass c s documents p).imports = runtimeImports c p.usage p.code ++ fetcherImports c s p.usage p.code :=
  rfl

end HooksFile
end QueryHooks
