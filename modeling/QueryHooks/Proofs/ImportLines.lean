import QueryHooks.Proofs.ImportGrowth
import QueryHooks.Proofs.MapperGrammar
import QueryHooks.Proofs.TypeScript.Broken

namespace QueryHooks

open TypeScript
open Text (Avoids join)

theorem TypeScript.ImportItem.avoids_print {item : ImportItem} (hn : isIdentifier item.name)
    (hb : isIdentifier item.binding) : Avoids endsLine item.print := by
  have hn : Avoids endsLine item.name := not_not.mp (not_broken_of_isIdentifier hn)
  have hb : Avoids endsLine item.binding := not_not.mp (not_broken_of_isIdentifier hb)
  have ⟨name, renamed⟩ := item
  cases renamed
  case none         => exact hn
  case some binding => exact .wrap hn (by decide) hb

-- Between the word that it begins with and the module, there are only identifiers.
theorem TypeScript.Import.broken_print {i : Import}
    (h : ∀ e ∈ i.imported, isIdentifier e.name ∧ isIdentifier e.binding) : Broken i.print ↔ Broken i.source := by
  have hd : ∀ binding ∈ i.default?.toList, Avoids endsLine binding := by
    intro binding hb
    have he := List.mem_map_of_mem (f := fun binding => ({ source := i.source, name := "default", binding } : Imported)) hb
    exact not_not.mp (not_broken_of_isIdentifier (h _ (List.mem_append_left _ he)).right)
  have hi : ∀ text ∈ i.items.map (·.print), Avoids endsLine text := by
    intro text ht
    obtain ⟨item, hm, rfl⟩ := List.mem_map.mp ht
    have he := List.mem_map_of_mem
      (f := fun item => ({ source := i.source, name := item.name, binding := item.binding } : Imported)) hm
    have ⟨hn, hb⟩ := h _ (List.mem_append_right _ he)
    exact ImportItem.avoids_print hn hb
  have hc : Avoids endsLine (join ", " i.clauses) := by
    refine (Avoids.join_iff (by decide)).mpr fun text ht => ?_
    cases List.mem_append.mp ht
    case inl ht => exact hd text ht
    case inr ht =>
      split at ht
      case isTrue  => contradiction
      case isFalse =>
        cases List.mem_singleton.mp ht
        exact .wrap (by decide) ((Avoids.join_iff (by decide)).mpr hi) (by decide)
  have ht : Avoids endsLine (if i.typeOnly then "type " else "") := by
    split <;> decide
  have hb : Avoids endsLine ("import " ++ (if i.typeOnly then "type " else "") ++ join ", " i.clauses ++ " from ") :=
    ((Avoids.append (by decide) ht).append hc).append (by decide)
  have he : Avoids endsLine ";" := by decide
  rw [Import.print, Broken, Avoids.append_iff, Avoids.append_iff, and_iff_left he, and_iff_right hb]
  exact broken_quote

theorem Mapper.isIdentifier_name_of_written (hw : Written cs m) (hm : m = .named source item) :
    isIdentifier item.name := by
  cases hw
  case path             => contradiction
  case external _ _ _ hw =>
    rw [ofExport] at hm
    split at hm
    case isTrue  => contradiction
    case isFalse =>
      cases hm
      exact (writesItem_iff.mp hw).right.left

theorem Strategy.isIdentifier_name_of_mem_imports {useTypeImports : Bool} (hs : ofFetcher f = .ok s)
    (hi : i ∈ s.imports useTypeImports) (he : e ∈ i.imported) : isIdentifier e.name := by
  have ha : isIdentifier fetcherArgsType := by decide
  obtain ⟨source, rfl | rfl⟩ := exists_source_of_mem_imports hi
  case inr => exact List.mem_singleton.mp he ▸ ha
  case inl =>
    cases List.mem_append.mp he
    case inl he =>
      obtain ⟨_, _, rfl⟩ := List.mem_map.mp he
      exact (by decide : isIdentifier "default")
    case inr he =>
      obtain ⟨item, hm, rfl⟩ := List.mem_map.mp he
      rw [items_importFrom] at hm
      cases List.mem_append.mp <| (firstsBy_sublist _).subset hm
      case inl hm =>
        obtain ⟨name, hn, rfl⟩ := List.mem_map.mp hm
        exact mem_extraNames hn ▸ ha
      case inr hm =>
        obtain ⟨m, hm, hi⟩ := List.mem_filterMap.mp hm
        cases Mapper.namedItem?_eq_some.mp hi
        have ⟨_, hr⟩ := read_of_mem_mappers hs hm rfl
        exact Mapper.isIdentifier_name_of_written (Mapper.readTrimmed_eq_ok_iff.mp <| mapError_eq_ok.mp hr) rfl

theorem Config.Needs.isIdentifier_name {c : Config} (hs : Strategy.ofFetcher c.fetcher = .ok s) (h : c.Needs s op e) :
    TypeScript.isIdentifier e.name := by
  cases h
  case runtime hm hn    => exact isIdentifier_of_mem_methods hm hn
  case strategy _ hi he => exact Strategy.isIdentifier_name_of_mem_imports hs hi he

-- The module of a mapper is trimmed, so it cannot begin or end with a line break.
theorem Mapper.trimmed_source_of_written (hw : Written cs m) (hs : m.source? = some source) :
    Text.Trimmed source.toList := by
  cases hw
  case path                        => contradiction
  case external source' _ item _ _ _ _ =>
    have h : source = .ofList (Text.trim source') := by
      rw [ofExport] at hs
      split at hs <;> exact (Option.some.inj hs).symm
    rw [h, String.toList_ofList]
    exact Text.trimmed_trim source'

theorem Strategy.exists_mapper_of_mem_imports {s : Strategy} {useTypeImports : Bool}
    (hi : i ∈ s.imports useTypeImports) : ∃ m ∈ s.mappers, m.source? = some i.source := by
  cases s
  case mapped m inline =>
    refine ⟨m.mapper, .head _, ?_⟩
    cases hs : m.mapper.source?
    case none        => simp [imports_mapped_of_internal hs] at hi
    case some source =>
      rw [imports_mapped hs] at hi
      rcases List.mem_cons.mp hi with rfl | hi
      case inl => rfl
      case inr =>
        split at hi
        case isTrue  => rw [List.mem_singleton.mp hi]; rfl
        case isFalse => contradiction
  case native n        =>
    obtain ⟨source, hs, rfl⟩ := List.mem_map.mp hi
    exact Native.mem_sources.mp hs

theorem HooksFile.source_of_mem_imports {c : Config} (hs : Strategy.ofFetcher c.fetcher = .ok s)
    (hi : i ∈ (ofPass c s text p).imports) :
    i.source = c.reactQueryImportFrom ∨ i.source = c.subscriptionImportFrom ∨
      ∃ m ∈ s.mappers, m.source? = some i.source ∧ Text.Trimmed i.source.toList := by
  rw [imports_ofPass] at hi
  cases List.mem_append.mp hi
  case inl hi =>
    cases List.mem_append.mp hi
    case inl hi => exact .inl <| source_of_mem_importsOfRuntime hi
    case inr hi => exact .inr <| .inl <| source_of_mem_importsOfRuntime hi
  case inr hi =>
    obtain ⟨_, i', hi', hp⟩ := mem_fetcherImports.mp hi
    cases eq_pruned_of_prune? hp
    have ⟨m, hm, hms⟩ := Strategy.exists_mapper_of_mem_imports hi'
    have ⟨_, hr⟩ := Strategy.read_of_mem_mappers hs hm (hms ▸ rfl)
    have hw := Mapper.readTrimmed_eq_ok_iff.mp <| mapError_eq_ok.mp hr
    exact .inr <| .inr ⟨m, hm, hms, Mapper.trimmed_source_of_written hw hms⟩

end QueryHooks
