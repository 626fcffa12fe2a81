import QueryHooks.Proofs.Generate
import QueryHooks.Proofs.KeyEnum
import QueryHooks.Proofs.Text.Name

namespace QueryHooks

open TypeScript
open Text (capitalize isName)
open Operation (namesOf anyOf)

namespace Operation

-- The members that the operations of a kind call for, with their values.
def keyMembers (k : Kind) (ops : List Operation) : List (String × String) :=
  KeyEnum.membersOf (namesOf k ops)

def keys (k : Kind) (ops : List Operation) : List String :=
  (keyMembers k ops).map (·.1)

theorem mem_keys : p ∈ keys k ops ↔ ∃ op ∈ ops, op.kind = k ∧ op.pascalName = p := by
  rw [keys, keyMembers, KeyEnum.map_fst_membersOf, mem_firstsBy_id, namesOf, List.map_map]
  simp [pascalName, and_assoc]

end Operation

namespace HooksFile

def keyEnumOf (enum : String) (k : Kind) (ops : List Operation) : List TypeDef :=
  if anyOf k ops then
    [.enum enum ((Operation.keyMembers k ops).map fun (member, value) => (member, .text value))]
  else []

-- The names without a member of their own, each once.
def keyWarnings (enum : String) (k : Kind) (ops : List Operation) : List Event :=
  let names := namesOf k ops
  ((firstsBy id names).filter fun n => KeyEnum.keeper names n ≠ n).map fun n =>
    .memberTaken enum (capitalize n) (KeyEnum.keeper names n) n

theorem isEmpty_namesOf (k : Kind) (ops : List Operation) : namesOf k ops = [] ↔ anyOf k ops = false := by
  simp [namesOf, anyOf]

theorem keyEnum?_firstsBy (enum : String) (k : Kind) (ops : List Operation) :
    (keyEnum? enum (firstsBy id (namesOf k ops))).toList = keyEnumOf enum k ops := by
  rw [keyEnum?, keyEnumOf]
  rw [KeyEnum.ofNames_of_nodup (nodup_firstsBy_id _), KeyEnum.membersOf_firstsBy]
  cases h : anyOf k ops
  case false => simp [(isEmpty_namesOf k ops).mpr h]
  case true  =>
    have hn : namesOf k ops ≠ [] := by simp [isEmpty_namesOf, h]
    simp [hn, KeyEnum.toTypeDef, Operation.keyMembers]

theorem collisions_firstsBy (enum : String) (k : Kind) (ops : List Operation) :
    events.collisions enum (firstsBy id (namesOf k ops)) = keyWarnings enum k ops := by
  rw [events.collisions, keyWarnings]
  rw [KeyEnum.ofNames_of_nodup (nodup_firstsBy_id _), KeyEnum.collisionsOf, List.map_map]
  simp only [KeyEnum.keeper_firstsBy]
  rfl

theorem keyEnums_ofPass (c : Config) (n : Native) (documents : String) (ops : List Operation) :
    (ofPass c (.native n) documents (.run c (.native n) ops)).keyEnums =
      keyEnumOf queryKeyEnum .query ops ++ keyEnumOf mutationKeyEnum .mutation ops := by
  show (keyEnum? ..).toList ++ (keyEnum? ..).toList = _
  rw [Pass.queries_run, Pass.mutations_run, keyEnum?_firstsBy, keyEnum?_firstsBy]

end HooksFile

-- Only what is told about the file may be a warning.
theorem filter_isWarning_eq (s : Strategy) (c : Config) (ops : List Operation) :
    (generationEvents s c ops).filter (·.isWarning) =
      (HooksFile.events s (.run c s ops)).filter (·.isWarning) := by
  have hr : (ops.map (Event.hooksRendered ·.name)).filter (·.isWarning) = [] := by
    simp [Event.isWarning, Event.level]
  rw [generationEvents, List.filter_append, List.filter_append, hr]
  exact List.append_nil _

theorem filter_isWarning_generationEvents (c : Config) (n : Native) (ops : List Operation) :
    (generationEvents (.native n) c ops).filter (·.isWarning) =
      HooksFile.keyWarnings queryKeyEnum .query ops ++ HooksFile.keyWarnings mutationKeyEnum .mutation ops := by
  have hw (enum k) : (HooksFile.keyWarnings enum k ops).filter (·.isWarning) = HooksFile.keyWarnings enum k ops := by
    refine List.filter_eq_self.mpr fun e he => ?_
    obtain ⟨_, _, rfl⟩ := List.mem_map.mp he
    rfl
  have he : HooksFile.events (.native n) (.run c (.native n) ops) =
      HooksFile.keyWarnings queryKeyEnum .query ops ++ HooksFile.keyWarnings mutationKeyEnum .mutation ops ++
        [.fileAssembled] := by
    simp [HooksFile.events, Strategy.request?, Strategy.needsKeyEnums, Pass.queries_run, Pass.mutations_run,
      HooksFile.collisions_firstsBy]
  rw [filter_isWarning_eq, he, List.filter_append, List.filter_append, hw, hw]
  exact List.append_nil _

theorem events_generate (hs : Strategy.ofFetcher c.fetcher = .ok s) (input : OperationsFile) :
    (Report.generate c input).events = generationEvents s c input.operations := by
  simp [Report.generate, hs, Report.ofExcept, Report.tell, bind, generate]

-- The enum that the keys of the operations of some kind are in.
def Kind.keyEnum? : Kind → Option String
  | query        => some queryKeyEnum
  | mutation     => some mutationKeyEnum
  | subscription => none

theorem Kind.keyEnum?_mem {k : Kind} (h : k.keyEnum? = some enum) : enum ∈ [queryKeyEnum, mutationKeyEnum] := by
  cases k <;> cases h
  case query    => exact .head _
  case mutation => exact .tail _ <| .head _

theorem Kind.eq_of_keyEnum?_eq {k k' : Kind} (h : k.keyEnum? = some enum) (h' : k'.keyEnum? = some enum) : k = k' := by
  cases k <;> cases h <;> cases k' <;> first | rfl | simp [keyEnum?, queryKeyEnum, mutationKeyEnum] at h'

theorem Config.keyEnum?_of_mem_parts {c : Config} (hp : part ∈ c.parts k) (h : part.keyEnum? = some enum) :
    k.keyEnum? = some enum := by
  cases k <;> cases part <;> simp_all [parts, Part.keyEnum?, Kind.keyEnum?]

theorem quoteKey_pascalName {op : Operation} (h : isName op.name) : quoteKey op.pascalName = op.pascalName :=
  quoteKey_of_isIdentifier <| Text.isIdentifier_capitalize h

-- What a hook reads from an enum is declared, and written the same way in both places.
theorem Native.mem_keys_of_mem_membersOf {c : Config} {n : Native} (hk : k.keyEnum? = some enum) (ho : op ∈ ops)
    (hs : st ∈ c.statements (.native n) op) (hp : p ∈ st.membersOf enum) :
    p ∈ Operation.keys k ops ∧ (isName op.name → quoteKey p = p) := by
  have ⟨part, hpart, hs⟩ := Config.mem_statements.mp hs
  rw [membersOf_statement (Kind.keyEnum?_mem hk) hs] at hp
  split at hp
  case isTrue he  =>
    cases List.mem_singleton.mp hp
    have hk := Kind.eq_of_keyEnum?_eq (Config.keyEnum?_of_mem_parts hpart he) hk
    exact ⟨Operation.mem_keys.mpr ⟨op, ho, hk, rfl⟩, quoteKey_pascalName⟩
  case isFalse    => contradiction

-- The enums of a file fit the operations that it is generated for, and what is told about them is exact.
structure HooksFile.HasKeys (c : Config) (s : Strategy) (ops : List Operation) (f : HooksFile) : Prop where
  enums        : f.keyEnums = keyEnumOf "EQueryKey" .query ops ++ keyEnumOf "EMutationKey" .mutation ops
  -- The members are the capitalized names, in the order of their first appearance.
  keys         : ∀ k, Operation.keys k ops = firstsBy id ((namesOf k ops).map capitalize)
  nodup        : ∀ k, (Operation.keys k ops).Nodup
  values       : ∀ k, ∀ m ∈ Operation.keyMembers k ops, (namesOf k ops).find? (capitalize · = m.1) = some m.2
  queryKeys    : ∀ op ∈ ops, ∀ st ∈ c.statements s op, ∀ p ∈ st.membersOf "EQueryKey",
    p ∈ Operation.keys .query ops ∧ (isName op.name → quoteKey p = p)
  mutationKeys : ∀ op ∈ ops, ∀ st ∈ c.statements s op, ∀ p ∈ st.membersOf "EMutationKey",
    p ∈ Operation.keys .mutation ops ∧ (isName op.name → quoteKey p = p)
  warnings     : ∀ documents, (Report.generate c { operations := ops, documents }).events.filter (·.isWarning) =
    keyWarnings "EQueryKey" .query ops ++ keyWarnings "EMutationKey" .mutation ops

theorem key_enums_exact {c : Config} (hn : c.fetcher.isNative) (hs : Strategy.ofFetcher c.fetcher = .ok s)
    (documents : String) (ops : List Operation) :
    ∃ file, generate c documents ops = .ok file ∧ file.HasKeys c s ops := by
  obtain ⟨n, rfl⟩ := Strategy.native_of_ofFetcher hn hs
  refine ⟨_, generate_of_ofFetcher hs documents ops, ?_⟩
  constructor
  case enums        => exact HooksFile.keyEnums_ofPass c n documents ops
  case keys         => exact fun k => KeyEnum.map_fst_membersOf _
  case nodup        => exact fun k => KeyEnum.nodup_map_fst_membersOf _
  case values       => exact fun k m hm => KeyEnum.find?_of_mem_membersOf hm
  case queryKeys    => exact fun op ho st hs p hp => Native.mem_keys_of_mem_membersOf rfl ho hs hp
  case mutationKeys => exact fun op ho st hs p hp => Native.mem_keys_of_mem_membersOf rfl ho hs hp
  case warnings     => exact fun documents => events_generate hs _ ▸ filter_isWarning_generationEvents c n ops

theorem key_enums_exact_colliding :
    let c := Config.standard (.native {})
    let ops : List Operation := [
      .conventional .query "user", .conventional .mutation "save", .conventional .query "User",
      .conventional .query "user"]
    c.fetcher.isNative ∧
    ∃ s, Strategy.ofFetcher c.fetcher = .ok s ∧
    (∃ file, generate c "" ops = .ok file ∧ file.HasKeys c s ops) ∧
    Operation.keyMembers .query ops = [("User", "user")] ∧
    HooksFile.keyWarnings "EQueryKey" .query ops = [.memberTaken "EQueryKey" "User" "user" "User"] := by
  refine ⟨rfl, _, rfl, key_enums_exact rfl rfl _ _, ?_, ?_⟩
  case refine_1 => decide +kernel
  case refine_2 => rfl

end QueryHooks
