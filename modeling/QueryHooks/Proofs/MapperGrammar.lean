import Mathlib.Data.List.Basic
import QueryHooks.Proofs.Mapper
import QueryHooks.Proofs.Text.Trim
import QueryHooks.TypeScript.Print

namespace QueryHooks.Mapper

open Text (trim Trimmed)
open TypeScript

-- The text is cut at the first place where the separator stands.
structure FirstCut (separator cs before after : List Char) : Prop where
  eq    : cs = before ++ separator ++ after
  first : ∀ before' after', cs = before' ++ separator ++ after' → before.length ≤ before'.length

namespace FirstCut

theorem unique (h : FirstCut separator cs before after) (h' : FirstCut separator cs before' after') :
    before = before' ∧ after = after' := by
  have hl := Nat.le_antisymm (h.first _ _ h'.eq) (h'.first _ _ h.eq)
  have he : before ++ (separator ++ after) = before' ++ (separator ++ after') := by
    rw [← List.append_assoc, ← List.append_assoc, ← h.eq, h'.eq]
  have ⟨hb, ha⟩ := List.append_inj he hl
  exact ⟨hb, List.append_cancel_left ha⟩

-- A separator that begins with `c` does not stand where there is no `c`.
theorem of_not_mem (h : c ∉ before) (separator after : List Char) :
    FirstCut (c :: separator) (before ++ c :: separator ++ after) before after where
  eq := rfl
  first before' after' he := by
    by_contra hl
    have hc : before' ++ [c] <+: before ++ c :: separator ++ after := ⟨separator ++ after', by simp [he]⟩
    have hb : before <+: before ++ c :: separator ++ after := ⟨c :: separator ++ after, by simp⟩
    have hp : before' ++ [c] <+: before :=
      List.prefix_of_prefix_length_le hc hb <| by simpa [Nat.succ_le_iff] using hl
    exact h <| hp.subset <| by simp

theorem not_mem (h : FirstCut [c] cs before after) : c ∉ before := by
  intro hc
  obtain ⟨before', rest, rfl⟩ := List.append_of_mem hc
  have hl := h.first before' (rest ++ [c] ++ after) <| by simp [h.eq]
  rw [List.length_append, List.length_cons] at hl
  omega

end FirstCut

theorem firstCut_of_splitFirst (h : splitFirst separator cs = some (before, after)) :
    FirstCut separator cs before after := by
  induction cs generalizing before
  case nil          => contradiction
  case cons c cs hi =>
    rw [splitFirst] at h
    split at h
    case isTrue hp  =>
      obtain ⟨rfl, rfl⟩ := Prod.mk.inj <| Option.some.inj h
      have hp := List.prefix_iff_eq_append.mp <| List.isPrefixOf_iff_prefix.mp hp
      exact ⟨hp.symm, fun _ _ _ => Nat.zero_le _⟩
    case isFalse hp =>
      obtain ⟨⟨before, after⟩, hs, he⟩ := Option.map_eq_some_iff.mp h
      obtain ⟨rfl, rfl⟩ := Prod.mk.inj he
      refine ⟨congrArg (c :: ·) (hi hs).eq, fun before' after' he => ?_⟩
      cases before'
      case nil  => exact absurd ⟨after', he.symm⟩ <| List.isPrefixOf_iff_prefix.not.mp hp
      case cons => exact Nat.succ_le_succ <| (hi hs).first _ _ (List.cons.inj he).right

theorem isSome_splitFirst (hs : separator ≠ []) (before after : List Char) :
    (splitFirst separator (before ++ separator ++ after)).isSome := by
  induction before
  case nil              =>
    obtain ⟨c, cs, rfl⟩ := List.exists_cons_of_ne_nil hs
    have hp : (c :: cs).isPrefixOf (c :: (cs ++ after)) := List.isPrefixOf_iff_prefix.mpr <| List.prefix_append ..
    simp [splitFirst, hp]
  case cons c before hi =>
    simp only [List.cons_append, splitFirst]
    split
    · rfl
    · simpa using hi

theorem splitFirst_eq_some_iff (hs : separator ≠ []) :
    splitFirst separator cs = some (before, after) ↔ FirstCut separator cs before after := by
  constructor
  case mp  => exact firstCut_of_splitFirst
  case mpr =>
    intro h
    obtain ⟨⟨before', after'⟩, hs⟩ := Option.isSome_iff_exists.mp <| isSome_splitFirst hs before after
    rw [← h.eq] at hs
    have ⟨hb, ha⟩ := h.unique <| firstCut_of_splitFirst hs
    rw [hs, hb, ha]

theorem splitFirst_of_not_mem (h : c ∉ cs) (separator : List Char) : splitFirst (c :: separator) cs = none := by
  refine Option.eq_none_iff_forall_ne_some.mpr fun ⟨before, after⟩ hs => h ?_
  simp [(firstCut_of_splitFirst hs).eq]

theorem segments_eq_splitOn (cs : List Char) : (segments cs).1 :: (segments cs).2 = cs.splitOn '.' := by
  induction cs
  case nil          => rfl
  case cons c cs hi =>
    rw [List.splitOn, List.splitOnP_cons_eq_if_modifyHead, ← List.splitOn, ← hi, segments_cons]
    by_cases hc : c = '.' <;> simp [hc]

-- A path is made of identifiers with dots between them, and the first one may be bound.
theorem isPath_iff :
    isPath cs ↔ ∃ head rest, cs = ['.'].intercalate (head :: rest) ∧ isBinding (.ofList head) ∧
      ∀ segment ∈ rest, isIdentifier (.ofList segment) := by
  have hp : isPath cs ↔ isBinding (.ofList (segments cs).1) ∧
      ∀ segment ∈ (segments cs).2, isIdentifier (.ofList segment) := by
    simp [isPath]
  rw [hp]
  constructor
  case mp  =>
    intro h
    exact ⟨_, _, (segments_eq_splitOn cs ▸ List.intercalate_splitOn '.').symm, h⟩
  case mpr =>
    rintro ⟨head, rest, rfl, hh, hr⟩
    have hd {segment} (h : isIdentifier (.ofList segment)) : '.' ∉ segment := by
      rw [isIdentifier, String.toList_ofList] at h
      exact not_mem_of_all_isIdentChar (all_isIdentChar_of_isIdentifierChars h) rfl
    have hs : ∀ segment ∈ head :: rest, '.' ∉ segment :=
      List.forall_mem_cons.mpr ⟨hd (isIdentifier_of_isBinding hh), fun s hs => hd (hr s hs)⟩
    have he := segments_eq_splitOn (['.'].intercalate (head :: rest))
    rw [List.splitOn_intercalate '.' hs (by simp)] at he
    obtain ⟨hh', hr'⟩ := List.cons.inj he
    rw [hh', hr']
    exact ⟨hh, hr⟩

def asWord : List Char := [' ', 'a', 's', ' ']

-- How an export is written: by its name, which is also its local name, or by its name and a local name. What may not be
-- bound, like the name of the default export, needs a local name.
inductive WritesItem : List Char → ImportItem → Prop
  | plain : isBinding name → WritesItem name.toList { name }
  | renamed : FirstCut asWord cs before after → trim before = name.toList → trim after = binding.toList →
      isIdentifier name → isBinding binding → WritesItem cs { name, renamed := some binding }

def ofExport (source : String) (item : ImportItem) : Mapper :=
  if item.name = "default" then .default source item.binding else .named source item

-- How a mapper is written: as a path, or as a module and an export.
inductive Written : List Char → Mapper → Prop
  | path : isBinding (.ofList head) → (∀ segment ∈ rest, isIdentifier (.ofList segment)) →
      cs = ['.'].intercalate (head :: rest) → Written cs (.internal (.ofList cs))
  | external : '#' ∉ source → '#' ∉ text → trim source ≠ [] → WritesItem (trim text) item →
      Written (source ++ '#' :: text) (ofExport (.ofList (trim source)) item)

theorem readPath_eq_ok_iff : readPath cs = .ok m ↔ isPath cs ∧ m = .internal (.ofList cs) := by
  simp only [readPath]
  split
  case isTrue hp  => simp [hp, eq_comm]
  case isFalse hp => simp [hp]

-- The export that a text names, be it a valid one or not.
def exportOf (cs : List Char) : ImportItem :=
  match splitFirst asWord cs with
  | some (name, renamed) => { name := .ofList (trim name), renamed := some (.ofList (trim renamed)) }
  | none                 => { name := .ofList cs }

theorem readExport_eq (source : String) (cs : List Char) :
    readExport source cs =
      if (exportOf cs).name = "default" && (exportOf cs).renamed.isNone then .error .unnamedDefault
      else if (exportOf cs).name ≠ "default" && !isIdentifier (exportOf cs).name then .error (.badExport (exportOf cs).name)
      else if !isBinding (exportOf cs).binding then .error (.badIdentifier (exportOf cs).binding)
      else .ok (ofExport source (exportOf cs)) := by
  rw [readExport, exportOf, asWord]
  cases splitFirst [' ', 'a', 's', ' '] cs <;> simp only [ofExport, apply_ite Except.ok]

-- The word `default` is an identifier that may not be bound, so the checks for it accept and refuse no other names than
-- the general ones do.
theorem readExport_eq_ok_iff :
    readExport source cs = .ok m ↔
      isIdentifier (exportOf cs).name ∧ isBinding (exportOf cs).binding ∧ ofExport source (exportOf cs) = m := by
  rw [readExport_eq]
  generalize exportOf cs = item
  have hi : isIdentifier "default" = true := by decide
  have hb : isBinding "default" = false := by decide
  split_ifs with h h' h''
  case pos =>
    have h : item.name = "default" ∧ item.renamed = none := by simpa using h
    simp [ImportItem.binding, h, hb]
  case pos =>
    have h : ¬isIdentifier item.name := by simp_all
    simp [h]
  case pos =>
    have h : ¬isBinding item.binding := by simp_all
    simp [h]
  case neg =>
    have hn : isIdentifier item.name := by
      by_cases hd : item.name = "default"
      · rw [hd]
        exact hi
      · simpa [hd] using h'
    simp_all

theorem writesItem_iff : WritesItem cs item ↔ exportOf cs = item ∧ isIdentifier item.name ∧ isBinding item.binding := by
  constructor
  case mp  =>
    intro h
    cases h
    case plain name hb =>
      have hi := isIdentifier_of_isBinding hb
      have hs : ' ' ∉ name.toList := not_mem_of_all_isIdentChar (all_isIdentChar_of_isIdentifierChars hi) rfl
      simp [exportOf, asWord, splitFirst_of_not_mem hs, hi, hb, ImportItem.binding]
    case renamed before after name binding hn ha hi hb hc =>
      simp [exportOf, (splitFirst_eq_some_iff (by decide)).mpr hc, hn, ha, hi, hb, ImportItem.binding]
  case mpr =>
    rintro ⟨rfl, hi, hb⟩
    cases hs : splitFirst asWord cs
    case none   =>
      simp only [exportOf, hs] at hi hb ⊢
      have h : WritesItem (String.ofList cs).toList { name := .ofList cs } := .plain hb
      rwa [String.toList_ofList] at h
    case some p =>
      simp only [exportOf, hs] at hi hb ⊢
      exact .renamed (firstCut_of_splitFirst hs) (by simp) (by simp) hi hb

theorem readTrimmed_eq_ok_iff : readTrimmed cs = .ok m ↔ Written cs m := by
  constructor
  case mp  =>
    intro h
    rw [readTrimmed] at h
    split at h
    case isTrue  => contradiction
    case isFalse =>
      split at h
      case h_1 =>
        obtain ⟨hp, hm⟩ := readPath_eq_ok_iff.mp h
        obtain ⟨head, rest, hc, hh, hr⟩ := isPath_iff.mp hp
        exact hm ▸ .path hh hr hc
      case h_2 source text hs =>
        dsimp only at h
        split at h <;> try contradiction
        split at h <;> try contradiction
        split at h <;> try contradiction
        case isFalse.isFalse.isFalse hm hn _ =>
          obtain ⟨hi, hb, ho⟩ := readExport_eq_ok_iff.mp h
          have hc := firstCut_of_splitFirst hs
          cases hc.eq
          cases ho
          have ht : '#' ∉ text := (Text.mem_trim rfl).not.mp <| by simpa using hm
          have hn : trim source ≠ [] := by simpa using hn
          have h := Written.external hc.not_mem ht hn <| writesItem_iff.mpr ⟨rfl, hi, hb⟩
          simpa using h
  case mpr =>
    intro h
    cases h
    case path head rest hh hr hc =>
      have hp := isPath_iff.mpr ⟨head, rest, hc, hh, hr⟩
      have hs : '#' ∉ cs := fun hm => absurd (isPathChar_of_isPath hp hm) (by decide)
      have hn : cs ≠ [] := fun he => absurd (he ▸ hp) (by decide)
      simp [readTrimmed, hn, splitFirst_of_not_mem hs, readPath_eq_ok_iff, hp]
    case external source text item hs ht hn hw =>
      obtain ⟨rfl, hi, hb⟩ := writesItem_iff.mp hw
      have hc : splitFirst ['#'] (source ++ '#' :: text) = some (source, text) := by
        rw [splitFirst_eq_some_iff (by simp)]
        simpa using FirstCut.of_not_mem hs [] text
      have ht : '#' ∉ trim text := by rwa [Text.mem_trim rfl]
      have hn' : trim text ≠ [] := fun he => absurd (he ▸ hi) (by decide)
      simp [readTrimmed, hc, ht, hn, hn', readExport_eq_ok_iff, hi, hb]

theorem isBlank_of_isPathChar (h : isPathChar c) : Text.isBlank c = false := by
  rw [isPathChar, Bool.or_eq_true, beq_iff_eq] at h
  rcases h with h | rfl
  case inl => exact Text.isBlank_of_isIdentChar h
  case inr => rfl

theorem writesItem_print (h : WritesItem cs item) :
    WritesItem item.print.toList item ∧ Trimmed item.print.toList ∧ '#' ∉ item.print.toList := by
  have hall {name : String} (hi : isIdentifier name) : name.toList.all isIdentChar :=
    all_isIdentChar_of_isIdentifierChars hi
  have htrim {name : String} (hi : isIdentifier name) : Trimmed name.toList :=
    .of_not_blank fun c hc => Text.isBlank_of_isIdentChar <| List.all_eq_true.mp (hall hi) c hc
  cases h
  case plain name hb =>
    have hi := isIdentifier_of_isBinding hb
    exact ⟨.plain hb, htrim hi, not_mem_of_all_isIdentChar (hall hi) rfl⟩
  case renamed name binding _ _ hi hb _ =>
    have hi' := isIdentifier_of_isBinding hb
    have hp : ImportItem.print { name, renamed := some binding } = name ++ " as " ++ binding := rfl
    have hp :
        (ImportItem.print { name, renamed := some binding }).toList = name.toList ++ asWord ++ binding.toList := by
      simp [hp, asWord]
    have hs : ' ' ∉ name.toList := not_mem_of_all_isIdentChar (hall hi) rfl
    rw [hp]
    refine ⟨?_, ?_, ?_⟩
    · exact .renamed (.of_not_mem hs _ _) (htrim hi).trim_eq_self (htrim hi').trim_eq_self hi hb
    · exact (htrim hi).append_append (ne_nil_of_isIdentifierChars hi) _ (htrim hi') (ne_nil_of_isIdentifierChars hi')
    · have hn := not_mem_of_all_isIdentChar (c := '#') (hall hi) rfl
      have hn' := not_mem_of_all_isIdentChar (c := '#') (hall hi') rfl
      simp [asWord, hn, hn']

theorem print_ofExport (h : WritesItem cs item) (source : String) :
    (ofExport source item).print = source ++ "#" ++ item.print := by
  cases h
  case plain name hb =>
    have hd : name ≠ "default" := by
      rintro rfl
      contradiction
    simp [ofExport, hd, print, ImportItem.print]
  case renamed name binding _ _ _ _ _ =>
    by_cases hd : name = "default" <;>
      simp [← String.toList_inj, ofExport, hd, print, ImportItem.print, ImportItem.binding]

theorem written_print (h : Written cs m) : Trimmed m.print.toList ∧ Written m.print.toList m := by
  cases h
  case path head rest hh hr hc =>
    have hp := isPath_iff.mpr ⟨head, rest, hc, hh, hr⟩
    rw [print, String.toList_ofList]
    exact ⟨.of_not_blank fun c hc => isBlank_of_isPathChar <| isPathChar_of_isPath hp hc, .path hh hr hc⟩
  case external source text item hs _ hn hw =>
    have ⟨hw', ht, hm⟩ := writesItem_print hw
    have hi : item.print.toList ≠ [] := by
      intro he
      obtain ⟨rfl, hi, _⟩ := writesItem_iff.mp (he ▸ hw')
      contradiction
    have hp : (ofExport (.ofList (trim source)) item).print.toList = trim source ++ '#' :: item.print.toList := by
      simp [print_ofExport hw]
    rw [hp]
    constructor
    · simpa using (Text.trimmed_trim source).append_append hn ['#'] ht hi
    · have hs : '#' ∉ trim source := (Text.mem_trim rfl).not.mpr hs
      have hw : WritesItem (trim item.print.toList) item := ht.trim_eq_self.symm ▸ hw'
      simpa [Text.trim_trim] using Written.external hs hm (by rwa [Text.trim_trim]) hw

-- A text is read as the mapper that it is written for, if it is written for one. From there, it can be written and read
-- again, and what is called begins with a name that may be bound.
theorem read_iff_written (text : String) (m : Mapper) :
    (read text = .ok m ↔ Written (trim text.toList) m) ∧
    (read text = .ok m → read m.print = .ok m) ∧
    (read text = .ok m →
      ∃ head rest, m.callee.toList = ['.'].intercalate (head :: rest) ∧ isBinding (.ofList head) ∧
        ∀ segment ∈ rest, isIdentifier (.ofList segment)) := by
  have hw (text) : read text = .ok m ↔ Written (trim text.toList) m :=
    mapError_eq_ok.trans readTrimmed_eq_ok_iff
  refine ⟨hw text, fun h => ?_, fun h => isPath_iff.mp <| isPath_callee_of_read h⟩
  have ⟨ht, hp⟩ := written_print <| (hw text).mp h
  rwa [hw, ht.trim_eq_self]

theorem read_iff_written_renamed :
    let m := named "./a as b" { name := "class", renamed := some "as" }
    read "\n./a as b # class  as  as " = .ok m ∧ Written (trim "\n./a as b # class  as  as ".toList) m ∧
    read m.print = .ok m ∧
    ∃ head rest, m.callee.toList = ['.'].intercalate (head :: rest) ∧ isBinding (.ofList head) ∧
      ∀ segment ∈ rest, isIdentifier (.ofList segment) := by
  intro m
  have h : read "\n./a as b # class  as  as " = .ok m := by rfl
  have ⟨hw, hp, hc⟩ := read_iff_written "\n./a as b # class  as  as " m
  exact ⟨h, hw.mp h, hp h, hc h⟩

end QueryHooks.Mapper
