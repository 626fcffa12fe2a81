import Mathlib.Data.List.Basic
import QueryHooks.Config.File
import QueryHooks.Operation.File

namespace QueryHooks

-- What the first of the readers that takes the datum makes of it.
def firstOf (readers : List (Datum → Option α)) (d : Datum) : Option α :=
  readers.findSome? (· d)

-- No two of the readers take the datum.
def Exclusive (readers : List (Datum → Option α)) (d : Datum) : Prop :=
  readers.Pairwise fun read read' => read d = none ∨ read' d = none

theorem Exclusive.firstOf_eq (hp : readers.Perm readers') (h : Exclusive readers d) :
    firstOf readers d = firstOf readers' d := by
  induction hp
  case nil => rfl
  case cons read _ _ _ hi =>
    have hi : List.findSome? _ _ = _ := hi h.of_cons
    simp [firstOf, List.findSome?_cons, hi]
  case swap read read' _ =>
    have h := (List.pairwise_cons.mp h).left _ (.head _)
    cases hr : read d <;> cases hr' : read' d <;> simp_all [firstOf]
  case trans hp _ hi hi' => exact (hi h).trans <| hi' <| hp.pairwise h Or.symm

namespace Fields

variable {fields : Fields} {read : Datum → Option α}

theorem mem_of_required (h : fields.required name read = some a) : name ∈ fields.map Prod.fst := by
  obtain ⟨d, hd, _⟩ := Option.bind_eq_some_iff.mp h
  obtain ⟨_, _, hf, _⟩ := List.lookup_eq_some_iff.mp hd
  simp [hf]

-- The first field of a structure that is written as a list is the first item.
theorem required_zip_cons (h : Fields.required ((name :: names).zip items) name read = some a) :
    ∃ d ds, items = d :: ds ∧ read d = some a := by
  cases items
  case nil       => simp [required] at h
  case cons d ds => exact ⟨d, ds, rfl, by simpa [required] using h⟩

end Fields

namespace Datum

theorem fields?_list (h : (list items).fields? names closed = some fields) :
    items.length ≤ names.length ∧ names.zip items = fields := by
  simpa [fields?] using h

theorem length_recordFields? (h : recordFields? names closed es = some fields) : fields.length ≤ es.length := by
  induction es generalizing fields
  case nil => simp_all [recordFields?]
  case cons e es hi =>
    simp only [recordFields?, Option.bind_eq_bind, Option.bind_eq_some_iff] at h
    obtain ⟨rest, hr, name?, _, h⟩ := h
    have hl := hi hr
    cases name? <;> grind

end Datum

namespace Operation

theorem required_of_ofDatum? (h : ofDatum? d = some op) :
    ∃ fields k name, d.fields? fieldNames false = some fields ∧ fields.required "kind" Kind.ofDatum? = some k ∧
      fields.required "name" Datum.text? = some name := by
  simp only [ofDatum?, Option.bind_eq_bind, Option.bind_eq_some_iff] at h
  obtain ⟨fields, hf, k, hk, name, hn, _⟩ := h
  exact ⟨fields, k, name, hf, hk, hn⟩

-- A kind is a text or a record with one entry, and an operation has both a kind and a name.
theorem ofDatum?_of_kind (h : Kind.ofDatum? d = some k) : ofDatum? d = none := by
  by_contra ho
  obtain ⟨op, ho⟩ := Option.ne_none_iff_exists'.mp ho
  obtain ⟨fields, _, _, hf, hk, hn⟩ := required_of_ofDatum? ho
  have hk := Fields.mem_of_required hk
  have hn := Fields.mem_of_required hn
  unfold Kind.ofDatum? at h
  split at h
  case h_1 => simp [Datum.fields?] at hf
  case h_2 =>
    have hl := Datum.length_recordFields? hf
    match fields with
    | []          => contradiction
    | [_]         => exact absurd ((List.mem_singleton.mp hk).trans (List.mem_singleton.mp hn).symm) (by decide)
    | _ :: _ :: _ => contradiction
  case h_3 => contradiction

-- Where a list of operations is read as a structure, an operation stands for the first field.
theorem ofDatum?_of_required {read : Datum → Option α} (hl : listOfDatum? d = some ops)
    (hf : d.fields? (field :: names) closed = some fields) (hr : fields.required field read = some a) :
    ∃ d op, read d = some a ∧ ofDatum? d = some op := by
  obtain ⟨items, hi, hm⟩ := Option.bind_eq_some_iff.mp hl
  cases d
  case list =>
    cases hi
    obtain ⟨_, rfl⟩ := Datum.fields?_list hf
    obtain ⟨d, ds, rfl, hd⟩ := Fields.required_zip_cons hr
    rw [List.mapM_cons] at hm
    obtain ⟨op, ho, _⟩ := Option.bind_eq_some_iff.mp hm
    exact ⟨d, op, hd, ho⟩
  all_goals contradiction

-- The first field of an operation is its kind.
theorem ofDatum?_of_list (h : listOfDatum? d = some ops) : ofDatum? d = none := by
  by_contra ho
  obtain ⟨op, ho⟩ := Option.ne_none_iff_exists'.mp ho
  obtain ⟨fields, _, _, hf, hk, _⟩ := required_of_ofDatum? ho
  obtain ⟨d, op, hk, ho⟩ := ofDatum?_of_required h hf hk
  simp [ofDatum?_of_kind hk] at ho

end Operation

namespace OperationsFile

-- The forms of an operations file, in the order they are tried in.
def forms : List (Datum → Option OperationsFile) :=
  [ofList?, ofDocument?]

theorem ofDatum?_eq_firstOf : ofDatum? d = d.settle.bind (firstOf forms) := by
  refine congrArg d.settle.bind <| funext fun d => ?_
  cases hl : ofList? d <;> simp [firstOf, forms, hl]

-- The first field of a document is a list of operations.
theorem exclusive_forms (d : Datum) : Exclusive forms d := by
  have h : ofList? d = none ∨ ofDocument? d = none := by
    by_contra! h
    obtain ⟨⟨_, hl⟩, _, hd⟩ := h.imp Option.ne_none_iff_exists'.mp Option.ne_none_iff_exists'.mp
    obtain ⟨operations, hl, _⟩ := Option.map_eq_some_iff.mp hl
    simp only [ofDocument?, Option.bind_eq_bind, Option.bind_eq_some_iff] at hd
    obtain ⟨fields, hf, operations, hr, _⟩ := hd
    obtain ⟨d, op, hr, ho⟩ := Operation.ofDatum?_of_required hl hf hr
    simp [Operation.ofDatum?_of_list hr] at ho
  simpa [Exclusive, forms] using h

end OperationsFile

namespace Datum

variable {entries : List (String × Datum)}

def entry (e : String × Datum) : Datum × Datum :=
  (text e.fst, e.snd)

-- A record whose keys are texts, as they all are in JSON.
def object (entries : List (String × Datum)) : Datum :=
  record <| entries.map entry

theorem settleEntries_object (h : settleEntries (entries.map entry) = some es) :
    ∃ entries' : List (String × Datum), es = entries'.map entry ∧ entries'.map Prod.fst = entries.map Prod.fst := by
  induction entries generalizing es
  case nil =>
    cases h
    exact ⟨[], rfl, rfl⟩
  case cons e entries hi =>
    simp only [List.map_cons, entry, settleEntries, settle, Option.bind_eq_bind, Option.bind_some,
      Option.bind_eq_some_iff] at h
    obtain ⟨d, _, es, he, h⟩ := h
    cases h
    obtain ⟨entries', rfl, hk⟩ := hi he
    exact ⟨(e.fst, d) :: entries', rfl, by simp [hk]⟩

theorem settle_object (h : (object entries).settle = some d) :
    ∃ entries', d = object entries' ∧ entries'.map Prod.fst = entries.map Prod.fst := by
  simp only [object, settle, Option.map_eq_some_iff] at h
  obtain ⟨es, he, rfl⟩ := h
  obtain ⟨entries', rfl, hk⟩ := settleEntries_object he
  exact ⟨entries', rfl, hk⟩

-- A closed structure takes all entries of an object, so their keys are among its names.
theorem fields?_object (h : (object entries).fields? names true = some fields) :
    fields = entries ∧ ∀ key ∈ entries.map Prod.fst, key ∈ names := by
  simp only [object, fields?] at h
  induction entries generalizing fields
  case nil          => simp_all [recordFields?]
  case cons e es hi =>
    obtain ⟨key, d⟩ := e
    simp only [List.map_cons, recordFields?, entry, fieldName?, Option.bind_eq_bind, Option.bind_eq_some_iff] at h
    obtain ⟨rest, hr, name?, hn, h⟩ := h
    obtain ⟨rfl, hk⟩ := hi hr
    by_cases hm : key ∈ names
    case pos =>
      obtain rfl : some key = name? := by simpa [hm] using hn
      simp only [Option.ite_none_left_eq_some, Option.some.injEq] at h
      exact ⟨h.right.symm, List.forall_mem_cons.mpr ⟨hm, hk⟩⟩
    case neg =>
      obtain rfl : none = name? := by simpa [hm] using hn
      contradiction

-- A reader that requires a key excludes one that does not know it.
theorem none_or_none_of_key {read read' : Datum → Option α} {d : Datum} {keys names : List String} (key : String)
    (hr : ∀ a, read d = some a → key ∈ keys) (hr' : ∀ a, read' d = some a → ∀ key ∈ keys, key ∈ names)
    (hn : key ∉ names) : read d = none ∨ read' d = none := by
  by_contra! h
  obtain ⟨⟨a, ha⟩, b, hb⟩ := h.imp Option.ne_none_iff_exists'.mp Option.ne_none_iff_exists'.mp
  exact hn <| hr' b hb key <| hr a ha

end Datum

namespace FetcherSetting

variable {entries : List (String × Datum)}

-- The forms of a fetcher, in the order they are tried in.
def forms : List (Datum → Option FetcherSetting) :=
  [fun d => d.text?.map name, custom?, fetch?, native?]

theorem ofDatum?_eq_firstOf : ofDatum? d = d.settle.bind (firstOf forms) := by
  refine congrArg d.settle.bind <| funext fun d => ?_
  cases ht : d.text?.map name <;> cases hc : custom? d <;> cases hf : fetch? d <;> simp [firstOf, forms, ht, hc, hf]

theorem custom?_object (h : custom? (.object entries) = some s) :
    (∃ func isReactHook, s = custom func isReactHook) ∧ "func" ∈ entries.map Prod.fst ∧
      ∀ key ∈ entries.map Prod.fst, key ∈ customFieldNames := by
  simp only [custom?, Option.bind_eq_bind, Option.bind_eq_some_iff, Option.some.injEq] at h
  obtain ⟨fields, hf, func, hr, isReactHook, _, rfl⟩ := h
  obtain ⟨rfl, hk⟩ := Datum.fields?_object hf
  exact ⟨⟨func, isReactHook, rfl⟩, Fields.mem_of_required hr, hk⟩

theorem fetch?_object (h : fetch? (.object entries) = some s) :
    (∃ endpoint params, s = fetch endpoint params) ∧ "endpoint" ∈ entries.map Prod.fst ∧
      ∀ key ∈ entries.map Prod.fst, key ∈ fetchFieldNames := by
  simp only [fetch?, Option.bind_eq_bind, Option.bind_eq_some_iff, Option.some.injEq] at h
  obtain ⟨fields, hf, endpoint, hr, params, _, rfl⟩ := h
  obtain ⟨rfl, hk⟩ := Datum.fields?_object hf
  exact ⟨⟨endpoint, params, rfl⟩, Fields.mem_of_required hr, hk⟩

theorem native?_object (h : native? (.object entries) = some s) :
    (∃ setting, s = native setting) ∧ ∀ key ∈ entries.map Prod.fst, key ∈ nativeFieldNames := by
  simp only [native?, Option.bind_eq_bind, Option.bind_eq_some_iff, Option.some.injEq] at h
  obtain ⟨fields, hf, _, _, _, _, _, _, _, _, _, _, _, _, rfl⟩ := h
  exact ⟨⟨_, rfl⟩, (Datum.fields?_object hf).right⟩

-- The name that one form requires is unknown to the others, which take no unknown names.
theorem exclusive_forms (entries : List (String × Datum)) : Exclusive forms (.object entries) := by
  have hc (s) (h : custom? (.object entries) = some s) := (custom?_object h).right
  have hf (s) (h : fetch? (.object entries) = some s) := (fetch?_object h).right
  have hn (s) (h : native? (.object entries) = some s) := (native?_object h).right
  have hcf := Datum.none_or_none_of_key "func" (hc · · |>.left) (hf · · |>.right) (by decide)
  have hcn := Datum.none_or_none_of_key "func" (hc · · |>.left) hn (by decide)
  have hfn := Datum.none_or_none_of_key "endpoint" (hf · · |>.left) hn (by decide)
  have ht : (Datum.object entries).text? = none := rfl
  simp [Exclusive, forms, ht, hcf, hcn, hfn]

-- Which form is read depends on the keys alone.
theorem form_of_keys (h : firstOf forms (.object entries) = some s) :
    ((∃ func isReactHook, s = custom func isReactHook) ↔ "func" ∈ entries.map Prod.fst) ∧
      ((∃ endpoint params, s = fetch endpoint params) ↔ "endpoint" ∈ entries.map Prod.fst) ∧
      ((∃ setting, s = native setting) ↔ "func" ∉ entries.map Prod.fst ∧ "endpoint" ∉ entries.map Prod.fst) := by
  obtain ⟨read, hm, hr⟩ := List.exists_of_findSome?_eq_some h
  simp only [forms, List.mem_cons, List.not_mem_nil, or_false] at hm
  rcases hm with rfl | rfl | rfl | rfl
  · contradiction
  · obtain ⟨⟨func, isReactHook, rfl⟩, hf, hk⟩ := custom?_object hr
    generalize entries.map Prod.fst = keys at *
    have he : "endpoint" ∉ keys := fun he => absurd (hk _ he) (by decide)
    simp [hf, he]
  · obtain ⟨⟨endpoint, params, rfl⟩, he, hk⟩ := fetch?_object hr
    generalize entries.map Prod.fst = keys at *
    have hf : "func" ∉ keys := fun hf => absurd (hk _ hf) (by decide)
    simp [hf, he]
  · obtain ⟨⟨setting, rfl⟩, hk⟩ := native?_object hr
    generalize entries.map Prod.fst = keys at *
    have hf : "func" ∉ keys := fun hf => absurd (hk _ hf) (by decide)
    have he : "endpoint" ∉ keys := fun he => absurd (hk _ he) (by decide)
    simp [hf, he]

end FetcherSetting

theorem input_forms_unambiguous :
    (∀ d : Datum, Exclusive OperationsFile.forms d ∧
      ∀ forms, forms.Perm OperationsFile.forms → d.settle.bind (firstOf forms) = OperationsFile.ofDatum? d) ∧
    ∀ entries : List (String × Datum),
      let object := Datum.object entries
      let keys := entries.map Prod.fst
      Exclusive FetcherSetting.forms object ∧
      (∀ forms, forms.Perm FetcherSetting.forms → object.settle.bind (firstOf forms) = FetcherSetting.ofDatum? object) ∧
      ∀ s, FetcherSetting.ofDatum? object = some s →
        ((∃ func isReactHook, s = .custom func isReactHook) ↔ "func" ∈ keys) ∧
        ((∃ endpoint params, s = .fetch endpoint params) ↔ "endpoint" ∈ keys) ∧
        ((∃ setting, s = .native setting) ↔ "func" ∉ keys ∧ "endpoint" ∉ keys) := by
  constructor
  case left =>
    refine fun d => ⟨OperationsFile.exclusive_forms d, fun forms hp => ?_⟩
    rw [OperationsFile.ofDatum?_eq_firstOf]
    exact Option.bind_congr fun d _ => (OperationsFile.exclusive_forms d).firstOf_eq hp.symm |>.symm
  case right =>
    intro entries
    refine ⟨FetcherSetting.exclusive_forms entries, fun forms hp => ?_, fun s h => ?_⟩
    · rw [FetcherSetting.ofDatum?_eq_firstOf]
      refine Option.bind_congr fun d hd => ?_
      obtain ⟨entries', rfl, _⟩ := Datum.settle_object hd
      exact (FetcherSetting.exclusive_forms entries').firstOf_eq hp.symm |>.symm
    · rw [FetcherSetting.ofDatum?_eq_firstOf] at h
      obtain ⟨d, hd, h⟩ := Option.bind_eq_some_iff.mp h
      obtain ⟨entries', rfl, hk⟩ := Datum.settle_object hd
      exact hk ▸ FetcherSetting.form_of_keys h

-- In a document, the inner list would have to be one of operations.
theorem input_forms_unambiguous_reversed :
    let operations := Datum.list [.list [.text "query", .text "user"]]
    let fetcher := Datum.object [("isReactHook", .bool true), ("func", .text "./fetcher#useFetchData")]
    operations.settle.bind (firstOf OperationsFile.forms.reverse) =
        some { operations := [.conventional .query "user"], documents := "" } ∧
      fetcher.settle.bind (firstOf FetcherSetting.forms.reverse) = some (.custom "./fetcher#useFetchData" true) ∧
      "endpoint" ∉ ["isReactHook", "func"] := by
  have ⟨ho, hf⟩ := input_forms_unambiguous
  have hf := hf [("isReactHook", .bool true), ("func", .text "./fetcher#useFetchData")]
  refine ⟨(ho _).right _ (List.reverse_perm _), (hf.right.left _ (List.reverse_perm _)).trans rfl, ?_⟩
  have hk := hf.right.right (.custom "./fetcher#useFetchData" true) rfl
  intro he
  obtain ⟨_, _, h⟩ := hk.right.left.mpr he
  contradiction

end QueryHooks
