import QueryHooks.Proofs.FileLiterals
import QueryHooks.Proofs.Request
import QueryHooks.Proofs.Strategy.Literals
import QueryHooks.Proofs.TypeScript.Broken

namespace QueryHooks.Request

open TypeScript

-- Of an entry that has a key, only the key may be broken.
def BreaksInKey (e : Entry) : Prop :=
  ∀ key ∈ e.key?, AnyBroken e.quoted ↔ Broken key

theorem breaksInKey_raw (key code : String) : BreaksInKey (.keyed key (.raw code)) := by
  intro key' hk
  cases hk
  rw [Entry.quoted, Expr.quoted, List.append_nil]
  exact anyBroken_quotedKey

theorem breaksInKey_setEntry (h : ∀ e ∈ entries, BreaksInKey e) (key code : String) :
    ∀ e ∈ setEntry key (.raw code) entries, BreaksInKey e := by
  induction entries
  case nil             => exact List.forall_mem_singleton.mpr (breaksInKey_raw key code)
  case cons e es hi =>
    obtain ⟨he, hs⟩ := List.forall_mem_cons.mp h
    cases e
    case spread => exact List.forall_mem_cons.mpr ⟨he, hi hs⟩
    case keyed  =>
      rw [setEntry]
      split
      case isTrue  => exact List.forall_mem_cons.mpr ⟨breaksInKey_raw key code, hs⟩
      case isFalse => exact List.forall_mem_cons.mpr ⟨he, hi hs⟩

-- What is replaced has the key that it is replaced for.
theorem anyBroken_setEntry (h : ∀ e ∈ entries, BreaksInKey e) (key code : String) :
    AnyBroken (Entry.quotedAll (setEntry key (.raw code) entries)) ↔
      Broken key ∨ AnyBroken (Entry.quotedAll entries) := by
  have hr : AnyBroken (Entry.quoted (.keyed key (.raw code))) ↔ Broken key := breaksInKey_raw key code key rfl
  induction entries
  case nil             => simp [setEntry, -Entry.quoted, hr, anyBroken_nil]
  case cons e es hi =>
    obtain ⟨he, hs⟩ := List.forall_mem_cons.mp h
    cases e
    case spread           => simp only [setEntry, Entry.quotedAll, anyBroken_append, hi hs, or_left_comm]
    case keyed key' value =>
      rw [setEntry]
      split
      case isTrue hk  =>
        have he : AnyBroken (Entry.quoted (.keyed key' value)) ↔ Broken key := hk ▸ he key' rfl
        simp only [Entry.quotedAll, anyBroken_append, hr, he, or_self_left]
      case isFalse    => simp only [Entry.quotedAll, anyBroken_append, hi hs, or_left_comm]

theorem breaksInKey_setParam (h : ∀ e ∈ entries, BreaksInKey e) (param : String × Json) :
    ∀ e ∈ setParam entries param, BreaksInKey e := by
  fun_cases setParam entries param
  case case1 => exact h
  case case2 => exact h
  case case3 => exact breaksInKey_setEntry h _ _

theorem anyBroken_setParam (h : ∀ e ∈ entries, BreaksInKey e) (param : String × Json) :
    AnyBroken (Entry.quotedAll (setParam entries param)) ↔
      Broken param.1 ∨ AnyBroken (Entry.quotedAll entries) := by
  have hh : ¬Broken "headers" := by decide
  have hb : ¬Broken "body" := by decide
  fun_cases setParam entries param
  case case1 => exact (or_iff_right hh).symm
  case case2 => exact (or_iff_right hb).symm
  case case3 => exact anyBroken_setEntry h ..

theorem anyBroken_params (h : ∀ e ∈ entries, BreaksInKey e) (params : Json.Entries) :
    AnyBroken (Entry.quotedAll (params.foldl setParam entries)) ↔
      AnyBroken (params.map (·.1)) ∨ AnyBroken (Entry.quotedAll entries) := by
  induction params generalizing entries
  case nil                  => exact (or_iff_right anyBroken_nil).symm
  case cons param params hi =>
    rw [List.foldl_cons, hi (breaksInKey_setParam h param), anyBroken_setParam h]
    simp only [AnyBroken, List.map_cons, List.exists_mem_cons_iff]
    grind

variable {r : Request}

theorem anyBroken_headers : ¬AnyBroken r.headers.quoted := by
  have ho : Entry.quotedAll r.ownHeaders = [] := by
    rw [ownHeaders]
    cases r.paramEntries.get? "headers" <;> rfl
  have hq : r.headers.quoted = ["Content-Type", "application/json"] := by
    simp [headers, ho, Expr.text, Expr.isNamed]
    rfl
  rw [hq]
  decide

theorem anyBroken_init : AnyBroken r.init.quoted ↔ AnyBroken (r.paramEntries.map (·.1)) := by
  have hm : ∀ e ∈ [Entry.keyed "method" (.text "POST")], BreaksInKey e := by
    intro e he
    cases List.mem_singleton.mp he
    intro key hk
    cases hk
    decide
  have hp := anyBroken_params hm r.paramEntries
  have hm : ¬AnyBroken (Entry.quotedAll [.keyed "method" (.text "POST")]) := by decide
  have hb : ¬AnyBroken body.quoted := by decide
  have hh : ¬AnyBroken r.headers.quoted := anyBroken_headers
  have hk : quotedKey "headers" = [] := quotedKey_of_isIdentifier rfl
  have hk' : quotedKey "body" = [] := quotedKey_of_isIdentifier rfl
  rw [or_iff_left hm] at hp
  simp [init, anyBroken_append, hp, hk, hk', hh, hb]

theorem anyBroken_endpointExpr : AnyBroken r.endpointExpr.quoted ↔ ¬r.takesEnvironment ∧ Broken r.endpoint := by
  rw [endpointExpr_eq]
  split
  case isTrue h  => exact iff_of_false anyBroken_nil fun h' => h'.left h
  case isFalse h => exact anyBroken_singleton.trans (and_iff_right h).symm

theorem anyBroken_quoted :
    AnyBroken r.quoted ↔ ¬r.takesEnvironment ∧ Broken r.endpoint ∨ AnyBroken (r.paramEntries.map (·.1)) := by
  have hi : ¬AnyBroken argsInterface.quoted := by decide
  have hf : r.function.quoted = ["headers"] ++ (r.endpointExpr.quoted ++ r.init.quoted) := by
    simp [function, send, Stmt.define, Expr.apply, requestHeadersType]
  have hh : ¬AnyBroken ["headers"] := by decide
  rw [quoted, hf, anyBroken_append, anyBroken_append, anyBroken_append, or_iff_right hi, or_iff_right hh,
    anyBroken_endpointExpr, anyBroken_init]

end QueryHooks.Request
