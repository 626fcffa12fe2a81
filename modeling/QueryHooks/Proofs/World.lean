import QueryHooks.Command.Run
import QueryHooks.Proofs.Report

namespace QueryHooks

def FileTree.source (t : FileTree) (f : Refusals) (path : String) : Source where
  path
  text := t.read f path

namespace World

variable {f : Refusals} {w w' : World}

section

variable {x : ExceptT Error (StateM World) α} {k : α → ExceptT Error (StateM World) β}

theorem run_bind_of_ok (h : x.run.run w = (.ok a, w')) : (x >>= k).run.run w = (k a).run.run w' := by
  rw [ExceptT.run_bind, StateT.run_bind, h]
  rfl

theorem run_bind_of_error (h : x.run.run w = (.error e, w')) : (x >>= k).run.run w = (.error e, w') := by
  rw [ExceptT.run_bind, StateT.run_bind, h]
  rfl

theorem run_bind_eq_ok (h : (x >>= k).run.run w = (.ok b, w')) :
    ∃ a w₁, x.run.run w = (.ok a, w₁) ∧ (k a).run.run w₁ = (.ok b, w') := by
  cases hx : x.run.run w
  case mk result w₁ =>
    cases result
    case error e =>
      rw [run_bind_of_error hx] at h
      cases h
    case ok a    => exact ⟨a, w₁, rfl, run_bind_of_ok hx ▸ h⟩

end

def logging (w : World) (events : List Event) : World :=
  { w with events := w.events ++ events }

theorem run_source (path : String) :
    (liftM ((effects f).source path) : ExceptT Error (StateM World) Source).run.run w =
      (.ok (w.files.source f path), w) :=
  rfl

theorem run_log (events : List Event) : (events.forM (effects f).log).run w = ((), w.logging events) := by
  induction events generalizing w
  case nil          => rw [logging, List.append_nil]; rfl
  case cons e es hi => exact hi.trans <| by rw [logging, List.append_assoc]; rfl

theorem run_tell (r : Report α) : ((effects f).tell r).run.run w = (r.result, w.logging r.events) := by
  rw [Effects.tell, ExceptT.run_mk, StateT.run_bind, run_log]
  rfl

-- What is told first, and then what goes on from there, is told as one report.
theorem run_tell_bind {r : Report α} {k : α → Report β} {k' : α → ExceptT Error (StateM World) β}
    (hk : ∀ a, (k' a).run.run (w.logging r.events) = ((effects f).tell (k a)).run.run (w.logging r.events)) :
    ((effects f).tell r >>= k').run.run w = ((effects f).tell (r >>= k)).run.run w := by
  have ht := run_tell (f := f) (w := w) r
  cases hr : r.result
  case error e =>
    rw [run_bind_of_error (hr ▸ ht), run_tell]
    simp [bind, hr]
  case ok a    =>
    rw [run_bind_of_ok (hr ▸ ht), hk, run_tell, run_tell]
    simp [bind, hr, logging, List.append_assoc]

-- The action works on the files, and on nothing else.
def OnFiles (x : StateM World α) : Prop :=
  ∃ action, x = onFiles action

namespace OnFiles

theorem bind {x : ExceptT Error (StateM World) α} {k : α → ExceptT Error (StateM World) β}
    (hx : OnFiles x.run) (hk : ∀ a, OnFiles (k a).run) : OnFiles (x >>= k).run := by
  obtain ⟨action, hx⟩ := hx
  obtain ⟨next, hk⟩ := Classical.axiomOfChoice hk
  refine ⟨fun t => match action t with | (.ok a, t) => next a t | (.error e, t) => (.error e, t), funext fun w => ?_⟩
  cases ha : action w.files
  case mk result t =>
    have hw : x.run.run w = (result, { w with files := t }) := by
      rw [hx]
      simp [onFiles, StateT.run, ha]
    simp only [onFiles, ha]
    cases result
    case error e => exact run_bind_of_error hw
    case ok a    => exact (run_bind_of_ok hw).trans <| by rw [hk]; rfl

theorem orUnwritable {x : StateM World (Except String Unit)} (hx : OnFiles x) (path : String) :
    OnFiles (Effects.orUnwritable path x).run := by
  obtain ⟨action, rfl⟩ := hx
  exact ⟨fun t => let (r, t) := action t; (r.mapError (.unwritable path), t), rfl⟩

theorem makeParent (f : Refusals) (path : String) : OnFiles ((effects f).makeParent path).run := by
  rw [Effects.makeParent]
  split
  case isTrue  => exact ⟨(.ok (), ·), rfl⟩
  case isFalse => exact orUnwritable ⟨(·.makeDirectories f _), rfl⟩ _

theorem save (f : Refusals) (path text : String) : OnFiles ((effects f).save path text).run :=
  bind (makeParent f path) fun _ => orUnwritable ⟨(·.write f path text), rfl⟩ path

end OnFiles

-- What has been printed and logged before does not matter to saving.
theorem run_save_of_ok (h : ((effects f).save path text).run.run { files := w.files } = (.ok (), w')) :
    ((effects f).save path text).run.run w = (.ok (), { w with files := w'.files }) := by
  obtain ⟨action, hs⟩ := OnFiles.save f path text
  rw [hs] at h ⊢
  cases ha : action w.files
  case mk result t =>
    simp only [onFiles, StateT.run, ha] at h ⊢
    obtain ⟨rfl, rfl⟩ := Prod.mk.inj h
    rfl

theorem run_orUnwritable_eq_ok {x : StateM World (Except String Unit)}
    (h : (Effects.orUnwritable path x).run.run w = (.ok (), w')) : x.run w = (.ok (), w') := by
  cases hx : x.run w
  case mk result w₁ =>
    have h : (result.mapError (Error.unwritable path), w₁) = (.ok (), w') := by
      rw [← h, Effects.orUnwritable, ExceptT.run_mk, StateT.run_bind, hx]
      rfl
    obtain ⟨hr, rfl⟩ := Prod.mk.inj h
    rw [mapError_eq_ok.mp hr]

theorem read?_of_save (h : ((effects f).save path text).run.run w = (.ok (), w')) :
    w'.files.read? path = some text := by
  obtain ⟨_, w₁, _, h⟩ := run_bind_eq_ok h
  have hw : ((w₁.files.write f path text).1, { w₁ with files := (w₁.files.write f path text).2 }) = (.ok (), w') :=
    run_orUnwritable_eq_ok h
  obtain ⟨hr, rfl⟩ := Prod.mk.inj hw
  exact FileTree.read?_of_write f (Prod.ext hr rfl)

end World
end QueryHooks
