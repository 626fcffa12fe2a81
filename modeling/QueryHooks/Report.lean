import QueryHooks.Error
import QueryHooks.Event

namespace QueryHooks

structure Report (α : Type) where
  events : List Event := []
  result : Except Error α

namespace Report

def ofExcept (result : Except Error α) : Report α where
  result

def tell (events : List Event) : Report Unit where
  events
  result := .ok ()

instance : Monad Report where
  pure a   := { result := .ok a }
  bind r f :=
    match r.result with
    | .ok a    => { events := r.events ++ (f a).events, result := (f a).result }
    | .error e => { events := r.events, result := .error e }

@[simp]
theorem result_pure (a : α) : (pure a : Report α).result = .ok a :=
  rfl

@[simp]
theorem result_ofExcept (x : Except Error α) : (ofExcept x).result = x :=
  rfl

@[simp]
theorem result_tell (events : List Event) : (tell events).result = .ok () :=
  rfl

@[simp]
theorem result_bind (r : Report α) (f : α → Report β) :
    (r >>= f).result = r.result >>= fun a => (f a).result := by
  cases h : r.result <;> simp [bind, h, Except.bind]

end Report
end QueryHooks
