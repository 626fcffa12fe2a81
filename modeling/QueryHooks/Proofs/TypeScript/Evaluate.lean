import QueryHooks.Proofs.Mapper
import QueryHooks.Proofs.TypeScript.Scope

namespace QueryHooks.TypeScript

inductive Value where
  | undefined
  | null
  | bool (value : Bool)
  | text (value : String)
  | array (items : List Value)
  -- Of several fields with the same name, the first one counts.
  | object (fields : List (String × Value))
  | function (code : Arrow) (scope : List (String × Option Value))
  -- Any other value, such as a number or a function that is not written in the code.
  | foreign (id : Nat)

abbrev Fields := List (String × Value)

-- The names that are declared, of which some may not have been initialized yet.
abbrev Scope := List (String × Option Value)

inductive Fault where
  | unbound (name : String)
  | uninitialized (name : String)
  -- The member was read from undefined or null.
  | noObject (member : String)
  | thrown (value : Value)
  | unsupported

abbrev Outcome := Except Fault Value

-- What the code runs in. A function is called on a value, which is undefined if it is no member of one.
structure Host where
  isTruthy : Nat → Bool
  fields   : Value → Fields
  member   : Value → String → Outcome
  call     : Value → Value → List Value → Outcome

namespace Outcome

theorem ok_bind (a : α) (f : α → Except Fault β) : Except.ok a >>= f = f a :=
  rfl

theorem map_ok (f : α → β) (a : α) : f <$> (Except.ok a : Except Fault α) = .ok (f a) :=
  rfl

end Outcome

namespace Value

variable (h : Host)

def isNullish : Value → Bool
  | undefined => true
  | null      => true
  | _         => false

def isTruthy : Value → Bool
  | undefined  => false
  | null       => false
  | bool value => value
  | text value => !value.isEmpty
  | foreign id => h.isTruthy id
  | _          => true

-- What an object takes over from the value that is spread in it.
def own : Value → Fields
  | undefined     => []
  | null          => []
  | bool _        => []
  | object fields => fields
  | value         => h.fields value

-- The value of the field, if there is such an object.
def field (name : String) : Value → Value
  | object fields => (fields.lookup name).getD undefined
  | _             => undefined

theorem own_of_isNullish {value : Value} (hn : value.isNullish) : value.own h = [] := by
  cases value
  case undefined => rfl
  case null      => rfl
  all_goals contradiction

def get (value : Value) (name : String) : Outcome :=
  match value with
  | undefined => .error (.noObject name)
  | null      => .error (.noObject name)
  | object _  => .ok (value.field name)
  | _         => h.member value name

end Value

namespace Scope

def read (s : Scope) (name : String) : Outcome :=
  match s.lookup name with
  | none              => .error (.unbound name)
  | some none         => .error (.uninitialized name)
  | some (some value) => .ok value

-- What a path leads to from the name that it begins with, behind the value that this is a member of.
def follow (h : Host) (s : Scope) (path : String) : Except Fault (Value × Value) := do
  let (head, members) := Mapper.segments path.toList
  let value ← s.read (.ofList head)
  let step := fun (_, object) name => do
    let value ← object.get h (.ofList name)
    .ok (object, value)
  members.foldlM step (.undefined, value)

def resolve (h : Host) (s : Scope) (path : String) : Outcome := do
  let (_, value) ← s.follow h path
  .ok value

def declare (s : Scope) (names : List String) : Scope :=
  names.map (·, none) ++ s

def set (s : Scope) (name : String) (value : Value) : Scope :=
  (name, some value) :: s

-- The parameters take the arguments in order. Those that are left are undefined.
def bind (s : Scope) : List Param → List Value → Scope
  | [], _                => s
  | p :: ps, []          => (s.set p.name .undefined).bind ps []
  | p :: ps, arg :: args => (s.set p.name arg).bind ps args

variable {h : Host} {s : Scope}

theorem follow_eq_read (hn : '.' ∉ name.toList) :
    s.follow h name = s.read name >>= fun value => .ok (.undefined, value) := by
  rw [follow, Mapper.segments_of_not_mem hn]
  dsimp only
  rw [String.ofList_toList]
  rfl

theorem resolve_eq_read (hn : '.' ∉ name.toList) : s.resolve h name = s.read name := by
  rw [resolve, follow_eq_read hn]
  cases s.read name <;> rfl

theorem read_set_self : (s.set name value).read name = .ok value := by
  simp [read, set]

theorem read_set_of_ne (hn : name ≠ name') : (s.set name' value).read name = s.read name := by
  simp [read, set, List.lookup_cons, beq_false_of_ne hn]

theorem read_declare_of_not_mem (hn : name ∉ names) : (s.declare names).read name = s.read name := by
  have hl : (names.map (·, (none : Option Value))).lookup name = none := by
    refine List.lookup_eq_none_iff.mpr fun p hp => ?_
    obtain ⟨n, hm, rfl⟩ := List.mem_map.mp hp
    exact bne_iff_ne.mpr fun he => hn <| he ▸ hm
  rw [read, declare, List.lookup_append, hl]
  rfl

end Scope

-- What a chain of members and calls has come to, or nothing where it ended at an optional member.
abbrev Link := Except Fault (Option Value)

namespace Link

def of (o : Outcome) : Link := do
  let value ← o
  .ok (some value)

def value (l : Link) : Outcome := do
  let value? ← l
  .ok (value?.getD .undefined)

def next (l : Link) (f : Value → Link) : Link := do
  match ← l with
  | some value => f value
  | none       => .ok none

end Link

mutual

def Expr.link (h : Host) (s : Scope) : Expr → Link
  | .ident path                        => Link.of (s.resolve h path)
  | .literal (.text value)             => Link.of (.ok (.text value))
  | .literal .null                     => Link.of (.ok .null)
  | .call (.ident path) _ args         => Link.of do
    let (receiver, f) ← s.follow h path
    let values ← Expr.evalAll h s args
    h.call receiver f values
  | .call (.member object name) _ args => (object.link h s).next fun o => Link.of do
    let f ← o.get h name
    let values ← Expr.evalAll h s args
    h.call o f values
  | .call (.optionalMember object name) _ args => (object.link h s).next fun o =>
    if o.isNullish then .ok none
    else Link.of do
      let f ← o.get h name
      let values ← Expr.evalAll h s args
      h.call o f values
  | .call callee _ args                => (callee.link h s).next fun f => Link.of do
    let values ← Expr.evalAll h s args
    h.call .undefined f values
  | .arrow code                        => Link.of (.ok (.function code s))
  | .object entries                    => Link.of (Value.object <$> Entry.evalAll h s [] entries)
  | .member object name                => (object.link h s).next fun o => Link.of (o.get h name)
  | .optionalMember object name        =>
    (object.link h s).next fun o => if o.isNullish then .ok none else Link.of (o.get h name)
  | .coalesce left right               => Link.of do
    let value ← (left.link h s).value
    if value.isNullish then (right.link h s).value else .ok value
  | .ternary cond thenExpr elseExpr    => Link.of do
    let value ← (cond.link h s).value
    if value.isTruthy h then (thenExpr.link h s).value else (elseExpr.link h s).value
  | .array items                       => Link.of (Value.array <$> Expr.evalAll h s items)
  | .paren of                          => Link.of (of.link h s).value
  | .await _                           => .error .unsupported
  | .assign _ _                        => .error .unsupported
  | .raw _                             => .error .unsupported

def Expr.evalAll (h : Host) (s : Scope) : List Expr → Except Fault (List Value)
  | []      => .ok []
  | e :: es => do
    let value ← (e.link h s).value
    let values ← Expr.evalAll h s es
    .ok (value :: values)

-- The fields with those that the entries set or override, one after another.
def Entry.evalAll (h : Host) (s : Scope) (fields : Fields) : List Entry → Except Fault Fields
  | []                      => .ok fields
  | .keyed key e :: entries => do
    let value ← (e.link h s).value
    Entry.evalAll h s ((key, value) :: fields) entries
  | .spread e :: entries    => do
    let value ← (e.link h s).value
    Entry.evalAll h s (value.own h ++ fields) entries

end

def Expr.eval (h : Host) (s : Scope) (e : Expr) : Outcome :=
  (e.link h s).value

namespace Link

@[simp]
theorem value_of (o : Outcome) : (of o).value = o := by
  cases o <;> rfl

@[simp]
theorem next_of (o : Outcome) (f : Value → Link) : (of o).next f = o >>= f := by
  cases o <;> rfl

@[simp]
theorem value_bind_of (o : Outcome) (f : Value → Outcome) : value (o >>= fun value => of (f value)) = o >>= f := by
  cases o
  case error => rfl
  case ok    => exact value_of _

end Link

namespace Expr

variable {h : Host} {s : Scope}

theorem eval_ident : (ident path).eval h s = s.resolve h path :=
  Link.value_of _

theorem eval_text : (text t).eval h s = .ok (.text t) :=
  rfl

theorem eval_member_ident : (member (ident path) name).eval h s = s.resolve h path >>= (·.get h name) := by
  rw [eval, link, link, Link.next_of, Link.value_bind_of]

theorem eval_optionalMember_ident :
    (optionalMember (ident path) name).eval h s =
      s.resolve h path >>= fun value => if value.isNullish then .ok .undefined else value.get h name := by
  rw [eval, link, link, Link.next_of]
  cases s.resolve h path
  case error    => rfl
  case ok value =>
    show Link.value (if value.isNullish then .ok none else Link.of (value.get h name)) = _
    split
    case isTrue hn  => exact (if_pos hn).symm
    case isFalse hn => exact (Link.value_of _).trans (if_neg hn).symm

theorem eval_call_ident :
    (call (ident path) typeArgs args).eval h s = (do
      let (receiver, f) ← s.follow h path
      let values ← evalAll h s args
      h.call receiver f values) :=
  Link.value_of _

theorem eval_call_call_ident :
    (call (call (ident path) typeArgs args) typeArgs' args').eval h s = (do
      let f ← (call (ident path) typeArgs args).eval h s
      let values ← evalAll h s args'
      h.call .undefined f values) := by
  have hl : (call (ident path) typeArgs args).link h s = .of ((call (ident path) typeArgs args).eval h s) := by
    rw [eval_call_ident, link]
  rw [eval, link, hl, Link.next_of, Link.value_bind_of]
  all_goals simp

theorem eval_paren (e : Expr) : (paren e).eval h s = e.eval h s :=
  Link.value_of _

theorem eval_object : (object entries).eval h s = Value.object <$> Entry.evalAll h s [] entries :=
  Link.value_of _

theorem eval_array : (array items).eval h s = Value.array <$> evalAll h s items :=
  Link.value_of _

theorem evalAll_nil : evalAll h s [] = .ok [] :=
  rfl

theorem evalAll_cons (e : Expr) (es : List Expr) :
    evalAll h s (e :: es) = (do
      let value ← e.eval h s
      let values ← evalAll h s es
      .ok (value :: values)) :=
  rfl

theorem eval_coalesce (l r : Expr) :
    (coalesce l r).eval h s = (do
      let value ← l.eval h s
      if value.isNullish then r.eval h s else .ok value) :=
  Link.value_of _

theorem eval_ternary (c t e : Expr) :
    (ternary c t e).eval h s = (do
      let value ← c.eval h s
      if value.isTruthy h then t.eval h s else e.eval h s) :=
  Link.value_of _

end Expr

namespace Entry

variable {h : Host} {s : Scope}

theorem evalAll_nil : evalAll h s fields [] = .ok fields :=
  rfl

theorem evalAll_keyed (e : Expr) (entries : List Entry) :
    evalAll h s fields (.keyed key e :: entries) =
      e.eval h s >>= fun value => evalAll h s ((key, value) :: fields) entries :=
  rfl

theorem evalAll_spread (e : Expr) (entries : List Entry) :
    evalAll h s fields (.spread e :: entries) =
      e.eval h s >>= fun value => evalAll h s (value.own h ++ fields) entries :=
  rfl

end Entry

-- A function that is made before a constant is initialized does not see its value. No hook makes one.
def Stmt.run (h : Host) (s : Scope) : List Stmt → Outcome
  | []                                    => .ok .undefined
  | .constant (.single name) _ init :: ss => do
    let value ← init.eval h s
    Stmt.run h (s.set name value) ss
  | .expr e :: ss                         => do
    let _ ← e.eval h s
    Stmt.run h s ss
  | .returns none :: _                    => .ok .undefined
  | .returns (some e) :: _                => e.eval h s
  | _                                     => .error .unsupported

def Body.run (h : Host) (s : Scope) : Body → Outcome
  | .expr value  => value.eval h s
  | .block stmts => Stmt.run h (s.declare (stmts.flatMap (·.declared))) stmts

def Value.call (h : Host) : Value → List Value → Outcome
  | .function code s, args =>
    if code.isAsync then .error .unsupported else code.body.run h (Scope.bind s code.params args)
  | value, args            => h.call .undefined value args

namespace Stmt

-- What the statement makes available, as a constant of the module or as a member of one.
def provided? : Stmt → Option Expr
  | exported (constant (.single _) _ init) => some init
  | expr (.assign _ value)                 => some value
  | _                                      => none

-- Calls the function that the statement makes available in a module.
def call (h : Host) (s : Scope) (st : Stmt) (args : List Value) : Outcome :=
  match st.provided? with
  | some e => do (← e.eval h s).call h args
  | none   => .error .unsupported

end Stmt
end QueryHooks.TypeScript
