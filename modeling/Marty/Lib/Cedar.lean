import Mathlib.Data.List.Basic

/-! A fragment of the Cedar policy language: expressions over a request and an entity store,
policies with a scope and a condition, and the decision.  An expression that errs makes its
policy count as not satisfied. -/

namespace Lib.Cedar

structure EntityUID where
  ty : String
  id : String
  deriving DecidableEq

inductive Value
  | bool (b : Bool)
  | long (n : Int)
  | string (s : String)
  | entity (uid : EntityUID)
  deriving DecidableEq

inductive Var
  | principal | action | resource
  deriving DecidableEq

inductive Expr
  | lit (v : Value)
  | var (v : Var)
  /-- `principal.name`, and so on. -/
  | attr (v : Var) (name : String)
  /-- `context.name` -/
  | context (name : String)
  | not (e : Expr)
  | and (a b : Expr)
  | or (a b : Expr)
  | eq (a b : Expr)
  | less (a b : Expr)
  | lessEq (a b : Expr)
  | mem (a b : Expr)

namespace Expr

def str (s : String) : Expr := .lit (.string s)

def num (n : Int) : Expr := .lit (.long n)

def uid (ty id : String) : Expr := .lit (.entity ⟨ty, id⟩)

def ne (a b : Expr) : Expr := .not (.eq a b)

def ge (a b : Expr) : Expr := .not (.less a b)

def gt (a b : Expr) : Expr := .not (.lessEq a b)

end Expr

structure EntityData where
  attrs : List (String × Value) := []
  /-- Closed under taking parents. -/
  ancestors : List EntityUID := []

abbrev Entities := EntityUID → Option EntityData

structure Request where
  principal : EntityUID
  action : EntityUID
  resource : EntityUID
  context : List (String × Value) := []

def Request.var (req : Request) : Var → EntityUID
  | .principal => req.principal
  | .action => req.action
  | .resource => req.resource

inductive Error
  | typeError | attrDoesNotExist | entityDoesNotExist
  deriving DecidableEq

abbrev Result := Except Error Value

def Entities.attr (es : Entities) (uid : EntityUID) (name : String) : Result :=
  match es uid with
  | none => .error .entityDoesNotExist
  | some data =>
    match data.attrs.lookup name with
    | none => .error .attrDoesNotExist
    | some v => .ok v

def Entities.mem (es : Entities) (a b : EntityUID) : Bool :=
  a = b || ((es a).map (·.ancestors)).any (b ∈ ·)

def asBool : Result → Except Error Bool
  | .ok (.bool b) => .ok b
  | .ok _ => .error .typeError
  | .error e => .error e

def compare (r : Int → Int → Bool) : Result → Result → Result
  | .error e, _ => .error e
  | _, .error e => .error e
  | .ok (.long m), .ok (.long n) => .ok (.bool (r m n))
  | _, _ => .error .typeError

variable (req : Request) (es : Entities)

def evaluate : Expr → Result
  | .lit v => .ok v
  | .var v => .ok (.entity (req.var v))
  | .attr v name => es.attr (req.var v) name
  | .context name =>
    match req.context.lookup name with
    | none => .error .attrDoesNotExist
    | some v => .ok v
  | .not e =>
    match asBool (evaluate e) with
    | .error err => .error err
    | .ok b => .ok (.bool !b)
  | .and a b =>
    match asBool (evaluate a) with
    | .error err => .error err
    | .ok false => .ok (.bool false)
    | .ok true => (asBool (evaluate b)).map .bool
  | .or a b =>
    match asBool (evaluate a) with
    | .error err => .error err
    | .ok true => .ok (.bool true)
    | .ok false => (asBool (evaluate b)).map .bool
  | .eq a b =>
    match evaluate a, evaluate b with
    | .error err, _ => .error err
    | _, .error err => .error err
    | .ok v, .ok w => .ok (.bool (v = w))
  | .less a b => compare (· < ·) (evaluate a) (evaluate b)
  | .lessEq a b => compare (· ≤ ·) (evaluate a) (evaluate b)
  | .mem a b =>
    match evaluate a, evaluate b with
    | .error err, _ => .error err
    | _, .error err => .error err
    | .ok (.entity v), .ok (.entity w) => .ok (.bool (es.mem v w))
    | _, _ => .error .typeError

/-- The expression evaluates to the truth value. -/
def Yields (e : Expr) (b : Bool) : Prop := evaluate req es e = .ok (.bool b)

instance (e : Expr) (b : Bool) : Decidable (Yields req es e b) :=
  inferInstanceAs (Decidable (_ = _))

section Yields

variable {req es} {a b e : Expr} {x : Bool}

attribute [local simp] evaluate

theorem asBool_eq_ok {r : Result} : asBool r = .ok x ↔ r = .ok (.bool x) := by
  cases r with
  | error err => simp [asBool]
  | ok v => cases v <;> simp [asBool]

theorem map_asBool_eq_ok {r : Result} : (asBool r).map Value.bool = .ok (.bool x) ↔
    r = .ok (.bool x) := by
  cases r with
  | error err => simp [asBool, Except.map]
  | ok v => cases v <;> simp [asBool, Except.map]

@[simp]
theorem yields_not : Yields req es (.not e) x ↔ Yields req es e (!x) := by
  simp only [Yields, evaluate, ← asBool_eq_ok (x := !x)]
  cases asBool (evaluate req es e) with
  | error err => simp
  | ok b => cases b <;> cases x <;> simp

@[simp]
theorem yields_and_true :
    Yields req es (.and a b) true ↔ Yields req es a true ∧ Yields req es b true := by
  simp only [Yields, evaluate, ← asBool_eq_ok (r := evaluate req es a)]
  cases asBool (evaluate req es a) with
  | error err => simp
  | ok y => cases y <;> simp [map_asBool_eq_ok]

@[simp]
theorem yields_and_false : Yields req es (.and a b) false ↔
    Yields req es a false ∨ Yields req es a true ∧ Yields req es b false := by
  simp only [Yields, evaluate, ← asBool_eq_ok (r := evaluate req es a)]
  cases asBool (evaluate req es a) with
  | error err => simp
  | ok y => cases y <;> simp [map_asBool_eq_ok]

@[simp]
theorem yields_or_true : Yields req es (.or a b) true ↔
    Yields req es a true ∨ Yields req es a false ∧ Yields req es b true := by
  simp only [Yields, evaluate, ← asBool_eq_ok (r := evaluate req es a)]
  cases asBool (evaluate req es a) with
  | error err => simp
  | ok y => cases y <;> simp [map_asBool_eq_ok]

@[simp]
theorem yields_or_false :
    Yields req es (.or a b) false ↔ Yields req es a false ∧ Yields req es b false := by
  simp only [Yields, evaluate, ← asBool_eq_ok (r := evaluate req es a)]
  cases asBool (evaluate req es a) with
  | error err => simp
  | ok y => cases y <;> simp [map_asBool_eq_ok]

@[simp]
theorem yields_eq : Yields req es (.eq a b) x ↔
    ∃ v w, evaluate req es a = .ok v ∧ evaluate req es b = .ok w ∧ decide (v = w) = x := by
  simp only [Yields, evaluate]
  cases evaluate req es a <;> cases evaluate req es b <;> simp

theorem compare_eq_ok {r : Int → Int → Bool} {u v : Result} : compare r u v = .ok (.bool x) ↔
    ∃ m n, u = .ok (.long m) ∧ v = .ok (.long n) ∧ r m n = x := by
  cases u with
  | error err => simp [compare]
  | ok u =>
    cases v with
    | error err => simp [compare]
    | ok v => cases u <;> cases v <;> simp [compare]

@[simp]
theorem yields_less : Yields req es (.less a b) x ↔ ∃ m n, evaluate req es a = .ok (.long m) ∧
    evaluate req es b = .ok (.long n) ∧ decide (m < n) = x :=
  compare_eq_ok

@[simp]
theorem yields_lessEq : Yields req es (.lessEq a b) x ↔ ∃ m n, evaluate req es a = .ok (.long m) ∧
    evaluate req es b = .ok (.long n) ∧ decide (m ≤ n) = x :=
  compare_eq_ok

@[simp]
theorem yields_mem : Yields req es (.mem a b) x ↔ ∃ v w, evaluate req es a = .ok (.entity v) ∧
    evaluate req es b = .ok (.entity w) ∧ es.mem v w = x := by
  simp only [Yields, evaluate]
  cases evaluate req es a with
  | error err => simp
  | ok v =>
    cases evaluate req es b with
    | error err => simp
    | ok w => cases v <;> cases w <;> simp

@[simp]
theorem yields_attr {v : Var} {name : String} :
    Yields req es (.attr v name) x ↔ es.attr (req.var v) name = .ok (.bool x) := Iff.rfl

@[simp]
theorem evaluate_context {name : String} {v : Value} :
    evaluate req es (.context name) = .ok v ↔ req.context.lookup name = some v := by
  simp only [evaluate]
  cases req.context.lookup name <;> simp

@[simp]
theorem yields_context {name : String} :
    Yields req es (.context name) x ↔ req.context.lookup name = some (.bool x) :=
  evaluate_context

end Yields

inductive Scope
  | any
  | is (ty : String)
  | eq (uid : EntityUID)
  | mem (uids : List EntityUID)

def Scope.holds (uid : EntityUID) : Scope → Bool
  | .any => true
  | .is ty => uid.ty = ty
  | .eq uid' => uid = uid'
  | .mem uids => uids.any (es.mem uid)

section Holds

variable {es} {uid uid' : EntityUID}

@[simp]
theorem Scope.holds_any : Scope.any.holds es uid = true := rfl

@[simp]
theorem Scope.holds_is {ty : String} : (Scope.is ty).holds es uid = true ↔ uid.ty = ty :=
  decide_eq_true_iff

@[simp]
theorem Scope.holds_eq : (Scope.eq uid').holds es uid = true ↔ uid = uid' := decide_eq_true_iff

@[simp]
theorem Scope.holds_mem {uids : List EntityUID} :
    (Scope.mem uids).holds es uid = true ↔ ∃ uid' ∈ uids, es.mem uid uid' = true :=
  List.any_eq_true

end Holds

inductive Effect
  | permit | forbid
  deriving DecidableEq

structure Policy where
  id : String
  effect : Effect
  principal : Scope := .any
  action : Scope := .any
  resource : Scope := .any
  condition : Expr

def Policy.satisfied (p : Policy) : Bool :=
  p.principal.holds es req.principal && p.action.holds es req.action &&
    p.resource.holds es req.resource && decide (Yields req es p.condition true)

def matching (effect : Effect) (policies : List Policy) : Bool :=
  policies.any fun p => p.effect = effect && p.satisfied req es

def isAuthorized (policies : List Policy) : Bool :=
  matching req es .permit policies && !matching req es .forbid policies

variable {req es} {policies : List Policy}

theorem Policy.satisfied_iff {p : Policy} : p.satisfied req es = true ↔
    (p.principal.holds es req.principal = true ∧ p.action.holds es req.action = true ∧
      p.resource.holds es req.resource = true) ∧ Yields req es p.condition true := by
  rw [Policy.satisfied, Bool.and_eq_true, Bool.and_eq_true, Bool.and_eq_true, decide_eq_true_iff,
    and_assoc (a := p.principal.holds es req.principal = true)]

theorem isAuthorized_iff : isAuthorized req es policies = true ↔
    (∃ p ∈ policies.filter (·.effect = .permit), p.satisfied req es = true) ∧
      ¬ ∃ p ∈ policies.filter (·.effect = .forbid), p.satisfied req es = true := by
  simp [isAuthorized, matching, and_assoc]

end Lib.Cedar
