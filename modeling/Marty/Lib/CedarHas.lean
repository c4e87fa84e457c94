import Marty.Lib.Cedar

/-! Policies whose conditions ask whether the context has an entry, as conjunctions over
expressions. -/

namespace Lib.CedarHas

open Lib.Cedar

inductive Condition
  | expr (e : Expr)
  /-- `context has name` -/
  | has (name : String)
  | and (a b : Condition)

variable (req : Request) (es : Entities)

def evaluate : Condition → Result
  | .expr e => Cedar.evaluate req es e
  | .has name => .ok (.bool (req.context.lookup name).isSome)
  | .and a b =>
    match asBool (evaluate a) with
    | .error err => .error err
    | .ok false => .ok (.bool false)
    | .ok true => (asBool (evaluate b)).map .bool

/-- The condition evaluates to true. -/
def Holds (c : Condition) : Prop := evaluate req es c = .ok (.bool true)

instance (c : Condition) : Decidable (Holds req es c) := inferInstanceAs (Decidable (_ = _))

structure Clause where
  id : String
  effect : Effect
  principal : Scope := .any
  action : Scope := .any
  resource : Scope := .any
  condition : Condition

def Clause.ofPolicy (p : Policy) : Clause where
  id := p.id
  effect := p.effect
  principal := p.principal
  action := p.action
  resource := p.resource
  condition := .expr p.condition

def Clause.satisfied (c : Clause) : Bool :=
  c.principal.holds es req.principal && c.action.holds es req.action &&
    c.resource.holds es req.resource && decide (Holds req es c.condition)

def matching (effect : Effect) (clauses : List Clause) : Bool :=
  clauses.any fun c => c.effect = effect && c.satisfied req es

def isAuthorized (clauses : List Clause) : Bool :=
  matching req es .permit clauses && !matching req es .forbid clauses

section

variable {req es} {a b : Condition} {effect : Effect} {clauses more : List Clause}

@[simp]
theorem holds_expr {e : Expr} : Holds req es (.expr e) ↔ Yields req es e true := Iff.rfl

@[simp]
theorem holds_has {name : String} :
    Holds req es (.has name) ↔ ∃ v, req.context.lookup name = some v := by
  simp [Holds, evaluate, Option.isSome_iff_exists]

@[simp]
theorem holds_and : Holds req es (.and a b) ↔ Holds req es a ∧ Holds req es b := by
  simp only [Holds, evaluate, ← asBool_eq_ok (r := evaluate req es a)]
  cases asBool (evaluate req es a) with
  | error err => simp
  | ok x => cases x <;> simp [map_asBool_eq_ok]

theorem Clause.satisfied_iff {c : Clause} : c.satisfied req es = true ↔
    (c.principal.holds es req.principal = true ∧ c.action.holds es req.action = true ∧
      c.resource.holds es req.resource = true) ∧ Holds req es c.condition := by
  rw [Clause.satisfied, Bool.and_eq_true, Bool.and_eq_true, Bool.and_eq_true, decide_eq_true_iff,
    and_assoc (a := c.principal.holds es req.principal = true)]

theorem satisfied_ofPolicy {p : Policy} :
    (Clause.ofPolicy p).satisfied req es = p.satisfied req es := by
  rw [Bool.eq_iff_iff, Clause.satisfied_iff, Policy.satisfied_iff]
  exact Iff.rfl

theorem matching_ofPolicy {policies : List Policy} :
    matching req es effect (policies.map .ofPolicy) = Cedar.matching req es effect policies := by
  simp only [matching, Cedar.matching, List.any_map, Function.comp_def, satisfied_ofPolicy]
  rfl

/-- Policies without such questions decide as before. -/
theorem isAuthorized_ofPolicy {policies : List Policy} :
    isAuthorized req es (policies.map .ofPolicy) = Cedar.isAuthorized req es policies := by
  rw [isAuthorized, Cedar.isAuthorized, matching_ofPolicy, matching_ofPolicy]

theorem matching_iff : matching req es effect clauses = true ↔
    ∃ c ∈ clauses.filter (·.effect = effect), c.satisfied req es = true := by
  simp [matching, and_assoc]

/-- A permit anywhere is enough, and a forbid anywhere is too. -/
theorem isAuthorized_append : isAuthorized req es (clauses ++ more) = true ↔
    (matching req es .permit clauses = true ∨ matching req es .permit more = true) ∧
      ¬ matching req es .forbid clauses = true ∧ ¬ matching req es .forbid more = true := by
  simp [isAuthorized, matching, List.any_append]

end

end Lib.CedarHas
