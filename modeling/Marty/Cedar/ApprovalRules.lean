import Marty.Cedar.Engine

/-! `approval_rules.cedar`, policy by policy, and what an engine with these rules and any others
appended to them approves. -/

namespace Marty.Cedar.ApprovalRules

open Lib Lib.Cedar Policies Engine
open CedarHas (Clause Condition Holds holds_and holds_expr holds_has)
open CedarStore (store)

def serviceAccount : String := "MIP::ServiceAccount"

def approve : EntityUID := action "applications:approve"

/-- The conjunction of the conditions, from the left. -/
def all (first : Condition) (rest : List Condition) : Condition := rest.foldl .and first

def canvasAccount : Condition :=
  .expr (.eq (.attr .principal "service_name") (.str "canvas-evidence-policy"))

def approvalClause (effect : Effect) (id : String) (rest : List Condition) : Clause where
  id := id
  effect := effect
  principal := .is serviceAccount
  action := .eq approve
  condition := all canvasAccount rest

def autoApproveVerifiedExternalEvidence : Clause :=
  approvalClause .permit "auto-approve-verified-external-evidence"
    [.has "evidence_provider", .has "evidence_verification_status", .has "evidence_scope_matched",
      .has "all_required_evidence_satisfied", .has "satisfied_requirement_count",
      .has "required_evidence_count",
      .expr (.eq (.context "evidence_verification_status") (.str "VERIFIED")),
      .expr (.context "evidence_scope_matched"),
      .expr (.context "all_required_evidence_satisfied"),
      .expr (.ge (.context "satisfied_requirement_count") (.context "required_evidence_count"))]

def denyUnverifiedExternalEvidence : Clause :=
  approvalClause .forbid "deny-unverified-external-evidence"
    [.has "evidence_provider", .has "evidence_verification_status",
      .expr (.ne (.context "evidence_verification_status") (.str "VERIFIED"))]

def denyWrongScopeExternalEvidence : Clause :=
  approvalClause .forbid "deny-wrong-scope-external-evidence"
    [.has "evidence_provider", .has "evidence_scope_matched",
      .expr (.not (.context "evidence_scope_matched"))]

def approvalRules : List Clause :=
  [autoApproveVerifiedExternalEvidence, denyUnverifiedExternalEvidence,
    denyWrongScopeExternalEvidence]

def withApprovalRules (cedarpy : Cedarpy) : CedarEngine := ⟨cedarpy, approvalRules⟩

variable {req : Request} {entities : Entities}

/-- The account of the evidence flow asks to approve an application. -/
structure Asks (req : Request) (entities : Entities) : Prop where
  principal : req.principal.ty = serviceAccount
  action : req.action = approve
  account : entities.attr req.principal "service_name" = .ok (.string "canvas-evidence-policy")

/-- The evidence is verified, of the right scope, and all that is required. -/
structure Proven (context : List (String × Value)) : Prop where
  provider : ∃ v, context.lookup "evidence_provider" = some v
  verified : context.lookup "evidence_verification_status" = some (.string "VERIFIED")
  scope : context.lookup "evidence_scope_matched" = some (.bool true)
  satisfied : context.lookup "all_required_evidence_satisfied" = some (.bool true)
  count : ∃ m n, context.lookup "satisfied_requirement_count" = some (.long m) ∧
    context.lookup "required_evidence_count" = some (.long n) ∧ n ≤ m

/-- A provider names evidence that is not verified or of another scope. -/
def Refuted (context : List (String × Value)) : Prop :=
  (∃ v, context.lookup "evidence_provider" = some v) ∧
    ((∃ v, context.lookup "evidence_verification_status" = some v ∧ v ≠ .string "VERIFIED") ∨
      context.lookup "evidence_scope_matched" = some (.bool false))

theorem holds_all {first : Condition} {rest : List Condition} :
    Holds req entities (all first rest) ↔
      Holds req entities first ∧ ∀ c ∈ rest, Holds req entities c := by
  induction rest generalizing first with
  | nil => simp [all]
  | cons c rest ih =>
    rw [all, List.foldl_cons, ← all, ih, holds_and, List.forall_mem_cons, and_assoc]

theorem approvalClause_satisfied {effect : Effect} {id : String} {rest : List Condition} :
    (approvalClause effect id rest).satisfied req entities = true ↔
      Asks req entities ∧ ∀ c ∈ rest, Holds req entities c := by
  have haccount : Holds req entities canvasAccount ↔
      entities.attr req.principal "service_name" = .ok (.string "canvas-evidence-policy") := by
    simp [canvasAccount, evaluate, Request.var, Expr.str]
  rw [Clause.satisfied_iff, approvalClause, holds_all, haccount]
  simp only [Scope.holds_is, Scope.holds_eq, Scope.holds_any, and_true]
  constructor
  · rintro ⟨⟨hprincipal, haction⟩, hattr, hrest⟩
    exact ⟨⟨hprincipal, haction, hattr⟩, hrest⟩
  · rintro ⟨⟨hprincipal, haction, hattr⟩, hrest⟩
    exact ⟨⟨hprincipal, haction⟩, hattr, hrest⟩

theorem yields_context_eq {name : String} {v : Value} {x : Bool} :
    Yields req entities (.eq (.context name) (.lit v)) x ↔
      ∃ w, req.context.lookup name = some w ∧ decide (w = v) = x := by
  rw [yields_eq]
  constructor
  · rintro ⟨w, _, hw, hv, heq⟩
    cases hv
    exact ⟨w, evaluate_context.mp hw, heq⟩
  · rintro ⟨w, hw, heq⟩
    exact ⟨w, v, evaluate_context.mpr hw, rfl, heq⟩

theorem autoApprove_satisfied :
    autoApproveVerifiedExternalEvidence.satisfied req entities = true ↔
      Asks req entities ∧ Proven req.context := by
  rw [autoApproveVerifiedExternalEvidence, approvalClause_satisfied]
  refine and_congr_right fun _ => ?_
  simp only [List.forall_mem_cons, List.not_mem_nil, false_implies, implies_true, and_true,
    holds_has, holds_expr, Expr.str, Expr.ge, yields_context_eq, yields_context, yields_not,
    yields_less, evaluate_context, decide_eq_true_eq, Bool.not_true, decide_eq_false_iff_not,
    Int.not_lt]
  constructor
  · rintro ⟨hprovider, -, -, -, -, -, ⟨w, hverified, rfl⟩, hscope, hall, m, n, hm, hn, hle⟩
    exact ⟨hprovider, hverified, hscope, hall, m, n, hm, hn, hle⟩
  · rintro ⟨hprovider, hverified, hscope, hall, m, n, hm, hn, hle⟩
    exact ⟨hprovider, ⟨_, hverified⟩, ⟨_, hscope⟩, ⟨_, hall⟩, ⟨_, hm⟩, ⟨_, hn⟩, ⟨_, hverified, rfl⟩,
      hscope, hall, m, n, hm, hn, hle⟩

theorem denied_iff : denyUnverifiedExternalEvidence.satisfied req entities = true ∨
    denyWrongScopeExternalEvidence.satisfied req entities = true ↔
      Asks req entities ∧ Refuted req.context := by
  rw [denyUnverifiedExternalEvidence, denyWrongScopeExternalEvidence, approvalClause_satisfied,
    approvalClause_satisfied, ← and_or_left]
  refine and_congr_right fun _ => ?_
  simp only [List.forall_mem_cons, List.not_mem_nil, false_implies, implies_true, and_true,
    holds_has, holds_expr, Expr.str, Expr.ne, yields_context_eq, yields_context, yields_not,
    Bool.not_true, decide_eq_false_iff_not, ← and_or_left, Refuted, ne_eq]
  refine and_congr_right fun _ => or_congr ⟨fun h => h.2, fun h => ⟨?_, h⟩⟩
    ⟨fun h => h.2, fun h => ⟨⟨_, h⟩, h⟩⟩
  obtain ⟨v, hv, -⟩ := h
  exact ⟨v, hv⟩

theorem matching_permit : CedarHas.matching req entities .permit approvalRules = true ↔
    Asks req entities ∧ Proven req.context := by
  have hfilter : approvalRules.filter (·.effect = .permit) =
      [autoApproveVerifiedExternalEvidence] := rfl
  rw [CedarHas.matching_iff, hfilter]
  simp only [List.mem_singleton, exists_eq_left, autoApprove_satisfied]

theorem matching_forbid : CedarHas.matching req entities .forbid approvalRules = true ↔
    Asks req entities ∧ Refuted req.context := by
  have hfilter : approvalRules.filter (·.effect = .forbid) =
      [denyUnverifiedExternalEvidence, denyWrongScopeExternalEvidence] := rfl
  rw [CedarHas.matching_iff, hfilter]
  simp only [List.mem_cons, List.not_mem_nil, or_false, exists_eq_or_imp, exists_eq_left,
    denied_iff]

end Marty.Cedar.ApprovalRules
