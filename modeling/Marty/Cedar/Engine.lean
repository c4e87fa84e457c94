import Marty.Cedar.Policies
import Marty.Cedar.PolicyEngine
import Marty.Lib.CedarHas
import Marty.Lib.CedarStore

/-! `cedarpy.is_authorized`, as the two engines call it: UIDs come as texts, the entities and the
context as JSON. -/

namespace Marty.Cedar.Engine

open Lib Lib.Cedar Lib.CedarText
open CedarHas (Clause)
open CedarStore (store)
open PolicyEngine (Uid)

/-- What is left open of the library. -/
structure Cedarpy where
  /-- The characters that stand for themselves in a literal. -/
  bare : Char → Bool
  /-- What it asks of the request and of the entities before it looks at a policy. -/
  accepts : PolicyEngine.Request → List CedarStore.Entity → Bool

/-- The decision of a policy set. -/
abbrev PolicySet := Request → Entities → Bool

def policySet (policies : List Policy) : PolicySet := fun req es => isAuthorized req es policies

def clauseSet (clauses : List Clause) : PolicySet :=
  fun req es => CedarHas.isAuthorized req es clauses

/-- Numbers have 64 bits; floats, null, sets and records are left out. -/
def value : Json → Option Value
  | .bool b => some (.bool b)
  | .int n => if -2 ^ 63 ≤ n ∧ n < 2 ^ 63 then some (.long n) else none
  | .str s => some (.string s)
  | _ => none

/-- The address of the caller is an extension value, which no policy reads. -/
def readContext (context : List (String × Json)) : List (String × Value) :=
  context.filterMap fun entry => (value entry.2).map (entry.1, ·)

def readJsonUid (uid : Uid) : Option EntityUID := uid.id.map (⟨uid.type, ·⟩)

def readAttr (attr : String × Json) : Option (String × Value) := (value attr.2).map (attr.1, ·)

def readEntity (e : PolicyEngine.Entity) : Option CedarStore.Entity := do
  let uid ← readJsonUid e.uid
  let attrs ← e.attrs.mapM readAttr
  let parents ← e.parents.mapM readJsonUid
  some { uid := uid, attrs := attrs, parents := parents }

namespace Cedarpy

variable (cedarpy : Cedarpy) (policies : PolicySet)

/-- `none` where it raises or makes no decision. -/
def isAuthorized (r : PolicyEngine.Request) (es : List CedarStore.Entity) : Option Bool := do
  let principal ← readUid cedarpy.bare r.principal
  let action ← readUid cedarpy.bare r.action
  let resource ← readUid cedarpy.bare r.resource
  if cedarpy.accepts r es then
    some (policies
      { principal := principal, action := action, resource := resource,
        context := readContext r.context } (store es))
  else none

def isAuthorizedJson (r : PolicyEngine.Request) (es : List PolicyEngine.Entity) : Option Bool := do
  let es ← es.mapM readEntity
  cedarpy.isAuthorized policies r es

end Cedarpy

/-- `CedarEngine`, with the policies that its text holds. -/
structure CedarEngine where
  cedarpy : Cedarpy
  clauses : List Clause

namespace CedarEngine

def withDefaults (cedarpy : Cedarpy) : CedarEngine :=
  ⟨cedarpy, Policies.gatewayPolicies.map .ofPolicy⟩

def appendPolicies (engine : CedarEngine) (additional : List Clause) : CedarEngine :=
  { engine with clauses := engine.clauses ++ additional }

/-- The `allowed` of `is_authorized`, which denies what raises. -/
def allowed (engine : CedarEngine) (r : PolicyEngine.Request) (es : List CedarStore.Entity) :
    Bool :=
  (engine.cedarpy.isAuthorized (clauseSet engine.clauses) r es).getD false

end CedarEngine

variable {cedarpy : Cedarpy} {policies : PolicySet} {r : PolicyEngine.Request}
  {es : List CedarStore.Entity}

/-- The request is read, and it and the entities are accepted. -/
structure Reads (cedarpy : Cedarpy) (r : PolicyEngine.Request) (es : List CedarStore.Entity)
    (req : Request) : Prop where
  principal : readUid cedarpy.bare r.principal = some req.principal
  action : readUid cedarpy.bare r.action = some req.action
  resource : readUid cedarpy.bare r.resource = some req.resource
  context : req.context = readContext r.context
  accepted : cedarpy.accepts r es = true

theorem isAuthorized_eq_true_iff : cedarpy.isAuthorized policies r es = some true ↔
    ∃ req, Reads cedarpy r es req ∧ policies req (store es) = true := by
  constructor
  · intro h
    obtain ⟨principal, hprincipal, h⟩ := Option.bind_eq_some_iff.mp h
    obtain ⟨action, haction, h⟩ := Option.bind_eq_some_iff.mp h
    obtain ⟨resource, hresource, h⟩ := Option.bind_eq_some_iff.mp h
    split at h
    case isTrue haccepts =>
      exact ⟨_, ⟨hprincipal, haction, hresource, rfl, haccepts⟩, Option.some.inj h⟩
    case isFalse => cases h
  · rintro ⟨⟨principal, action, resource, context⟩, hreads, hallowed⟩
    have hcontext := hreads.context
    subst hcontext
    simp [Cedarpy.isAuthorized, hreads.principal, hreads.action, hreads.resource, hreads.accepted,
      hallowed]

theorem CedarEngine.allowed_iff {engine : CedarEngine} : engine.allowed r es = true ↔
    ∃ req, Reads engine.cedarpy r es req ∧
      CedarHas.isAuthorized req (store es) engine.clauses = true := by
  rw [CedarEngine.allowed, Option.getD_eq_iff]
  simp [isAuthorized_eq_true_iff, clauseSet]

/-- A UID made from a type and a text is of that type. -/
theorem readUid_ty {bare : Char → Bool} {ty id : String} {uid : EntityUID}
    (hty : Lib.Repr.quotationMark ∉ ty.toList)
    (h : readUid bare (ty ++ "::\"" ++ id ++ "\"") = some uid) : uid.ty = ty := by
  have htext : ty ++ "::\"" ++ id ++ "\"" = String.ofList ((ty.toList ++ [':', ':']) ++
      Lib.Repr.quotationMark :: (id.toList ++ [Lib.Repr.quotationMark])) := by
    apply String.toList_injective
    simp only [String.toList_append, String.toList_ofList, List.append_assoc]
    rfl
  have hquote : Lib.Repr.quotationMark ∉ ty.toList ++ [':', ':'] := by
    rw [List.mem_append]
    rintro (hmem | hmem)
    · exact hty hmem
    · exact absurd hmem (by decide)
  have hdrop : (ty.toList ++ [':', ':']).dropLast.dropLast = ty.toList := by simp
  rw [readUid, htext, partition_quotationMark hquote] at h
  simp only [String.toList_ofList, hdrop] at h
  split at h
  case h_1 =>
    split at h
    case isTrue =>
      obtain rfl := Option.some.inj h
      exact String.ofList_toList
    case isFalse => cases h
  case h_2 => cases h

theorem readUid_user {bare : Char → Bool} {id : String} {uid : EntityUID}
    (h : readUid bare ("MIP::User" ++ "::\"" ++ id ++ "\"") = some uid) :
    uid.ty = Policies.user := readUid_ty (by decide) h

theorem mapM_map_eq_some {α β γ : Type} {f : β → Option γ} {g : α → β} {h : α → γ} {xs : List α}
    (hf : ∀ x ∈ xs, f (g x) = some (h x)) : (xs.map g).mapM f = some (xs.map h) := by
  induction xs with
  | nil => rfl
  | cons x xs ih =>
    rw [List.forall_mem_cons] at hf
    rw [List.map_cons, List.mapM_cons, hf.1, ih hf.2]
    rfl

section satisfied

open Policies

variable {req : Request} {entities : Entities}

theorem rolePolicy_satisfied {id roleId : String} {actions : Scope} :
    (rolePolicy id actions roleId).satisfied req entities ↔ req.principal.ty = user ∧
      actions.holds entities req.action ∧ entities.mem req.principal (role roleId) := by
  simp [Policy.satisfied_iff, rolePolicy, evaluate, Request.var, and_assoc]

theorem denySuspendedUsers_satisfied :
    denySuspendedUsers.satisfied req entities ↔ req.principal.ty = user ∧
      (entities.attr req.principal "status" = .ok (.string "SUSPENDED") ∨
        entities.attr req.principal "status" = .ok (.string "DEACTIVATED")) := by
  simp only [Policy.satisfied_iff, denySuspendedUsers, Scope.holds_is, Scope.holds_any, and_true,
    yields_or_true, yields_eq, evaluate, Request.var, Expr.str]
  refine and_congr_right fun _ => ?_
  constructor
  · rintro (⟨v, w, hv, hw, heq⟩ | ⟨-, v, w, hv, hw, heq⟩)
    · cases hw
      exact .inl (by rwa [of_decide_eq_true heq] at hv)
    · cases hw
      exact .inr (by rwa [of_decide_eq_true heq] at hv)
  · rintro (h | h)
    · exact .inl ⟨_, _, h, rfl, by simp⟩
    · exact .inr ⟨⟨_, _, h, rfl, by decide⟩, _, _, h, rfl, by simp⟩

theorem orgApikeyFullAccess_satisfied :
    orgApikeyFullAccess.satisfied req entities ↔ req.principal.ty = apiKey ∧
      entities.attr req.principal "scope_type" = .ok (.string "ORGANIZATION") ∧
      entities.attr req.principal "enabled" = .ok (.bool true) := by
  simp [Policy.satisfied_iff, orgApikeyFullAccess, evaluate, Request.var, Expr.str]

theorem denyDisabledApikeys_satisfied :
    denyDisabledApikeys.satisfied req entities ↔ req.principal.ty = apiKey ∧
      entities.attr req.principal "enabled" = .ok (.bool false) := by
  simp [Policy.satisfied_iff, denyDisabledApikeys, Request.var]

/-- Where no action is a parent, an action is in itself only. -/
theorem holds_actions {es : List CedarStore.Entity} {a : EntityUID} {ids : List String}
    (h : ∀ e ∈ es, ∀ parent ∈ e.parents, parent.ty ≠ "MIP::Action") :
    (Scope.mem (ids.map action)).holds (store es) a = true ↔ ∃ id ∈ ids, a = action id := by
  have hmem : ∀ id, (store es).mem a (action id) = true ↔ a = action id := by
    intro id
    refine ⟨fun hmem => ?_, fun heq => by simp [Entities.mem, heq]⟩
    rcases CedarStore.mem_cases hmem with heq | ⟨e, he, hparent⟩
    · exact heq
    · exact absurd rfl (h e he _ hparent)
  simp only [Scope.holds_mem, List.mem_map]
  constructor
  · rintro ⟨_, ⟨id, hid, rfl⟩, heq⟩
    exact ⟨id, hid, (hmem id).mp heq⟩
  · rintro ⟨id, hid, heq⟩
    exact ⟨_, ⟨id, hid, rfl⟩, (hmem id).mpr heq⟩

end satisfied

end Marty.Cedar.Engine
