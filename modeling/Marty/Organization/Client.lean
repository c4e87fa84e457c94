import Mathlib.Logic.Function.Basic
import Marty.Lib.Run
import Marty.Gateway.Middleware

/-! `OrganizationClient.get_membership` and `invalidate_cache` over one Redis and the organization
service.  Each call of Redis or of the service is one step, and the tasks of any number of
processes interleave at these steps. -/

namespace Marty.Organization.Client

open Lib Gateway.Middleware

def cacheKey (userId organizationId : String) : String :=
  "org_membership:" ++ userId ++ ":" ++ organizationId

def permissionsKey (userId organizationId : String) : String :=
  "member_permissions:" ++ userId ++ ":" ++ organizationId

/-- A membership as the service has answered it.  `version` counts the changes of it until then;
nothing reads it. -/
structure Answer where
  membership : OrganizationMembership
  version : Nat

/-- The next step of a task. -/
inductive Phase
  | readCache
  | callService
  | writeCache (answer : Answer)
  | returned (answer : Option Answer)
  | unavailable
  | deleteMembership
  | deletePermissions
  | invalidated

/-- A call of `get_membership` or `invalidate_cache`.  `since` is the version of the membership in
the service when the call was made; nothing reads it. -/
structure Task where
  userId : String
  organizationId : String
  phase : Phase
  since : Nat

def Answer.key (a : Answer) : String := cacheKey a.membership.userId a.membership.organizationId

def Task.key (t : Task) : String := cacheKey t.userId t.organizationId

structure System where
  cache : String → Option Answer := fun _ => none
  service : String → String → Option OrganizationMembership := fun _ _ => none
  versions : String → String → Nat := fun _ _ => 0
  tasks : List Task := []

/-- How `GetMember` ends: with the membership, with a status that means there is none, or with
another one. -/
inductive Reply
  | found | missing | failed

inductive Label
  | getMembership (userId organizationId : String)
  | invalidateCache (userId organizationId : String)
  | readCache (i : Nat)
  | callService (i : Nat) (reply : Reply)
  | writeCache (i : Nat)
  | deleteMembership (i : Nat)
  | deletePermissions (i : Nat)
  /-- The pending Redis call of a task raises. -/
  | fault (i : Nat)
  | change (userId organizationId : String) (membership : Option OrganizationMembership)
  | expire (name : String)

def System.start (s : System) (userId organizationId : String) (phase : Phase) : System :=
  { s with tasks := s.tasks ++ [⟨userId, organizationId, phase, s.versions userId organizationId⟩] }

def System.set (s : System) (i : Nat) (t : Task) (phase : Phase) : System :=
  { s with tasks := s.tasks.set i { t with phase := phase } }

def afterReadCache : Option Answer → Phase
  | some answer => .returned (some answer)
  | none => .callService

/-- The error of a Redis call is logged: a read counts as a miss, the others as done. -/
def afterFault : Phase → Option Phase
  | .readCache => some .callService
  | .writeCache answer => some (.returned (some answer))
  | .deleteMembership | .deletePermissions => some .invalidated
  | .callService | .returned _ | .unavailable | .invalidated => none

def answerOf (s : System) (t : Task) : Option Answer :=
  (s.service t.userId t.organizationId).map (⟨·, s.versions t.userId t.organizationId⟩)

def step (s : System) : Label → Option System
  | .getMembership userId organizationId => some (s.start userId organizationId .readCache)
  | .invalidateCache userId organizationId =>
    some (s.start userId organizationId .deleteMembership)
  | .readCache i => do
    let t ← s.tasks[i]?
    let .readCache := t.phase | none
    some (s.set i t (afterReadCache (s.cache t.key)))
  | .callService i reply => do
    let t ← s.tasks[i]?
    let .callService := t.phase | none
    match reply with
    | .found => (answerOf s t).map fun answer => s.set i t (.writeCache answer)
    | .missing => some (s.set i t (.returned none))
    | .failed => some (s.set i t .unavailable)
  | .writeCache i => do
    let t ← s.tasks[i]?
    let .writeCache answer := t.phase | none
    let s := { s with cache := Function.update s.cache answer.key (some answer) }
    some (s.set i t (.returned (some answer)))
  | .deleteMembership i => do
    let t ← s.tasks[i]?
    let .deleteMembership := t.phase | none
    let s := { s with cache := Function.update s.cache t.key none }
    some (s.set i t .deletePermissions)
  | .deletePermissions i => do
    let t ← s.tasks[i]?
    let .deletePermissions := t.phase | none
    let key := permissionsKey t.userId t.organizationId
    let s := { s with cache := Function.update s.cache key none }
    some (s.set i t .invalidated)
  | .fault i => do
    let t ← s.tasks[i]?
    let phase ← afterFault t.phase
    some (s.set i t phase)
  | .change userId organizationId membership =>
    some { s with
      service := fun u o => if u = userId ∧ o = organizationId then membership else s.service u o
      versions := fun u o =>
        if u = userId ∧ o = organizationId then s.versions u o + 1 else s.versions u o }
  | .expire name => some { s with cache := Function.update s.cache name none }

/-- What a step does, with the phase that allows it. -/
inductive Steps (s : System) : Label → System → Prop
  | getMembership (userId organizationId : String) :
    Steps s (.getMembership userId organizationId) (s.start userId organizationId .readCache)
  | invalidateCache (userId organizationId : String) :
    Steps s (.invalidateCache userId organizationId)
      (s.start userId organizationId .deleteMembership)
  | readCache {i : Nat} {t : Task} (ht : s.tasks[i]? = some t) (hphase : t.phase = .readCache) :
    Steps s (.readCache i)
      (s.set i t (afterReadCache (s.cache t.key)))
  | found {i : Nat} {t : Task} {answer : Answer} (ht : s.tasks[i]? = some t)
      (hphase : t.phase = .callService) (hanswer : answerOf s t = some answer) :
    Steps s (.callService i .found) (s.set i t (.writeCache answer))
  | missing {i : Nat} {t : Task} (ht : s.tasks[i]? = some t) (hphase : t.phase = .callService) :
    Steps s (.callService i .missing) (s.set i t (.returned none))
  | failed {i : Nat} {t : Task} (ht : s.tasks[i]? = some t) (hphase : t.phase = .callService) :
    Steps s (.callService i .failed) (s.set i t .unavailable)
  | writeCache {i : Nat} {t : Task} {answer : Answer} (ht : s.tasks[i]? = some t)
      (hphase : t.phase = .writeCache answer) :
    Steps s (.writeCache i)
      (({ s with cache := Function.update s.cache answer.key (some answer) }).set i t
        (.returned (some answer)))
  | deleteMembership {i : Nat} {t : Task} (ht : s.tasks[i]? = some t)
      (hphase : t.phase = .deleteMembership) :
    Steps s (.deleteMembership i)
      (({ s with cache := Function.update s.cache t.key none }).set i t .deletePermissions)
  | deletePermissions {i : Nat} {t : Task} (ht : s.tasks[i]? = some t)
      (hphase : t.phase = .deletePermissions) :
    Steps s (.deletePermissions i)
      (({ s with
        cache := Function.update s.cache (permissionsKey t.userId t.organizationId) none }).set
        i t .invalidated)
  | fault {i : Nat} {t : Task} {phase : Phase} (ht : s.tasks[i]? = some t)
      (hfault : afterFault t.phase = some phase) : Steps s (.fault i) (s.set i t phase)
  | change (userId organizationId : String) (membership : Option OrganizationMembership) :
    Steps s (.change userId organizationId membership)
      { s with
        service := fun u o => if u = userId ∧ o = organizationId then membership else s.service u o
        versions := fun u o =>
          if u = userId ∧ o = organizationId then s.versions u o + 1 else s.versions u o }
  | expire (name : String) :
    Steps s (.expire name) { s with cache := Function.update s.cache name none }

theorem steps_of_step {s s' : System} {l : Label} (h : step s l = some s') : Steps s l s' := by
  cases l with
  | getMembership userId organizationId =>
    cases h
    exact .getMembership userId organizationId
  | invalidateCache userId organizationId =>
    cases h
    exact .invalidateCache userId organizationId
  | readCache i =>
    obtain ⟨t, ht, h⟩ := Option.bind_eq_some_iff.mp h
    split at h
    case h_1 hphase =>
      cases h
      exact .readCache ht hphase
    case h_2 => cases h
  | callService i reply =>
    obtain ⟨t, ht, h⟩ := Option.bind_eq_some_iff.mp h
    split at h
    case h_1 hphase =>
      cases reply with
      | found =>
        obtain ⟨answer, hanswer, rfl⟩ := Option.map_eq_some_iff.mp h
        exact .found ht hphase hanswer
      | missing =>
        cases h
        exact .missing ht hphase
      | failed =>
        cases h
        exact .failed ht hphase
    case h_2 => cases h
  | writeCache i =>
    obtain ⟨t, ht, h⟩ := Option.bind_eq_some_iff.mp h
    split at h
    case h_1 answer hphase =>
      cases h
      exact .writeCache ht hphase
    case h_2 => cases h
  | deleteMembership i =>
    obtain ⟨t, ht, h⟩ := Option.bind_eq_some_iff.mp h
    split at h
    case h_1 hphase =>
      cases h
      exact .deleteMembership ht hphase
    case h_2 => cases h
  | deletePermissions i =>
    obtain ⟨t, ht, h⟩ := Option.bind_eq_some_iff.mp h
    split at h
    case h_1 hphase =>
      cases h
      exact .deletePermissions ht hphase
    case h_2 => cases h
  | fault i =>
    obtain ⟨t, ht, h⟩ := Option.bind_eq_some_iff.mp h
    obtain ⟨phase, hfault, h⟩ := Option.bind_eq_some_iff.mp h
    cases h
    exact .fault ht hfault
  | change userId organizationId membership =>
    cases h
    exact .change userId organizationId membership
  | expire name =>
    cases h
    exact .expire name

end Marty.Organization.Client
