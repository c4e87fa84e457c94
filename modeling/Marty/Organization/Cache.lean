import Marty.Lib.Dict
import Marty.Lib.Pool
import Marty.Organization.Client

/-! Which membership a lookup returns: whose it is, and how old. -/

namespace Marty.Organization.Cache

open Lib Lib.Dict Lib.Pool Lib.Run Lib.Text Gateway.Middleware Client

/-- The service answers with the user and the organization that it is asked for. -/
def Faithful (_ : System) : Label → Prop
  | .change userId organizationId membership =>
    ∀ m ∈ membership, m.userId = userId ∧ m.organizationId = organizationId
  | _ => True

/-- The membership is of this user in this organization. -/
def About (a : Answer) (userId organizationId : String) : Prop :=
  a.membership.userId = userId ∧ a.membership.organizationId = organizationId

/-- What a task holds belongs to its key. -/
def PhaseOk (t : Task) : Phase → Prop
  | .writeCache answer => About answer t.userId t.organizationId
  | .returned (some answer) => answer.key = t.key
  | _ => True

/-- Memberships are stored under their own keys, and looked up by key alone. -/
structure Keyed (s : System) : Prop where
  service : ∀ {userId organizationId m}, s.service userId organizationId = some m →
    m.userId = userId ∧ m.organizationId = organizationId
  cache : ∀ {name answer}, s.cache name = some answer → name = answer.key
  phase : ∀ {i : Nat} {t : Task}, s.tasks[i]? = some t → PhaseOk t t.phase

variable {s s' : System} {i : Nat} {t : Task}

theorem key_of_about {a : Answer} (h : About a t.userId t.organizationId) : a.key = t.key := by
  rw [Answer.key, Task.key, h.1, h.2]

theorem Keyed.start (hs : Keyed s) (userId organizationId : String) {phase : Phase}
    (hphase : ∀ t, PhaseOk t phase) : Keyed (s.start userId organizationId phase) where
  service := hs.service
  cache := hs.cache
  phase := by
    intro j u hj
    rcases getElem?_append_cases hj with ⟨-, rfl⟩ | hj
    · exact hphase _
    · exact hs.phase hj

theorem Keyed.set (hs : Keyed s) {phase : Phase} (hphase : PhaseOk t phase) :
    Keyed (s.set i t phase) where
  service := hs.service
  cache := hs.cache
  phase := by
    intro j u hj
    rcases getElem?_set_cases hj with ⟨-, rfl⟩ | ⟨-, hj⟩
    · cases phase <;> exact hphase
    · exact hs.phase hj

theorem Keyed.store (hs : Keyed s) {cache : String → Option Answer}
    (hcache : ∀ {name answer}, cache name = some answer → name = answer.key) :
    Keyed { s with cache := cache } :=
  ⟨hs.service, hcache, hs.phase⟩

theorem Keyed.delete (hs : Keyed s) (name : String) :
    Keyed { s with cache := Function.update s.cache name none } :=
  hs.store fun h => hs.cache (of_delete_eq_some h)

theorem Keyed.read (hs : Keyed s) (t : Task) : PhaseOk t (afterReadCache (s.cache t.key)) := by
  cases h : s.cache t.key with
  | none => trivial
  | some answer => exact (hs.cache h).symm

theorem Keyed.about (hs : Keyed s) {answer : Answer} (h : answerOf s t = some answer) :
    About answer t.userId t.organizationId := by
  obtain ⟨m, hm, rfl⟩ := Option.map_eq_some_iff.mp h
  exact hs.service hm

theorem keyed_step {l : Label} (hs : Keyed s) (hl : Faithful s l) (h : step s l = some s') :
    Keyed s' := by
  cases steps_of_step h with
  | getMembership userId organizationId => exact hs.start _ _ fun _ => trivial
  | invalidateCache userId organizationId => exact hs.start _ _ fun _ => trivial
  | readCache ht hphase => exact hs.set (hs.read _)
  | found ht hphase hanswer => exact hs.set (hs.about hanswer)
  | missing ht hphase => exact hs.set trivial
  | failed ht hphase => exact hs.set trivial
  | @writeCache _ t answer ht hphase =>
    have habout : PhaseOk t (.writeCache answer) := hphase ▸ hs.phase ht
    have hreturned : PhaseOk t (.returned (some answer)) := key_of_about habout
    refine (hs.store fun h => ?_).set hreturned
    rcases update_eq_some h with ⟨rfl, hsame⟩ | h
    · rw [Option.some.inj hsame]
    · exact hs.cache h
  | deleteMembership ht hphase => exact (hs.delete _).set trivial
  | deletePermissions ht hphase => exact (hs.delete _).set trivial
  | @fault _ t phase ht hfault =>
    refine hs.set ?_
    have hok := hs.phase ht
    generalize t.phase = before at hfault hok
    cases before with
    | readCache | deleteMembership | deletePermissions =>
      cases hfault
      trivial
    | writeCache answer =>
      cases hfault
      exact key_of_about hok
    | callService | returned | unavailable | invalidated => cases hfault
  | change userId organizationId membership =>
    refine ⟨fun {u o m} h => ?_, hs.cache, hs.phase⟩
    simp only at h
    split at h
    case isTrue hsame => exact hsame.1 ▸ hsame.2 ▸ hl m h
    case isFalse => exact hs.service h
  | expire name => exact hs.delete name

theorem keyed_of_run {ls : List Label} (hg : Guarded step Faithful {} ls)
    (hr : run step {} ls = some s) : Keyed s := by
  refine run_invariant (fun _ _ _ => keyed_step) ⟨?_, ?_, ?_⟩ hg hr <;> simp

theorem cacheKey_eq_iff {u o u' o' : String} :
    cacheKey u o = cacheKey u' o' ↔ Joined ":" u o u' o' := by
  rw [← joined_iff rfl]
  unfold cacheKey
  simp only [String.append_assoc, String.append_right_inj]

theorem mem_toList_join {a w : String} : ':' ∈ (a ++ ":" ++ w).toList := by
  rw [String.toList_append, String.toList_append]
  exact List.mem_append_left _ (List.mem_append_right _ (by decide))

/-- A key whose parts have no colon belongs to no other pair. -/
theorem eq_of_cacheKey_eq {u o u' o' : String} (hu : ':' ∉ u.toList) (ho : ':' ∉ o.toList)
    (h : cacheKey u' o' = cacheKey u o) : u' = u ∧ o' = o := by
  rcases cacheKey_eq_iff.mp h with h | ⟨w, rfl, -⟩ | ⟨w, -, rfl⟩
  · exact h
  · exact absurd mem_toList_join hu
  · exact absurd mem_toList_join ho

theorem exists_join {a : String} (h : ':' ∈ a.toList) : ∃ b c, a = b ++ ":" ++ c := by
  obtain ⟨b, c, hbc⟩ := List.append_of_mem h
  refine ⟨String.ofList b, String.ofList c, String.toList_injective ?_⟩
  simp [hbc, String.toList_append]

/-- A pair with a colon in one of its parts shares its key with another pair. -/
theorem exists_cacheKey_eq {u o : String} (h : ':' ∈ u.toList ∨ ':' ∈ o.toList) :
    ∃ u' o', cacheKey u' o' = cacheKey u o ∧ ¬ (u' = u ∧ o' = o) := by
  have hlonger : ∀ a w : String, a ≠ a ++ ":" ++ w := by
    intro a w ha
    have hlength := congrArg String.length ha
    have hcolon : ":".length = 1 := rfl
    simp only [String.length_append] at hlength
    omega
  rcases h with h | h
  · obtain ⟨a, b, rfl⟩ := exists_join h
    refine ⟨a, b ++ ":" ++ o, cacheKey_eq_iff.mpr (.inr (.inl ⟨b, rfl, rfl⟩)), fun h => ?_⟩
    exact hlonger a b h.1
  · obtain ⟨a, b, rfl⟩ := exists_join h
    refine ⟨u ++ ":" ++ a, b, cacheKey_eq_iff.mpr (.inr (.inr ⟨a, rfl, rfl⟩)), fun h => ?_⟩
    exact hlonger u a h.1.symm

/-- A lookup of one pair, and then one of another pair. -/
def lookups (userId organizationId userId' organizationId' : String)
    (m : OrganizationMembership) : List Label :=
  [.change userId organizationId (some m), .getMembership userId organizationId, .readCache 0,
    .callService 0 .found, .writeCache 0, .getMembership userId' organizationId', .readCache 1]

theorem lookups_shared {m : OrganizationMembership} {u o : String}
    (hkey : cacheKey m.userId m.organizationId = cacheKey u o) :
    ∃ s t, run step {} (lookups m.userId m.organizationId u o m) = some s ∧
      s.tasks[1]? = some t ∧ t.userId = u ∧ t.organizationId = o ∧
      t.phase = .returned (some ⟨m, 1⟩) := by
  simp [run, lookups, step, System.start, System.set, afterReadCache, answerOf, Task.key,
    Answer.key, hkey]

/-- A lookup always returns the membership of its own user and organization exactly when neither
name has a colon. -/
theorem own_membership_iff (userId organizationId : String) :
    (∀ {ls : List Label} {s : System}, Guarded step Faithful {} ls → run step {} ls = some s →
      ∀ {i : Nat} {t : Task} {answer : Answer}, s.tasks[i]? = some t → t.userId = userId →
        t.organizationId = organizationId → t.phase = .returned (some answer) →
        answer.membership.userId = userId ∧ answer.membership.organizationId = organizationId) ↔
      ':' ∉ userId.toList ∧ ':' ∉ organizationId.toList := by
  constructor
  · intro hown
    by_contra hcolon
    obtain ⟨u, o, hkey, hother⟩ := exists_cacheKey_eq (u := userId) (o := organizationId) (by tauto)
    let m : OrganizationMembership := ⟨u, o, "active", [], StrSet.ofList [], false, false⟩
    obtain ⟨s, t, hr, ht, hu, ho, hphase⟩ := lookups_shared (m := m) hkey
    have hfaithful : Guarded step Faithful {} (lookups u o userId organizationId m) :=
      guarded_of_mem (by simp [lookups, Faithful, m]) _
    exact hother (hown hfaithful hr ht hu ho hphase)
  · rintro ⟨hu, ho⟩ ls s hg hr i t answer ht rfl rfl hphase
    have hok := (keyed_of_run hg hr).phase ht
    rw [hphase] at hok
    exact eq_of_cacheKey_eq hu ho hok

def memberOf (userId organizationId : String) : OrganizationMembership where
  userId := userId
  organizationId := organizationId
  status := "active"

/-- The user `a:b` gets the membership of the user `a`. -/
theorem foreign_membership_returned :
    ∃ s t, run step {} (lookups "a" "b:c" "a:b" "c" (memberOf "a" "b:c")) = some s ∧
      s.tasks[1]? = some t ∧ t.userId = "a:b" ∧ t.organizationId = "c" ∧
      t.phase = .returned (some ⟨memberOf "a" "b:c", 1⟩) := by
  have hkey : cacheKey (memberOf "a" "b:c").userId (memberOf "a" "b:c").organizationId =
      cacheKey "a:b" "c" := by decide
  exact lookups_shared hkey

section invalidation

/-- The answer that a lookup is about to store. -/
def pendingAnswer : Phase → Option Answer
  | .writeCache answer => some answer
  | _ => none

/-- Redis does not fail, and an invalidation deletes its key while no lookup is about to store an
older membership. -/
def Quiet (s : System) : Label → Prop
  | .deleteMembership i => ∀ t ∈ s.tasks[i]?, ∀ u ∈ s.tasks, ∀ a ∈ pendingAnswer u.phase,
    About a t.userId t.organizationId → t.since ≤ a.version
  | .fault _ => False
  | _ => True

/-- Nothing older than version `v` of the membership can be found any more. -/
structure Fresh (userId organizationId : String) (v : Nat) (s : System) : Prop where
  version : v ≤ s.versions userId organizationId
  cached : ∀ {name a}, s.cache name = some a → About a userId organizationId → v ≤ a.version
  pending : ∀ {i : Nat} {t : Task} {a : Answer}, s.tasks[i]? = some t →
    pendingAnswer t.phase = some a → About a userId organizationId → v ≤ a.version

variable {u o : String} {v : Nat}

theorem Fresh.start (hs : Fresh u o v s) (userId organizationId : String) {phase : Phase}
    (hphase : pendingAnswer phase = none) : Fresh u o v (s.start userId organizationId phase) where
  version := hs.version
  cached := hs.cached
  pending := by
    intro j w a hj ha
    rcases getElem?_append_cases hj with ⟨-, rfl⟩ | hj
    · cases hphase.symm.trans ha
    · exact hs.pending hj ha

theorem Fresh.set (hs : Fresh u o v s) {phase : Phase}
    (hphase : ∀ {a}, pendingAnswer phase = some a → About a u o → v ≤ a.version) :
    Fresh u o v (s.set i t phase) where
  version := hs.version
  cached := hs.cached
  pending := by
    intro j w a hj ha
    rcases getElem?_set_cases hj with ⟨-, rfl⟩ | ⟨-, hj⟩
    · exact hphase ha
    · exact hs.pending hj ha

theorem Fresh.store (hs : Fresh u o v s) {cache : String → Option Answer}
    (hcache : ∀ {name a}, cache name = some a → About a u o → v ≤ a.version) :
    Fresh u o v { s with cache := cache } :=
  ⟨hs.version, hcache, hs.pending⟩

theorem Fresh.delete (hs : Fresh u o v s) (name : String) :
    Fresh u o v { s with cache := Function.update s.cache name none } :=
  hs.store fun h => hs.cached (of_delete_eq_some h)

/-- The service answers with the version it has. -/
theorem Fresh.answer (hs : Fresh u o v s) (hk : Keyed s) {a : Answer}
    (h : answerOf s t = some a) (habout : About a u o) : v ≤ a.version := by
  have hsame := hk.about h
  obtain ⟨m, -, rfl⟩ := Option.map_eq_some_iff.mp h
  have hu : t.userId = u := hsame.1.symm.trans habout.1
  have ho : t.organizationId = o := hsame.2.symm.trans habout.2
  rw [hu, ho]
  exact hs.version

theorem fresh_step {l : Label} (hs : Fresh u o v s) (hk : Keyed s) (h : step s l = some s') :
    Fresh u o v s' := by
  cases steps_of_step h with
  | getMembership userId organizationId => exact hs.start _ _ rfl
  | invalidateCache userId organizationId => exact hs.start _ _ rfl
  | @readCache _ t ht hphase =>
    refine hs.set fun ha => ?_
    cases hcache : s.cache t.key with
    | none => simp [hcache, afterReadCache, pendingAnswer] at ha
    | some answer => simp [hcache, afterReadCache, pendingAnswer] at ha
  | found ht hphase hanswer =>
    refine hs.set fun ha habout => ?_
    obtain rfl := Option.some.inj ha
    exact hs.answer hk hanswer habout
  | missing ht hphase => exact hs.set nofun
  | failed ht hphase => exact hs.set nofun
  | writeCache ht hphase =>
    refine (hs.store fun h habout => ?_).set nofun
    rcases update_eq_some h with ⟨-, hsame⟩ | h
    · obtain rfl := Option.some.inj hsame
      exact hs.pending ht (by rw [hphase]; rfl) habout
    · exact hs.cached h habout
  | deleteMembership ht hphase => exact (hs.delete _).set nofun
  | deletePermissions ht hphase => exact (hs.delete _).set nofun
  | @fault _ t phase ht hfault =>
    refine hs.set fun ha => ?_
    generalize t.phase = before at hfault
    cases before <;> cases hfault <;> cases ha
  | change userId organizationId membership =>
    refine ⟨hs.version.trans ?_, hs.cached, hs.pending⟩
    simp only
    split <;> omega
  | expire name => exact hs.delete name

/-- The invalidation has deleted its key. -/
def deleted : Phase → Bool
  | .deletePermissions | .invalidated => true
  | _ => false

/-- Behind every invalidation that has deleted its key, nothing older than its start is left. -/
structure Inv (s : System) : Prop where
  keyed : Keyed s
  since : ∀ {i : Nat} {t : Task}, s.tasks[i]? = some t →
    t.since ≤ s.versions t.userId t.organizationId
  fresh : ∀ {i : Nat} {t : Task}, s.tasks[i]? = some t → deleted t.phase = true →
    Fresh t.userId t.organizationId t.since s

/-- A task after a step is a new one, or an earlier one in its next phase. -/
inductive Comes (s : System) (l : Label) (j : Nat) : Task → Prop
  | new {t : Task} (hsince : t.since = s.versions t.userId t.organizationId)
      (hphase : deleted t.phase = false) : Comes s l j t
  | old {t : Task} {phase : Phase} (ht : s.tasks[j]? = some t)
      (hphase : deleted phase = true →
        deleted t.phase = true ∨ l = .deleteMembership j ∨ l = .fault j) :
    Comes s l j { t with phase := phase }

variable {l : Label} {j : Nat} {t' : Task}

theorem comes_of_same (hj : s.tasks[j]? = some t') : Comes s l j t' :=
  @Comes.old s l j t' t'.phase hj .inl

theorem comes_of_start {userId organizationId : String} {phase : Phase}
    (hphase : deleted phase = false)
    (hj : (s.start userId organizationId phase).tasks[j]? = some t') : Comes s l j t' := by
  rcases getElem?_append_cases hj with ⟨-, rfl⟩ | hj
  · exact .new rfl hphase
  · exact comes_of_same hj

theorem comes_of_set {phase : Phase} (ht : s.tasks[i]? = some t)
    (hphase : deleted phase = true →
      deleted t.phase = true ∨ l = .deleteMembership i ∨ l = .fault i)
    (hj : (s.tasks.set i { t with phase := phase })[j]? = some t') : Comes s l j t' := by
  rcases getElem?_set_cases hj with ⟨rfl, rfl⟩ | ⟨-, hj⟩
  · exact .old ht hphase
  · exact comes_of_same hj

theorem comes_of_step (h : step s l = some s') (hj : s'.tasks[j]? = some t') :
    Comes s l j t' := by
  cases steps_of_step h with
  | getMembership userId organizationId => exact comes_of_start rfl hj
  | invalidateCache userId organizationId => exact comes_of_start rfl hj
  | @readCache _ t ht hphase =>
    refine comes_of_set ht (fun hdeleted => ?_) hj
    cases hcache : s.cache t.key with
    | none => simp [hcache, afterReadCache, deleted] at hdeleted
    | some answer => simp [hcache, afterReadCache, deleted] at hdeleted
  | found ht hphase hanswer => exact comes_of_set ht (by simp [deleted]) hj
  | missing ht hphase => exact comes_of_set ht (by simp [deleted]) hj
  | failed ht hphase => exact comes_of_set ht (by simp [deleted]) hj
  | writeCache ht hphase => exact comes_of_set ht (by simp [deleted]) hj
  | deleteMembership ht hphase => exact comes_of_set ht (fun _ => .inr (.inl rfl)) hj
  | deletePermissions ht hphase =>
    exact comes_of_set ht (fun _ => .inl (by rw [hphase]; rfl)) hj
  | fault ht hfault => exact comes_of_set ht (fun _ => .inr (.inr rfl)) hj
  | change userId organizationId membership => exact comes_of_same hj
  | expire name => exact comes_of_same hj

theorem versions_le (h : step s l = some s') (userId organizationId : String) :
    s.versions userId organizationId ≤ s'.versions userId organizationId := by
  cases steps_of_step h with
  | change u o membership =>
    simp only
    split <;> omega
  | _ => exact le_rfl

/-- The key that is deleted is the only one under which an older answer can be. -/
theorem fresh_of_delete (hk : Keyed s) (ht : s.tasks[i]? = some t)
    (hsince : t.since ≤ s.versions t.userId t.organizationId)
    (hquiet : Quiet s (.deleteMembership i)) (h : step s (.deleteMembership i) = some s') :
    Fresh t.userId t.organizationId t.since s' := by
  cases steps_of_step h with
  | deleteMembership ht' hphase =>
    obtain rfl := Option.some.inj (ht.symm.trans ht')
    refine ⟨hsince, fun {name a} hcache habout => ?_, fun {j w a} hj ha habout => ?_⟩
    · have hname : name = t.key :=
        (hk.cache (of_delete_eq_some hcache)).trans (key_of_about habout)
      subst hname
      simp [System.set] at hcache
    · rcases getElem?_set_cases hj with ⟨-, rfl⟩ | ⟨-, hj⟩
      · cases ha
      · exact hquiet t ht w (List.mem_of_getElem? hj) a ha habout

/-- What the run is assumed to do until the invalidation has returned. -/
def Calm (s : System) (l : Label) : Prop := Faithful s l ∧ Quiet s l

theorem inv_step (hs : Inv s) (hl : Calm s l) (h : step s l = some s') : Inv s' where
  keyed := keyed_step hs.keyed hl.1 h
  since := by
    intro j t' hj
    cases comes_of_step h hj with
    | new hsince hphase => exact hsince ▸ versions_le h _ _
    | old ht hphase => exact (hs.since ht).trans (versions_le h _ _)
  fresh := by
    intro j t' hj hdeleted
    cases comes_of_step h hj with
    | new hsince hphase => exact absurd hdeleted (by simp [hphase])
    | @old t _ ht hphase =>
      have hfresh : Fresh t.userId t.organizationId t.since s' := by
        rcases hphase hdeleted with hbefore | rfl | rfl
        · exact fresh_step (hs.fresh ht hbefore) hs.keyed h
        · exact fresh_of_delete hs.keyed ht (hs.since ht) hl.2 h
        · exact hl.2.elim
      exact hfresh

theorem inv_of_run {ls : List Label} (hg : Guarded step Calm {} ls)
    (hr : run step {} ls = some s) : Inv s := by
  refine run_invariant (fun _ _ _ => inv_step) ⟨⟨?_, ?_, ?_⟩, ?_, ?_⟩ hg hr <;> simp

/-- The phase returns no version of the membership before `v`. -/
def ReturnsFrom (v : Nat) (userId organizationId : String) (phase : Phase) : Prop :=
  ∀ a, phase = .returned (some a) → About a userId organizationId → v ≤ a.version

/-- The lookup `j` was made when nothing older than version `v` could be found. -/
structure Recent (userId organizationId : String) (v j : Nat) (s : System) : Prop where
  keyed : Keyed s
  fresh : Fresh userId organizationId v s
  returns : ∀ {t : Task}, s.tasks[j]? = some t → ReturnsFrom v userId organizationId t.phase

theorem Recent.start (hs : Recent u o v j s) (userId organizationId : String) {phase : Phase}
    (hj : (s.start userId organizationId phase).tasks[j]? = some t')
    (hphase : ReturnsFrom v u o phase) :
    ReturnsFrom v u o t'.phase := by
  rcases getElem?_append_cases hj with ⟨-, rfl⟩ | hj
  · exact hphase
  · exact hs.returns hj

theorem Recent.set (hs : Recent u o v j s) {phase : Phase}
    (hj : (s.tasks.set i { t with phase := phase })[j]? = some t')
    (hphase : ReturnsFrom v u o phase) :
    ReturnsFrom v u o t'.phase := by
  rcases getElem?_set_cases hj with ⟨-, rfl⟩ | ⟨-, hj⟩
  · exact hphase
  · exact hs.returns hj

theorem Recent.returnsFrom_step (hs : Recent u o v j s) (h : step s l = some s')
    (hj : s'.tasks[j]? = some t') : ReturnsFrom v u o t'.phase := by
  cases steps_of_step h with
  | getMembership userId organizationId => exact hs.start _ _ hj fun _ ha => nomatch ha
  | invalidateCache userId organizationId => exact hs.start _ _ hj fun _ ha => nomatch ha
  | @readCache _ t ht hphase =>
    refine hs.set hj fun a ha habout => ?_
    cases hcache : s.cache t.key with
    | none => simp [hcache, afterReadCache] at ha
    | some answer =>
      rw [hcache] at ha
      cases ha
      exact hs.fresh.cached hcache habout
  | found ht hphase hanswer => exact hs.set hj fun _ ha => nomatch ha
  | missing ht hphase => exact hs.set hj fun _ ha => nomatch ha
  | failed ht hphase => exact hs.set hj fun _ ha => nomatch ha
  | writeCache ht hphase =>
    refine hs.set hj fun a ha habout => ?_
    cases ha
    exact hs.fresh.pending ht (by rw [hphase]; rfl) habout
  | deleteMembership ht hphase => exact hs.set hj fun _ ha => nomatch ha
  | deletePermissions ht hphase => exact hs.set hj fun _ ha => nomatch ha
  | @fault _ t phase ht hfault =>
    refine hs.set hj fun a ha habout => hs.fresh.pending ht ?_ habout
    subst ha
    generalize t.phase = before at hfault
    cases before <;> cases hfault
    rfl
  | change userId organizationId membership => exact hs.returns hj
  | expire name => exact hs.returns hj

theorem recent_step (hs : Recent u o v j s) (hl : Faithful s l) (h : step s l = some s') :
    Recent u o v j s' :=
  ⟨keyed_step hs.keyed hl h, fresh_step hs.fresh hs.keyed h, hs.returnsFrom_step h⟩

theorem recent_of_run {ls : List Label} (hs : Recent u o v j s)
    (hg : Guarded step Faithful s ls) (hr : run step s ls = some s') : Recent u o v j s' :=
  run_invariant (fun _ _ _ => recent_step) hs hg hr

/-- A lookup that starts after an invalidation has returned does not return the membership as it
was before the invalidation was called, when every invalidation finds no older answer about to be
stored. -/
theorem fresh_after_invalidation {ls ls' : List Label} {s s' : System} {j : Nat} {t t' : Task}
    {answer : Answer} (hg : Guarded step Calm {} ls) (hr : run step {} ls = some s)
    (ht : s.tasks[j]? = some t) (hphase : t.phase = .invalidated)
    (hg' : Guarded step Faithful s (.getMembership t.userId t.organizationId :: ls'))
    (hr' : run step s (.getMembership t.userId t.organizationId :: ls') = some s')
    (ht' : s'.tasks[s.tasks.length]? = some t') (hphase' : t'.phase = .returned (some answer))
    (habout : About answer t.userId t.organizationId) : t.since ≤ answer.version := by
  have hinv := inv_of_run hg hr
  have hfresh := hinv.fresh ht (by rw [hphase]; rfl)
  have hrecent : Recent t.userId t.organizationId t.since s.tasks.length
      (s.start t.userId t.organizationId .readCache) := by
    refine ⟨hinv.keyed.start _ _ fun _ => trivial, hfresh.start _ _ rfl, fun {w} hw => ?_⟩
    obtain rfl : _ = w := by simpa [System.start] using hw
    exact fun _ ha => nomatch ha
  exact (recent_of_run hrecent (hg'.tail rfl) hr').returns ht' answer hphase' habout

/-- A membership is looked up, is changed, and is invalidated. -/
def storedFirst (m m' : OrganizationMembership) : List Label :=
  [.change m.userId m.organizationId (some m), .getMembership m.userId m.organizationId,
    .readCache 0, .callService 0 .found, .writeCache 0,
    .change m.userId m.organizationId (some m'), .invalidateCache m.userId m.organizationId,
    .deleteMembership 1, .deletePermissions 1]

/-- A lookup that misses the cache. -/
def lookupAgain (m : OrganizationMembership) : List Label :=
  [.getMembership m.userId m.organizationId, .readCache 2, .callService 2 .found, .writeCache 2]

theorem storedFirst_calm {m m' : OrganizationMembership}
    (hm : About ⟨m', 2⟩ m.userId m.organizationId) :
    Guarded step Calm {} (storedFirst m m') := by
  simp [Guarded, storedFirst, step, System.start, System.set, afterReadCache, answerOf, Task.key,
    Answer.key, Calm, Faithful, Quiet, pendingAnswer]
  exact hm

theorem storedFirst_run (m m' : OrganizationMembership) :
    ∃ s s' t t', run step {} (storedFirst m m') = some s ∧ s.tasks[1]? = some t ∧
      t.phase = .invalidated ∧ t.userId = m.userId ∧ t.organizationId = m.organizationId ∧
      run step s (lookupAgain m) = some s' ∧ s'.tasks[s.tasks.length]? = some t' ∧
      t'.phase = .returned (some ⟨m', 2⟩) := by
  simp [run, storedFirst, lookupAgain, step, System.start, System.set, afterReadCache, answerOf,
    Task.key, Answer.key]

def suspended : OrganizationMembership := { memberOf "u" "o" with status := "suspended" }

theorem fresh_of_storedFirst :
    ∃ s s' t t' answer, run step {} (storedFirst (memberOf "u" "o") suspended) = some s ∧
      s.tasks[1]? = some t ∧ t.phase = .invalidated ∧
      run step s (lookupAgain (memberOf "u" "o")) = some s' ∧
      s'.tasks[s.tasks.length]? = some t' ∧ t'.phase = .returned (some answer) ∧
      t.since ≤ answer.version := by
  obtain ⟨s, s', t, t', hr, ht, hphase, hu, ho, hr', ht', hphase'⟩ :=
    storedFirst_run (memberOf "u" "o") suspended
  have hcalm : Guarded step Calm {} (storedFirst (memberOf "u" "o") suspended) :=
    storedFirst_calm ⟨rfl, rfl⟩
  have hlookup : lookupAgain (memberOf "u" "o") =
      .getMembership t.userId t.organizationId :: (lookupAgain (memberOf "u" "o")).tail := by
    rw [hu, ho]
    rfl
  have hfaithful : Guarded step Faithful s (lookupAgain (memberOf "u" "o")) :=
    guarded_of_mem (by simp [lookupAgain, Faithful]) s
  refine ⟨s, s', t, t', _, hr, ht, hphase, hr', ht', hphase', ?_⟩
  exact fresh_after_invalidation hcalm hr ht hphase (hlookup ▸ hfaithful) (hlookup ▸ hr') ht'
    hphase' ⟨hu.symm, ho.symm⟩

/-- The same as `storedFirst`, but the lookup stores its answer after the invalidation. -/
def storedLast (m m' : OrganizationMembership) : List Label :=
  [.change m.userId m.organizationId (some m), .getMembership m.userId m.organizationId,
    .readCache 0, .callService 0 .found, .change m.userId m.organizationId (some m'),
    .invalidateCache m.userId m.organizationId, .deleteMembership 1, .deletePermissions 1,
    .writeCache 0]

theorem storedLast_run (m m' : OrganizationMembership) :
    ∃ s s' t t', run step {} (storedLast m m') = some s ∧ s.tasks[1]? = some t ∧
      t.phase = .invalidated ∧ t.since = 2 ∧ s.service m.userId m.organizationId = some m' ∧
      run step s [.getMembership m.userId m.organizationId, .readCache 2] = some s' ∧
      s'.tasks[s.tasks.length]? = some t' ∧ t'.phase = .returned (some ⟨m, 1⟩) := by
  simp [run, storedLast, step, System.start, System.set, afterReadCache, answerOf, Task.key,
    Answer.key]

/-- The lookup that starts after the invalidation returns the membership before the change. -/
theorem stale_after_invalidation :
    ∃ s s' t t', run step {} (storedLast (memberOf "u" "o") suspended) = some s ∧
      s.tasks[1]? = some t ∧ t.phase = .invalidated ∧ t.since = 2 ∧
      s.service "u" "o" = some suspended ∧
      run step s [.getMembership "u" "o", .readCache 2] = some s' ∧
      s'.tasks[s.tasks.length]? = some t' ∧
      t'.phase = .returned (some ⟨memberOf "u" "o", 1⟩) :=
  storedLast_run (memberOf "u" "o") suspended

end invalidation

end Marty.Organization.Cache
