import Marty.Security.AccessControl

/-! How long a session lives.  The expiry belongs to the user object, so a session has an
expiry of its own only as long as its user has no second one. -/

namespace Marty.Security.Sessions

open Lib.Datetime Lib.Run AccessControl

/-- The token was issued to the user, at most eight hours ago, and not logged out since. -/
def Valid (history : List Event) (sessionToken userId : String) (now : Time) : Prop :=
  ∃ before issuedAt since,
    history = before ++ .issued sessionToken userId issuedAt :: since ∧
      issuedAt ≤ now ∧ now ≤ issuedAt + hours 8 ∧ .loggedOut sessionToken ∉ since

/-- No login succeeds for a user who still has an entry in `sessions`. -/
def SingleLogin (s : System) : Call → Prop
  | .authenticate username _ now =>
    ∀ u, s.manager.loginUser? username now = some u →
      ∀ t, s.manager.sessions t ≠ some u.userId
  | _ => True

/-- The entry of the token stands for its last issue, and the user's expiry is the one set then. -/
def Backed (s : System) (sessionToken userId : String) : Prop :=
  ∃ before issuedAt since,
    s.history = before ++ .issued sessionToken userId issuedAt :: since ∧
      .loggedOut sessionToken ∉ since ∧ issuedAt ≤ s.clock ∧
      ∀ u, s.manager.user? userId = some u → u.sessionExpiresAt = some (issuedAt + hours 8)

structure Inv (s : System) : Prop where
  backed : ∀ {t userId}, s.manager.sessions t = some userId → Backed s t userId
  single : ∀ {t t' userId}, s.manager.sessions t = some userId →
    s.manager.sessions t' = some userId → t = t'

theorem authenticateUser_failed {m : Manager} {username : String} {now : Time}
    (h : m.loginUser? username now = none) (sessionToken : String) :
    (authenticateUser m username sessionToken now).1 = none ∧
      (authenticateUser m username sessionToken now).2.sessions = m.sessions ∧
      (authenticateUser m username sessionToken now).2.user? = m.user? := by
  simp only [authenticateUser]
  cases hu : m.activeUser? username with
  | none => simp
  | some user =>
    have hl : user.locked now = true := by simpa [Manager.loginUser?, hu] using h
    simp [hl]

theorem authenticateUser_passed {m : Manager} {username : String} {now : Time} {u : User}
    (h : m.loginUser? username now = some u) (sessionToken : String) :
    (authenticateUser m username sessionToken now).1 = some sessionToken ∧
      (authenticateUser m username sessionToken now).2.sessions =
        Function.update m.sessions sessionToken (some u.userId) ∧
      (authenticateUser m username sessionToken now).2.user? =
        (m.modifyUser u.userId (openSession sessionToken now)).user? := by
  obtain ⟨hu, hl⟩ : m.activeUser? username = some u ∧ u.locked now = false := by
    simpa [Manager.loginUser?, Option.filter_eq_some_iff] using h
  simp only [authenticateUser, hu, hl]
  exact ⟨rfl, rfl, rfl⟩

theorem logoutUser_sessions (m : Manager) (sessionToken : String) :
    (logoutUser m sessionToken).sessions = Function.update m.sessions sessionToken none := by
  simp only [logoutUser]
  split <;> rfl

/-- A logout touches only the user the token stands for. -/
theorem logoutUser_user? {m : Manager} {sessionToken userId : String}
    (h : m.sessions sessionToken ≠ some userId) :
    (logoutUser m sessionToken).user? userId = m.user? userId := by
  simp only [logoutUser]
  split
  case h_1 => rfl
  case h_2 user hu =>
    obtain ⟨userId', ht, hu⟩ := Option.bind_eq_some_iff.mp hu
    have hne : userId ≠ user.userId := by
      rintro rfl
      exact h (by rw [ht, m.userId_of_user? hu])
    exact Manager.modifyUser_user?_ne (fun _ => rfl) hne

theorem getUserBySession_cases (m : Manager) (sessionToken : String) (now : Time) :
    (getUserBySession m sessionToken now).2 = m ∧ expiredEvent m sessionToken now = [] ∨
      (getUserBySession m sessionToken now).2 = logoutUser m sessionToken ∧
        expiredEvent m sessionToken now = [.loggedOut sessionToken] := by
  simp only [getUserBySession, expiredEvent]
  cases h : (m.sessions sessionToken).bind m.user? with
  | none => simp
  | some user =>
    cases he : user.sessionExpired now <;> simp [he]

/-- A step logs a user in, takes one token out of `sessions`, or changes neither `sessions` nor
a user. -/
theorem step_cases {s s' : System} {c : Call} (h : step s c = some s') :
    s.clock ≤ s'.clock ∧
      ((∃ username sessionToken u, c = .authenticate username sessionToken s'.clock ∧
          s.manager.loginUser? username s'.clock = some u ∧
          s'.manager.sessions = Function.update s.manager.sessions sessionToken (some u.userId) ∧
          s'.manager.user? =
            (s.manager.modifyUser u.userId (openSession sessionToken s'.clock)).user? ∧
          s'.history = s.history ++ [.issued sessionToken u.userId s'.clock]) ∨
        (∃ sessionToken, s'.manager = logoutUser s.manager sessionToken ∧
          s'.history = s.history ++ [.loggedOut sessionToken]) ∨
        (s'.manager.sessions = s.manager.sessions ∧ s'.manager.user? = s.manager.user? ∧
          s'.history = s.history)) := by
  simp only [step] at h
  split at h
  case isTrue => cases h
  case isFalse hclock =>
    cases c with
    | authenticate username sessionToken now =>
      obtain rfl := Option.some.inj h
      refine ⟨Int.not_lt.mp hclock, ?_⟩
      cases hu : s.manager.loginUser? username now with
      | none =>
        obtain ⟨-, hs, hu'⟩ := authenticateUser_failed hu sessionToken
        exact .inr (.inr ⟨hs, hu', by simp [issuedEvent, hu]⟩)
      | some u =>
        obtain ⟨-, hs, hu'⟩ := authenticateUser_passed hu sessionToken
        exact .inl ⟨username, sessionToken, u, rfl, hu, hs, hu', by simp [issuedEvent, hu]⟩
    | logout sessionToken now =>
      obtain rfl := Option.some.inj h
      exact ⟨Int.not_lt.mp hclock, .inr (.inl ⟨sessionToken, rfl, rfl⟩)⟩
    | lookup sessionToken now =>
      obtain rfl := Option.some.inj h
      refine ⟨Int.not_lt.mp hclock, .inr ?_⟩
      obtain ⟨hm, he⟩ | ⟨hm, he⟩ := getUserBySession_cases s.manager sessionToken now
      · exact .inr (by simp [hm, he])
      · exact .inl ⟨sessionToken, hm, by rw [he]⟩

/-- An entry stays backed as long as the user's expiry is kept and the token not logged out. -/
theorem Backed.mono {s s' : System} {t userId : String} {events : List Event}
    (h : Backed s t userId) (hclock : s.clock ≤ s'.clock)
    (hhistory : s'.history = s.history ++ events) (hout : .loggedOut t ∉ events)
    (huser : s'.manager.user? userId = s.manager.user? userId) : Backed s' t userId := by
  obtain ⟨before, issuedAt, since, hh, hlast, hle, hexp⟩ := h
  refine ⟨before, issuedAt, since ++ events, ?_, ?_, Int.le_trans hle hclock, ?_⟩
  · simp [hhistory, hh]
  · simp [hlast, hout]
  · rwa [huser]

theorem login_inv {s s' : System} {sessionToken : String} {u : User} (hi : Inv s)
    (hfree : ∀ t, s.manager.sessions t ≠ some u.userId) (hclock : s.clock ≤ s'.clock)
    (hs : s'.manager.sessions = Function.update s.manager.sessions sessionToken (some u.userId))
    (hu : s'.manager.user? =
      (s.manager.modifyUser u.userId (openSession sessionToken s'.clock)).user?)
    (hh : s'.history = s.history ++ [.issued sessionToken u.userId s'.clock]) : Inv s' := by
  have hfield : ∀ v, (openSession sessionToken s'.clock v).userId = v.userId := fun _ => rfl
  constructor
  case backed =>
    intro t userId ht
    rw [hs] at ht
    by_cases htt : t = sessionToken
    · subst htt
      obtain rfl : u.userId = userId := by simpa using ht
      refine ⟨s.history, s'.clock, [], hh, by simp, Int.le_refl _, ?_⟩
      intro v hv
      rw [hu, Manager.modifyUser_user?_self hfield] at hv
      obtain ⟨w, -, rfl⟩ := Option.map_eq_some_iff.mp hv
      rfl
    · rw [Function.update_of_ne htt] at ht
      have hne : userId ≠ u.userId := by
        rintro rfl
        exact hfree t ht
      refine (hi.backed ht).mono hclock hh (by simp) ?_
      rw [hu, Manager.modifyUser_user?_ne hfield hne]
  case single =>
    intro t t' userId ht ht'
    rw [hs] at ht ht'
    by_cases h : t = sessionToken <;> by_cases h' : t' = sessionToken
    · rw [h, h']
    · subst h
      obtain rfl : u.userId = userId := by simpa using ht
      rw [Function.update_of_ne h'] at ht'
      exact absurd ht' (hfree t')
    · subst h'
      obtain rfl : u.userId = userId := by simpa using ht'
      rw [Function.update_of_ne h] at ht
      exact absurd ht (hfree t)
    · rw [Function.update_of_ne h] at ht
      rw [Function.update_of_ne h'] at ht'
      exact hi.single ht ht'

theorem logout_inv {s s' : System} {sessionToken : String} (hi : Inv s)
    (hclock : s.clock ≤ s'.clock) (hm : s'.manager = logoutUser s.manager sessionToken)
    (hh : s'.history = s.history ++ [.loggedOut sessionToken]) : Inv s' := by
  have kept : ∀ {t userId}, s'.manager.sessions t = some userId →
      t ≠ sessionToken ∧ s.manager.sessions t = some userId := by
    intro t userId ht
    rw [hm, logoutUser_sessions] at ht
    by_cases htt : t = sessionToken
    · subst htt
      simp at ht
    · exact ⟨htt, by rwa [Function.update_of_ne htt] at ht⟩
  constructor
  case backed =>
    intro t userId ht
    obtain ⟨htt, ht⟩ := kept ht
    refine (hi.backed ht).mono hclock hh (by simp [htt]) ?_
    rw [hm]
    exact logoutUser_user? fun h => htt (hi.single ht h)
  case single =>
    intro t t' userId ht ht'
    exact hi.single (kept ht).2 (kept ht').2

theorem step_inv {s s' : System} {c : Call} (hi : Inv s) (hg : SingleLogin s c)
    (h : step s c = some s') : Inv s' := by
  obtain ⟨hclock, ⟨username, sessionToken, u, rfl, hlogin, hs, hu, hh⟩ | ⟨sessionToken, hm, hh⟩ |
    ⟨hs, hu, hh⟩⟩ := step_cases h
  · exact login_inv hi (hg u hlogin) hclock hs hu hh
  · exact logout_inv hi hclock hm hh
  · constructor
    case backed =>
      intro t userId ht
      rw [hs] at ht
      have hh : s'.history = s.history ++ [] := by simpa using hh
      exact (hi.backed ht).mono hclock hh (by simp) (by rw [hu])
    case single =>
      rw [hs]
      exact hi.single

/-- The manager before its first session. -/
def System.init (users : List User) (clock : Time) : System := ⟨{ users := users }, clock, []⟩

theorem inv_init (users : List User) (clock : Time) : Inv (System.init users clock) :=
  ⟨by simp [System.init], by simp [System.init]⟩

theorem Inv.lookup {s : System} (hi : Inv s) {t : String} {now : Time} {u : User}
    (hnow : s.clock ≤ now) (h : (getUserBySession s.manager t now).1 = some u) :
    Valid s.history t u.userId now := by
  simp only [getUserBySession] at h
  cases hu : (s.manager.sessions t).bind s.manager.user? with
  | none => simp [hu] at h
  | some user =>
    obtain ⟨userId, ht, huser⟩ := Option.bind_eq_some_iff.mp hu
    obtain ⟨before, issuedAt, since, hh, hout, hle, hexp⟩ := hi.backed ht
    have hexp := hexp user huser
    have hid := s.manager.userId_of_user? huser
    by_cases he : user.sessionExpired now
    · simp [hu, he] at h
    · obtain rfl : user = u := by simpa [hu, he] using h
      refine ⟨before, issuedAt, since, by rw [hid, hh], Int.le_trans hle hnow, ?_, hout⟩
      simpa [User.sessionExpired, hexp] using he

def alice : User := { userId := "1", username := "alice" }

/-- A run in which no user logs in over an entry of its own honours a token only within eight
hours of its issue and only until its logout. -/
theorem session_valid_of_singleLogin {users : List User} {start : Time} {calls : List Call}
    {s : System} (hg : Guarded step SingleLogin (System.init users start) calls)
    (hr : run step (System.init users start) calls = some s) {t : String} {now : Time} {u : User}
    (hnow : s.clock ≤ now) (h : (getUserBySession s.manager t now).1 = some u) :
    Valid s.history t u.userId now :=
  (run_invariant (fun _ _ _ => step_inv) (inv_init users start) hg hr).lookup hnow h

/-- A second login after the logout of the first. -/
theorem session_valid_relogin :
    Valid [.issued "t1" "1" 0, .loggedOut "t1", .issued "t2" "1" 2] "t2" "1" 3 := by
  let calls : List Call :=
    [.authenticate "alice" "t1" 0, .logout "t1" 1, .authenticate "alice" "t2" 2]
  have hg : Guarded step SingleLogin (System.init [alice] 0) calls := by
    refine And.intro ?_ (And.intro trivial (And.intro ?_ trivial))
    · rintro u - t ht
      cases ht
    · rintro u - t ht
      by_cases h : t = "t1"
      · subst h
        cases ht
      · change Function.update (Function.update (fun _ => none) "t1" (some "1")) "t1" none t = _
          at ht
        simp [Function.update_of_ne h] at ht
  have hnow : (2 : Time) ≤ 3 := by decide
  exact session_valid_of_singleLogin hg rfl hnow (rfl : (getUserBySession _ "t2" 3).1 = _)

/-- Two sessions of one user: the logout of the second takes the expiry off the first, which
is honoured an hour after its eight hours. -/
theorem second_logout_unbounds_first :
    ∃ s u, run step (System.init [alice] 0)
        [.authenticate "alice" "t1" 0, .authenticate "alice" "t2" 1, .logout "t2" 2] = some s ∧
      s.clock ≤ hours 9 ∧
      (getUserBySession s.manager "t1" (hours 9)).1 = some u ∧
      ¬ Valid s.history "t1" u.userId (hours 9) := by
  refine ⟨_, _, rfl, by decide, rfl, ?_⟩
  rintro ⟨before, issuedAt, since, hh, -, hnow, -⟩
  change [Event.issued "t1" "1" 0, .issued "t2" "1" 1, .loggedOut "t2"] =
    before ++ .issued "t1" "1" issuedAt :: since at hh
  have hmem : .issued "t1" "1" issuedAt ∈
      [Event.issued "t1" "1" 0, .issued "t2" "1" 1, .loggedOut "t2"] := by simp [hh]
  obtain rfl : issuedAt = 0 := by simpa using hmem
  exact absurd hnow (by decide)

end Marty.Security.Sessions
