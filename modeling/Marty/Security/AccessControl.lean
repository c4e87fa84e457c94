import Mathlib.Logic.Function.Basic
import Marty.Lib.Datetime
import Marty.Lib.Run

/-! The sessions of `AccessControlManager`.  A session token maps to a user object, and the
expiry is a field of that object: a user is named by its identifier, so that two sessions of
one user share the field as they do in the program. -/

namespace Marty.Security.AccessControl

open Lib.Datetime Lib.Run

structure User where
  userId : String
  username : String
  isActive : Bool := true
  lastLogin : Option Time := none
  failedLoginAttempts : Nat := 0
  accountLockedUntil : Option Time := none
  sessionToken : Option String := none
  sessionExpiresAt : Option Time := none
  deriving DecidableEq

inductive AuditEvent
  | userLogin | userLogout
  deriving DecidableEq

structure AuditLogEntry where
  eventType : AuditEvent
  userId : Option String := none
  username : Option String := none
  action : String
  result : String := "success"
  errorMessage : Option String := none
  riskLevel : String := "low"

/-- `users` in the insertion order of the dictionary; `sessions` gives the user a token
stands for. -/
structure Manager where
  users : List User
  sessions : String → Option String := fun _ => none
  auditLog : List AuditLogEntry := []

def Manager.user? (m : Manager) (userId : String) : Option User :=
  m.users.find? (·.userId = userId)

/-- Write through to the user object. -/
def Manager.modifyUser (m : Manager) (userId : String) (f : User → User) : Manager :=
  { m with users := m.users.map fun u => if u.userId = userId then f u else u }

def Manager.log (m : Manager) (entry : AuditLogEntry) : Manager :=
  { m with auditLog := m.auditLog ++ [entry] }

def Manager.activeUser? (m : Manager) (username : String) : Option User :=
  m.users.find? fun u => u.username = username && u.isActive

def User.locked (u : User) (now : Time) : Bool :=
  match u.accountLockedUntil with
  | none => false
  | some lockedUntil => decide (now < lockedUntil)

/-- The user a login attempt succeeds for. -/
def Manager.loginUser? (m : Manager) (username : String) (now : Time) : Option User :=
  (m.activeUser? username).filter fun u => !u.locked now

def loginFailure (userId : Option String) (username message : String) : AuditLogEntry where
  eventType := .userLogin
  userId := userId
  username := some username
  action := "authentication"
  result := "failure"
  errorMessage := some message
  riskLevel := "medium"

def sessionEntry (eventType : AuditEvent) (u : User) (action : String) : AuditLogEntry where
  eventType := eventType
  userId := some u.userId
  username := some u.username
  action := action

def openSession (token : String) (now : Time) (u : User) : User :=
  { u with
    sessionToken := some token
    sessionExpiresAt := some (now + hours 8)
    lastLogin := some now
    failedLoginAttempts := 0
    accountLockedUntil := none }

/-- `sessionToken` is the fresh `uuid4` of the call. -/
def authenticateUser (m : Manager) (username sessionToken : String) (now : Time) :
    Option String × Manager :=
  match m.activeUser? username with
  | none => (none, m.log (loginFailure none username "User not found or inactive"))
  | some user =>
    if user.locked now then
      (none, m.log (loginFailure (some user.userId) username "Account locked"))
    else
      let m := m.modifyUser user.userId (openSession sessionToken now)
      let m := { m with sessions := Function.update m.sessions sessionToken (some user.userId) }
      (some sessionToken, m.log (sessionEntry .userLogin user "authentication"))

def closeSession (u : User) : User := { u with sessionToken := none, sessionExpiresAt := none }

def logoutUser (m : Manager) (sessionToken : String) : Manager :=
  match (m.sessions sessionToken).bind m.user? with
  | none => { m with sessions := Function.update m.sessions sessionToken none }
  | some user =>
    let m := { m with sessions := Function.update m.sessions sessionToken none }
    let m := m.modifyUser user.userId closeSession
    m.log (sessionEntry .userLogout user "logout")

def User.sessionExpired (u : User) (now : Time) : Bool :=
  match u.sessionExpiresAt with
  | none => false
  | some expiresAt => decide (now > expiresAt)

def getUserBySession (m : Manager) (sessionToken : String) (now : Time) : Option User × Manager :=
  match (m.sessions sessionToken).bind m.user? with
  | none => (none, m)
  | some user =>
    if user.sessionExpired now then (none, logoutUser m sessionToken) else (some user, m)

@[simp]
theorem Manager.log_sessions (m : Manager) (entry : AuditLogEntry) :
    (m.log entry).sessions = m.sessions := rfl

@[simp]
theorem Manager.log_user? (m : Manager) (entry : AuditLogEntry) :
    (m.log entry).user? = m.user? := rfl

theorem Manager.modifyUser_user? (m : Manager) (userId : String) {f : User → User}
    (hf : ∀ u, (f u).userId = u.userId) (userId' : String) :
    (m.modifyUser userId f).user? userId' =
      (m.user? userId').map fun u => if u.userId = userId then f u else u := by
  have hid : ∀ u : User, (if u.userId = userId then f u else u).userId = u.userId := by
    intro u
    split
    · exact hf u
    · rfl
  simp [Manager.user?, Manager.modifyUser, List.find?_map, Function.comp_def, hid]

theorem Manager.userId_of_user? {m : Manager} {userId : String} {u : User}
    (h : m.user? userId = some u) : u.userId = userId := by
  simpa using List.find?_some h

/-- A write to one user leaves the other users as they are. -/
theorem Manager.modifyUser_user?_ne {m : Manager} {userId userId' : String} {f : User → User}
    (hf : ∀ u, (f u).userId = u.userId) (hne : userId' ≠ userId) :
    (m.modifyUser userId f).user? userId' = m.user? userId' := by
  rw [m.modifyUser_user? userId hf]
  cases h : m.user? userId' with
  | none => rfl
  | some u =>
    have hu : u.userId ≠ userId := by rwa [m.userId_of_user? h]
    simp [hu]

theorem Manager.modifyUser_user?_self {m : Manager} {userId : String} {f : User → User}
    (hf : ∀ u, (f u).userId = u.userId) :
    (m.modifyUser userId f).user? userId = (m.user? userId).map f := by
  rw [m.modifyUser_user? userId hf]
  cases h : m.user? userId with
  | none => rfl
  | some u => simp [m.userId_of_user? h]

/-! Runs of the three operations. -/

inductive Call
  | authenticate (username sessionToken : String) (now : Time)
  | logout (sessionToken : String) (now : Time)
  | lookup (sessionToken : String) (now : Time)

def Call.now : Call → Time
  | .authenticate _ _ now => now
  | .logout _ now => now
  | .lookup _ now => now

/-- What the calls of a run have done to the tokens. -/
inductive Event
  | issued (sessionToken userId : String) (at_ : Time)
  | loggedOut (sessionToken : String)
  deriving DecidableEq

structure System where
  manager : Manager
  clock : Time
  history : List Event := []

def issuedEvent (m : Manager) (username sessionToken : String) (now : Time) : List Event :=
  ((m.loginUser? username now).map fun u => Event.issued sessionToken u.userId now).toList

def expiredEvent (m : Manager) (sessionToken : String) (now : Time) : List Event :=
  if ((m.sessions sessionToken).bind m.user?).any (·.sessionExpired now) then
    [.loggedOut sessionToken]
  else []

/-- One call at a time not before the last one. -/
def step (s : System) (c : Call) : Option System :=
  if c.now < s.clock then none
  else
    match c with
    | .authenticate username sessionToken now =>
      some ⟨(authenticateUser s.manager username sessionToken now).2, now,
        s.history ++ issuedEvent s.manager username sessionToken now⟩
    | .logout sessionToken now =>
      some ⟨logoutUser s.manager sessionToken, now, s.history ++ [.loggedOut sessionToken]⟩
    | .lookup sessionToken now =>
      some ⟨(getUserBySession s.manager sessionToken now).2, now,
        s.history ++ expiredEvent s.manager sessionToken now⟩

end Marty.Security.AccessControl
