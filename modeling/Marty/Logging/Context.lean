import Marty.Lib.ContextVar
import Marty.Lib.Dict

/-! The request context of structured logging.  `_request_context` is a context variable: each task
has its own, and the fields it holds are written over those of every log entry. -/

universe u

namespace Marty.Logging.Context

open Lib Lib.ContextVar Lib.Dict Lib.Run

/-- A dict whose values can be `None`. -/
abbrev Fields (V : Type u) := List (String × Option V)

/-- The value of `_request_context`. -/
abbrev RequestContext (V : Type u) := Option (Fields V)

variable {V : Type u}

def requestFieldNames : List String := ["request_id", "user_id", "session_id", "correlation_id"]

/-- `_request_fields`: none of them when the context is empty, else all of them. -/
def requestFields : RequestContext V → Fields V
  | none | some [] => []
  | some context => requestFieldNames.map fun name => (name, (context.lookup name).getD none)

/-- `{**(_request_context.get() or {}), **context}` -/
def merged (context : Fields V) (old : RequestContext V) : RequestContext V :=
  some (updated (old.getD []) context)

abbrev Program (V : Type u) := Prog (RequestContext V) (Fields V)

def requestContext (context : Fields V) (body rest : Program V) : Program V :=
  .scope (merged context) body rest

def setRequestContext (context : Fields V) (rest : Program V) : Program V :=
  .modify (merged context) rest

def clearRequestContext (rest : Program V) : Program V := .modify (fun _ => none) rest

def addRequestContext (context : RequestContext V) (eventDict : Fields V) : Fields V :=
  updated eventDict (requestFields context)

def written (logged : List (Fields V × RequestContext V)) : List (Fields V) :=
  logged.map fun entry => addRequestContext entry.2 entry.1

/-- What a program writes when nothing else runs. -/
def alone (start : Start (RequestContext V) (Fields V)) : List (Fields V) :=
  written (start.1.eval start.2).logged

theorem lookup_requestFields {context : Fields V} (h : context ≠ []) {name : String}
    (hname : name ∈ requestFieldNames) :
    (requestFields (some context)).lookup name = some ((context.lookup name).getD none) := by
  obtain ⟨entry, context, rfl⟩ := List.exists_cons_of_ne_nil h
  simp only [requestFieldNames, List.mem_cons, List.not_mem_nil, or_false] at hname
  rcases hname with rfl | rfl | rfl | rfl <;> rfl

theorem nodup_requestFields (context : RequestContext V) :
    ((requestFields context).map (·.1)).Nodup := by
  match context with
  | none | some [] => exact .nil
  | some (entry :: context) =>
    simp [requestFields, requestFieldNames]

/-- What an entry gives for one of the request fields itself is shown exactly when the context is
empty or holds the same. -/
theorem lookup_addRequestContext_iff {context : RequestContext V} {eventDict : Fields V}
    {name : String} (hname : name ∈ requestFieldNames) {value : Option V}
    (hvalue : eventDict.lookup name = some value) :
    (addRequestContext context eventDict).lookup name = some value ↔
      context.getD [] = [] ∨ ((context.getD []).lookup name).getD none = value := by
  have hupdated : (updated eventDict (requestFields context)).lookup name =
      ((requestFields context).lookup name).or (eventDict.lookup name) :=
    lookup_updated (nodup_requestFields context)
  rw [addRequestContext, hupdated]
  match context with
  | none | some [] => simp [requestFields, hvalue]
  | some (entry :: context) => simp [lookup_requestFields, hname]

/-- No `set_request_context` and no `clear_request_context`. -/
def Scoped : Program V → Prop
  | .done | .raise => True
  | .log _ rest => Scoped rest
  | .modify _ _ => False
  | .scope _ body rest => Scoped body ∧ Scoped rest
  | .attempt body handler rest => Scoped body ∧ Scoped handler ∧ Scoped rest
  | .spawn _ rest => Scoped rest

/-- Scopes leave the context as they found it, also when they are left by an exception. -/
theorem eval_value_of_scoped {prog : Program V} (h : Scoped prog) (context : RequestContext V) :
    (prog.eval context).value = context := by
  induction prog generalizing context with
  | done | raise => rfl
  | log entry rest ih => exact ih h context
  | modify f rest => exact h.elim
  | scope f body rest ihbody ihrest =>
    rw [Prog.eval, Outcome.next]
    split
    · rfl
    · exact ihrest h.2 context
  | attempt body handler rest ihbody ihhandler ihrest =>
    obtain ⟨hbody, hhandler, hrest⟩ := h
    have hrescued : ((body.eval context).rescue handler.eval).value = context := by
      rw [Outcome.rescue]
      split
      · rw [ihbody hbody]
        exact ihhandler hhandler context
      · exact ihbody hbody context
    rw [Prog.eval, Outcome.next]
    split
    · exact hrescued
    · rw [hrescued]
      exact ihrest hrest context
  | spawn child rest ihchild ihrest => exact ihrest h context

/-- The task has written a first part of what its program writes alone, in the context that its
parent had when it started the task, and has written it all when it has ended. -/
structure WritesAlone (roots : List (Start (RequestContext V) (Fields V)))
    (t : Task (RequestContext V) (Fields V)) : Prop where
  start : ∃ root, roots[t.root]? = some root ∧ descend root t.path = some t.start
  part : written t.logged <+: alone t.start
  ended : t.step = none → written t.logged = alone t.start

/-- Two requests.  The second starts a task in its scope and fails. -/
def twoRequests : List (Start (RequestContext ℕ) (Fields ℕ)) :=
  [(requestContext [("user_id", some 1)] (.log [("user_id", some 7)] .done) .done, none),
    (requestContext [("request_id", some 2)] (.spawn (.log [] .done) .raise) .done, none)]

example : (run step (initial twoRequests) [0, 1, 1, 2, 0, 1]).map
    (fun tasks => tasks.map fun t => written t.logged) =
    some [[[("user_id", some 1), ("request_id", none), ("session_id", none),
      ("correlation_id", none)]], [], [[("request_id", some 2), ("user_id", none),
      ("session_id", none), ("correlation_id", none)]]] := rfl

end Marty.Logging.Context
