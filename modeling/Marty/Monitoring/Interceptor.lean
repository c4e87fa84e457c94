import Marty.Lib.Pool
import Marty.Lib.Run
import Marty.Monitoring.Retention

/-! `MetricsInterceptor`: the counters around the calls of a gRPC server.  Calls run at the same
time; the body of a streaming call begins when its responses are asked for. -/

namespace Marty.Monitoring.Interceptor

open Lib Lib.Pool Lib.Run TimeWindows

/-- How the behavior ends.  `cutOff` is no `Exception`: a stream that is closed early, or what ends
the thread. -/
inductive Outcome
  | returned
  | raised (errorType : String)
  | cutOff
  deriving DecidableEq

inductive Phase
  /-- A stream of which nothing has been asked for. -/
  | created
  | running
  /-- The outcome has been counted, the duration not yet. -/
  | counted (outcome : Outcome)
  /-- `none` for a stream that was closed before it began. -/
  | ended (outcome : Option Outcome)
  deriving DecidableEq

structure Rpc where
  method : String
  phase : Phase
  deriving DecidableEq

structure System where
  rpcs : List Rpc := []
  log : List Call := []

def requestCall (method : String) (now : Datetime.Time) : Call where
  name := "grpc.requests.total"
  labels := [("method", method)]
  now := now

def outcomeCalls (method : String) (outcome : Outcome) (now : Datetime.Time) : List Call :=
  match outcome with
  | .returned =>
    [{ name := "grpc.requests.success.total", labels := [("method", method)], now := now }]
  | .raised errorType =>
    [{ name := "grpc.errors.total"
       labels := [("method", method), ("error_type", errorType)]
       now := now }]
  | .cutOff => []

def durationCall (method : String) (duration : ℚ) (now : Datetime.Time) : Call where
  name := "grpc.requests.duration"
  value := duration
  labels := [("method", method)]
  now := now

inductive Label
  | call (method : String) (responseStreaming : Bool) (now : Datetime.Time)
  | begin (i : ℕ) (now : Datetime.Time)
  /-- The stream is dropped before it begins. -/
  | drop (i : ℕ)
  | finish (i : ℕ) (outcome : Outcome) (now : Datetime.Time)
  | leave (i : ℕ) (duration : ℚ) (now : Datetime.Time)

def System.moved (s : System) (i : ℕ) (rpc : Rpc) (phase : Phase) (calls : List Call) : System where
  rpcs := s.rpcs.set i { rpc with phase := phase }
  log := s.log ++ calls

def step (s : System) : Label → Option System
  | .call method responseStreaming now =>
    if responseStreaming then some { s with rpcs := s.rpcs ++ [⟨method, .created⟩] }
    else some { rpcs := s.rpcs ++ [⟨method, .running⟩], log := s.log ++ [requestCall method now] }
  | .begin i now =>
    s.rpcs[i]?.bind fun rpc =>
      if rpc.phase = .created then some (s.moved i rpc .running [requestCall rpc.method now])
      else none
  | .drop i =>
    s.rpcs[i]?.bind fun rpc =>
      if rpc.phase = .created then some (s.moved i rpc (.ended none) []) else none
  | .finish i outcome now =>
    s.rpcs[i]?.bind fun rpc =>
      if rpc.phase = .running then
        some (s.moved i rpc (.counted outcome) (outcomeCalls rpc.method outcome now))
      else none
  | .leave i duration now =>
    s.rpcs[i]?.bind fun rpc =>
      match rpc.phase with
      | .counted outcome =>
        some (s.moved i rpc (.ended (some outcome)) [durationCall rpc.method duration now])
      | _ => none

/-- The records of a counter for a method. -/
def recordsOf (log : List Call) (name method : String) : ℕ :=
  log.countP fun call => call.name = name ∧ call.labels.lookup "method" = some method

/-- The outcome of a call, once it is counted. -/
def Phase.outcome : Phase → Option Outcome
  | .counted outcome => some outcome
  | .ended outcome => outcome
  | _ => none

def isRaised : Option Outcome → Bool
  | some (.raised _) => true
  | _ => false

/-- The body has begun. -/
def Phase.begun (phase : Phase) : Bool := phase = .running ∨ phase.outcome.isSome

def Phase.left : Phase → Bool
  | .ended outcome => outcome.isSome
  | _ => false

/-- The calls of a method in a class of phases. -/
def countOf (rpcs : List Rpc) (method : String) (p : Phase → Bool) : ℕ :=
  rpcs.countP fun rpc => rpc.method = method ∧ p rpc.phase

/-- The counters, each with the calls it counts. -/
def counters : List (String × (Phase → Bool)) :=
  [("grpc.requests.total", Phase.begun),
    ("grpc.requests.success.total", fun phase => phase.outcome = some .returned),
    ("grpc.errors.total", fun phase => isRaised phase.outcome),
    ("grpc.requests.duration", Phase.left)]

def Accounted (s : System) : Prop :=
  ∀ counter ∈ counters, ∀ method,
    recordsOf s.log counter.1 method = countOf s.rpcs method counter.2

variable {s s' : System} {i : ℕ} {rpc : Rpc} {name method : String} {p : Phase → Bool}

theorem recordsOf_append (log calls : List Call) (name method : String) :
    recordsOf (log ++ calls) name method =
      recordsOf log name method + recordsOf calls name method :=
  List.countP_append

/-- The records that go with a change of phase. -/
structure Effect (method : String) (phase phase' : Phase) (calls : List Call) : Prop where
  own : ∀ counter ∈ counters, recordsOf calls counter.1 method +
    (if counter.2 phase then 1 else 0) = if counter.2 phase' then 1 else 0
  other : ∀ counter ∈ counters, ∀ method', method ≠ method' →
    recordsOf calls counter.1 method' = 0

theorem counters_created : ∀ counter ∈ counters, counter.2 .created = false := by
  simp [counters, Phase.begun, Phase.outcome, isRaised, Phase.left]

theorem effect_nil (method : String) (phase : Phase) : Effect method phase phase [] :=
  ⟨by simp [recordsOf], by simp [recordsOf]⟩

theorem effect_begin (method : String) (now : Datetime.Time) :
    Effect method .created .running [requestCall method now] := by
  constructor <;>
    simp +contextual [counters, recordsOf, requestCall, Phase.begun, Phase.outcome, isRaised,
      Phase.left]

theorem effect_drop (method : String) : Effect method .created (.ended none) [] := by
  constructor <;>
    simp [counters, recordsOf, Phase.begun, Phase.outcome, isRaised, Phase.left]

theorem effect_finish (method : String) (outcome : Outcome) (now : Datetime.Time) :
    Effect method .running (.counted outcome) (outcomeCalls method outcome now) := by
  cases outcome <;> constructor <;>
    simp +contextual [counters, recordsOf, outcomeCalls, Phase.begun, Phase.outcome, isRaised,
      Phase.left]

theorem effect_leave (method : String) (outcome : Outcome) (duration : ℚ) (now : Datetime.Time) :
    Effect method (.counted outcome) (.ended (some outcome))
      [durationCall method duration now] := by
  cases outcome <;> constructor <;>
    simp +contextual [counters, recordsOf, durationCall, Phase.begun, Phase.outcome, isRaised,
      Phase.left]

theorem Accounted.moved (hs : Accounted s) (hi : s.rpcs[i]? = some rpc) {phase : Phase}
    {calls : List Call} (heffect : Effect rpc.method rpc.phase phase calls) :
    Accounted (s.moved i rpc phase calls) := by
  intro counter hcounter method
  have hset := countP_set hi { rpc with phase := phase }
    fun rpc => rpc.method = method ∧ counter.2 rpc.phase
  rw [System.moved, recordsOf_append, hs counter hcounter]
  change countOf s.rpcs method counter.2 + _ = countOf (s.rpcs.set i _) method counter.2
  rw [countOf, countOf]
  by_cases hmethod : rpc.method = method
  · have hown := heffect.own counter hcounter
    rw [hmethod] at hown
    simp only [hmethod, true_and, Bool.decide_eq_true] at hset ⊢
    omega
  · have hother := heffect.other counter hcounter method hmethod
    simp only [hmethod, false_and, decide_false, Bool.false_eq_true, if_false] at hset ⊢
    omega

theorem Accounted.append (hs : Accounted s) {method : String} {phase : Phase} {calls : List Call}
    (heffect : Effect method .created phase calls) :
    Accounted { rpcs := s.rpcs ++ [⟨method, phase⟩], log := s.log ++ calls } := by
  intro counter hcounter method'
  rw [recordsOf_append, hs counter hcounter, countOf, countOf, List.countP_append,
    List.countP_singleton, Nat.add_left_cancel_iff]
  by_cases hmethod : method = method'
  · subst hmethod
    have hown := heffect.own counter hcounter
    have hcreated : counter.2 .created = false := counters_created counter hcounter
    rw [hcreated] at hown
    simpa using hown
  · rw [heffect.other counter hcounter method' hmethod]
    simp [hmethod]

theorem accounted_step {l : Label} (hs : Accounted s) (h : step s l = some s') : Accounted s' := by
  cases l with
  | call method responseStreaming now =>
    simp only [step] at h
    split at h <;> obtain rfl := Option.some.inj h
    · simpa using hs.append (effect_nil method .created)
    · exact hs.append (effect_begin method now)
  | begin i now =>
    obtain ⟨rpc, hi, h⟩ := Option.bind_eq_some_iff.mp h
    split at h
    case isFalse => cases h
    case isTrue hphase =>
      obtain rfl := Option.some.inj h
      exact hs.moved hi (hphase ▸ effect_begin rpc.method now)
  | drop i =>
    obtain ⟨rpc, hi, h⟩ := Option.bind_eq_some_iff.mp h
    split at h
    case isFalse => cases h
    case isTrue hphase =>
      obtain rfl := Option.some.inj h
      exact hs.moved hi (hphase ▸ effect_drop rpc.method)
  | finish i outcome now =>
    obtain ⟨rpc, hi, h⟩ := Option.bind_eq_some_iff.mp h
    split at h
    case isFalse => cases h
    case isTrue hphase =>
      obtain rfl := Option.some.inj h
      exact hs.moved hi (hphase ▸ effect_finish rpc.method outcome now)
  | leave i duration now =>
    obtain ⟨rpc, hi, h⟩ := Option.bind_eq_some_iff.mp h
    split at h
    case h_1 outcome hphase =>
      obtain rfl := Option.some.inj h
      exact hs.moved hi (hphase ▸ effect_leave rpc.method outcome duration now)
    case h_2 => cases h

theorem run_accounted {ls : List Label} (h : run step {} ls = some s) : Accounted s := by
  refine run_preserves (fun _ _ _ => accounted_step) ?_ h
  exact fun counter _ method => rfl

/-- The behavior of the call is running. -/
def Phase.inFlight (phase : Phase) : Bool := phase = .running

def Phase.leaving : Phase → Bool
  | .counted _ => true
  | _ => false

/-- The books of a method, whatever the order in which its calls run. -/
structure Balanced (s : System) (method : String) : Prop where
  outcomes : recordsOf s.log "grpc.requests.total" method =
    recordsOf s.log "grpc.requests.success.total" method +
      recordsOf s.log "grpc.errors.total" method + countOf s.rpcs method Phase.inFlight +
      countOf s.rpcs method (·.outcome = some .cutOff)
  durations : recordsOf s.log "grpc.requests.total" method =
    recordsOf s.log "grpc.requests.duration" method + countOf s.rpcs method Phase.inFlight +
      countOf s.rpcs method Phase.leaving

/-- A call that has begun is in flight, or has one outcome; it is in flight, about to leave or has
left. -/
theorem begun_cases (phase : Phase) :
    phase.begun.toNat = (decide (phase.outcome = some .returned)).toNat +
        (isRaised phase.outcome).toNat + phase.inFlight.toNat +
        (decide (phase.outcome = some .cutOff)).toNat ∧
      phase.begun.toNat = phase.left.toNat + phase.inFlight.toNat + phase.leaving.toNat := by
  cases phase with
  | created | running => decide
  | counted outcome => cases outcome <;> exact ⟨rfl, rfl⟩
  | ended outcome =>
    cases outcome with
    | none => decide
    | some outcome => cases outcome <;> exact ⟨rfl, rfl⟩

theorem countOf_cons (rpc : Rpc) (rpcs : List Rpc) (method : String) (p : Phase → Bool) :
    countOf (rpc :: rpcs) method p =
      countOf rpcs method p + if rpc.method = method then (p rpc.phase).toNat else 0 := by
  rw [countOf, List.countP_cons, ← countOf]
  by_cases hmethod : rpc.method = method <;> cases hp : p rpc.phase <;> simp [hmethod]

theorem countOf_begun (rpcs : List Rpc) (method : String) :
    countOf rpcs method Phase.begun = countOf rpcs method (·.outcome = some .returned) +
        countOf rpcs method (isRaised ·.outcome) + countOf rpcs method Phase.inFlight +
        countOf rpcs method (·.outcome = some .cutOff) ∧
      countOf rpcs method Phase.begun = countOf rpcs method Phase.left +
        countOf rpcs method Phase.inFlight + countOf rpcs method Phase.leaving := by
  induction rpcs with
  | nil => exact ⟨rfl, rfl⟩
  | cons rpc rpcs ih =>
    obtain ⟨houtcomes, hleft⟩ := begun_cases rpc.phase
    simp only [countOf_cons]
    split <;> omega

theorem balanced_of_run {ls : List Label} (h : run step {} ls = some s) (method : String) :
    Balanced s method := by
  have hs := run_accounted h
  simp only [Accounted, counters, List.forall_mem_cons] at hs
  obtain ⟨hrequests, hsuccesses, herrors, hdurations, -⟩ := hs
  obtain ⟨houtcomes, hleft⟩ := countOf_begun s.rpcs method
  constructor
  · rw [hrequests, hsuccesses, herrors, houtcomes]
  · rw [hrequests, hdurations, hleft]

/-- A call that raises beside a stream that is closed early. -/
def raisedAndClosed : List Label :=
  [.call "/Get" false 0, .call "/List" true 0, .begin 1 0, .finish 0 (.raised "ValueError") 1,
    .finish 1 .cutOff 1, .leave 1 1 1]

theorem balanced_raisedAndClosed :
    ∃ s, run step {} raisedAndClosed = some s ∧ Balanced s "/Get" := by
  obtain ⟨s, hs⟩ : ∃ s, run step {} raisedAndClosed = some s := ⟨_, rfl⟩
  exact ⟨s, hs, balanced_of_run hs "/Get"⟩

end Marty.Monitoring.Interceptor
