import Marty.Lib.Pool
import Marty.Lib.Run

/-! The background task of `OutboxDispatcher`.  `start` and `stop` are called by any number of
tasks, the loop's own apart; between two awaits a task is not interrupted, so a step is what one of
them does up to its next await. -/

namespace Marty.Infrastructure.DispatcherLoop

open Lib Lib.Pool Lib.Run

/-- Where a task of `_run` stands. -/
inductive Place
  | created
  | flushing
  | waiting
  | done
  deriving DecidableEq

structure Loop where
  place : Place := .created
  /-- A `CancelledError` is to be thrown at its next step. -/
  cancelled : Bool := false
  /-- The `flush_once` passes that it has begun. -/
  passes : ℕ := 0
  deriving DecidableEq

/-- How a `flush_once` ends.  `died` is a `BaseException`, among them a `CancelledError` of
something it awaits. -/
inductive Flushed
  | processed (count : ℕ)
  | failed
  | died
  deriving DecidableEq

inductive Move
  | enter
  | flushed (result : Flushed)
  | wake
  /-- The `CancelledError` has had its effect.  It can be swallowed: by what a pass awaits, or by
  `wait_for` when the event has been set before. -/
  | interrupt (swallowed : Bool)
  /-- From outside, or from the task that awaits `stop`. -/
  | cancel
  deriving DecidableEq

/-- The `while` condition, with the `finally` clause when it fails. -/
def Loop.head (loop : Loop) (stopping : Bool) : Loop × Bool :=
  if stopping then ({ loop with place := .done }, false)
  else ({ loop with place := .flushing, passes := loop.passes + 1 }, false)

/-- The loop and `_stopping` after a move. -/
def Loop.step (stopping : Bool) (loop : Loop) : Move → Option (Loop × Bool)
  | .enter =>
    if loop.place = .created then
      -- A coroutine that is cancelled before its first step does not reach its `finally` clause.
      if loop.cancelled then some ({ loop with place := .done, cancelled := false }, stopping)
      else some (loop.head stopping)
    else none
  | .flushed result =>
    if loop.place = .flushing ∧ loop.cancelled = false then
      match result with
      | .processed 0 | .failed => some ({ loop with place := .waiting }, stopping)
      | .processed (_ + 1) => some (loop.head stopping)
      | .died => some ({ loop with place := .done }, false)
    else none
  | .wake =>
    if loop.place = .waiting ∧ loop.cancelled = false then some (loop.head stopping) else none
  | .interrupt swallowed =>
    if loop.cancelled then
      match loop.place with
      | .created | .done => none
      | .flushing =>
        if swallowed then some ({ loop with cancelled := false }, stopping)
        else some ({ loop with place := .done, cancelled := false }, false)
      | .waiting =>
        if swallowed then some ({ loop with cancelled := false }.head stopping)
        else some ({ loop with place := .done, cancelled := false }, false)
    else none
  | .cancel =>
    if loop.place = .done then none else some ({ loop with cancelled := true }, stopping)

inductive Method
  | start
  | stop
  deriving DecidableEq

inductive Phase
  /-- For the lock. -/
  | waiting
  /-- `stop`, for the task. -/
  | awaiting
  | returned
  /-- Cancelled while it waited for the lock. -/
  | abandoned
  deriving DecidableEq

structure Call where
  method : Method
  phase : Phase := .waiting
  deriving DecidableEq

structure System where
  loops : List Loop := []
  task : Option ℕ := none
  stopping : Bool := false
  /-- The call that holds `_lock`. -/
  lock : Option ℕ := none
  calls : List Call := []

def Alive (s : System) (k : ℕ) : Prop := ∃ loop, s.loops[k]? = some loop ∧ loop.place ≠ .done

/-- The loop of `_task`, when it is not done. -/
def System.running (s : System) : Option (ℕ × Loop) :=
  s.task.bind fun k => (s.loops[k]?.filter (·.place ≠ .done)).map fun loop => (k, loop)

def System.called (s : System) (i : ℕ) (method : Method) (phase : Phase) : System :=
  { s with calls := s.calls.set i ⟨method, phase⟩ }

/-- `start`, once it has the lock. -/
def System.started (s : System) (i : ℕ) : System :=
  match s.running with
  | some _ => s.called i .start .returned
  | none =>
    { s.called i .start .returned with
      stopping := false
      loops := s.loops ++ [{}]
      task := some s.loops.length }

/-- `stop`, once it has the lock. -/
def System.stopped (s : System) (i : ℕ) : System :=
  match s.task, s.running with
  | none, _ => s.called i .stop .returned
  | some _, none => { s.called i .stop .returned with task := none, stopping := false }
  | some _, some (k, loop) =>
    { s.called i .stop .awaiting with
      stopping := true
      loops := s.loops.set k { loop with cancelled := true }
      lock := some i }

inductive Label
  | call (method : Method)
  | acquire (i : ℕ)
  | abandon (i : ℕ)
  /-- The task that `stop` awaits is done. -/
  | resume (i : ℕ)
  | move (k : ℕ) (move : Move)

def step (s : System) : Label → Option System
  | .call method => some { s with calls := s.calls ++ [{ method }] }
  | .acquire i =>
    s.calls[i]?.bind fun call =>
      if call.phase = .waiting ∧ s.lock = none then
        match call.method with
        | .start => some (s.started i)
        | .stop => some (s.stopped i)
      else none
  | .abandon i =>
    s.calls[i]?.bind fun call =>
      if call.phase = .waiting then some (s.called i call.method .abandoned) else none
  | .resume i =>
    if s.lock = some i ∧ s.running = none then
      some { s.called i .stop .returned with task := none, stopping := false, lock := none }
    else none
  | .move k move =>
    s.loops[k]?.bind fun loop => (loop.step s.stopping move).map fun r =>
      { s with loops := s.loops.set k r.1, stopping := r.2 }

/-- What is left of a loop that has been told to stop. -/
def Loop.rank (loop : Loop) : ℕ :=
  match loop.place with
  | .done => 0
  | .created | .waiting => 1
  | .flushing => if loop.cancelled then 3 else 2

variable {s s' : System} {loop loop' : Loop} {stopping stopping' : Bool} {move : Move} {i k : ℕ}

/-- What a move of a loop leaves to be true. -/
structure Moved (stopping : Bool) (loop : Loop) (move : Move) (stopping' : Bool) (loop' : Loop) :
    Prop where
  alive : loop.place ≠ .done
  /-- The event is cleared only by a loop that ends. -/
  cleared : stopping' = stopping ∨ stopping' = false ∧ loop'.place = .done
  passes : stopping = true → loop'.passes = loop.passes
  rank : stopping = true →
    if move = .cancel then loop'.rank ≤ loop.rank + 1 else loop'.rank < loop.rank

theorem Loop.step_moved (h : loop.step stopping move = some (loop', stopping')) :
    Moved stopping loop move stopping' loop' := by
  obtain ⟨place, cancelled, passes⟩ := loop
  cases move with
  | enter => constructor <;> grind [Loop.step, Loop.head, Loop.rank]
  | flushed result =>
    match result with
    | .processed 0 | .failed => constructor <;> grind [Loop.step, Loop.rank]
    | .processed (_ + 1) => constructor <;> grind [Loop.step, Loop.head, Loop.rank]
    | .died => constructor <;> grind [Loop.step, Loop.rank]
  | wake => constructor <;> grind [Loop.step, Loop.head, Loop.rank]
  | interrupt swallowed => constructor <;> grind [Loop.step, Loop.head, Loop.rank]
  | cancel => constructor <;> grind [Loop.step, Loop.rank]

/-- A loop that is not done can move by itself. -/
theorem Loop.exists_step (h : loop.place ≠ .done) (stopping : Bool) :
    ∃ move, move ≠ .cancel ∧ (loop.step stopping move).isSome := by
  obtain ⟨place, cancelled, passes⟩ := loop
  cases place with
  | created =>
    refine ⟨.enter, by simp, ?_⟩
    cases cancelled <;> rfl
  | flushing =>
    cases cancelled with
    | true => exact ⟨.interrupt false, by simp, rfl⟩
    | false => exact ⟨.flushed .failed, by simp, rfl⟩
  | waiting =>
    cases cancelled with
    | true => exact ⟨.interrupt false, by simp, rfl⟩
    | false => exact ⟨.wake, by simp, rfl⟩
  | done => exact absurd rfl h

theorem running_eq_some : s.running = some (k, loop) ↔
    s.task = some k ∧ s.loops[k]? = some loop ∧ loop.place ≠ .done := by
  simp only [System.running, Option.bind_eq_some_iff, Option.map_eq_some_iff,
    Option.filter_eq_some_iff, decide_eq_true_eq, Prod.mk.injEq]
  constructor
  · rintro ⟨k, htask, loop, ⟨hloop, hplace⟩, rfl, rfl⟩
    exact ⟨htask, hloop, hplace⟩
  · rintro ⟨htask, hloop, hplace⟩
    exact ⟨k, htask, loop, ⟨hloop, hplace⟩, rfl, rfl⟩

def PhaseIs (s : System) (i : ℕ) (phase : Phase) : Prop := s.calls[i]?.map (·.phase) = some phase

/-- Only the loop of `_task` is alive; the lock is held from step to step by a `stop` that awaits
it, and while it is alive then, `_stopping` is set. -/
structure Sound (s : System) : Prop where
  alive : ∀ k, Alive s k → s.task = some k
  lock : ∀ i, s.lock = some i ↔ PhaseIs s i .awaiting
  stopping : s.lock ≠ none → s.running ≠ none → s.stopping = true
  cleared : s.lock = none → s.stopping = false

theorem Sound.running_of_alive (hs : Sound s) (hloop : s.loops[k]? = some loop)
    (hplace : loop.place ≠ .done) : s.running = some (k, loop) :=
  running_eq_some.mpr ⟨hs.alive k ⟨loop, hloop, hplace⟩, hloop, hplace⟩

theorem Sound.not_alive (hs : Sound s) (h : s.running = none) (k : ℕ) : ¬Alive s k := by
  rintro ⟨loop, hloop, hplace⟩
  rw [hs.running_of_alive hloop hplace] at h
  cases h

theorem alive_of_running (h : s.running = some (k, loop)) : Alive s k :=
  ⟨loop, (running_eq_some.mp h).2⟩

theorem Sound.moved (hs : Sound s) (hloop : s.loops[k]? = some loop)
    (h : loop.step s.stopping move = some (loop', stopping')) :
    Sound { s with loops := s.loops.set k loop', stopping := stopping' } := by
  have hm := Loop.step_moved h
  have htask := hs.alive k ⟨loop, hloop, hm.alive⟩
  refine ⟨?alive, hs.lock, ?stopping, ?cleared⟩
  case alive =>
    rintro j ⟨l, hl, hplace⟩
    rcases getElem?_set_cases hl with ⟨rfl, -⟩ | ⟨-, hl⟩
    · exact htask
    · exact hs.alive j ⟨l, hl, hplace⟩
  case stopping =>
    intro hlock hrunning
    have hset := hs.stopping hlock (by rw [hs.running_of_alive hloop hm.alive]; simp)
    rcases hm.cleared with heq | ⟨-, hdone⟩
    · exact heq.trans hset
    · refine absurd ?_ hrunning
      rw [System.running, htask]
      simp [getElem?_set_self hloop, hdone]
  case cleared =>
    intro hlock
    rcases hm.cleared with heq | ⟨hfalse, -⟩
    · exact heq.trans (hs.cleared hlock)
    · exact hfalse

theorem phaseIs_set {call : Call} (hcall : s.calls[i]? = some call)
    {call' : Call} (hcalls : s'.calls = s.calls.set i call') (j : ℕ) (phase : Phase) :
    PhaseIs s' j phase ↔ if j = i then call'.phase = phase else PhaseIs s j phase := by
  rw [PhaseIs, hcalls]
  split
  case isTrue h =>
    subst h
    simp [getElem?_set_self hcall]
  case isFalse h =>
    rw [List.getElem?_set_ne (Ne.symm h), PhaseIs]

/-- A call that leaves its wait for the lock otherwise than by awaiting the task. -/
theorem Sound.lock_set (hs : Sound s) {call call' : Call} (hcall : s.calls[i]? = some call)
    (hphase : call.phase = .waiting) (hphase' : call'.phase ≠ .awaiting)
    (hlock : s'.lock = s.lock) (hcalls : s'.calls = s.calls.set i call') (j : ℕ) :
    s'.lock = some j ↔ PhaseIs s' j .awaiting := by
  rw [phaseIs_set hcall hcalls, hlock, hs.lock]
  split
  case isTrue h =>
    subst h
    simp [PhaseIs, hcall, hphase, hphase']
  case isFalse => rfl

theorem Sound.started (hs : Sound s) {call : Call} (hcall : s.calls[i]? = some call)
    (hphase : call.phase = .waiting) (hlock : s.lock = none) : Sound (s.started i) := by
  unfold System.started
  split
  case h_1 =>
    exact ⟨hs.alive, hs.lock_set hcall hphase (by simp) rfl rfl, hs.stopping, hs.cleared⟩
  case h_2 hrunning =>
    refine ⟨?_, hs.lock_set hcall hphase (by simp) rfl rfl, ?_, fun _ => rfl⟩
    · rintro k ⟨loop, hloop, hplace⟩
      rcases getElem?_append_cases hloop with ⟨rfl, -⟩ | hloop
      · rfl
      · exact absurd ⟨loop, hloop, hplace⟩ (hs.not_alive hrunning k)
    · intro h
      exact absurd hlock h

theorem Sound.stopped (hs : Sound s) {call : Call} (hcall : s.calls[i]? = some call)
    (hphase : call.phase = .waiting) (hlock : s.lock = none) : Sound (s.stopped i) := by
  unfold System.stopped
  split
  case h_1 =>
    exact ⟨hs.alive, hs.lock_set hcall hphase (by simp) rfl rfl, hs.stopping, hs.cleared⟩
  case h_2 hrunning =>
    refine ⟨fun k hk => ?_, hs.lock_set hcall hphase (by simp) rfl rfl, ?_, fun _ => rfl⟩
    · exact absurd hk (hs.not_alive hrunning k)
    · intro _ h
      exact absurd rfl h
  case h_3 k loop htask hrunning =>
    obtain ⟨htask, hloop, hplace⟩ := running_eq_some.mp hrunning
    refine ⟨?_, fun j => ?_, fun _ _ => rfl, fun h => by cases h⟩
    · rintro j ⟨l, hl, hlplace⟩
      rcases getElem?_set_cases hl with ⟨rfl, -⟩ | ⟨-, hl⟩
      · exact htask
      · exact hs.alive j ⟨l, hl, hlplace⟩
    · rw [phaseIs_set hcall rfl]
      split
      case isTrue h => simp [h]
      case isFalse h =>
        rw [← hs.lock, hlock]
        simp [Ne.symm h]

theorem sound_step {l : Label} (hs : Sound s) (h : step s l = some s') : Sound s' := by
  cases l with
  | call method =>
    obtain rfl := Option.some.inj h
    refine ⟨hs.alive, fun i => ?_, hs.stopping, hs.cleared⟩
    rw [hs.lock, PhaseIs, PhaseIs]
    constructor
    · intro h
      obtain ⟨call, hcall, hphase⟩ := Option.map_eq_some_iff.mp h
      rw [getElem?_append_old hcall, ← hphase]
      rfl
    · intro h
      obtain ⟨call, hcall, hphase⟩ := Option.map_eq_some_iff.mp h
      rcases getElem?_append_cases hcall with ⟨-, rfl⟩ | hcall
      · cases hphase
      · rw [hcall, ← hphase]
        rfl
  | acquire i =>
    obtain ⟨call, hcall, h⟩ := Option.bind_eq_some_iff.mp h
    split at h
    case isFalse => cases h
    case isTrue hfree =>
      split at h <;> obtain rfl := Option.some.inj h
      · exact hs.started hcall hfree.1 hfree.2
      · exact hs.stopped hcall hfree.1 hfree.2
  | abandon i =>
    obtain ⟨call, hcall, h⟩ := Option.bind_eq_some_iff.mp h
    split at h
    case isFalse => cases h
    case isTrue hphase =>
      obtain rfl := Option.some.inj h
      exact ⟨hs.alive, hs.lock_set hcall hphase (by simp) rfl rfl, hs.stopping, hs.cleared⟩
  | resume i =>
    simp only [step] at h
    split at h
    case isFalse => cases h
    case isTrue hdone =>
      obtain rfl := Option.some.inj h
      obtain ⟨hlock, hrunning⟩ := hdone
      refine ⟨fun k hk => absurd hk (hs.not_alive hrunning k), fun j => ?_, fun h => absurd rfl h,
        fun _ => rfl⟩
      obtain ⟨call, hcall, -⟩ := Option.map_eq_some_iff.mp ((hs.lock i).mp hlock)
      rw [phaseIs_set hcall rfl]
      split
      case isTrue h => simp
      case isFalse h =>
        rw [← hs.lock, hlock]
        simp [Ne.symm h]
  | move k move =>
    obtain ⟨loop, hloop, h⟩ := Option.bind_eq_some_iff.mp h
    obtain ⟨⟨loop', stopping'⟩, hstep, rfl⟩ := Option.map_eq_some_iff.mp h
    exact hs.moved hloop hstep

theorem sound_of_run {ls : List Label} (h : run step {} ls = some s) : Sound s := by
  refine run_preserves (fun _ _ _ => sound_step) ?_ h
  constructor <;> simp [Alive, PhaseIs]

/-- What the calls promise, in a state `s'` that a step leads to from `s`. -/
structure Promises (s s' : System) : Prop where
  single : ∀ j k, Alive s' j → Alive s' k → j = k
  /-- When `start` returns, a loop is alive. -/
  start : ∀ i : ℕ, ¬PhaseIs s i .returned →
    s'.calls[i]? = some { method := .start, phase := .returned } → ∃ k, Alive s' k
  /-- When `stop` returns, none is. -/
  stop : ∀ i : ℕ, ¬PhaseIs s i .returned →
    s'.calls[i]? = some { method := .stop, phase := .returned } → ∀ k, ¬Alive s' k
  /-- While a `stop` awaits the loop, no pass is begun. -/
  passes : ∀ i, PhaseIs s i .awaiting → s'.loops.map (·.passes) = s.loops.map (·.passes)

theorem phaseIs_of_getElem? {call : Call} (h : s.calls[i]? = some call) :
    PhaseIs s i call.phase := by
  rw [PhaseIs, h]
  rfl

theorem eq_of_returned {call call' : Call} (hcalls : s'.calls = s.calls.set i call') {j : ℕ}
    (hbefore : ¬PhaseIs s j .returned) (h : s'.calls[j]? = some call)
    (hphase : call.phase = .returned) : call = call' := by
  rw [hcalls] at h
  rcases getElem?_set_cases h with ⟨-, rfl⟩ | ⟨-, h⟩
  · rfl
  · exact absurd (hphase ▸ phaseIs_of_getElem? h) hbefore

/-- A step by which no call returns. -/
theorem promises_of_calls (hs : Sound s') (hcalls : ∀ j call, s'.calls[j]? = some call →
    call.phase = .returned → PhaseIs s j .returned)
    (hpasses : ∀ i, PhaseIs s i .awaiting → s'.loops.map (·.passes) = s.loops.map (·.passes)) :
    Promises s s' where
  single := fun j k hj hk => Option.some.inj ((hs.alive j hj).symm.trans (hs.alive k hk))
  start := fun i hbefore h => absurd (hcalls i _ h rfl) hbefore
  stop := fun i hbefore h => absurd (hcalls i _ h rfl) hbefore
  passes := hpasses

theorem promises_of_set (hs : Sound s') {call' : Call} (hcalls : s'.calls = s.calls.set i call')
    (hstart : call' = { method := .start, phase := .returned } → ∃ k, Alive s' k)
    (hstop : call' = { method := .stop, phase := .returned } → ∀ k, ¬Alive s' k)
    (hpasses : ∀ i, PhaseIs s i .awaiting → s'.loops.map (·.passes) = s.loops.map (·.passes)) :
    Promises s s' where
  single := fun j k hj hk => Option.some.inj ((hs.alive j hj).symm.trans (hs.alive k hk))
  start := fun _ hbefore h => hstart (eq_of_returned hcalls hbefore h rfl).symm
  stop := fun _ hbefore h => hstop (eq_of_returned hcalls hbefore h rfl).symm
  passes := hpasses

theorem started_calls (s : System) (i : ℕ) :
    (s.started i).calls = s.calls.set i { method := .start, phase := .returned } := by
  unfold System.started
  split <;> rfl

theorem exists_alive_started (s : System) (i : ℕ) : ∃ k, Alive (s.started i) k := by
  unfold System.started
  split
  case h_1 r hrunning => exact ⟨r.1, alive_of_running hrunning⟩
  case h_2 => exact ⟨s.loops.length, {}, by simp, by simp⟩

theorem stopped_of_running_none (h : s.running = none) :
    (s.stopped i).loops = s.loops ∧
      (s.stopped i).calls = s.calls.set i { method := .stop, phase := .returned } := by
  unfold System.stopped
  rw [h]
  split
  case h_1 => exact ⟨rfl, rfl⟩
  case h_2 => exact ⟨rfl, rfl⟩
  case h_3 hr => cases hr

theorem stopped_of_running (h : s.running = some (k, loop)) :
    (s.stopped i).calls = s.calls.set i { method := .stop, phase := .awaiting } := by
  unfold System.stopped
  rw [h, (running_eq_some.mp h).1]
  rfl

theorem promises_step {l : Label} (hs : Sound s) (h : step s l = some s') : Promises s s' := by
  have hs' := sound_step hs h
  cases l with
  | call method =>
    obtain rfl := Option.some.inj h
    refine promises_of_calls hs' (fun j call hcall hphase => ?_) fun _ _ => rfl
    rcases getElem?_append_cases hcall with ⟨-, rfl⟩ | hcall
    · cases hphase
    · exact hphase ▸ phaseIs_of_getElem? hcall
  | acquire i =>
    obtain ⟨call, hcall, h⟩ := Option.bind_eq_some_iff.mp h
    split at h
    case isFalse => cases h
    case isTrue hfree =>
      -- Nobody awaits the loop when the lock is free.
      have hnone : ∀ j, ¬PhaseIs s j .awaiting := by
        intro j hj
        rw [← hs.lock, hfree.2] at hj
        cases hj
      split at h <;> obtain rfl := Option.some.inj h
      case h_1 =>
        exact promises_of_set hs' (started_calls s i) (fun _ => exists_alive_started s i) (by simp)
          fun j hj => absurd hj (hnone j)
      case h_2 =>
        cases hrunning : s.running with
        | none =>
          obtain ⟨hloops, hcalls⟩ := stopped_of_running_none (i := i) hrunning
          refine promises_of_set hs' hcalls (by simp) (fun _ k hk => ?_)
            fun j hj => absurd hj (hnone j)
          rw [Alive, hloops] at hk
          exact hs.not_alive hrunning k hk
        | some r =>
          exact promises_of_set hs' (stopped_of_running hrunning) (by simp) (by simp)
            fun j hj => absurd hj (hnone j)
  | abandon i =>
    obtain ⟨call, hcall, h⟩ := Option.bind_eq_some_iff.mp h
    split at h
    case isFalse => cases h
    case isTrue hphase =>
      obtain rfl := Option.some.inj h
      exact promises_of_set hs' rfl (by simp) (by simp) fun _ _ => rfl
  | resume i =>
    simp only [step] at h
    split at h
    case isFalse => cases h
    case isTrue hdone =>
      obtain rfl := Option.some.inj h
      exact promises_of_set hs' rfl (by simp) (fun _ => hs.not_alive hdone.2) fun _ _ => rfl
  | move k move =>
    obtain ⟨loop, hloop, h⟩ := Option.bind_eq_some_iff.mp h
    obtain ⟨⟨loop', stopping'⟩, hstep, rfl⟩ := Option.map_eq_some_iff.mp h
    refine promises_of_calls hs' (fun j call hcall hphase => hphase ▸ phaseIs_of_getElem? hcall)
      fun i hi => ?_
    have hm := Loop.step_moved hstep
    have hset : s.stopping = true := by
      refine hs.stopping ?_ ?_
      · rw [(hs.lock i).mpr hi]
        simp
      · rw [hs.running_of_alive hloop hm.alive]
        simp
    exact map_set hloop (hm.passes hset)

/-- In every order in which calls of `start` and `stop`, cancellations and the loops interleave. -/
theorem promises_of_run {ls : List Label} (h : run step {} ls = some s) {l : Label}
    (hl : step s l = some s') : Promises s s' :=
  promises_step (sound_of_run h) hl

/-- `stop` is called in the middle of a pass. -/
def stoppedInPass : List Label :=
  [.call .start, .acquire 0, .move 0 .enter, .call .stop, .acquire 1]

theorem promises_of_stoppedInPass : ∃ s s',
    run step {} (stoppedInPass ++ [.call .start, .move 0 (.interrupt false)]) = some s ∧
      step s (.resume 1) = some s' ∧ Promises s s' := by
  obtain ⟨s, hs⟩ : ∃ s,
      run step {} (stoppedInPass ++ [.call .start, .move 0 (.interrupt false)]) = some s := ⟨_, rfl⟩
  obtain ⟨s', hs'⟩ : ∃ s', step s (.resume 1) = some s' := by
    cases hs
    exact ⟨_, rfl⟩
  exact ⟨s, s', hs, hs', promises_of_run hs hs'⟩

/-! How long a `stop` takes. -/

def System.rank (s : System) : ℕ :=
  match s.running with
  | none => 0
  | some (_, loop) => loop.rank

def isMove : Label → Bool
  | .move _ .cancel => false
  | .move _ _ => true
  | _ => false

def isCancel : Label → Bool
  | .move _ .cancel => true
  | _ => false

theorem rank_of_task (htask : s.task = some k) (hloop : s.loops[k]? = some loop) :
    s.rank = loop.rank := by
  unfold System.rank
  by_cases hplace : loop.place = .done
  · have hrunning : s.running = none := by simp [System.running, htask, hloop, hplace]
    simp [hrunning, Loop.rank, hplace]
  · rw [running_eq_some.mpr ⟨htask, hloop, hplace⟩]

theorem rank_le (s : System) : s.rank ≤ 3 := by
  unfold System.rank Loop.rank
  grind

theorem step_calls {l : Label} (hs : Sound s) (h : step s l = some s') :
    s'.calls = s.calls ∨ (∃ call, s'.calls = s.calls ++ [call]) ∨
      ∃ j call call', s.calls[j]? = some call ∧ s'.calls = s.calls.set j call' ∧
        (call.phase = .waiting ∨
          l = .resume j ∧ call.phase = .awaiting ∧ call'.phase = .returned) := by
  cases l with
  | call method =>
    obtain rfl := Option.some.inj h
    exact .inr (.inl ⟨_, rfl⟩)
  | acquire j =>
    obtain ⟨call, hcall, h⟩ := Option.bind_eq_some_iff.mp h
    split at h
    case isFalse => cases h
    case isTrue hfree =>
      split at h <;> obtain rfl := Option.some.inj h
      case h_1 => exact .inr (.inr ⟨j, call, _, hcall, started_calls s j, .inl hfree.1⟩)
      case h_2 =>
        cases hrunning : s.running with
        | none =>
          exact .inr (.inr
            ⟨j, call, _, hcall, (stopped_of_running_none hrunning).2, .inl hfree.1⟩)
        | some r =>
          exact .inr (.inr ⟨j, call, _, hcall, stopped_of_running hrunning, .inl hfree.1⟩)
  | abandon j =>
    obtain ⟨call, hcall, h⟩ := Option.bind_eq_some_iff.mp h
    split at h
    case isFalse => cases h
    case isTrue hphase =>
      obtain rfl := Option.some.inj h
      exact .inr (.inr ⟨j, call, _, hcall, rfl, .inl hphase⟩)
  | resume j =>
    simp only [step] at h
    split at h
    case isFalse => cases h
    case isTrue hdone =>
      obtain rfl := Option.some.inj h
      obtain ⟨call, hcall, hphase⟩ := Option.map_eq_some_iff.mp ((hs.lock j).mp hdone.1)
      exact .inr (.inr ⟨j, call, _, hcall, rfl, .inr ⟨rfl, hphase, rfl⟩⟩)
  | move k move =>
    obtain ⟨loop, hloop, h⟩ := Option.bind_eq_some_iff.mp h
    obtain ⟨r, hstep, rfl⟩ := Option.map_eq_some_iff.mp h
    exact .inl rfl

/-- A call that no longer waits for the lock keeps its phase, until `stop` goes on. -/
theorem phaseIs_step {l : Label} (hs : Sound s) (h : step s l = some s') {phase : Phase}
    (hphase : phase ≠ .waiting) (hi : PhaseIs s i phase) :
    PhaseIs s' i phase ∨ phase = .awaiting ∧ PhaseIs s' i .returned := by
  obtain hcalls | ⟨call, hcalls⟩ | ⟨j, call, call', hcall, hcalls, hleft⟩ := step_calls hs h
  · left
    rwa [PhaseIs, hcalls]
  · left
    obtain ⟨old, hold, rfl⟩ := Option.map_eq_some_iff.mp hi
    rw [PhaseIs, hcalls, getElem?_append_old hold]
    rfl
  · by_cases hij : i = j
    · subst hij
      have hcallphase : call.phase = phase := by simpa [PhaseIs, hcall] using hi
      obtain hwaiting | ⟨-, hawaiting, hreturned⟩ := hleft
      · exact absurd (hcallphase.symm.trans hwaiting) hphase
      · right
        refine ⟨hcallphase.symm.trans hawaiting, ?_⟩
        rwa [phaseIs_set hcall hcalls, if_pos rfl]
    · left
      rwa [phaseIs_set hcall hcalls, if_neg hij]

theorem rank_step {l : Label} (hs : Sound s) (h : step s l = some s')
    (hi : PhaseIs s i .awaiting) (hi' : PhaseIs s' i .awaiting) :
    s'.rank + (if isMove l then 1 else 0) ≤ s.rank + (if isCancel l then 1 else 0) := by
  have hlock := (hs.lock i).mpr hi
  cases l with
  | call method =>
    obtain rfl := Option.some.inj h
    exact Nat.le_refl _
  | acquire j =>
    obtain ⟨call, -, h⟩ := Option.bind_eq_some_iff.mp h
    split at h
    case isFalse => cases h
    case isTrue hfree =>
      rw [hfree.2] at hlock
      cases hlock
  | abandon j =>
    obtain ⟨call, -, h⟩ := Option.bind_eq_some_iff.mp h
    split at h
    case isFalse => cases h
    case isTrue =>
      obtain rfl := Option.some.inj h
      exact Nat.le_refl _
  | resume j =>
    have hlock' := (sound_step hs h).lock i
    simp only [step] at h
    split at h
    case isFalse => cases h
    case isTrue =>
      obtain rfl := Option.some.inj h
      cases hlock'.mpr hi'
  | move k move =>
    obtain ⟨loop, hloop, h⟩ := Option.bind_eq_some_iff.mp h
    obtain ⟨⟨loop', stopping'⟩, hstep, rfl⟩ := Option.map_eq_some_iff.mp h
    have hm := Loop.step_moved hstep
    have hrunning := hs.running_of_alive hloop hm.alive
    have hset : s.stopping = true := hs.stopping (by simp [hlock]) (by simp [hrunning])
    have htask := (running_eq_some.mp hrunning).1
    have hbefore : s.rank = loop.rank := rank_of_task htask hloop
    have hafter : System.rank { s with
        loops := s.loops.set k loop', stopping := stopping' } = loop'.rank :=
      rank_of_task htask (getElem?_set_self hloop loop')
    have hrank := hm.rank hset
    rw [hbefore, hafter]
    cases move <;> simpa [isMove, isCancel, Nat.succ_le_iff] using hrank

theorem phaseIs_returned_of_run {ls : List Label} (hs : Sound s) (hi : PhaseIs s i .returned)
    (h : run step s ls = some s') : PhaseIs s' i .returned := by
  have hkeep : ∀ s l s', Sound s ∧ PhaseIs s i .returned → step s l = some s' →
      Sound s' ∧ PhaseIs s' i .returned := by
    rintro s l s' ⟨hs, hi⟩ h
    refine ⟨sound_step hs h, ?_⟩
    exact (phaseIs_step hs h (by simp) hi).resolve_right fun h => by cases h.1
  exact (run_preserves hkeep ⟨hs, hi⟩ h).2

theorem rank_run {ls : List Label} (hs : Sound s) (h : run step s ls = some s')
    (hi : PhaseIs s i .awaiting) (hi' : PhaseIs s' i .awaiting) :
    s'.loops.map (·.passes) = s.loops.map (·.passes) ∧
      s'.rank + ls.countP isMove ≤ s.rank + ls.countP isCancel := by
  induction ls generalizing s with
  | nil =>
    obtain rfl : s = s' := by simpa [run] using h
    exact ⟨rfl, Nat.le_refl _⟩
  | cons l ls ih =>
    obtain ⟨t, ht, h⟩ := run_cons h
    have hsound := sound_step hs ht
    rcases phaseIs_step hs ht (by simp) hi with hi₁ | ⟨-, hreturned⟩
    · obtain ⟨hpasses, hrest⟩ := ih hsound h hi₁
      have hfirst := rank_step hs ht hi hi₁
      refine ⟨hpasses.trans ((promises_step hs ht).passes i hi), ?_⟩
      rw [List.countP_cons, List.countP_cons]
      omega
    · have hlast := phaseIs_returned_of_run hsound hreturned h
      rw [PhaseIs] at hlast hi'
      rw [hlast] at hi'
      cases hi'

/-- A `stop` that awaits the loop goes on, or the loop can take a step. -/
theorem stop_progress {ls : List Label} (h : run step {} ls = some s)
    (hi : PhaseIs s i .awaiting) :
    (step s (.resume i)).isSome ∨ ∃ k move, move ≠ .cancel ∧ (step s (.move k move)).isSome := by
  have hs := sound_of_run h
  have hlock := (hs.lock i).mpr hi
  cases hrunning : s.running with
  | none => exact .inl (by simp [step, hlock, hrunning])
  | some r =>
    obtain ⟨k, loop⟩ := r
    obtain ⟨-, hloop, hplace⟩ := running_eq_some.mp hrunning
    obtain ⟨move, hmove, hstep⟩ := Loop.exists_step hplace s.stopping
    exact .inr ⟨k, move, hmove, by simpa [step, hloop] using hstep⟩

end Marty.Infrastructure.DispatcherLoop
