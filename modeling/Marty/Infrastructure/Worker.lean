import Marty.Infrastructure.DispatcherLoop
import Marty.Infrastructure.Dispatchers

/-! One `OutboxDispatcher` with its background task and the database it drains.  A pass of the loop
is a transaction: it claims its batch when it begins, and ends by a commit or a rollback. -/

namespace Marty.Infrastructure.Worker

open Lib Lib.Pool Lib.Run Outbox
open DispatcherLoop (Loop Move)

structure System where
  loop : DispatcherLoop.System := {}
  db : Dispatchers.System := {}

/-- The number of the last pass. -/
def System.pass (s : System) : ℕ := s.db.flushes.length - 1

/-- How a move of the loop ends the pass it is in. -/
def System.ended (s : System) (loop : Loop) (move : Move) : Option Dispatchers.Label :=
  match loop.place, move with
  | .flushing, .flushed (.processed _) => some (.commit s.pass)
  | .flushing, .flushed _ => some (.rollback s.pass)
  | .flushing, .interrupt false => some (.rollback s.pass)
  | _, _ => none

def begun (loop loop' : Loop) (c : Settings) (now : Time) : Option Dispatchers.Label :=
  if loop'.passes = loop.passes then none else some (.claim c now)

/-- What the database does at a step of the loop. -/
def System.labels (s : System) (t : DispatcherLoop.System) (c : Settings) (now : Time) :
    DispatcherLoop.Label → List Dispatchers.Label
  | .move k move =>
    match s.loop.loops[k]?, t.loops[k]? with
    | some loop, some loop' => (s.ended loop move).toList ++ (begun loop loop' c now).toList
    | _, _ => []
  | _ => []

/-- `flush_once` returns the number of records that it has published. -/
def System.returns (s : System) : DispatcherLoop.Label → Bool
  | .move _ (.flushed (.processed count)) =>
    (Dispatchers.working s.db s.pass).map
      (fun f => f.settled.countP (·.outcome.error.isNone)) == some count
  | _ => true

inductive Label
  | enqueue (event : Event) (availableAt : Option Time) (id : ℕ) (now : Time)
  | publish (outcome : Outcome)
  /-- The settings and the clock are for a pass that begins. -/
  | control (l : DispatcherLoop.Label) (c : Settings) (now : Time)

def step (skipLocked : Bool) (s : System) : Label → Option System
  | .enqueue event availableAt id now =>
    (Dispatchers.step skipLocked s.db (.enqueue event availableAt id now)).map fun db =>
      { s with db := db }
  | .publish outcome =>
    if (s.loop.running.map (·.2.place)) = some .flushing then
      (Dispatchers.step skipLocked s.db (.publish s.pass outcome)).map fun db => { s with db := db }
    else none
  | .control l c now =>
    if s.returns l then
      (DispatcherLoop.step s.loop l).bind fun t =>
        (run (Dispatchers.step skipLocked) s.db (s.labels t c now l)).map fun db =>
          { loop := t, db := db }
    else none

/-- Every publish succeeds, and no pass fails or is cut off. -/
def Uncut (s : System) : Label → Prop
  | .enqueue _ _ _ _ => True
  | .publish outcome => outcome.error = none
  | .control (.move k move) _ _ => ∀ loop, s.loop.loops[k]? = some loop → ∀ i,
    s.ended loop move ≠ some (.rollback i)
  | .control _ _ _ => True

variable {skipLocked : Bool} {loop loop' : Loop} {stopping stopping' : Bool} {m : Move}

theorem place_of_step (h : loop.step stopping m = some (loop', stopping')) :
    (loop'.passes ≠ loop.passes → loop'.place = .flushing) ∧
      (loop.place = .flushing → loop'.passes ≠ loop.passes → ∃ n, m = .flushed (.processed n)) ∧
      (loop.place = .flushing →
        loop'.place = .flushing ∨ m = .interrupt false ∨ ∃ r, m = .flushed r) := by
  obtain ⟨place, cancelled, passes⟩ := loop
  cases m with
  | flushed result =>
    match result with
    | .processed 0 | .failed | .died => grind [Loop.step]
    | .processed (_ + 1) => grind [Loop.step, Loop.head]
  | _ => grind [Loop.step, Loop.head]

/-- A pass works only in the loop that runs, and it is the last one. -/
structure Sound (s : System) : Prop where
  loop : DispatcherLoop.Sound s.loop
  db : Dispatchers.Exclusive s.db
  pass : ∀ {i f}, Dispatchers.working s.db i = some f → i + 1 = s.db.flushes.length
  flushing : ∀ {i f}, Dispatchers.working s.db i = some f →
    (s.loop.running.map (·.2.place)) = some .flushing

/-- Where no pass works, nothing is locked. -/
theorem step_eq {db : Dispatchers.System} {l : Dispatchers.Label}
    (h : ∀ c now, l = .claim c now → ∀ i, Dispatchers.working db i = none) :
    Dispatchers.step skipLocked db l = Dispatchers.step true db l := by
  cases l with
  | claim c now =>
    have hlocked : db.locked = [] := by
      rw [Dispatchers.System.locked, List.flatMap_eq_nil_iff]
      intro f hf
      obtain ⟨hmem, hphase⟩ := List.mem_filter.mp hf
      obtain ⟨i, hi⟩ := List.mem_iff_getElem?.mp hmem
      have hworking := Dispatchers.working_eq_some.mpr ⟨hi, of_decide_eq_true hphase⟩
      rw [h c now rfl i] at hworking
      cases hworking
    have hvisible : ∀ b, db.visible b = db.db := by
      intro b
      cases b with
      | false => rfl
      | true => simp [Dispatchers.System.visible, hlocked]
    simp only [Dispatchers.step, hvisible]
  | _ => rfl

variable {s s' : System} {db : Dispatchers.System}

/-- A step that leaves the passes as they are. -/
theorem Sound.of_flushes (hs : Sound s) (hloop : s'.loop = s.loop)
    (hdb : Dispatchers.Exclusive s'.db) (hflushes : s'.db.flushes = s.db.flushes) : Sound s' := by
  have hworking : ∀ i, Dispatchers.working s'.db i = Dispatchers.working s.db i := by
    intro i
    rw [Dispatchers.working, hflushes, Dispatchers.working]
  refine ⟨hloop ▸ hs.loop, hdb, fun hf => ?_, fun hf => ?_⟩
  · rw [hflushes]
    exact hs.pass (hworking _ ▸ hf)
  · rw [hloop]
    exact hs.flushing (hworking _ ▸ hf)

def Idle (db : Dispatchers.System) : Prop := ∀ i, Dispatchers.working db i = none

theorem idle_commit {i : ℕ} (hlast : ∀ {j f}, Dispatchers.working db j = some f → j = i)
    {db' : Dispatchers.System} (h : Dispatchers.step skipLocked db (.commit i) = some db') :
    Idle db' := by
  obtain ⟨f, hf, h⟩ := Option.bind_eq_some_iff.mp h
  split at h
  case h_2 => cases h
  case h_1 =>
    obtain ⟨new, -, h⟩ := Option.bind_eq_some_iff.mp h
    obtain rfl := Option.some.inj h
    intro j
    by_contra hne
    obtain ⟨g, hg⟩ := Option.ne_none_iff_exists'.mp hne
    rcases Dispatchers.working_set rfl hg with ⟨-, -, hphase⟩ | ⟨hji, hg⟩
    · cases hphase
    · exact hji (hlast hg)

/-- Nothing stands in a step of the loop but the pass it begins: there a batch is claimed when no
pass works. -/
theorem sound_claim {c : Settings} {now : Time} (hdb : Dispatchers.Exclusive db) (hidle : Idle db)
    {db' : Dispatchers.System} (h : Dispatchers.step skipLocked db (.claim c now) = some db') :
    Dispatchers.Exclusive db' ∧
      ∀ {i f}, Dispatchers.working db' i = some f → i + 1 = db'.flushes.length := by
  rw [step_eq fun _ _ _ => hidle] at h
  refine ⟨Dispatchers.exclusive_step (l := .claim c now) hdb trivial h, fun {i f} hf => ?_⟩
  obtain rfl := Option.some.inj h
  rcases Dispatchers.working_append rfl hf with ⟨rfl, -⟩ | hf
  · simp
  · rw [hidle i] at hf
    cases hf

/-- Calls of `start` and `stop` leave the pass of the loop alone. -/
theorem running_place {l : DispatcherLoop.Label} {t u : DispatcherLoop.System}
    (h : DispatcherLoop.step t l = some u) (hl : ∀ k m, l ≠ .move k m)
    {place : DispatcherLoop.Place}
    (hplace : (t.running.map (·.2.place)) = some place) :
    (u.running.map (·.2.place)) = some place := by
  obtain ⟨⟨k, loop⟩, hrunning, rfl⟩ := Option.map_eq_some_iff.mp hplace
  have hrun := DispatcherLoop.running_eq_some.mp hrunning
  cases l with
  | call method =>
    obtain rfl := Option.some.inj h
    exact hplace
  | acquire i =>
    obtain ⟨call, -, h⟩ := Option.bind_eq_some_iff.mp h
    split at h
    case isFalse => cases h
    case isTrue =>
      split at h <;> obtain rfl := Option.some.inj h
      case h_1 =>
        rw [DispatcherLoop.System.started, hrunning]
        exact hplace
      case h_2 =>
        have hset : (t.stopped i).running = some (k, { loop with cancelled := true }) := by
          refine DispatcherLoop.running_eq_some.mpr ?_
          rw [DispatcherLoop.System.stopped, hrunning, hrun.1]
          exact ⟨hrun.1, getElem?_set_self hrun.2.1 _, hrun.2.2⟩
        rw [hset]
        rfl
  | abandon i =>
    obtain ⟨call, -, h⟩ := Option.bind_eq_some_iff.mp h
    split at h
    case isFalse => cases h
    case isTrue =>
      obtain rfl := Option.some.inj h
      exact hplace
  | resume i =>
    simp only [DispatcherLoop.step, hrunning] at h
    simp at h
  | move k m => exact absurd rfl (hl k m)

theorem labels_of_not_move {l : DispatcherLoop.Label} (hl : ∀ k m, l ≠ .move k m)
    (t : DispatcherLoop.System) (c : Settings) (now : Time) : s.labels t c now l = [] := by
  cases l with
  | move k m => exact absurd rfl (hl k m)
  | _ => rfl

theorem Sound.control (hs : Sound s) {l : DispatcherLoop.Label} {t : DispatcherLoop.System}
    (h : DispatcherLoop.step s.loop l = some t) (hl : ∀ k m, l ≠ .move k m) :
    Sound { s with loop := t } where
  loop := DispatcherLoop.sound_step hs.loop h
  db := hs.db
  pass := hs.pass
  flushing := fun hf => running_place h hl (hs.flushing hf)

theorem ended_eq_some {l : Dispatchers.Label} (h : s.ended loop m = some l) :
    l = .commit s.pass ∨ l = .rollback s.pass := by
  unfold System.ended at h
  split at h
  case h_1 => exact .inl (Option.some.inj h).symm
  case h_2 | h_3 => exact .inr (Option.some.inj h).symm
  case h_4 => cases h

theorem ended_enter : s.ended loop .enter = none := by
  cases hplace : loop.place <;> simp [System.ended, hplace]

theorem ended_processed {n i : ℕ} :
    s.ended loop (.flushed (.processed n)) ≠ some (.rollback i) := by
  cases hplace : loop.place <;> simp [System.ended, hplace]

theorem ended_ne_none (hplace : loop.place = .flushing)
    (h : m = .interrupt false ∨ ∃ r, m = .flushed r) : s.ended loop m ≠ none := by
  rcases h with rfl | ⟨r, rfl⟩
  · simp [System.ended, hplace]
  · cases r <;> simp [System.ended, hplace]

theorem Sound.moved (hs : Sound s) {k : ℕ} (hloop : s.loop.loops[k]? = some loop)
    (h : loop.step s.loop.stopping m = some (loop', stopping'))
    (huncut : ∀ i, s.ended loop m ≠ some (.rollback i)) {c : Settings} {now : Time}
    {t : DispatcherLoop.System} (ht : t = { s.loop with
      loops := s.loop.loops.set k loop', stopping := stopping' })
    (hdb : run (Dispatchers.step skipLocked) s.db (s.labels t c now (.move k m)) = some db) :
    Sound { loop := t, db := db } := by
  obtain ⟨hpasses, hprocessed, hkeeps⟩ := place_of_step h
  have hrunning := hs.loop.running_of_alive hloop (DispatcherLoop.Loop.step_moved h).alive
  have hafter : loop'.place = .flushing → (t.running.map (·.2.place)) = some .flushing := by
    intro hplace
    have hrun : t.running = some (k, loop') := by
      rw [DispatcherLoop.running_eq_some, ht]
      exact ⟨(DispatcherLoop.running_eq_some.mp hrunning).1, getElem?_set_self hloop _,
        by simp [hplace]⟩
    rw [hrun, Option.map_some, hplace]
  have hbefore : ∀ {i f}, Dispatchers.working s.db i = some f → loop.place = .flushing := by
    intro i f hf
    simpa [hrunning] using hs.flushing hf
  have hlabels : s.labels t c now (.move k m) =
      (s.ended loop m).toList ++ (begun loop loop' c now).toList := by
    simp only [System.labels, hloop, ht, getElem?_set_self hloop]
  rw [hlabels, run_append] at hdb
  obtain ⟨mid, hmid, hdb⟩ := Option.bind_eq_some_iff.mp hdb
  -- The end of the pass, if it ends.
  have hend : Dispatchers.Exclusive mid ∧ (s.ended loop m = none ∧ mid = s.db ∨ Idle mid) := by
    cases hended : s.ended loop m with
    | none =>
      rw [hended] at hmid
      obtain rfl := Option.some.inj hmid
      exact ⟨hs.db, .inl ⟨rfl, rfl⟩⟩
    | some l =>
      rw [hended] at hmid
      obtain ⟨u, hstep, hu⟩ := run_cons hmid
      obtain rfl := Option.some.inj hu
      obtain rfl : l = .commit s.pass :=
        (ended_eq_some hended).resolve_right fun hr => huncut s.pass (hr ▸ hended)
      refine ⟨?_, .inr (idle_commit (fun hf => ?_) hstep)⟩
      · rw [step_eq fun _ _ hl => by cases hl] at hstep
        exact Dispatchers.exclusive_step (l := .commit s.pass) hs.db trivial hstep
      · have hpass := hs.pass hf
        rw [System.pass, ← hpass, Nat.add_sub_cancel]
  have hloopsound : DispatcherLoop.Sound t := ht ▸ hs.loop.moved hloop h
  by_cases hbegun : loop'.passes = loop.passes
  · rw [begun, if_pos hbegun] at hdb
    obtain rfl := Option.some.inj hdb
    have hold : ∀ {i f}, Dispatchers.working mid i = some f →
        s.ended loop m = none ∧ mid = s.db := by
      intro i f hf
      refine hend.2.resolve_right fun hidle => ?_
      rw [hidle i] at hf
      cases hf
    refine ⟨hloopsound, hend.1, fun hf => ?_, fun hf => hafter ?_⟩
    · obtain ⟨-, rfl⟩ := hold hf
      exact hs.pass hf
    · obtain ⟨hended, rfl⟩ := hold hf
      have hplace := hbefore hf
      exact (hkeeps hplace).resolve_right fun hm => ended_ne_none hplace hm hended
  · rw [begun, if_neg hbegun] at hdb
    obtain ⟨u, hstep, hu⟩ := run_cons hdb
    obtain rfl := Option.some.inj hu
    have hidle : Idle mid := by
      rcases hend.2 with ⟨hended, rfl⟩ | hidle
      · intro i
        by_contra hne
        obtain ⟨f, hf⟩ := Option.ne_none_iff_exists'.mp hne
        have hplace := hbefore hf
        obtain ⟨n, rfl⟩ := hprocessed hplace hbegun
        exact ended_ne_none hplace (.inr ⟨_, rfl⟩) hended
      · exact hidle
    obtain ⟨hexclusive, hpass⟩ := sound_claim hend.1 hidle hstep
    exact ⟨hloopsound, hexclusive, hpass, fun _ => hafter (hpasses hbegun)⟩

theorem sound_step {l : Label} (hs : Sound s) (hl : Uncut s l)
    (h : step skipLocked s l = some s') : Sound s' := by
  cases l with
  | enqueue event availableAt id now =>
    obtain ⟨db, hdb, rfl⟩ := Option.map_eq_some_iff.mp h
    rw [step_eq fun _ _ hl => by cases hl] at hdb
    refine hs.of_flushes rfl
      (Dispatchers.exclusive_step (l := .enqueue event availableAt id now) hs.db trivial hdb) ?_
    simp only [Dispatchers.step] at hdb
    split at hdb
    · cases hdb
    · obtain rfl := Option.some.inj hdb
      rfl
  | publish outcome =>
    simp only [step] at h
    split at h
    case isFalse => cases h
    case isTrue hplace =>
      obtain ⟨db, hdb, rfl⟩ := Option.map_eq_some_iff.mp h
      rw [step_eq fun _ _ hl => by cases hl] at hdb
      have hexclusive := Dispatchers.exclusive_step (l := .publish s.pass outcome) hs.db hl hdb
      obtain ⟨f, hf, hdb⟩ := Option.bind_eq_some_iff.mp hdb
      split at hdb
      case h_2 => cases hdb
      case h_1 =>
        obtain ⟨message, -, hdb⟩ := Option.bind_eq_some_iff.mp hdb
        obtain rfl := Option.some.inj hdb
        refine ⟨hs.loop, hexclusive, fun hg => ?_, fun _ => hplace⟩
        rw [List.length_set]
        rcases Dispatchers.working_set rfl hg with ⟨rfl, -, -⟩ | ⟨-, hg⟩
        · exact hs.pass hf
        · exact hs.pass hg
  | control l c now =>
    simp only [step] at h
    split at h
    case isFalse => cases h
    case isTrue =>
      obtain ⟨t, ht, h⟩ := Option.bind_eq_some_iff.mp h
      obtain ⟨db, hdb, rfl⟩ := Option.map_eq_some_iff.mp h
      cases l with
      | move k m =>
        obtain ⟨loop, hloop, hstep⟩ := Option.bind_eq_some_iff.mp ht
        obtain ⟨⟨loop', stopping'⟩, hstep, heq⟩ := Option.map_eq_some_iff.mp hstep
        exact hs.moved hloop hstep (hl loop hloop) heq.symm hdb
      | call | acquire | abandon | resume =>
        rw [labels_of_not_move fun _ _ h => by cases h] at hdb
        obtain rfl := Option.some.inj hdb
        exact hs.control ht fun _ _ h => by cases h

/-- `start` is called twice while the loop drains a record. -/
def drained : List Label :=
  [.enqueue { topic := "credential.issued", payload := [1] } none 1 0,
    .control (.call .start) {} 0, .control (.call .start) {} 0, .control (.acquire 0) {} 0,
    .control (.move 0 .enter) {} 0, .control (.acquire 1) {} 0, .publish ⟨none, 1⟩,
    .control (.move 0 (.flushed (.processed 1))) {} 2,
    .control (.move 0 (.flushed (.processed 0))) {} 2]

end Marty.Infrastructure.Worker
