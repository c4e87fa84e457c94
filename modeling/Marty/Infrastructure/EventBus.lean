import Marty.Infrastructure.Outbox
import Marty.Lib.Pool

/-! `EventBusProvider`: the Kafka producer that is started by the first `publish`.  Any number of
tasks call `publish` and `stop`; a step is what one of them does up to its next await.  How a call
on a producer ends is up to the label. -/

namespace Marty.Infrastructure.EventBus

open Lib Lib.Base64 Lib.Pool Lib.Run

structure EventBusConfig where
  topicPrefix : String := ""
  enabled : Bool := true

/-- What `send_and_wait` is given. -/
structure Record where
  topic : String
  payload : Bytes
  headers : Option (List (String × Bytes))
  key : Option Bytes
  deriving DecidableEq

def record (config : EventBusConfig) (message : Outbox.EventBusMessage) : Record where
  topic :=
    if config.topicPrefix ≠ "" then config.topicPrefix ++ message.topic else message.topic
  payload := message.payload
  headers := message.headers.filter (· ≠ [])
  key := message.key

/-- What has become of the `start` of a producer. -/
inductive Place
  | starting
  | started
  | failed
  deriving DecidableEq

structure Producer where
  place : Place := .starting
  /-- `stop` has been called on it. -/
  stopped : Bool := false
  deriving DecidableEq

/-- How a `publish` ends that hands nothing over. -/
inductive Ending
  | disabled
  | startFailed
  | assertionFailed
  /-- Cancelled while it waited for the lock. -/
  | abandoned
  deriving DecidableEq

inductive Phase
  /-- For the lock. -/
  | waiting
  | starting (k : ℕ)
  | sending (k : ℕ)
  | sent (k : ℕ)
  | refused (k : ℕ)
  | ended (ending : Ending)
  deriving DecidableEq

structure Publish where
  message : Outbox.EventBusMessage
  phase : Phase
  deriving DecidableEq

inductive Stop
  | awaiting (k : ℕ)
  | ended
  deriving DecidableEq

structure Handover where
  publish : ℕ
  producer : ℕ
  record : Record
  deriving DecidableEq

structure System where
  producers : List Producer := []
  /-- `_producer` -/
  producer : Option ℕ := none
  /-- The `publish` that holds `_lock`. -/
  lock : Option ℕ := none
  publishes : List Publish := []
  stops : List Stop := []
  handovers : List Handover := []

inductive Label
  | publish (message : Outbox.EventBusMessage)
  | acquire (i : ℕ)
  | abandon (i : ℕ)
  /-- A `start` that is cancelled raises as well. -/
  | started (i : ℕ) (ok : Bool)
  | sent (i : ℕ) (ok : Bool)
  | stop
  | stopped (j : ℕ) (ok : Bool)

def System.entered (s : System) (i : ℕ) (publish : Publish) (phase : Phase) : System :=
  { s with publishes := s.publishes.set i { publish with phase := phase } }

/-- `publish`, after `_ensure_started`. -/
def System.handOver (config : EventBusConfig) (s : System) (i : ℕ) (publish : Publish) : System :=
  match s.producer with
  | none => s.entered i publish (.ended .assertionFailed)
  | some k =>
    { s.entered i publish (.sending k) with
      handovers := s.handovers ++ [⟨i, k, record config publish.message⟩] }

/-- `_ensure_started`, when there is no producer: it is assigned before it is started. -/
def System.created (s : System) (i : ℕ) (publish : Publish) : System :=
  { s.entered i publish (.starting s.producers.length) with
    producers := s.producers ++ [{}]
    producer := some s.producers.length
    lock := some i }

/-- The `start` of a producer has ended, and the lock is released. -/
def System.released (s : System) (k : ℕ) (ok : Bool) : System :=
  { s with
    producers := s.producers.modify k fun producer =>
      { producer with place := if ok then .started else .failed }
    lock := none }

def step (config : EventBusConfig) (s : System) : Label → Option System
  | .publish message =>
    let phase := if config.enabled then .waiting else .ended .disabled
    some { s with publishes := s.publishes ++ [⟨message, phase⟩] }
  | .acquire i =>
    s.publishes[i]?.bind fun publish =>
      if publish.phase = .waiting ∧ s.lock = none then
        match s.producer with
        | none => some (s.created i publish)
        | some _ => some (s.handOver config i publish)
      else none
  | .abandon i =>
    s.publishes[i]?.bind fun publish =>
      if publish.phase = .waiting then some (s.entered i publish (.ended .abandoned)) else none
  | .started i ok =>
    s.publishes[i]?.bind fun publish =>
      match publish.phase with
      | .starting k =>
        if ok then some ((s.released k ok).handOver config i publish)
        else some ((s.released k ok).entered i publish (.ended .startFailed))
      | _ => none
  | .sent i ok =>
    s.publishes[i]?.bind fun publish =>
      match publish.phase with
      | .sending k => some (s.entered i publish (if ok then .sent k else .refused k))
      | _ => none
  | .stop =>
    match s.producer with
    | none => some { s with stops := s.stops ++ [.ended] }
    | some k =>
      some { s with
        stops := s.stops ++ [.awaiting k]
        producers := s.producers.modify k fun producer => { producer with stopped := true } }
  | .stopped j ok =>
    s.stops[j]?.bind fun stop =>
      match stop with
      | .awaiting _ =>
        some { s with
          stops := s.stops.set j .ended
          producer := if ok then none else s.producer }
      | .ended => none

/-- The producer that a publish has handed its record to. -/
def Phase.handed : Phase → Option ℕ
  | .sending k | .sent k | .refused k => some k
  | _ => none

@[simp] theorem Phase.handed_sending (k : ℕ) : (Phase.sending k).handed = some k := rfl

def Publish.handovers (config : EventBusConfig) (i : ℕ) (publish : Publish) : List Handover :=
  (publish.phase.handed.map fun k => ⟨i, k, record config publish.message⟩).toList

def StartsAt (publishes : List Publish) (i k : ℕ) : Prop :=
  publishes[i]?.map (·.phase) = some (.starting k)

def Starting (producers : List Producer) (k : ℕ) : Prop :=
  ∃ producer, producers[k]? = some producer ∧ producer.place = .starting

/-- The lock is held by the publish that starts a producer, and only a producer that one starts is
starting; a publish has handed over its own record to one producer, or nothing. -/
structure Sound (config : EventBusConfig) (s : System) : Prop where
  lock : ∀ i, s.lock = some i ↔ ∃ k, StartsAt s.publishes i k
  starting : ∀ k, Starting s.producers k → ∃ i, StartsAt s.publishes i k
  current : ∀ k, s.producer = some k → k < s.producers.length
  handed : ∀ handover ∈ s.handovers, ∃ producer,
    s.producers[handover.producer]? = some producer ∧ producer.place ≠ .starting
  once : ∀ i, s.handovers.filter (·.publish = i) =
    s.publishes[i]?.elim [] (Publish.handovers config i)

variable {config : EventBusConfig} {s s' : System} {publish : Publish} {publishes : List Publish}
  {phase : Phase} {i j k : ℕ}

theorem startsAt_set (hi : publishes[i]? = some publish) (publish' : Publish) :
    StartsAt (publishes.set i publish') j k ↔
      if j = i then publish'.phase = .starting k else StartsAt publishes j k := by
  rw [StartsAt]
  split
  case isTrue h =>
    subst h
    simp [getElem?_set_self hi]
  case isFalse h => rw [List.getElem?_set_ne (Ne.symm h), StartsAt]

theorem startsAt_of_getElem? (hi : publishes[i]? = some publish) :
    StartsAt publishes i k ↔ publish.phase = .starting k := by
  simp [StartsAt, hi]

theorem startsAt_append (hphase : ∀ k, publish.phase ≠ .starting k) :
    StartsAt (publishes ++ [publish]) j k ↔ StartsAt publishes j k := by
  constructor
  · intro h
    obtain ⟨p, hp, hstarting⟩ := Option.map_eq_some_iff.mp h
    rcases getElem?_append_cases hp with ⟨-, rfl⟩ | hp
    · exact absurd hstarting (hphase k)
    · exact (startsAt_of_getElem? hp).mpr hstarting
  · intro h
    obtain ⟨p, hp, hstarting⟩ := Option.map_eq_some_iff.mp h
    exact (startsAt_of_getElem? (getElem?_append_old hp publish)).mpr hstarting

/-- A publish that moves between phases in which it does not hold the lock. -/
theorem startsAt_entered (hi : publishes[i]? = some publish)
    (hold : ∀ k, publish.phase ≠ .starting k) (hnew : ∀ k, phase ≠ .starting k) (j k : ℕ) :
    StartsAt (publishes.set i { publish with phase := phase }) j k ↔ StartsAt publishes j k := by
  rw [startsAt_set hi]
  split
  case isTrue h =>
    subst h
    simp [startsAt_of_getElem? hi, hold, hnew]
  case isFalse => rfl

theorem Sound.entered (hs : Sound config s) (hi : s.publishes[i]? = some publish)
    (hold : ∀ k, publish.phase ≠ .starting k) (hnew : ∀ k, phase ≠ .starting k)
    (hhanded : phase.handed = publish.phase.handed) :
    Sound config (s.entered i publish phase) := by
  have hstarts := startsAt_entered hi hold hnew
  refine ⟨fun j => ?lock, fun k hk => ?starting, hs.current, hs.handed, fun j => ?once⟩
  case lock => simpa only [System.entered, hstarts] using hs.lock j
  case starting => simpa only [System.entered, hstarts] using hs.starting k hk
  case once =>
    rw [System.entered, hs.once j]
    by_cases hj : j = i
    · subst hj
      simp [hi, getElem?_set_self hi, Publish.handovers, hhanded]
    · rw [List.getElem?_set_ne (Ne.symm hj)]

theorem Sound.not_starting (hs : Sound config s) (hlock : s.lock = none) (k : ℕ) :
    ¬Starting s.producers k := by
  intro hk
  obtain ⟨i, hi⟩ := hs.starting k hk
  have := (hs.lock i).mpr ⟨k, hi⟩
  rw [hlock] at this
  cases this

theorem Sound.handOver (hs : Sound config s) (hi : s.publishes[i]? = some publish)
    (hlock : s.lock = none) (hold : ∀ k, publish.phase ≠ .starting k)
    (hnone : publish.phase.handed = none) : Sound config (s.handOver config i publish) := by
  unfold System.handOver
  split
  case h_1 => exact hs.entered hi hold (by simp) hnone.symm
  case h_2 k hcurrent =>
    have hsending (k' : ℕ) : Phase.sending k ≠ .starting k' := by simp
    have hstarts := startsAt_entered hi hold hsending
    refine ⟨fun j => ?lock, fun k hk => ?starting, hs.current, ?handed, fun j => ?once⟩
    case lock => simpa only [System.entered, hstarts] using hs.lock j
    case starting => simpa only [System.entered, hstarts] using hs.starting k hk
    case handed =>
      intro handover hmem
      rcases List.mem_append.mp hmem with hmem | hmem
      · exact hs.handed handover hmem
      · obtain rfl := List.mem_singleton.mp hmem
        have hlt := hs.current k hcurrent
        refine ⟨s.producers[k], List.getElem?_eq_getElem hlt, fun hplace => ?_⟩
        exact hs.not_starting hlock k ⟨_, List.getElem?_eq_getElem hlt, hplace⟩
    case once =>
      rw [System.entered, List.filter_append, hs.once j]
      by_cases hj : j = i
      · subst hj
        simp [hi, getElem?_set_self hi, Publish.handovers, hnone]
      · rw [List.getElem?_set_ne (Ne.symm hj)]
        simp [Ne.symm hj]

theorem Sound.created (hs : Sound config s) (hi : s.publishes[i]? = some publish)
    (hlock : s.lock = none) (hphase : publish.phase = .waiting) :
    Sound config (s.created i publish) := by
  have hnone : ∀ j k, ¬StartsAt s.publishes j k := by
    intro j k hj
    have := (hs.lock j).mpr ⟨k, hj⟩
    rw [hlock] at this
    cases this
  refine ⟨fun j => ?lock, fun k hk => ?starting, fun k hk => ?current, ?handed, fun j => ?once⟩
  case lock =>
    simp only [System.created, System.entered, startsAt_set hi, Option.some.injEq]
    by_cases hj : j = i
    · simp [hj]
    · simp [hj, hnone, Ne.symm hj]
  case starting =>
    obtain ⟨producer, hproducer, hplace⟩ := hk
    rcases getElem?_append_cases hproducer with ⟨rfl, -⟩ | hproducer
    · exact ⟨i, (startsAt_set hi _).mpr (by simp)⟩
    · exact absurd ⟨producer, hproducer, hplace⟩ (hs.not_starting hlock k)
  case current =>
    obtain rfl := Option.some.inj hk
    simp [System.created]
  case handed =>
    intro handover hmem
    obtain ⟨producer, hproducer, hplace⟩ := hs.handed handover hmem
    exact ⟨producer, getElem?_append_old hproducer _, hplace⟩
  case once =>
    rw [System.created, System.entered, hs.once j]
    by_cases hj : j = i
    · subst hj
      simp [hi, getElem?_set_self hi, Publish.handovers, Phase.handed, hphase]
    · rw [List.getElem?_set_ne (Ne.symm hj)]

theorem starting_modify {producers : List Producer} {f : Producer → Producer}
    (h : Starting (producers.modify k f) j) :
    if j = k then ∃ producer, (f producer).place = .starting ∧ producers[j]? = some producer
    else Starting producers j := by
  obtain ⟨producer, hproducer, hplace⟩ := h
  rw [List.getElem?_modify] at hproducer
  obtain ⟨old, hold, rfl⟩ := Option.map_eq_some_iff.mp hproducer
  split
  case isTrue hj =>
    subst hj
    exact ⟨old, by simpa using hplace, hold⟩
  case isFalse hj => exact ⟨old, hold, by simpa [Ne.symm hj] using hplace⟩

theorem getElem?_modify_place {producers : List Producer} {f : Producer → Producer}
    (hf : ∀ producer, producer.place ≠ .starting → (f producer).place ≠ .starting)
    (h : ∃ producer, producers[j]? = some producer ∧ producer.place ≠ .starting) :
    ∃ producer, (producers.modify k f)[j]? = some producer ∧ producer.place ≠ .starting := by
  obtain ⟨producer, hproducer, hplace⟩ := h
  refine ⟨if k = j then f producer else producer, by simp [List.getElem?_modify, hproducer], ?_⟩
  split
  · exact hf producer hplace
  · exact hplace

/-- A `start` has ended: nobody holds the lock. -/
theorem Sound.released (hs : Sound config s) (hi : s.publishes[i]? = some publish)
    (hphase : publish.phase = .starting k) (ok : Bool) :
    Sound config ((s.released k ok).entered i publish (.ended .startFailed)) := by
  have hlock : s.lock = some i := (hs.lock i).mpr ⟨k, (startsAt_of_getElem? hi).mpr hphase⟩
  have hnone : ∀ j k', StartsAt s.publishes j k' → j = i ∧ k' = k := by
    intro j k' hj
    have hji := (hs.lock j).mpr ⟨k', hj⟩
    obtain rfl : i = j := Option.some.inj (hlock.symm.trans hji)
    rw [startsAt_of_getElem? hi, hphase] at hj
    exact ⟨rfl, (Phase.starting.inj hj).symm⟩
  refine ⟨fun j => ?lock, fun k' hk' => ?starting, fun k' hk' => ?current, ?handed, fun j => ?once⟩
  case lock =>
    simp only [System.released, System.entered, startsAt_set hi]
    by_cases hj : j = i
    · simp [hj]
    · simp only [hj, if_false, reduceCtorEq, false_iff, not_exists]
      exact fun k' hk' => hj (hnone j k' hk').1
  case starting =>
    have hk' := starting_modify hk'
    split at hk'
    case isTrue =>
      obtain ⟨producer, hplace, -⟩ := hk'
      cases ok <;> cases hplace
    case isFalse hne =>
      obtain ⟨j, hj⟩ := hs.starting k' hk'
      exact absurd (hnone j k' hj).2 hne
  case current =>
    have := hs.current k' hk'
    simpa [System.released, System.entered] using this
  case handed =>
    intro handover hmem
    exact getElem?_modify_place (by cases ok <;> simp) (hs.handed handover hmem)
  case once =>
    rw [System.released, System.entered, hs.once j]
    by_cases hj : j = i
    · subst hj
      simp [hi, getElem?_set_self hi, Publish.handovers, Phase.handed, hphase]
    · rw [List.getElem?_set_ne (Ne.symm hj)]

theorem handOver_entered (phase : Phase) : s.handOver config i publish =
    (s.entered i publish phase).handOver config i { publish with phase := phase } := by
  cases hcurrent : s.producer <;>
    simp [System.handOver, System.entered, hcurrent, List.set_set]

/-- A publish that has only been called. -/
theorem elim_append (h : ∀ i, publish.handovers config i = []) (j : ℕ) :
    (publishes ++ [publish])[j]?.elim [] (Publish.handovers config j) =
      publishes[j]?.elim [] (Publish.handovers config j) := by
  cases hj : (publishes ++ [publish])[j]? with
  | none =>
    rw [List.getElem?_eq_none_iff, List.length_append] at hj
    rw [List.getElem?_eq_none (by omega)]
  | some p =>
    rcases getElem?_append_cases hj with ⟨rfl, rfl⟩ | hp
    · simp [h]
    · rw [hp]

theorem sound_step {l : Label} (hs : Sound config s) (h : step config s l = some s') :
    Sound config s' := by
  cases l with
  | publish message =>
    obtain rfl := Option.some.inj h
    have hphase (k : ℕ) :
        (if config.enabled then Phase.waiting else .ended .disabled) ≠ .starting k := by
      cases config.enabled <;> simp
    have hstarts (j k : ℕ) : StartsAt (s.publishes ++
        [⟨message, if config.enabled then .waiting else .ended .disabled⟩]) j k ↔
          StartsAt s.publishes j k := startsAt_append hphase
    refine ⟨fun j => ?_, fun k hk => ?_, hs.current, hs.handed, fun j => ?_⟩
    · simpa only [hstarts] using hs.lock j
    · simpa only [hstarts] using hs.starting k hk
    · refine (hs.once j).trans (elim_append (fun i => ?_) j).symm
      cases config.enabled <;> rfl
  | acquire i =>
    obtain ⟨publish, hi, h⟩ := Option.bind_eq_some_iff.mp h
    split at h
    case isFalse => cases h
    case isTrue hwaiting =>
      obtain ⟨hphase, hlock⟩ := hwaiting
      split at h <;> obtain rfl := Option.some.inj h
      case h_1 => exact hs.created hi hlock hphase
      case h_2 => exact hs.handOver hi hlock (by simp [hphase]) (by simp [hphase, Phase.handed])
  | abandon i =>
    obtain ⟨publish, hi, h⟩ := Option.bind_eq_some_iff.mp h
    split at h
    case isFalse => cases h
    case isTrue hphase =>
      obtain rfl := Option.some.inj h
      exact hs.entered hi (by simp [hphase]) (by simp) (by simp [hphase, Phase.handed])
  | started i ok =>
    obtain ⟨publish, hi, h⟩ := Option.bind_eq_some_iff.mp h
    split at h
    case h_2 => cases h
    case h_1 k hphase =>
      have hreleased := hs.released hi hphase ok
      split at h <;> obtain rfl := Option.some.inj h
      case isTrue hok =>
        rw [handOver_entered (.ended .startFailed)]
        refine hreleased.handOver (getElem?_set_self hi _) rfl (by simp) rfl
      case isFalse => exact hreleased
  | sent i ok =>
    obtain ⟨publish, hi, h⟩ := Option.bind_eq_some_iff.mp h
    split at h
    case h_2 => cases h
    case h_1 k hphase =>
      obtain rfl := Option.some.inj h
      refine hs.entered hi (by simp [hphase]) (by cases ok <;> simp) ?_
      cases ok <;> simp [hphase, Phase.handed]
  | stop =>
    simp only [step] at h
    split at h <;> obtain rfl := Option.some.inj h
    case h_1 => exact ⟨hs.lock, hs.starting, hs.current, hs.handed, hs.once⟩
    case h_2 k hcurrent =>
      refine ⟨hs.lock, fun j hj => ?_, fun j hj => ?_, fun handover hmem => ?_, hs.once⟩
      · have hj := starting_modify hj
        split at hj
        case isTrue => exact hs.starting j (by obtain ⟨p, hp, hj⟩ := hj; exact ⟨p, hj, hp⟩)
        case isFalse => exact hs.starting j hj
      · simpa using hs.current j hj
      · exact getElem?_modify_place (fun _ h => h) (hs.handed handover hmem)
  | stopped j ok =>
    obtain ⟨stop, -, h⟩ := Option.bind_eq_some_iff.mp h
    split at h
    case h_2 => cases h
    case h_1 =>
      obtain rfl := Option.some.inj h
      refine ⟨hs.lock, hs.starting, fun k hk => ?_, hs.handed, hs.once⟩
      cases ok with
      | true => cases hk
      | false => exact hs.current k hk

theorem sound_init (config : EventBusConfig) : Sound config {} where
  lock := by simp [StartsAt]
  starting := by simp [Starting]
  current := by simp
  handed := by simp
  once := by simp

theorem sound_of_run {ls : List Label} (h : run (step config) {} ls = some s) : Sound config s :=
  run_preserves (fun _ _ _ => sound_step) (sound_init config) h

/-- What is promised to a publisher. -/
structure Delivered (config : EventBusConfig) (s : System) : Prop where
  /-- A record is handed over at most once, and the record of a `publish` that returns is. -/
  once : ∀ i publish, s.publishes[i]? = some publish →
    s.handovers.filter (·.publish = i) = publish.handovers config i
  /-- Nothing is handed to a producer whose `start` has not ended. -/
  ready : ∀ handover ∈ s.handovers, ∃ producer,
    s.producers[handover.producer]? = some producer ∧ producer.place ≠ .starting
  /-- One producer is started at a time. -/
  single : ∀ j k, Starting s.producers j → Starting s.producers k → j = k

/-- The second `publish` waits while the first one starts the producer. -/
def twoPublishes (message : Outbox.EventBusMessage) : List Label :=
  [.publish message, .publish message, .acquire 0, .started 0 true, .acquire 1, .sent 1 true]

@[simp] theorem handOver_producers (s : System) (i : ℕ) (publish : Publish) :
    (s.handOver config i publish).producers = s.producers := by
  unfold System.handOver
  split <;> rfl

@[simp] theorem handOver_producer (s : System) (i : ℕ) (publish : Publish) :
    (s.handOver config i publish).producer = s.producer := by
  unfold System.handOver
  split <;> simp [System.entered, *]

@[simp] theorem handOver_stops (s : System) (i : ℕ) (publish : Publish) :
    (s.handOver config i publish).stops = s.stops := by
  unfold System.handOver
  split <;> rfl

@[simp] theorem handOver_lock (s : System) (i : ℕ) (publish : Publish) :
    (s.handOver config i publish).lock = s.lock := by
  unfold System.handOver
  split <;> rfl

def IsStopped (producers : List Producer) (k : ℕ) : Prop :=
  producers[k]?.map (·.stopped) = some true

/-- What a step does to the producers. -/
inductive Changed (s : System) (l : Label) (s' : System) : Prop
  | same (hproducers : s'.producers = s.producers) (hproducer : s'.producer = s.producer)
    (hstops : s'.stops = s.stops)
  | created (hnone : s.producer = none)
    (hproducers : s'.producers = s.producers ++ [({} : Producer)])
    (hproducer : s'.producer = some s.producers.length) (hstops : s'.stops = s.stops)
  | released (k : ℕ) (ok : Bool) (hproducers : s'.producers = s.producers.modify k fun producer =>
      { producer with place := if ok then .started else .failed })
    (hproducer : s'.producer = s.producer) (hstops : s'.stops = s.stops)
  | idle (hl : l = .stop) (hproducers : s'.producers = s.producers)
    (hproducer : s'.producer = s.producer) (hstops : s'.stops = s.stops ++ [.ended])
  | stopping (hl : l = .stop) (k : ℕ) (hcurrent : s.producer = some k)
    (hproducers : s'.producers = s.producers.modify k fun producer =>
      { producer with stopped := true })
    (hproducer : s'.producer = s.producer) (hstops : s'.stops = s.stops ++ [.awaiting k])
  | stopped (j k : ℕ) (ok : Bool) (hl : l = .stopped j ok) (hj : s.stops[j]? = some (.awaiting k))
    (hproducers : s'.producers = s.producers)
    (hproducer : s'.producer = if ok then none else s.producer)
    (hstops : s'.stops = s.stops.set j .ended)

theorem step_changed {l : Label} (h : step config s l = some s') : Changed s l s' := by
  cases l with
  | publish message =>
    obtain rfl := Option.some.inj h
    exact .same rfl rfl rfl
  | acquire i =>
    obtain ⟨publish, -, h⟩ := Option.bind_eq_some_iff.mp h
    split at h
    case isFalse => cases h
    case isTrue =>
      split at h <;> obtain rfl := Option.some.inj h
      case h_1 hnone _ => exact .created hnone rfl rfl rfl
      case h_2 => exact .same (by simp) (by simp) (by simp)
  | abandon i =>
    obtain ⟨publish, -, h⟩ := Option.bind_eq_some_iff.mp h
    split at h
    case isFalse => cases h
    case isTrue =>
      obtain rfl := Option.some.inj h
      exact .same rfl rfl rfl
  | started i ok =>
    obtain ⟨publish, -, h⟩ := Option.bind_eq_some_iff.mp h
    split at h
    case h_2 => cases h
    case h_1 k _ =>
      split at h <;> obtain rfl := Option.some.inj h
      case isTrue =>
        exact .released k ok (by simp [System.released]) (by simp [System.released])
          (by simp [System.released])
      case isFalse => exact .released k ok rfl rfl rfl
  | sent i ok =>
    obtain ⟨publish, -, h⟩ := Option.bind_eq_some_iff.mp h
    split at h
    case h_2 => cases h
    case h_1 =>
      obtain rfl := Option.some.inj h
      exact .same rfl rfl rfl
  | stop =>
    simp only [step] at h
    split at h <;> obtain rfl := Option.some.inj h
    case h_1 => exact .idle rfl rfl rfl rfl
    case h_2 k hcurrent => exact .stopping rfl k hcurrent rfl rfl rfl
  | stopped j ok =>
    obtain ⟨stop, hj, h⟩ := Option.bind_eq_some_iff.mp h
    split at h
    case h_2 => cases h
    case h_1 k =>
      obtain rfl := Option.some.inj h
      exact .stopped j k ok rfl hj rfl rfl rfl

theorem isStopped_modify {producers : List Producer} {f : Producer → Producer}
    (hf : ∀ producer, producer.stopped = true → (f producer).stopped = true)
    (h : IsStopped producers j) : IsStopped (producers.modify k f) j := by
  obtain ⟨producer, hproducer, hstopped⟩ := Option.map_eq_some_iff.mp h
  rw [IsStopped, List.getElem?_modify, hproducer]
  by_cases hk : k = j <;> simp [hk, hf, hstopped]

/-- No `stop` is called while another one runs. -/
def Alone (s : System) : Label → Prop
  | .stop => ∀ stop ∈ s.stops, stop = .ended
  | _ => True

instance (s : System) (l : Label) : Decidable (Alone s l) := by
  unfold Alone
  split <;> infer_instance

/-- A producer that is not `_producer` has been stopped; one `stop` runs at a time, and on
`_producer`. -/
structure Kept (producers : List Producer) (current : Option ℕ) (stops : List Stop) : Prop where
  kept : ∀ k < producers.length, current = some k ∨ IsStopped producers k
  awaited : ∀ j k : ℕ, stops[j]? = some (Stop.awaiting k) → current = some k ∧ IsStopped producers k
  single : ∀ i j k k' : ℕ, stops[i]? = some (Stop.awaiting k) →
    stops[j]? = some (Stop.awaiting k') → i = j

section Kept

variable {producers : List Producer} {current : Option ℕ} {stops : List Stop}

theorem Kept.created (hk : Kept producers none stops) :
    Kept (producers ++ [({} : Producer)]) (some producers.length) stops := by
  refine ⟨fun k hlt => ?kept, fun j k hj => ?awaited, hk.single⟩
  case kept =>
    by_cases hlast : k = producers.length
    · exact .inl (by rw [hlast])
    · rw [List.length_append, List.length_singleton] at hlt
      obtain hnone | hstopped := hk.kept k (by omega)
      · cases hnone
      · obtain ⟨producer, hproducer, hstopped⟩ := Option.map_eq_some_iff.mp hstopped
        exact .inr (by simp [IsStopped, getElem?_append_old hproducer, hstopped])
  case awaited => cases (hk.awaited j k hj).1

theorem Kept.modify (hk : Kept producers current stops) {f : Producer → Producer}
    (hf : ∀ producer, producer.stopped = true → (f producer).stopped = true) (k : ℕ) :
    Kept (producers.modify k f) current stops := by
  refine ⟨fun j hlt => ?_, fun i j hi => ?_, hk.single⟩
  · exact (hk.kept j (by simpa using hlt)).imp_right (isStopped_modify hf)
  · exact (hk.awaited i j hi).imp_right (isStopped_modify hf)

theorem Kept.append_ended (hk : Kept producers current stops) :
    Kept producers current (stops ++ [.ended]) := by
  have hold (j k : ℕ) (h : (stops ++ [Stop.ended])[j]? = some (.awaiting k)) :
      stops[j]? = some (.awaiting k) := by
    rcases getElem?_append_cases h with ⟨-, h⟩ | h
    · cases h
    · exact h
  exact ⟨hk.kept, fun j k hj => hk.awaited j k (hold j k hj),
    fun i j k k' hi hj => hk.single i j k k' (hold i k hi) (hold j k' hj)⟩

theorem Kept.append_awaiting {k : ℕ} (hk : Kept producers (some k) stops)
    (hstopped : IsStopped producers k) (halone : ∀ stop ∈ stops, stop = .ended) :
    Kept producers (some k) (stops ++ [.awaiting k]) := by
  have hnew (j k' : ℕ) (h : (stops ++ [Stop.awaiting k])[j]? = some (.awaiting k')) :
      j = stops.length ∧ k' = k := by
    rcases getElem?_append_cases h with ⟨hlength, heq⟩ | h
    · exact ⟨hlength, Stop.awaiting.inj heq⟩
    · cases halone _ (List.mem_of_getElem? h)
  refine ⟨hk.kept, fun j k' hj => ?_, fun i j k₁ k₂ hi hj => ?_⟩
  · obtain ⟨-, rfl⟩ := hnew j k' hj
    exact ⟨rfl, hstopped⟩
  · exact (hnew i k₁ hi).1.trans (hnew j k₂ hj).1.symm

theorem Kept.stopped (hk : Kept producers current stops) {j k : ℕ}
    (hj : stops[j]? = some (.awaiting k)) (ok : Bool) :
    Kept producers (if ok then none else current) (stops.set j .ended) := by
  obtain ⟨rfl, hstopped⟩ := hk.awaited j k hj
  have hended (i k' : ℕ) : (stops.set j .ended)[i]? ≠ some (.awaiting k') := by
    intro h
    rcases getElem?_set_cases h with ⟨-, h⟩ | ⟨hne, h⟩
    · cases h
    · exact hne (hk.single i j k' k h hj)
  refine ⟨fun k' hlt => ?_, fun i k' hi => absurd hi (hended i k'),
    fun i _ k' _ hi _ => absurd hi (hended i k')⟩
  cases ok with
  | false => exact hk.kept k' hlt
  | true =>
    refine .inr ((hk.kept k' hlt).elim (fun hcurrent => ?_) id)
    exact Option.some.inj hcurrent ▸ hstopped

end Kept

theorem isStopped_modify_self (hs : Sound config s) (hcurrent : s.producer = some k) :
    IsStopped (s.producers.modify k fun producer => { producer with stopped := true }) k := by
  have hlt := hs.current k hcurrent
  simp [IsStopped, List.getElem?_eq_getElem hlt]

theorem kept_step {l : Label} (hs : Sound config s) (hk : Kept s.producers s.producer s.stops)
    (hl : Alone s l) (h : step config s l = some s') :
    Kept s'.producers s'.producer s'.stops := by
  cases step_changed h with
  | same hproducers hproducer hstops => rwa [hproducers, hproducer, hstops]
  | created hnone hproducers hproducer hstops =>
    rw [hproducers, hproducer, hstops]
    exact (hnone ▸ hk).created
  | released k ok hproducers hproducer hstops =>
    rw [hproducers, hproducer, hstops]
    exact hk.modify (fun producer h => by exact h) k
  | idle heq hproducers hproducer hstops =>
    rw [hproducers, hproducer, hstops]
    exact hk.append_ended
  | stopping heq k hcurrent hproducers hproducer hstops =>
    subst heq
    rw [hproducers, hproducer, hstops, hcurrent]
    rw [hcurrent] at hk
    exact (hk.modify (fun _ _ => rfl) k).append_awaiting (isStopped_modify_self hs hcurrent) hl
  | stopped j k ok heq hj hproducers hproducer hstops =>
    rw [hproducers, hproducer, hstops]
    exact hk.stopped hj ok

/-- When no two calls of `stop` overlap, every producer that `stop` has not been called on is
`_producer`: one at most, and within reach of the next `stop`. -/
theorem kept_of_run {ls : List Label} (hg : Guarded (step config) Alone {} ls)
    (h : run (step config) {} ls = some s) {producer : Producer}
    (hk : s.producers[k]? = some producer) (hstopped : producer.stopped = false) :
    s.producer = some k := by
  have hinv : Sound config s ∧ Kept s.producers s.producer s.stops := by
    refine @run_invariant _ _ _ Alone
      (fun s => Sound config s ∧ Kept s.producers s.producer s.stops)
      (fun s l s' hs hl h => ⟨sound_step hs.1 h, kept_step hs.1 hs.2 hl h⟩) _ _ _ ?_ hg h
    exact ⟨sound_init config, ⟨by simp, by simp, by simp⟩⟩
  refine (hinv.2.kept k (lt_length hk)).resolve_right fun h => ?_
  simp [IsStopped, hk, hstopped] at h

/-- A `start` fails, the producer is kept and stopped, and the next publish starts another one. -/
def restarted (message : Outbox.EventBusMessage) : List Label :=
  [.publish message, .acquire 0, .started 0 false, .stop, .stopped 0 true, .publish message,
    .acquire 1]

theorem kept_restarted : ∃ s,
    run (step {}) {} (restarted ⟨"issued", [], none, none⟩) = some s ∧ s.producer = some 1 := by
  obtain ⟨s, hs, hk⟩ : ∃ s, run (step {}) {} (restarted ⟨"issued", [], none, none⟩) = some s ∧
      s.producers[1]? = some ⟨.starting, false⟩ := ⟨_, rfl, rfl⟩
  exact ⟨s, hs, kept_of_run (by decide) hs hk rfl⟩

/-- Of two calls of `stop` the one that ends last also drops the producer that has been started in
between: it is never stopped. -/
example (message : Outbox.EventBusMessage) : ∃ s,
    run (step {}) {} [.publish message, .acquire 0, .started 0 true, .stop, .stop, .stopped 0 true,
      .publish message, .acquire 1, .started 1 true, .stopped 1 true] = some s ∧
      s.producer = none ∧ s.producers[1]? = some ⟨.started, false⟩ := ⟨_, rfl, rfl, rfl⟩

theorem handOver_handovers (s : System) (i : ℕ) (publish : Publish) : ∃ new,
    (s.handOver config i publish).handovers = s.handovers ++ new ∧
      ∀ handover ∈ new, s.producer = some handover.producer := by
  unfold System.handOver
  split
  case h_1 => exact ⟨[], by simp [System.entered], by simp⟩
  case h_2 k hcurrent => exact ⟨_, rfl, by simp [hcurrent]⟩

theorem handovers_step {l : Label} (h : step config s l = some s') : ∃ new,
    s'.handovers = s.handovers ++ new ∧ ∀ handover ∈ new, s.producer = some handover.producer := by
  have hnone (hsame : s'.handovers = s.handovers) : ∃ new, s'.handovers = s.handovers ++ new ∧
      ∀ handover ∈ new, s.producer = some handover.producer := ⟨[], by simp [hsame], by simp⟩
  cases l with
  | publish message =>
    obtain rfl := Option.some.inj h
    exact hnone rfl
  | acquire i =>
    obtain ⟨publish, -, h⟩ := Option.bind_eq_some_iff.mp h
    split at h
    case isFalse => cases h
    case isTrue =>
      split at h <;> obtain rfl := Option.some.inj h
      case h_1 => exact hnone rfl
      case h_2 => exact handOver_handovers s i publish
  | abandon i =>
    obtain ⟨publish, -, h⟩ := Option.bind_eq_some_iff.mp h
    split at h
    case isFalse => cases h
    case isTrue =>
      obtain rfl := Option.some.inj h
      exact hnone rfl
  | started i ok =>
    obtain ⟨publish, -, h⟩ := Option.bind_eq_some_iff.mp h
    split at h
    case h_2 => cases h
    case h_1 k _ =>
      split at h <;> obtain rfl := Option.some.inj h
      case isTrue => exact handOver_handovers (s.released k ok) i publish
      case isFalse => exact hnone rfl
  | sent i ok =>
    obtain ⟨publish, -, h⟩ := Option.bind_eq_some_iff.mp h
    split at h
    case h_2 => cases h
    case h_1 =>
      obtain rfl := Option.some.inj h
      exact hnone rfl
  | stop =>
    simp only [step] at h
    split at h <;> obtain rfl := Option.some.inj h
    · exact hnone rfl
    · exact hnone rfl
  | stopped j ok =>
    obtain ⟨stop, -, h⟩ := Option.bind_eq_some_iff.mp h
    split at h
    case h_2 => cases h
    case h_1 =>
      obtain rfl := Option.some.inj h
      exact hnone rfl

theorem producer_step {l : Label} (hk : s.producer = some k) (hl : ∀ j, l ≠ .stopped j true)
    (h : step config s l = some s') :
    s'.producer = some k ∧ s'.producers.length = s.producers.length := by
  cases step_changed h with
  | same hproducers hproducer hstops => exact ⟨hproducer.trans hk, by rw [hproducers]⟩
  | created hnone => cases hk.symm.trans hnone
  | released k' ok hproducers hproducer hstops =>
    exact ⟨hproducer.trans hk, by rw [hproducers, List.length_modify]⟩
  | idle heq hproducers hproducer hstops => exact ⟨hproducer.trans hk, by rw [hproducers]⟩
  | stopping heq k' hcurrent hproducers hproducer hstops =>
    exact ⟨hproducer.trans hk, by rw [hproducers, List.length_modify]⟩
  | stopped j k' ok heq hj hproducers hproducer hstops =>
    cases ok with
    | true => exact absurd heq (hl j)
    | false => exact ⟨hproducer.trans hk, by rw [hproducers]⟩

/-- Nothing replaces `_producer` until a `stop` returns: all that is published goes to it, also when
its `start` has failed. -/
theorem handed_of_run {ls : List Label} (hls : ∀ j, .stopped j true ∉ ls) {s₀ : System}
    (hk : s₀.producer = some k) (h : run (step config) s₀ ls = some s) :
    s.producer = some k ∧ s.producers.length = s₀.producers.length ∧
      ∃ new, s.handovers = s₀.handovers ++ new ∧ ∀ handover ∈ new, handover.producer = k := by
  induction ls generalizing s₀ with
  | nil =>
    obtain rfl : s₀ = s := by simpa [run] using h
    exact ⟨hk, rfl, [], by simp, by simp⟩
  | cons l ls ih =>
    obtain ⟨t, ht, h⟩ := run_cons h
    have hl (j : ℕ) : l ≠ .stopped j true := fun heq => hls j (heq ▸ List.mem_cons_self)
    obtain ⟨ht', hlength⟩ := producer_step hk hl ht
    obtain ⟨hk', hlength', new', hnew', hall'⟩ :=
      ih (fun j hj => hls j (List.mem_cons_of_mem l hj)) ht' h
    obtain ⟨new, hnew, hall⟩ := handovers_step ht
    refine ⟨hk', hlength'.trans hlength, new ++ new', by rw [hnew', hnew, List.append_assoc], ?_⟩
    intro handover hmem
    rcases List.mem_append.mp hmem with hmem | hmem
    · exact (Option.some.inj (hk.symm.trans (hall handover hmem))).symm
    · exact hall' handover hmem

/-- No `stop` is called while another one runs or while a producer is started. -/
def Quiet (s : System) : Label → Prop
  | .stop => s.lock = none ∧ ∀ stop ∈ s.stops, stop = .ended
  | _ => True

instance (s : System) (l : Label) : Decidable (Quiet s l) := by
  unfold Quiet
  split <;> infer_instance

theorem Quiet.alone {l : Label} (hl : Quiet s l) : Alone s l := by
  cases l with
  | stop => exact hl.2
  | _ => trivial

structure Asserted (s : System) : Prop where
  held : s.lock ≠ none → s.producer ≠ none ∧ ∀ stop ∈ s.stops, stop = .ended
  asserted : ∀ publish ∈ s.publishes, publish.phase ≠ .ended .assertionFailed

theorem Asserted.set (ha : Asserted s) (i : ℕ) {publish : Publish}
    (hphase : publish.phase ≠ .ended .assertionFailed) :
    ∀ p ∈ s.publishes.set i publish, p.phase ≠ .ended .assertionFailed := by
  intro p hp
  rcases List.mem_or_eq_of_mem_set hp with hp | rfl
  · exact ha.asserted p hp
  · exact hphase

theorem Asserted.handOver (ha : Asserted s) (hlock : s.lock = none) (hsome : s.producer ≠ none)
    (i : ℕ) (publish : Publish) : Asserted (s.handOver config i publish) := by
  refine ⟨fun h => absurd ((handOver_lock s i publish).trans hlock) h, ?_⟩
  obtain ⟨k, hk⟩ := Option.ne_none_iff_exists'.mp hsome
  rw [System.handOver, hk]
  exact ha.set i (by simp)

theorem asserted_step {l : Label} (hs : Sound config s)
    (hk : Kept s.producers s.producer s.stops) (ha : Asserted s) (hl : Quiet s l)
    (h : step config s l = some s') : Asserted s' := by
  cases l with
  | publish message =>
    obtain rfl := Option.some.inj h
    refine ⟨ha.held, fun p hp => ?_⟩
    rcases List.mem_append.mp hp with hp | hp
    · exact ha.asserted p hp
    · obtain rfl := List.mem_singleton.mp hp
      cases config.enabled <;> simp
  | acquire i =>
    obtain ⟨publish, -, h⟩ := Option.bind_eq_some_iff.mp h
    split at h
    case isFalse => cases h
    case isTrue hwaiting =>
      split at h <;> obtain rfl := Option.some.inj h
      case h_1 hnone _ =>
        refine ⟨fun _ => ⟨by simp [System.created], fun stop hstop => ?_⟩, ha.set i (by simp)⟩
        -- A `stop` that runs would have its producer still in place.
        cases stop with
        | ended => rfl
        | awaiting k =>
          obtain ⟨j, hj⟩ := List.mem_iff_getElem?.mp hstop
          cases hnone.symm.trans (hk.awaited j k hj).1
      case h_2 k hcurrent _ => exact ha.handOver hwaiting.2 (by simp [hcurrent]) i publish
  | abandon i =>
    obtain ⟨publish, -, h⟩ := Option.bind_eq_some_iff.mp h
    split at h
    case isFalse => cases h
    case isTrue =>
      obtain rfl := Option.some.inj h
      exact ⟨ha.held, ha.set i (by simp)⟩
  | started i ok =>
    obtain ⟨publish, hi, h⟩ := Option.bind_eq_some_iff.mp h
    split at h
    case h_2 => cases h
    case h_1 k hphase =>
      have hlock : s.lock = some i := (hs.lock i).mpr ⟨k, (startsAt_of_getElem? hi).mpr hphase⟩
      have hreleased : Asserted (s.released k ok) := ⟨fun h => absurd rfl h, ha.asserted⟩
      split at h <;> obtain rfl := Option.some.inj h
      case isTrue => exact hreleased.handOver rfl (ha.held (by simp [hlock])).1 i publish
      case isFalse => exact ⟨fun h => absurd rfl h, ha.set i (by simp)⟩
  | sent i ok =>
    obtain ⟨publish, -, h⟩ := Option.bind_eq_some_iff.mp h
    split at h
    case h_2 => cases h
    case h_1 =>
      obtain rfl := Option.some.inj h
      exact ⟨ha.held, ha.set i (by cases ok <;> simp)⟩
  | stop =>
    simp only [step] at h
    split at h <;> obtain rfl := Option.some.inj h
    · exact ⟨fun h => absurd hl.1 h, ha.asserted⟩
    · exact ⟨fun h => absurd hl.1 h, ha.asserted⟩
  | stopped j ok =>
    obtain ⟨stop, hj, h⟩ := Option.bind_eq_some_iff.mp h
    split at h
    case h_2 => cases h
    case h_1 k =>
      obtain rfl := Option.some.inj h
      refine ⟨fun hlock => ?_, ha.asserted⟩
      cases (ha.held hlock).2 _ (List.mem_of_getElem? hj)

/-- The assertion of `publish` can fail only when a `stop` is called while a producer is started or
while another `stop` runs. -/
theorem asserted_of_run {ls : List Label} (hg : Guarded (step config) Quiet {} ls)
    (h : run (step config) {} ls = some s) :
    ∀ publish ∈ s.publishes, publish.phase ≠ .ended .assertionFailed := by
  have hinv : Sound config s ∧ Kept s.producers s.producer s.stops ∧ Asserted s := by
    refine @run_invariant _ _ _ Quiet
      (fun s => Sound config s ∧ Kept s.producers s.producer s.stops ∧ Asserted s)
      (fun s l s' hs hl h => ?_) _ _ _ ?_ hg h
    · exact ⟨sound_step hs.1 h, kept_step hs.1 hs.2.1 hl.alone h,
        asserted_step hs.1 hs.2.1 hs.2.2 hl h⟩
    · exact ⟨sound_init config, ⟨by simp, by simp, by simp⟩, ⟨by simp, by simp⟩⟩
  exact hinv.2.2.asserted

theorem asserted_restarted : ∃ s,
    run (step {}) {} (restarted ⟨"issued", [], none, none⟩) = some s ∧
      ∀ publish ∈ s.publishes, publish.phase ≠ .ended .assertionFailed := by
  obtain ⟨s, hs⟩ : ∃ s,
      run (step {}) {} (restarted ⟨"issued", [], none, none⟩) = some s := ⟨_, rfl⟩
  exact ⟨s, hs, asserted_of_run (by decide) hs⟩

end Marty.Infrastructure.EventBus
