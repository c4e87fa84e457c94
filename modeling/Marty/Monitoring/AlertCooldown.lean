import Mathlib.Algebra.Order.Field.Rat
import Mathlib.Data.List.Induction
import Marty.Lib.Dict

/-! The alerts of `service_monitor`.  `check_alerts` goes over all of them: an alert is triggered
when its condition holds, it is not active and its cooldown is over, and it is resolved when its
condition does not hold any more. -/

namespace Marty.Monitoring.AlertCooldown

open Lib

structure Alert where
  cooldownSeconds : ℚ := 300
  triggeredAt : Option ℚ := none
  resolvedAt : Option ℚ := none
  isActive : Bool := false
  lastTriggered : Option ℚ := none
  deriving DecidableEq

/-- What the condition of an alert returns, `none` when it raises, and the clock after it. -/
structure Pass where
  shouldTrigger : Option Bool
  now : ℚ
  deriving DecidableEq

/-- The cooldown since the last trigger is over. -/
def Alert.cooledDown (alert : Alert) (now : ℚ) : Bool :=
  alert.lastTriggered.all fun last => now - last > alert.cooldownSeconds

/-- The alert after a pass, and whether the pass has triggered it. -/
def Alert.check (alert : Alert) (pass : Pass) : Alert × Bool :=
  match pass.shouldTrigger with
  | none => (alert, false)
  | some true =>
    if !alert.isActive && alert.cooledDown pass.now then
      ({ alert with
        isActive := true
        triggeredAt := some pass.now
        lastTriggered := some pass.now
        resolvedAt := none }, true)
    else (alert, false)
  | some false =>
    if alert.isActive then
      ({ alert with isActive := false, resolvedAt := some pass.now }, false)
    else (alert, false)

abbrev Alerts := List (String × Alert)

def addAlert (name : String) (cooldownSeconds : ℚ) (alerts : Alerts) : Alerts :=
  Dict.set name { cooldownSeconds } alerts

/-- The alerts, and the names of those that are triggered. -/
def checkAlerts (pass : String → Pass) (alerts : Alerts) : Alerts × List String :=
  (alerts.map fun entry => (entry.1, (entry.2.check (pass entry.1)).1),
    (alerts.filter fun entry => (entry.2.check (pass entry.1)).2).map (·.1))

def getActiveAlerts (alerts : Alerts) : List String :=
  (alerts.filter (·.2.isActive)).map (·.1)

/-! One alert over its passes. -/

def history (cooldownSeconds : ℚ) (passes : List Pass) : Alert :=
  passes.foldl (fun alert pass => (alert.check pass).1) { cooldownSeconds }

variable {cooldown : ℚ} {passes : List Pass} {n m : ℕ} {pass : Pass}

/-- Pass `n` triggers the alert. -/
def TriggersAt (cooldown : ℚ) (passes : List Pass) (n : ℕ) : Prop :=
  ∃ pass, passes[n]? = some pass ∧ ((history cooldown (passes.take n)).check pass).2 = true

/-- Of the passes before `n`, the last one that has triggered the alert is `m`. -/
structure LastTrigger (cooldown : ℚ) (passes : List Pass) (n m : ℕ) : Prop where
  lt : m < n
  triggers : TriggersAt cooldown passes m
  later : ∀ j, m < j → j < n → ¬TriggersAt cooldown passes j

theorem LastTrigger.unique {m' : ℕ} (h : LastTrigger cooldown passes n m)
    (h' : LastTrigger cooldown passes n m') : m = m' := by
  rcases Nat.lt_trichotomy m m' with hlt | heq | hlt
  · exact absurd h'.triggers (h.later m' hlt h'.lt)
  · exact heq
  · exact absurd h.triggers (h'.later m hlt h.lt)

/-- The condition has not held at a pass between `m` and `n`. -/
def ResolvedBetween (passes : List Pass) (m n : ℕ) : Prop :=
  ∃ k pass, m < k ∧ k < n ∧ passes[k]? = some pass ∧ pass.shouldTrigger = some false

/-- What the alert remembers of its first `n` passes. -/
inductive Remembers (cooldown : ℚ) (passes : List Pass) (n : ℕ) (alert : Alert) : Prop
  | never (hlast : alert.lastTriggered = none) (hactive : alert.isActive = false)
      (h : ∀ j < n, ¬TriggersAt cooldown passes j)
  | last (m : ℕ) (before : Pass) (h : LastTrigger cooldown passes n m)
      (hbefore : passes[m]? = some before) (hlast : alert.lastTriggered = some before.now)
      (hactive : alert.isActive = false ↔ ResolvedBetween passes m n)

theorem history_cooldown (passes : List Pass) :
    (history cooldown passes).cooldownSeconds = cooldown := by
  induction passes using List.reverseRecOn with
  | nil => rfl
  | append_singleton passes pass ih =>
    rw [history, List.foldl_append, List.foldl_cons, List.foldl_nil, ← history]
    unfold Alert.check
    grind

theorem history_take_succ (h : passes[n]? = some pass) : history cooldown (passes.take (n + 1)) =
    ((history cooldown (passes.take n)).check pass).1 := by
  rw [List.take_add_one, h, Option.toList_some, history, List.foldl_append]
  rfl

theorem triggersAt_iff (h : passes[n]? = some pass) : TriggersAt cooldown passes n ↔
    ((history cooldown (passes.take n)).check pass).2 = true := by
  simp [TriggersAt, h]

theorem check_snd {alert : Alert} : (alert.check pass).2 = true ↔
    pass.shouldTrigger = some true ∧ alert.isActive = false ∧ alert.cooledDown pass.now = true := by
  unfold Alert.check
  grind

/-- A pass that does not trigger the alert. -/
theorem check_fst {alert : Alert} (h : ¬(alert.check pass).2 = true) :
    (alert.check pass).1.lastTriggered = alert.lastTriggered ∧
      ((alert.check pass).1.isActive = false ↔
        alert.isActive = false ∨ pass.shouldTrigger = some false) := by
  unfold Alert.check at h ⊢
  grind

theorem check_fst_of_triggers {alert : Alert} (h : (alert.check pass).2 = true) :
    (alert.check pass).1.lastTriggered = some pass.now ∧
      (alert.check pass).1.isActive = true := by
  unfold Alert.check at h ⊢
  grind

theorem resolvedBetween_succ (hpass : passes[n]? = some pass) (hm : m < n) :
    ResolvedBetween passes m (n + 1) ↔
      ResolvedBetween passes m n ∨ pass.shouldTrigger = some false := by
  constructor
  · rintro ⟨k, p, hmk, hkn, hk, hfalse⟩
    rcases Nat.lt_succ_iff_lt_or_eq.mp hkn with hlt | rfl
    · exact .inl ⟨k, p, hmk, hlt, hk, hfalse⟩
    · exact .inr (Option.some.inj (hk.symm.trans hpass) ▸ hfalse)
  · rintro (⟨k, p, hmk, hkn, hk, hfalse⟩ | hfalse)
    · exact ⟨k, p, hmk, Nat.lt_succ_of_lt hkn, hk, hfalse⟩
    · exact ⟨n, pass, hm, Nat.lt_succ_self n, hpass, hfalse⟩

theorem remembers (hn : n ≤ passes.length) :
    Remembers cooldown passes n (history cooldown (passes.take n)) := by
  induction n with
  | zero => exact .never rfl rfl nofun
  | succ n ih =>
    have hpass : passes[n]? = some passes[n] := List.getElem?_eq_getElem hn
    have ih := ih (Nat.le_of_succ_le hn)
    rw [history_take_succ hpass]
    by_cases htriggers : TriggersAt cooldown passes n
    · obtain ⟨hlast, hactive⟩ := check_fst_of_triggers ((triggersAt_iff hpass).mp htriggers)
      refine .last n passes[n] ⟨Nat.lt_succ_self n, htriggers, fun j hj hj' => ?_⟩ hpass hlast ?_
      · exact absurd (Nat.le_of_lt_succ hj') (Nat.not_le_of_lt hj)
      · rw [hactive]
        refine ⟨nofun, ?_⟩
        rintro ⟨k, -, hk, hk', -⟩
        exact absurd (Nat.le_of_lt_succ hk') (Nat.not_le_of_lt hk)
    · obtain ⟨hlast, hactive⟩ := check_fst (mt (triggersAt_iff hpass).mpr htriggers)
      have hnow : ∀ j, j < n + 1 → j < n ∨ j = n := fun j => Nat.lt_succ_iff_lt_or_eq.mp
      cases ih with
      | never hnone hinactive hnever =>
        refine .never (hlast.trans hnone) (hactive.mpr (.inl hinactive)) fun j hj => ?_
        rcases hnow j hj with hj | rfl
        · exact hnever j hj
        · exact htriggers
      | last m before hm hbefore hsome hresolved =>
        refine .last m before ⟨Nat.lt_succ_of_lt hm.lt, hm.triggers, fun j hmj hj => ?_⟩ hbefore
          (hlast.trans hsome) ?_
        · rcases hnow j hj with hj | rfl
          · exact hm.later j hmj hj
          · exact htriggers
        · rw [hactive, hresolved, resolvedBetween_succ hpass hm.lt]

/-- The condition holds and, where an earlier pass has triggered the alert, it has not held at a
pass since the last of these, and more than the cooldown has gone by. -/
structure Due (cooldown : ℚ) (passes : List Pass) (pass : Pass) : Prop where
  holds : pass.shouldTrigger = some true
  again : ∀ m before, LastTrigger cooldown passes passes.length m → passes[m]? = some before →
    ResolvedBetween passes m passes.length ∧ cooldown < pass.now - before.now

theorem check_iff_due : ((history cooldown passes).check pass).2 = true ↔
    Due cooldown passes pass := by
  have hremembers := @remembers cooldown _ _ (Nat.le_refl passes.length)
  rw [List.take_length] at hremembers
  rw [check_snd, Alert.cooledDown, history_cooldown]
  constructor
  · rintro ⟨hholds, hinactive, hcooled⟩
    refine ⟨hholds, fun m before hm hbefore => ?_⟩
    cases hremembers with
    | never _ _ hnever => exact absurd hm.triggers (hnever m hm.lt)
    | last m' before' hm' hbefore' hsome hresolved =>
      obtain rfl := hm.unique hm'
      obtain rfl := Option.some.inj (hbefore.symm.trans hbefore')
      rw [hsome, Option.all_some, decide_eq_true_eq] at hcooled
      exact ⟨hresolved.mp hinactive, hcooled⟩
  · rintro ⟨hholds, hagain⟩
    refine ⟨hholds, ?_⟩
    cases hremembers with
    | never hnone hinactive => exact ⟨hinactive, by rw [hnone]; rfl⟩
    | last m before hm hbefore hsome hresolved =>
      obtain ⟨hbetween, hcooled⟩ := hagain m before hm hbefore
      refine ⟨hresolved.mpr hbetween, ?_⟩
      rw [hsome, Option.all_some]
      exact decide_eq_true hcooled

/-- The alert is active when it has not been resolved since it was last triggered. -/
theorem isActive_history_iff : (history cooldown passes).isActive = true ↔
    ∃ m, LastTrigger cooldown passes passes.length m ∧
      ¬ResolvedBetween passes m passes.length := by
  have hremembers := @remembers cooldown _ _ (Nat.le_refl passes.length)
  rw [List.take_length] at hremembers
  cases hremembers with
  | never _ hinactive hnever =>
    rw [hinactive]
    exact ⟨nofun, fun ⟨m, hm, _⟩ => absurd hm.triggers (hnever m hm.lt)⟩
  | last m before hm _ _ hresolved =>
    rw [← Bool.not_eq_false, hresolved]
    exact ⟨fun h => ⟨m, hm, h⟩, fun ⟨m', hm', h⟩ => hm.unique hm' ▸ h⟩

/-! All alerts, over a run of `add_alert` and `check_alerts`. -/

inductive Event
  | add (name : String) (cooldownSeconds : ℚ)
  | check (pass : String → Pass)

def step (alerts : Alerts) : Event → Alerts
  | .add name cooldownSeconds => addAlert name cooldownSeconds alerts
  | .check pass => (checkAlerts pass alerts).1

def after (events : List Event) : Alerts := events.foldl step []

/-- The cooldown of an alert and its passes, since it was last added. -/
def known (name : String) (past : Option (ℚ × List Pass)) : Event → Option (ℚ × List Pass)
  | .add name' cooldownSeconds => if name' = name then some (cooldownSeconds, []) else past
  | .check pass => past.map fun past => (past.1, past.2 ++ [pass name])

def passesOf (name : String) (events : List Event) : Option (ℚ × List Pass) :=
  events.foldl (known name) none

variable {events : List Event} {name : String}

theorem lookup_after (name : String) (events : List Event) :
    (after events).lookup name = (passesOf name events).map fun past => history past.1 past.2 := by
  induction events using List.reverseRecOn with
  | nil => rfl
  | append_singleton events event ih =>
    rw [after, List.foldl_append, ← after, passesOf, List.foldl_append, ← passesOf]
    cases event with
    | add name' cooldownSeconds =>
      by_cases hname : name' = name
      · subst hname
        simp [step, addAlert, known, Dict.lookup_set_self, history]
      · simp [step, addAlert, known, hname, Dict.lookup_set_of_ne (Ne.symm hname), ih]
    | check pass =>
      simp only [List.foldl_cons, List.foldl_nil, step, checkAlerts, known]
      rw [Dict.lookup_map fun name (alert : Alert) => (alert.check (pass name)).1, ih,
        Option.map_map, Option.map_map]
      refine congrArg (Option.map · _) (funext fun past => ?_)
      simp [history, List.foldl_append]

theorem nodup_after (events : List Event) : ((after events).map (·.1)).Nodup := by
  induction events using List.reverseRecOn with
  | nil => exact .nil
  | append_singleton events event ih =>
    rw [after, List.foldl_append, ← after]
    cases event with
    | add name' cooldownSeconds => exact Dict.nodup_set _ ih
    | check pass => simpa [step, checkAlerts, Function.comp_def] using ih

theorem mem_map_filter_iff {p : String → Alert → Bool} :
    name ∈ ((after events).filter fun entry => p entry.1 entry.2).map (·.1) ↔
      ∃ cooldown passes, passesOf name events = some (cooldown, passes) ∧
        p name (history cooldown passes) = true := by
  have hlookup := lookup_after name events
  simp only [List.mem_map, List.mem_filter]
  constructor
  · rintro ⟨⟨_, alert⟩, ⟨hmem, hp⟩, rfl⟩
    rw [(Dict.mem_iff_lookup (nodup_after events)).mp hmem] at hlookup
    obtain ⟨⟨cooldown, passes⟩, hpasses, rfl⟩ := Option.map_eq_some_iff.mp hlookup.symm
    exact ⟨cooldown, passes, hpasses, hp⟩
  · rintro ⟨cooldown, passes, hpasses, hp⟩
    rw [hpasses] at hlookup
    exact ⟨(name, history cooldown passes), ⟨Dict.mem_of_lookup hlookup, hp⟩, rfl⟩

theorem mem_getActiveAlerts_iff : name ∈ getActiveAlerts (after events) ↔
    ∃ cooldown passes, passesOf name events = some (cooldown, passes) ∧
      ∃ m, LastTrigger cooldown passes passes.length m ∧
        ¬ResolvedBetween passes m passes.length := by
  rw [getActiveAlerts, @mem_map_filter_iff _ _ fun _ alert => alert.isActive]
  simp only [isActive_history_iff]

/-- After any run, a pass triggers an alert exactly when it is due by its own passes: what other
alerts do, and conditions that raise, are of no account. -/
theorem mem_checkAlerts_iff {pass : String → Pass} : name ∈ (checkAlerts pass (after events)).2 ↔
    ∃ cooldown passes, passesOf name events = some (cooldown, passes) ∧
      Due cooldown passes (pass name) := by
  rw [checkAlerts, @mem_map_filter_iff _ _ fun name alert => (alert.check (pass name)).2]
  simp only [check_iff_due]

example : (checkAlerts (fun _ => ⟨some true, 400⟩) (after [.add "high_memory_usage" 300,
    .check fun _ => ⟨some true, 0⟩, .check fun _ => ⟨some false, 60⟩,
    .check fun _ => ⟨some true, 300⟩, .check fun _ => ⟨none, 350⟩])).2 = ["high_memory_usage"] := by
  decide +kernel

end Marty.Monitoring.AlertCooldown
