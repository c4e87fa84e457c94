import Marty.Lib.Run
import Marty.Security.IncidentMonitor

/-! The lock of the monitor.  `evaluate_event` holds it while it calls the conditions, and makes the
incidents under it too. -/

namespace Marty.Security.MonitorLock

open Lib Lib.Datetime Lib.Run IncidentMonitor SecurityMonitor

variable {m m' : SecurityMonitor} {rule : SecurityRule} {rules : List SecurityRule}
  {entry : AuditLogEntry} {clock : String → Readings} {call : Call}

/-- The call returns with the lock free, and an evaluation with the incidents of the rules that are
due. -/
def Completes (m : SecurityMonitor) : Call → Prop
  | .evaluateEvent entry clock =>
    ∃ m' incidents, m.evaluateEvent .lock entry clock = some (m', incidents) ∧ m'.locked = 0 ∧
      incidents.map (m'.made[·]?) = (m.rules.filter (due entry clock)).map fun rule =>
        some (newIncident rule entry (clock rule.ruleId))
  | call => ∃ m', step .lock m call = some m' ∧ m'.locked = 0

/-- The rule is off cooldown, and its condition takes the lock or holds. -/
def blocks (entry : AuditLogEntry) (clock : String → Readings) (rule : SecurityRule) : Bool :=
  !rule.onCooldown (clock rule.ruleId).checked.now &&
    ((rule.condition entry).acquires || (rule.condition entry).result = some true)

/-- No rule blocks the evaluation. -/
def Quiet (m : SecurityMonitor) : Call → Prop
  | .evaluateEvent entry clock => ∀ rule ∈ m.rules, blocks entry clock rule = false
  | _ => True

theorem due_of_not_blocks (h : blocks entry clock rule = false) : due entry clock rule = false := by
  unfold blocks at h
  unfold due
  simp_all

/-! Under the lock. -/

theorem withLock_of_locked {α : Type} {body : SecurityMonitor → Option (SecurityMonitor × α)}
    (hlocked : 0 < m.locked) : m.withLock .lock body = none := by
  have hacquire : m.acquire .lock = none := if_pos ⟨rfl, hlocked⟩
  rw [withLock, hacquire, Option.bind_none]

theorem evaluateRule_of_locked (hlocked : 0 < m.locked) :
    m.evaluateRule .lock entry (clock rule.ruleId) rule =
      if blocks entry clock rule then none else some (m, rule, []) := by
  have hacquire : m.acquire .lock = none := if_pos ⟨rfl, hlocked⟩
  have hcreate : m.createIncident .lock rule entry (clock rule.ruleId) = none :=
    withLock_of_locked hlocked
  by_cases hcooldown : rule.onCooldown (clock rule.ruleId).checked.now = true
  · simp [evaluateRule, blocks, hcooldown]
  · by_cases hacquires : (rule.condition entry).acquires = true
    · simp [evaluateRule, blocks, hcooldown, hacquires, hacquire]
    · rcases hresult : (rule.condition entry).result with _ | _ | _ <;>
        simp [evaluateRule, blocks, hcooldown, hacquires, hresult, hcreate]

/-- The loop ends if no rule blocks it, and then it does nothing. -/
theorem evaluateRules_of_locked (hlocked : 0 < m.locked) :
    evaluateRules .lock entry clock m rules =
      if ∃ rule ∈ rules, blocks entry clock rule = true then none else some (m, rules, []) := by
  induction rules with
  | nil => simp [evaluateRules]
  | cons rule rules ih =>
    rw [evaluateRules, evaluateRule_of_locked hlocked]
    cases hrule : blocks entry clock rule with
    | true => simp [hrule]
    | false =>
      simp only [Bool.false_eq_true, if_false, Option.bind_some, ih, List.exists_mem_cons_iff,
        hrule, false_or]
      split <;> rfl

/-! With the lock free. -/

theorem evaluateEvent_of_free (hfree : m.locked = 0) :
    m.evaluateEvent .lock entry clock =
      if ∃ rule ∈ m.rules, blocks entry clock rule = true then none else some (m, []) := by
  have hacquire : m.acquire .lock = some { m with locked := 1 } := by
    simp [acquire, hfree]
  rw [evaluateEvent, withLock, hacquire, Option.bind_some, evaluateRules_of_locked Nat.one_pos]
  split
  case isTrue => rfl
  case isFalse =>
    simp only [Option.map_some, release, Nat.sub_self, List.foldl_nil, ← hfree]

theorem withLock_of_free {α : Type} {body : SecurityMonitor → Option (SecurityMonitor × α)}
    (hfree : m.locked = 0) (hbody : ∀ m, ∃ m' a, body m = some (m', a) ∧ m'.locked = m.locked) :
    ∃ m', (m.withLock .lock body).map (·.1) = some m' ∧ m'.locked = 0 := by
  obtain ⟨m', a, h, hlocked⟩ := hbody { m with locked := 1 }
  exact ⟨m'.release, by simp [withLock, acquire, hfree, h], by simp [release, hlocked]⟩

theorem completes_iff_quiet (hfree : m.locked = 0) : Completes m call ↔ Quiet m call := by
  cases call with
  | evaluateEvent entry clock =>
    simp only [Completes, Quiet, evaluateEvent_of_free hfree]
    split
    case isTrue h =>
      obtain ⟨rule, hrule, hblocks⟩ := h
      refine iff_of_false (by simp) fun hquiet => ?_
      cases hblocks.symm.trans (hquiet rule hrule)
    case isFalse h =>
      have hquiet : ∀ rule ∈ m.rules, blocks entry clock rule = false := by simpa using h
      refine iff_of_true ⟨m, [], rfl, hfree, ?_⟩ hquiet
      have hnone : m.rules.filter (due entry clock) = [] :=
        List.filter_eq_nil_iff.mpr fun rule hrule => by
          simp [due_of_not_blocks (hquiet rule hrule)]
      rw [hnone, List.map_nil, List.map_nil]
  | addRule rule =>
    exact iff_of_true (withLock_of_free hfree fun _ => ⟨_, _, rfl, rfl⟩) trivial
  | removeRule ruleId =>
    exact iff_of_true (withLock_of_free hfree fun _ => ⟨_, _, rfl, rfl⟩) trivial
  | addAlertChannel channel => exact iff_of_true ⟨_, rfl, hfree⟩ trivial
  | getIncident incidentId =>
    exact iff_of_true (withLock_of_free hfree fun _ => ⟨_, _, rfl, rfl⟩) trivial
  | updateIncidentStatus incidentId status assignedTo resolutionNotes now =>
    refine iff_of_true (withLock_of_free hfree fun m => ?_) trivial
    cases m.incidents.lookup incidentId with
    | none => exact ⟨_, _, rfl, rfl⟩
    | some number => exact ⟨_, _, rfl, rfl⟩
  | startMonitoring => exact iff_of_true ⟨_, rfl, hfree⟩ trivial
  | stopMonitoring =>
    refine iff_of_true ⟨_, rfl, ?_⟩ trivial
    unfold stopMonitoring
    split <;> exact hfree

theorem completes_step (h : Completes m call) :
    ∃ m', step .lock m call = some m' ∧ m'.locked = 0 := by
  cases call with
  | evaluateEvent entry clock =>
    obtain ⟨m', incidents, h, hfree, -⟩ := h
    exact ⟨m', by rw [step, h]; rfl, hfree⟩
  | _ => exact h

theorem free_step (hfree : m.locked = 0) (h : step .lock m call = some m') : m'.locked = 0 := by
  by_cases hquiet : Quiet m call
  · obtain ⟨m'', h'', hfree''⟩ := completes_step ((completes_iff_quiet hfree).mpr hquiet)
    rwa [Option.some.inj (h.symm.trans h'')]
  · cases call with
    | evaluateEvent entry clock =>
      have hblocks : ∃ rule ∈ m.rules, blocks entry clock rule = true := by
        simpa [Quiet] using hquiet
      rw [step, evaluateEvent_of_free hfree, if_pos hblocks] at h
      cases h
    | _ => exact absurd trivial hquiet

/-- From a new monitor, every call of a run completes exactly when no evaluation of the run meets a
rule that blocks it. -/
theorem completes_iff (calls : List Call) :
    (∀ n m call, run (step .lock) newMonitor (calls.take n) = some m → calls[n]? = some call →
      Completes m call) ↔ Guarded (step .lock) Quiet newMonitor calls := by
  rw [← guarded_iff]
  exact guarded_congr (fun _ _ _ => free_step) (fun _ _ => completes_iff_quiet) rfl

/-- A denied permission, and all clocks at zero. -/
def denied : AuditLogEntry := { eventId := "1", eventType := .permissionDenied }

def stopped : String → Readings := fun _ => ⟨⟨0, 0⟩, ⟨0, 0⟩, ⟨0, 0⟩, ⟨0, 0⟩⟩

/-- The first evaluation that a rule fires in never returns. -/
theorem evaluation_blocks :
    newMonitor.locked = 0 ∧ due denied stopped unauthorizedAccess = true ∧
      newMonitor.evaluateEvent .lock denied stopped = none :=
  ⟨rfl, rfl, rfl⟩

end Marty.Security.MonitorLock
