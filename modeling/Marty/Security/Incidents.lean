import Mathlib.Data.List.Range
import Marty.Lib.Run
import Marty.Security.IncidentMonitor

/-! The incidents that a monitor has returned, where its lock can always be taken.  An identifier is
a second and the rule, so that two incidents of a rule in one second have the same. -/

namespace Marty.Security.Incidents

open Lib Lib.Datetime Lib.Run IncidentMonitor SecurityMonitor

/-- A monitor with the incidents that its evaluations have returned, and the seconds and rules that
they were made for. -/
structure State where
  monitor : SecurityMonitor := newMonitor
  returned : List Nat := []
  fired : List (Int × String) := []

def dueRules (m : SecurityMonitor) (entry : AuditLogEntry) (clock : String → Readings) :
    List SecurityRule :=
  m.rules.filter (due entry clock)

def firing (clock : String → Readings) (rule : SecurityRule) : Int × String :=
  ((clock rule.ruleId).identified.second, rule.ruleId)

def advance (s : State) : Call → Option State
  | .evaluateEvent entry clock =>
    (s.monitor.evaluateEvent .rlock entry clock).map fun (m, incidents) => {
      monitor := m
      returned := s.returned ++ incidents
      fired := s.fired ++ (dueRules s.monitor entry clock).map (firing clock) }
  | call => (step .rlock s.monitor call).map fun m => { s with monitor := m }

/-- Every returned incident is found under its identifier, and no other has it. -/
structure Kept (s : State) : Prop where
  retrievable : ∀ number ∈ s.returned, ∃ incident, s.monitor.made[number]? = some incident ∧
    (s.monitor.getIncident .rlock incident.incidentId).map (·.2) = some (some number)
  distinct : ∀ number ∈ s.returned, ∀ number' ∈ s.returned, ∀ incident incident',
    s.monitor.made[number]? = some incident → s.monitor.made[number']? = some incident' →
      incident.incidentId = incident'.incidentId → number = number'

/-- No rule that is due has made an incident in the same second. -/
def Separate (s : State) : Call → Prop
  | .evaluateEvent entry clock =>
    ∀ rule ∈ dueRules s.monitor entry clock, firing clock rule ∉ s.fired
  | _ => True

variable {m m' : SecurityMonitor} {s s' : State} {rule : SecurityRule} {rules : List SecurityRule}
  {entry : AuditLogEntry} {clock : String → Readings} {call : Call}

/-! Identifiers. -/

theorem incidentId_inj {second second' : Int} {ruleId ruleId' : String}
    (h : incidentId second ruleId = incidentId second' ruleId') :
    second = second' ∧ ruleId = ruleId' := by
  have hlist : second.repr.toList ++ '-' :: ruleId.toList =
      second'.repr.toList ++ '-' :: ruleId'.toList := by
    simpa [incidentId] using congrArg String.toList h
  obtain ⟨hsecond, hrule⟩ := Text.int_join_inj hlist
  exact ⟨hsecond, String.toList_inj.mp hrule⟩

/-! What an evaluation does. -/

/-- Make an incident and store it under its identifier. -/
def record (m : SecurityMonitor) (incident : SecurityIncident) : SecurityMonitor :=
  { m with
    made := m.made ++ [incident]
    incidents := Dict.set incident.incidentId m.made.length m.incidents }

def newIncidents (entry : AuditLogEntry) (clock : String → Readings) (rules : List SecurityRule) :
    List SecurityIncident :=
  (rules.filter (due entry clock)).map fun rule => newIncident rule entry (clock rule.ruleId)

theorem evaluateRule_eq :
    ∃ rule', rule'.ruleId = rule.ruleId ∧
      m.evaluateRule .rlock entry (clock rule.ruleId) rule =
        some ((newIncidents entry clock [rule]).foldl record m, rule',
          List.range' m.made.length (newIncidents entry clock [rule]).length) := by
  have hacquire : (m.acquire .rlock).isNone = false := rfl
  have hcreate : m.createIncident .rlock rule entry (clock rule.ruleId) =
      some (record m (newIncident rule entry (clock rule.ruleId)), m.made.length) := rfl
  by_cases hcooldown : rule.onCooldown (clock rule.ruleId).checked.now = true
  · refine ⟨rule, rfl, ?_⟩
    simp [evaluateRule, newIncidents, due, hcooldown]
  · rcases hresult : (rule.condition entry).result with _ | _ | _
    · refine ⟨rule, rfl, ?_⟩
      simp [evaluateRule, newIncidents, due, hcooldown, hresult, hacquire]
    · refine ⟨rule, rfl, ?_⟩
      simp [evaluateRule, newIncidents, due, hcooldown, hresult, hacquire]
    · refine ⟨{ rule with lastTriggered := some (clock rule.ruleId).triggered.now }, rfl, ?_⟩
      simp [evaluateRule, newIncidents, due, hcooldown, hresult, hacquire, hcreate]

@[simp] theorem length_made_foldl_record (incidents : List SecurityIncident) :
    (incidents.foldl record m).made.length = m.made.length + incidents.length := by
  induction incidents generalizing m with
  | nil => rfl
  | cons incident incidents ih =>
    rw [List.foldl_cons, ih, record, List.length_append, List.length_singleton, List.length_cons,
      Nat.add_assoc, Nat.add_comm 1]

theorem foldl_record_locked (incidents : List SecurityIncident) (n : Nat) :
    incidents.foldl record { m with locked := n } =
      { incidents.foldl record m with locked := n } := by
  induction incidents generalizing m with
  | nil => rfl
  | cons incident incidents ih => exact @ih (record m incident)

theorem evaluateRules_eq :
    ∃ rules', rules'.map (·.ruleId) = rules.map (·.ruleId) ∧
      evaluateRules .rlock entry clock m rules =
        some ((newIncidents entry clock rules).foldl record m, rules',
          List.range' m.made.length (newIncidents entry clock rules).length) := by
  induction rules generalizing m with
  | nil => exact ⟨[], rfl, rfl⟩
  | cons rule rules ih =>
    obtain ⟨rule', hrule, h⟩ := @evaluateRule_eq m rule entry clock
    obtain ⟨rules', hrules, hs⟩ := @ih ((newIncidents entry clock [rule]).foldl record m)
    have hnew : newIncidents entry clock (rule :: rules) =
        newIncidents entry clock [rule] ++ newIncidents entry clock rules := by
      rw [newIncidents, ← List.singleton_append, List.filter_append, List.map_append]
      rfl
    refine ⟨rule' :: rules', by rw [List.map_cons, hrule, hrules, List.map_cons], ?_⟩
    rw [length_made_foldl_record] at hs
    simp only [evaluateRules, h, Option.bind_some, hs, hnew, Option.map_some, List.foldl_append,
      List.length_append, List.range'_append_1]

theorem foldl_sendAlerts (incidents : List Nat) :
    ∃ alerts, incidents.foldl sendAlerts m = { m with alerts := alerts } := by
  induction incidents generalizing m with
  | nil => exact ⟨m.alerts, rfl⟩
  | cons incident incidents ih =>
    have hsend : ∃ alerts, m.sendAlerts incident = { m with alerts := alerts } := by
      unfold sendAlerts
      split
      · exact ⟨m.alerts, rfl⟩
      · exact ⟨_, rfl⟩
    obtain ⟨alerts, hsend⟩ := hsend
    rw [List.foldl_cons, hsend]
    exact ih

/-- An evaluation records the incidents of the rules that are due, and returns them. -/
theorem evaluateEvent_eq :
    ∃ m', m.evaluateEvent .rlock entry clock =
        some (m', List.range' m.made.length (newIncidents entry clock m.rules).length) ∧
      m'.rules.map (·.ruleId) = m.rules.map (·.ruleId) ∧
      m'.made = ((newIncidents entry clock m.rules).foldl record m).made ∧
      m'.incidents = ((newIncidents entry clock m.rules).foldl record m).incidents := by
  obtain ⟨rules', hrules, h⟩ :=
    @evaluateRules_eq { m with locked := m.locked + 1 } m.rules entry clock
  have hacquire : m.acquire .rlock = some { m with locked := m.locked + 1 } := rfl
  rw [foldl_record_locked] at h
  simp only [evaluateEvent, withLock, hacquire, Option.bind_some, h, Option.map_some, release]
  obtain ⟨alerts, hsend⟩ := @foldl_sendAlerts _ _
  rw [hsend]
  exact ⟨_, rfl, hrules, rfl, rfl⟩

/-! What holds in every state. -/

/-- The dictionary has the identifiers, each with the number of an incident that has it. -/
structure Indexed (ids : List String) (incidents : List (String × Nat)) : Prop where
  stored : ∀ id number, incidents.lookup id = some number → ids[number]? = some id
  present : ∀ id ∈ ids, ∃ number, incidents.lookup id = some number

theorem indexed_set {ids : List String} {incidents : List (String × Nat)} {id : String}
    (h : Indexed ids incidents) : Indexed (ids ++ [id]) (Dict.set id ids.length incidents) where
  stored := by
    intro id' number hlookup
    by_cases hid : id' = id
    · subst hid
      rw [Dict.lookup_set_self] at hlookup
      obtain rfl := Option.some.inj hlookup
      simp
    · rw [Dict.lookup_set_of_ne hid] at hlookup
      have hget := h.stored id' number hlookup
      rw [List.getElem?_append_left (List.getElem?_eq_some_iff.mp hget).1, hget]
  present := by
    intro id' hid'
    by_cases hid : id' = id
    · exact ⟨ids.length, hid ▸ Dict.lookup_set_self ..⟩
    · rw [Dict.lookup_set_of_ne hid]
      exact h.present id' (by simpa [hid] using hid')

def ids (m : SecurityMonitor) : List String := m.made.map (·.incidentId)

theorem indexed_foldl_record (incidents : List SecurityIncident) (h : Indexed (ids m) m.incidents) :
    Indexed (ids (incidents.foldl record m)) (incidents.foldl record m).incidents := by
  induction incidents generalizing m with
  | nil => exact h
  | cons incident incidents ih =>
    refine ih ?_
    have hset := @indexed_set _ _ incident.incidentId h
    rw [ids, List.length_map] at hset
    rwa [ids, record, List.map_append]

theorem made_foldl_record (incidents : List SecurityIncident) :
    (incidents.foldl record m).made = m.made ++ incidents := by
  induction incidents generalizing m with
  | nil => exact (List.append_nil _).symm
  | cons incident incidents ih => rw [List.foldl_cons, ih, record, List.append_assoc]; rfl

theorem map_modify {α β : Type} {g : α → β} {f : α → α} (hf : ∀ a, g (f a) = g a) (n : Nat)
    (as : List α) : (as.modify n f).map g = as.map g := by
  induction as generalizing n with
  | nil => cases n <;> rfl
  | cons a as ih => cases n <;> simp [hf, ih]

structure Inv (s : State) : Prop where
  rules : (s.monitor.rules.map (·.ruleId)).Nodup
  indexed : Indexed (ids s.monitor) s.monitor.incidents
  returned : s.returned = List.range s.monitor.made.length
  fired : ids s.monitor = s.fired.map fun f => incidentId f.1 f.2

/-- The calls that evaluate nothing leave the incidents under their identifiers. -/
theorem frame_step (hcall : ∀ entry clock, call ≠ .evaluateEvent entry clock)
    (hrules : (m.rules.map (·.ruleId)).Nodup) (h : step .rlock m call = some m') :
    (m'.rules.map (·.ruleId)).Nodup ∧ ids m' = ids m ∧ m'.incidents = m.incidents := by
  cases call with
  | evaluateEvent entry clock => exact absurd rfl (hcall entry clock)
  | addRule rule =>
    obtain rfl := Option.some.inj h
    exact ⟨Table.nodup_upsert_const rfl hrules, rfl, rfl⟩
  | removeRule ruleId =>
    obtain rfl := Option.some.inj h
    exact ⟨Table.nodup_delete hrules, rfl, rfl⟩
  | addAlertChannel channel =>
    obtain rfl := Option.some.inj h
    exact ⟨hrules, rfl, rfl⟩
  | getIncident incidentId =>
    obtain rfl := Option.some.inj h
    exact ⟨hrules, rfl, rfl⟩
  | updateIncidentStatus incidentId status assignedTo resolutionNotes now =>
    have hacquire : m.acquire .rlock = some { m with locked := m.locked + 1 } := rfl
    rw [step, SecurityMonitor.updateIncidentStatus, withLock, hacquire, Option.bind_some] at h
    split at h
    · obtain rfl := Option.some.inj h
      exact ⟨hrules, rfl, rfl⟩
    · obtain rfl := Option.some.inj h
      exact ⟨hrules, map_modify (f := updated _ _ _ _) (fun _ => rfl) _ _, rfl⟩
  | startMonitoring =>
    obtain rfl := Option.some.inj h
    exact ⟨hrules, rfl, rfl⟩
  | stopMonitoring =>
    obtain rfl := Option.some.inj h
    unfold stopMonitoring
    split <;> exact ⟨hrules, rfl, rfl⟩

theorem nodup_ids (hs : Inv s) : (ids s.monitor).Nodup ↔ s.fired.Nodup := by
  rw [hs.fired]
  refine List.nodup_map_iff fun f f' h => ?_
  obtain ⟨hsecond, hrule⟩ := incidentId_inj h
  exact Prod.ext hsecond hrule

/-- The incidents are kept exactly when none of them has the second and the rule of another. -/
theorem kept_iff_nodup (hs : Inv s) : Kept s ↔ s.fired.Nodup := by
  have hreturned : ∀ number, number ∈ s.returned ↔ number < s.monitor.made.length := by
    intro number
    rw [hs.returned, List.mem_range]
  have hids : ∀ (number : Nat) (incident : SecurityIncident),
      s.monitor.made[number]? = some incident →
      (ids s.monitor)[number]? = some incident.incidentId := by
    intro number incident h
    rw [ids, List.getElem?_map, h, Option.map_some]
  rw [← nodup_ids hs]
  constructor
  · intro h
    rw [List.nodup_iff_getElem?_ne_getElem?]
    intro i j hij hj heq
    rw [ids, List.length_map] at hj
    have hi := hij.trans hj
    have hgeti := List.getElem?_eq_getElem hi
    have hgetj := List.getElem?_eq_getElem hj
    rw [hids i _ hgeti, hids j _ hgetj] at heq
    exact hij.ne (h.distinct i ((hreturned i).mpr hi) j ((hreturned j).mpr hj) _ _ hgeti hgetj
      (Option.some.inj heq))
  · intro hnodup
    have hsame : ∀ number number', number < s.monitor.made.length →
        (ids s.monitor)[number]? = (ids s.monitor)[number']? → number = number' :=
      fun number number' hlt => List.getElem?_inj (by rwa [ids, List.length_map]) hnodup |>.mp
    constructor
    · intro number hnumber
      have hlt := (hreturned number).mp hnumber
      have hget := List.getElem?_eq_getElem hlt
      refine ⟨_, hget, ?_⟩
      have hid := hids number _ hget
      obtain ⟨number', hlookup⟩ := hs.indexed.present _ (List.mem_of_getElem? hid)
      have hstored := hs.indexed.stored _ _ hlookup
      obtain rfl := hsame number number' hlt (hid.trans hstored.symm)
      exact congrArg some hlookup
    · intro number hnumber number' hnumber' incident incident' hget hget' heq
      refine hsame number number' ((hreturned number).mp hnumber) ?_
      rw [hids _ _ hget, hids _ _ hget', heq]

/-! Runs. -/

theorem ids_newIncidents : (newIncidents entry clock rules).map (·.incidentId) =
    ((rules.filter (due entry clock)).map (firing clock)).map fun f => incidentId f.1 f.2 := by
  rw [newIncidents, List.map_map, List.map_map]
  rfl

theorem nodup_firing (hrules : (rules.map (·.ruleId)).Nodup) :
    ((rules.filter (due entry clock)).map (firing clock)).Nodup := by
  have hdue : ((rules.filter (due entry clock)).map (·.ruleId)).Nodup :=
    hrules.sublist (List.filter_sublist.map _)
  refine List.Nodup.of_map Prod.snd ?_
  rwa [List.map_map]

theorem advance_evaluateEvent (hs : Inv s) :
    ∃ s', advance s (.evaluateEvent entry clock) = some s' ∧ Inv s' ∧
      s'.fired = s.fired ++ (dueRules s.monitor entry clock).map (firing clock) := by
  obtain ⟨m', h, hrules, hmade, hincidents⟩ := @evaluateEvent_eq s.monitor entry clock
  have hadvance : advance s (.evaluateEvent entry clock) = some {
      monitor := m'
      returned := s.returned ++
        List.range' s.monitor.made.length (newIncidents entry clock s.monitor.rules).length
      fired := s.fired ++ (dueRules s.monitor entry clock).map (firing clock) } := by
    rw [advance, h]
    rfl
  refine ⟨_, hadvance, ⟨?_, ?_, ?_, ?_⟩, rfl⟩
  · rw [hrules]
    exact hs.rules
  · have hids : ids m' = ids ((newIncidents entry clock s.monitor.rules).foldl record s.monitor) :=
      congrArg (List.map _) hmade
    rw [hids, hincidents]
    exact indexed_foldl_record _ hs.indexed
  · rw [hs.returned, hmade, length_made_foldl_record, List.range_eq_range', List.range_eq_range',
      ← List.range'_append_1, Nat.zero_add]
  · have hids : ids m' =
        ids s.monitor ++ (newIncidents entry clock s.monitor.rules).map (·.incidentId) := by
      rw [ids, hmade, made_foldl_record, List.map_append, ids]
    rw [hids, hs.fired, ids_newIncidents, List.map_append]
    rfl

theorem advance_other (hcall : ∀ entry clock, call ≠ .evaluateEvent entry clock) (hs : Inv s)
    (h : advance s call = some s') : Inv s' ∧ s'.fired = s.fired := by
  have hadvance : advance s call =
      (step .rlock s.monitor call).map fun m => { s with monitor := m } := by
    cases call with
    | evaluateEvent entry clock => exact absurd rfl (hcall entry clock)
    | _ => rfl
  rw [hadvance] at h
  obtain ⟨m', hm', rfl⟩ := Option.map_eq_some_iff.mp h
  obtain ⟨hrules, hids, hincidents⟩ := frame_step hcall hs.rules hm'
  refine ⟨⟨hrules, ?_, ?_, hids.trans hs.fired⟩, rfl⟩
  · rw [hids, hincidents]
    exact hs.indexed
  · have hlength : m'.made.length = s.monitor.made.length := by
      simpa [ids] using congrArg List.length hids
    rw [hlength]
    exact hs.returned

theorem separate_iff (hs : Inv s ∧ s.fired.Nodup) :
    Separate s call ↔ ∀ s', advance s call = some s' → Inv s' ∧ s'.fired.Nodup := by
  obtain ⟨hinv, hnodup⟩ := hs
  cases call with
  | evaluateEvent entry clock =>
    obtain ⟨s', h, hinv', hfired⟩ := @advance_evaluateEvent s entry clock hinv
    simp only [h, Option.some.injEq, forall_eq', hinv', true_and, hfired, List.nodup_append, hnodup,
      nodup_firing hinv.rules, dueRules, Separate]
    constructor
    · rintro hseparate f hf _ hf' rfl
      obtain ⟨rule, hrule, rfl⟩ := List.mem_map.mp hf'
      exact hseparate rule hrule hf
    · intro h rule hrule hf
      exact h _ hf _ (List.mem_map_of_mem hrule) rfl
  | _ =>
    refine iff_of_true trivial fun s' h => ?_
    obtain ⟨hinv', hfired⟩ := advance_other (fun _ _ => by simp) hinv h
    exact ⟨hinv', hfired ▸ hnodup⟩

theorem inv_init : Inv {} := by
  refine ⟨by decide, ⟨fun id number h => ?_, fun id h => ?_⟩, rfl, rfl⟩
  · cases h
  · cases h

/-- From a new monitor, all returned incidents are kept in every state reached exactly when no
evaluation finds a rule due that has made an incident in the same second. -/
theorem kept_iff_separate (calls : List Call) :
    (∀ n s, run advance {} (calls.take n) = some s → Kept s) ↔
      Guarded advance Separate {} calls := by
  have hinv : ∀ n s, run advance {} (calls.take n) = some s → Inv s := by
    intro n s hr
    refine run_preserves (fun s call s' hs h => ?_) inv_init hr
    by_cases hcall : ∃ entry clock, call = .evaluateEvent entry clock
    · obtain ⟨entry, clock, rfl⟩ := hcall
      obtain ⟨s'', h', hinv, -⟩ := @advance_evaluateEvent s entry clock hs
      rwa [Option.some.inj (h.symm.trans h')]
    · exact (advance_other (by simpa using hcall) hs h).1
  rw [← forall_take_iff_guarded (fun s call => separate_iff) ⟨inv_init, List.nodup_nil⟩]
  refine forall_congr' fun n => forall_congr' fun s => imp_congr_right fun hr => ?_
  rw [kept_iff_nodup (hinv n s hr)]
  exact (and_iff_right (hinv n s hr)).symm

/-- A key is deleted at high risk. -/
def deleted (eventId : String) : AuditLogEntry where
  eventId := eventId
  eventType := .keyDeleted
  riskLevel := "high"

/-- The readings of the clock at a time, in microseconds. -/
def readingsAt (now : Time) : String → Readings := fun _ =>
  have reading : Reading := ⟨now, now / seconds 1⟩
  ⟨reading, reading, reading, reading⟩

/-- Two deletions in one second. -/
def twice : List Call :=
  [.evaluateEvent (deleted "1") (readingsAt 100), .evaluateEvent (deleted "2") (readingsAt 200)]

/-- The second incident takes the place of the first. -/
theorem incident_lost :
    ∃ s, run advance {} twice = some s ∧ s.returned = [0, 1] ∧
      ids s.monitor = ["INC-0-key_compromise", "INC-0-key_compromise"] ∧
      (s.monitor.getIncident .rlock "INC-0-key_compromise").map (·.2) = some (some 1) :=
  ⟨_, rfl, rfl, rfl, rfl⟩

end Marty.Security.Incidents
