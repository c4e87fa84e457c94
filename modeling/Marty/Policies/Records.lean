import Marty.Lib.Run
import Marty.Lib.Trail
import Marty.Policies.Annex9

/-! The stores of the manager over a run of its operations: hashes, versions, trails and histories
stay in step with each other. -/

namespace Marty.Policies.Records

open Lib Lib.Datetime Lib.Run Lib.Table Lib.Trail Annex9 Annex9PolicyManager

/-- A call of an operation, with what it draws. -/
inductive Call
  | initiateBackgroundCheck (recordId cmcId checkAuthority : String) (checkScope : List String)
      (named expires : Time)
  | updateBackgroundCheck (recordId : String) (status : BackgroundCheckStatus)
      (findings : Entries) (now : Time)
  | createElectronicRecord (recordId cmcId issuerAuthority : String) (holderData : Entries)
      (clock : Nat → Time)
  | linkBackgroundCheck (electronicRecordId backgroundCheckId : String) (entered updated : Time)
  | manageVisaFreeStatus (call : VisaFreeCall)
  | cleanupExpiredRecords (now : Time) (checked : String → Time) (archives : String → Bool)

def Call.perform (lib : Library) (m : Annex9PolicyManager) : Call → Annex9PolicyManager
  | .initiateBackgroundCheck recordId cmcId checkAuthority checkScope named expires =>
    (m.initiateBackgroundCheck recordId cmcId checkAuthority checkScope named expires).1
  | .updateBackgroundCheck recordId status findings now =>
    (m.updateBackgroundCheck lib recordId status findings now).1
  | .createElectronicRecord recordId cmcId issuerAuthority holderData clock =>
    (m.createElectronicRecord lib recordId cmcId issuerAuthority holderData clock).1
  | .linkBackgroundCheck electronicRecordId backgroundCheckId entered updated =>
    (m.linkBackgroundCheck lib electronicRecordId backgroundCheckId entered updated).1
  | .manageVisaFreeStatus call => (m.manageVisaFreeStatus call).1
  | .cleanupExpiredRecords now checked archives => (m.cleanupExpiredRecords now checked archives).1

/-- The identifiers that a call draws with `uuid4`. -/
def Call.drawn : Call → List String
  | .initiateBackgroundCheck recordId .. | .createElectronicRecord recordId .. => [recordId]
  | .manageVisaFreeStatus call => [call.recordId]
  | .updateBackgroundCheck .. | .linkBackgroundCheck .. | .cleanupExpiredRecords .. => []

structure State where
  manager : Annex9PolicyManager := {}
  issued : List String := []

/-- No identifier is drawn twice. -/
def step (lib : Library) (s : State) (call : Call) : Option State :=
  if ∀ id ∈ call.drawn, id ∉ s.issued then
    some { manager := call.perform lib s.manager, issued := call.drawn ++ s.issued }
  else none

variable {lib : Library} {m : Annex9PolicyManager} {s s' : State} {call : Call}
  {issued : List String} {r : ElectronicRecord} {v : VisaFreeEntryRecord}

/-! Electronic records. -/

/-- The hash is that of the content, and every version after the first has its audit entry. -/
structure Sound (lib : Library) (r : ElectronicRecord) : Prop where
  integrity : r.verifyIntegrity lib = true
  version : r.version = 1 + r.auditTrail.length

theorem verifyIntegrity_of_recordHash (h : r.recordHash = some (r.calculateRecordHash lib)) :
    r.verifyIntegrity lib = true := by
  have hne : r.calculateRecordHash lib ≠ "" := by
    intro hempty
    have hlength : (r.calculateRecordHash lib).length = 64 := lib.length_sha256 _
    rw [hempty] at hlength
    cases hlength
  have htruthy : Text.truthy r.recordHash = some (r.calculateRecordHash lib) :=
    Text.truthy_eq_some.mpr ⟨h, hne⟩
  simp [ElectronicRecord.verifyIntegrity, htruthy]

/-- An audit entry makes a record sound whose version and trail agree, whatever its hash. -/
theorem sound_addAuditEntry {action actor : String} {details : Entries} {entered updated : Time}
    (h : r.version = 1 + r.auditTrail.length) :
    Sound lib (r.addAuditEntry lib action actor details entered updated) where
  integrity := verifyIntegrity_of_recordHash rfl
  version := by simp [ElectronicRecord.addAuditEntry, h, Nat.add_assoc]

def Linked (lib : Library) (r r' : ElectronicRecord) : Prop :=
  ∃ backgroundCheckId entered updated, r' = linked lib backgroundCheckId entered updated r

def Created (lib : Library) (drawn : List String) (r : ElectronicRecord) : Prop :=
  ∃ recordId ∈ drawn, ∃ cmcId issuerAuthority holderData clock,
    r = newElectronicRecord lib recordId cmcId issuerAuthority holderData clock

theorem change_electronic (hfresh : ∀ id ∈ call.drawn, id ∉ m.electronicRecords.map (·.recordId)) :
    Change (·.recordId) (Linked lib) (Created lib call.drawn) m.electronicRecords
      (call.perform lib m).electronicRecords := by
  cases call with
  | initiateBackgroundCheck => exact .keep
  | updateBackgroundCheck recordId status findings now =>
    simp only [Call.perform, updateBackgroundCheck]
    split <;> exact .keep
  | createElectronicRecord recordId cmcId issuerAuthority holderData clock =>
    have hfree := hfresh recordId List.mem_cons_self
    simp only [Call.perform, createElectronicRecord, upsert_of_notMem hfree]
    exact .add _ ⟨recordId, List.mem_cons_self, _, _, _, _, rfl⟩
  | linkBackgroundCheck electronicRecordId backgroundCheckId entered updated =>
    simp only [Call.perform, linkBackgroundCheck]
    split_ifs
    · exact .keep
    · exact .keep
    · exact .modify _ _ fun _ _ => ⟨_, _, _, rfl⟩
  | manageVisaFreeStatus c =>
    simp only [Call.perform, manageVisaFreeStatus]
    split <;> exact .keep
  | cleanupExpiredRecords now checked archives =>
    simp only [Call.perform, cleanupExpiredRecords]
    split
    · exact .drop _
    · split <;> exact .drop _

theorem sound_linked {r' : ElectronicRecord} (hlinked : Linked lib r r') (h : Sound lib r) :
    Sound lib r' := by
  obtain ⟨_, _, _, rfl⟩ := hlinked
  exact sound_addAuditEntry h.version

theorem sound_created {drawn : List String} (hcreated : Created lib drawn r) : Sound lib r := by
  obtain ⟨_, -, _, _, _, _, rfl⟩ := hcreated
  exact sound_addAuditEntry rfl

theorem auditTrail_linked {r' : ElectronicRecord} (hlinked : Linked lib r r') :
    r'.recordId = r.recordId ∧ r.auditTrail <+: r'.auditTrail := by
  obtain ⟨_, _, _, rfl⟩ := hlinked
  exact ⟨rfl, List.prefix_append _ _⟩

/-! Visa-free status. -/

/-- The history leads from the status of a new record to the present one. -/
def Chained (v : VisaFreeEntryRecord) : Prop :=
  Leads StatusChange.oldStatus StatusChange.newStatus VisaFreeEntryStatus.notEligible.value
    v.statusHistory v.status.value

def Changed (v v' : VisaFreeEntryRecord) : Prop := ∃ c : VisaFreeCall, v' = c.change v

/-- The record is made by a call for a certificate that has none. -/
def Granted (drawn : List String) (records : List VisaFreeEntryRecord) (v : VisaFreeEntryRecord) :
    Prop :=
  ∃ c : VisaFreeCall,
    c.recordId ∈ drawn ∧ c.cmcId ∉ records.map (·.cmcId) ∧ v = c.change c.newRecord

theorem change_visaFree (hfresh : ∀ id ∈ call.drawn, id ∉ m.visaFreeRecords.map (·.recordId)) :
    Change (·.recordId) Changed (Granted call.drawn m.visaFreeRecords) m.visaFreeRecords
      (call.perform lib m).visaFreeRecords := by
  cases call with
  | initiateBackgroundCheck => exact .keep
  | updateBackgroundCheck recordId status findings now =>
    simp only [Call.perform, updateBackgroundCheck]
    split <;> exact .keep
  | createElectronicRecord => exact .keep
  | linkBackgroundCheck electronicRecordId backgroundCheckId entered updated =>
    simp only [Call.perform, linkBackgroundCheck]
    split_ifs <;> exact .keep
  | manageVisaFreeStatus c =>
    simp only [Call.perform, manageVisaFreeStatus]
    split
    case h_1 record hrecord => exact .modify _ _ fun v _ => ⟨c, rfl⟩
    case h_2 hnone =>
      have hfree := hfresh c.recordId List.mem_cons_self
      have hcmc : c.cmcId ∉ m.visaFreeRecords.map (·.cmcId) := by
        simpa [getVisaFreeRecord] using hnone
      simp only [upsert_of_notMem hfree]
      exact .add _ ⟨c, List.mem_cons_self, hcmc, rfl⟩
  | cleanupExpiredRecords now checked archives =>
    simp only [Call.perform, cleanupExpiredRecords]
    split
    · exact .keep
    · split
      · exact .keep
      · exact .drop _

theorem change_statusHistory (c : VisaFreeCall) (v : VisaFreeEntryRecord) :
    ∃ statusChange, (c.change v).statusHistory = v.statusHistory ++ [statusChange] ∧
      statusChange.oldStatus = v.status.value ∧
      statusChange.newStatus = (c.change v).status.value := by
  obtain ⟨_, status⟩ := c
  cases status <;> exact ⟨_, rfl, rfl, rfl⟩

theorem chained_change (c : VisaFreeCall) (h : Chained v) : Chained (c.change v) := by
  obtain ⟨statusChange, hhistory, hold, hnew⟩ := change_statusHistory c v
  rw [Chained, hhistory, ← hnew]
  exact Leads.concat h hold

theorem statusHistory_changed {v' : VisaFreeEntryRecord} (hchanged : Changed v v') :
    v'.recordId = v.recordId ∧ v.statusHistory <+: v'.statusHistory := by
  obtain ⟨c, rfl⟩ := hchanged
  obtain ⟨_, hhistory, -, -⟩ := change_statusHistory c v
  exact ⟨VisaFreeCall.change_recordId, hhistory ▸ List.prefix_append _ _⟩

/-! The stores together. -/

structure Consistent (lib : Library) (m : Annex9PolicyManager) : Prop where
  electronic : ∀ r ∈ m.electronicRecords, Sound lib r
  visaFree : ∀ v ∈ m.visaFreeRecords, Chained v
  cmcId : (m.visaFreeRecords.map (·.cmcId)).Nodup

structure Bookkept (lib : Library) (s : State) : Prop where
  consistent : Consistent lib s.manager
  electronic : Drawn (·.recordId) s.issued s.manager.electronicRecords
  visaFree : Drawn (·.recordId) s.issued s.manager.visaFreeRecords

/-- What a step may do to the two stores of records with a trail. -/
structure Steps (lib : Library) (s : State) (drawn : List String) (s' : State) : Prop where
  fresh : ∀ id ∈ drawn, id ∉ s.issued
  issued : s'.issued = drawn ++ s.issued
  electronic : Change (·.recordId) (Linked lib) (Created lib drawn) s.manager.electronicRecords
    s'.manager.electronicRecords
  visaFree : Change (·.recordId) Changed (Granted drawn s.manager.visaFreeRecords)
    s.manager.visaFreeRecords s'.manager.visaFreeRecords

theorem steps_of_step (hs : Bookkept lib s) (h : step lib s call = some s') :
    Steps lib s call.drawn s' := by
  unfold step at h
  split at h
  case isFalse => cases h
  case isTrue hfresh =>
    obtain rfl := Option.some.inj h
    exact ⟨hfresh, rfl,
      change_electronic fun id hid => hs.electronic.notMem (hfresh id hid),
      change_visaFree fun id hid => hs.visaFree.notMem (hfresh id hid)⟩

theorem consistent_step {drawn : List String} (hs : Consistent lib s.manager)
    (h : Steps lib s drawn s') : Consistent lib s'.manager where
  electronic := h.electronic.forall (fun _ _ => sound_linked) (fun _ => sound_created) hs.electronic
  visaFree := by
    refine h.visaFree.forall ?_ ?_ hs.visaFree
    · rintro _ _ ⟨c, rfl⟩ hv
      exact chained_change c hv
    · rintro _ ⟨c, -, -, rfl⟩
      exact chained_change c rfl
  cmcId := by
    refine h.visaFree.nodup_map ?_ ?_ hs.cmcId
    · rintro _ _ ⟨c, rfl⟩
      exact VisaFreeCall.change_cmcId
    · rintro _ ⟨c, -, hcmc, rfl⟩
      simpa using hcmc

theorem bookkept_step (hs : Bookkept lib s) (h : step lib s call = some s') : Bookkept lib s' := by
  have hsteps := steps_of_step hs h
  refine ⟨consistent_step hs.consistent hsteps, ?_, ?_⟩ <;> rw [hsteps.issued]
  · refine hsteps.electronic.drawn (fun _ _ h => (auditTrail_linked h).1) ?_ hsteps.fresh
      hs.electronic
    rintro _ ⟨id, hid, _, _, _, _, rfl⟩
    exact hid
  · refine hsteps.visaFree.drawn (fun _ _ h => (statusHistory_changed h).1) ?_ hsteps.fresh
      hs.visaFree
    rintro _ ⟨c, hid, -, rfl⟩
    simpa using hid

/-- The records that are in the stores at both times have kept their trails and histories. -/
structure Grown (m m' : Annex9PolicyManager) : Prop where
  auditTrail : Grows (·.recordId) (·.auditTrail) m.electronicRecords m'.electronicRecords
  statusHistory : Grows (·.recordId) (·.statusHistory) m.visaFreeRecords m'.visaFreeRecords

/-- What holds of a state that is reached from `start`. -/
structure Later (lib : Library) (start s : State) : Prop where
  bookkept : Bookkept lib s
  issued : start.issued ⊆ s.issued
  grown : Grown start.manager s.manager

theorem later_step {start : State} (hstart : Bookkept lib start) (hs : Later lib start s)
    (h : step lib s call = some s') : Later lib start s' := by
  have hsteps := steps_of_step hs.bookkept h
  refine ⟨bookkept_step hs.bookkept h, ?_, ?_, ?_⟩
  · rw [hsteps.issued]
    exact fun id hid => List.mem_append_right _ (hs.issued hid)
  · refine hsteps.electronic.grows (fun _ _ => auditTrail_linked) ?_
      (fun r hr => hs.issued (hstart.electronic.mem r hr)) hs.grown.auditTrail
    rintro _ ⟨id, hid, _, _, _, _, rfl⟩
    exact hsteps.fresh id hid
  · refine hsteps.visaFree.grows (fun _ _ => statusHistory_changed) ?_
      (fun v hv => hs.issued (hstart.visaFree.mem v hv)) hs.grown.statusHistory
    rintro _ ⟨c, hid, -, rfl⟩
    simpa using hsteps.fresh c.recordId hid

theorem bookkept_of_run {calls : List Call} (hr : run (step lib) {} calls = some s) :
    Bookkept lib s := by
  have hinit : Bookkept lib {} :=
    ⟨⟨by simp, by simp, List.nodup_nil⟩, ⟨by simp, List.nodup_nil⟩, ⟨by simp, List.nodup_nil⟩⟩
  exact run_preserves (fun _ _ _ => bookkept_step) hinit hr

/-- In every state reached the stores are consistent, and in every state reached from there the
trails and histories have only grown. -/
theorem consistent_of_run {calls : List Call} (hr : run (step lib) {} calls = some s) :
    Consistent lib s.manager ∧
      ∀ more s', run (step lib) s more = some s' → Grown s.manager s'.manager := by
  have hs := bookkept_of_run hr
  refine ⟨hs.consistent, fun more s' hr' => ?_⟩
  have hself : Later lib s s :=
    ⟨hs, List.Subset.refl _, Grows.refl hs.electronic.nodup, Grows.refl hs.visaFree.nodup⟩
  exact (run_preserves (fun _ _ _ => later_step hs) hself hr').grown

/-- A record is made and linked to a check, and a certificate is granted visa-free entry. -/
def managed : List Call := [
  .createElectronicRecord "record-1" "cmc-1" "authority" [] fun n => n,
  .initiateBackgroundCheck "check-1" "cmc-1" "authority" [] 10 11,
  .linkBackgroundCheck "record-1" "check-1" 12 13,
  .manageVisaFreeStatus {
    cmcId := "cmc-1"
    status := .eligible
    grantingAuthority := "authority"
    reason := "review"
    recordId := "visa-1"
    named := 20
    reviewed := 21
    clock := fun n => 22 + n },
  .cleanupExpiredRecords 30 (fun _ => 30) fun _ => true]

theorem consistent_managed :
    ∃ s, run (step zeros) {} managed = some s ∧ Consistent zeros s.manager := by
  obtain ⟨s, hr⟩ : ∃ s, run (step zeros) {} managed = some s := ⟨_, rfl⟩
  exact ⟨s, hr, (consistent_of_run hr).1⟩

end Marty.Policies.Records
