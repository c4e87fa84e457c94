import Marty.Lib.Datetime
import Marty.Lib.Dict
import Marty.Lib.Json
import Marty.Lib.Table

/-! `CredentialLedgerRepository`: the ledger keeps one entry for a credential, which each event
overwrites. -/

namespace Marty.Infrastructure.CredentialLedger

open Lib Lib.Datetime

abbrev Metadata := List (String × Json)

structure CredentialLedgerEntry where
  credentialId : String
  credentialType : String
  status : String
  eventMetadata : Option Metadata
  updatedAt : Stamp
  lastEventTopic : Option String
  lastEventOffset : Option Int

/-- The arguments of `upsert_entry`. -/
structure Event where
  credentialId : String
  credentialType : String
  status : String
  metadata : Option Metadata
  topic : String
  offset : Option Int

def Event.entry (e : Event) (now : Time) : CredentialLedgerEntry where
  credentialId := e.credentialId
  credentialType := e.credentialType
  status := e.status
  eventMetadata := some (e.metadata.getD [])
  updatedAt := .utc now
  lastEventTopic := some e.topic
  lastEventOffset := e.offset

def mergeMetadata (current metadata : Option Metadata) : Option Metadata :=
  match metadata.filter (!·.isEmpty) with
  | none => current
  | some metadata => some (Dict.updated (current.getD []) metadata)

def Event.overwrite (e : Event) (now : Time) (entry : CredentialLedgerEntry) :
    CredentialLedgerEntry :=
  { entry with
    credentialType := if e.credentialType = "" then entry.credentialType else e.credentialType
    status := e.status
    eventMetadata := mergeMetadata entry.eventMetadata e.metadata
    updatedAt := .utc now
    lastEventTopic := some e.topic
    lastEventOffset := e.offset }

/-- The rows of `credential_ledger`, with the constraint on `credential_id`. -/
structure Ledger where
  rows : List CredentialLedgerEntry
  unique : (rows.map (·.credentialId)).Nodup

namespace Ledger

variable {s : Ledger}

def empty : Ledger := ⟨[], List.nodup_nil⟩

def get (s : Ledger) (credentialId : String) : Option CredentialLedgerEntry :=
  Table.get (·.credentialId) credentialId s.rows

def upsertEntry (s : Ledger) (e : Event) (now : Time) : Ledger where
  rows := Table.upsert (·.credentialId) e.credentialId (e.entry now) (e.overwrite now) s.rows
  unique := Table.nodup_upsert (fun _ => rfl) rfl s.unique

def updateStatus (s : Ledger) (credentialId status : String) (metadata : Option Metadata)
    (topic : String) (offset : Option Int) (now : Time) : Ledger :=
  s.upsertEntry ⟨credentialId, "", status, metadata, topic, offset⟩ now

theorem get_upsertEntry (e : Event) (now : Time) :
    (s.upsertEntry e now).get e.credentialId =
      some (((s.get e.credentialId).map (e.overwrite now)).getD (e.entry now)) :=
  Table.get_upsert_self (fun _ => rfl) rfl

end Ledger

/-- What an event says of the status of a credential. -/
structure StatusEvent where
  status : String
  metadata : Option Metadata
  offset : Int

inductive Method
  | upsertEntry (credentialType : String)
  | updateStatus

/-- One application of an event; a redelivery is another one. -/
structure Delivery where
  event : StatusEvent
  method : Method
  now : Time

section

variable (credentialId topic : String)

def deliver (s : Ledger) (d : Delivery) : Ledger :=
  match d.method with
  | .upsertEntry credentialType =>
    s.upsertEntry
      ⟨credentialId, credentialType, d.event.status, d.event.metadata, topic, some d.event.offset⟩
      d.now
  | .updateStatus =>
    s.updateStatus credentialId d.event.status d.event.metadata topic (some d.event.offset) d.now

/-- The ledger has the status and the offset of the event on the credential's entry. -/
def Shows (s : Ledger) (e : StatusEvent) : Prop :=
  ∃ entry, s.get credentialId = some entry ∧ entry.status = e.status ∧
    entry.lastEventOffset = some e.offset

theorem shows_deliver (s : Ledger) (d : Delivery) :
    Shows credentialId (deliver credentialId topic s d) d.event := by
  unfold deliver Ledger.updateStatus
  cases d.method with
  | upsertEntry credentialType =>
    refine ⟨_, s.get_upsertEntry ⟨credentialId, _, _, _, _, _⟩ d.now, ?_⟩
    cases s.get credentialId <;> exact ⟨rfl, rfl⟩
  | updateStatus =>
    refine ⟨_, s.get_upsertEntry ⟨credentialId, _, _, _, _, _⟩ d.now, ?_⟩
    cases s.get credentialId <;> exact ⟨rfl, rfl⟩

theorem shows_last {s : Ledger} {deliveries : List Delivery} {d : Delivery}
    (h : deliveries.getLast? = some d) :
    Shows credentialId (deliveries.foldl (deliver credentialId topic) s) d.event := by
  obtain ⟨before, rfl⟩ := List.getLast?_eq_some_iff.mp h
  rw [List.foldl_append]
  exact shows_deliver credentialId topic _ d

end

theorem Shows.offset_eq {credentialId : String} {s : Ledger} {e e' : StatusEvent}
    (h : Shows credentialId s e) (h' : Shows credentialId s e') : e.offset = e'.offset := by
  obtain ⟨entry, hentry, -, hoffset⟩ := h
  obtain ⟨entry', hentry', -, hoffset'⟩ := h'
  obtain rfl := Option.some.inj (hentry.symm.trans hentry')
  exact Option.some.inj (hoffset.symm.trans hoffset')

def Greatest (events : List StatusEvent) (e : StatusEvent) : Prop :=
  e ∈ events ∧ ∀ e' ∈ events, e'.offset ≤ e.offset

/-- However the events are delivered, the entry is that of the last one: it shows the event with
the greatest offset exactly when this is the one delivered last. -/
theorem shows_greatest_iff (s : Ledger) (credentialId topic : String) {events : List StatusEvent}
    {deliveries : List Delivery} {greatest : StatusEvent}
    (hdistinct : (events.map (·.offset)).Nodup)
    (hdelivered : ∀ e, e ∈ deliveries.map (·.event) ↔ e ∈ events)
    (hgreatest : Greatest events greatest) :
    Shows credentialId (deliveries.foldl (deliver credentialId topic) s) greatest ↔
      deliveries.getLast?.map (·.event) = some greatest := by
  constructor
  · intro hshows
    have hne : deliveries ≠ [] := by
      rintro rfl
      cases (hdelivered greatest).mpr hgreatest.1
    have hlast := List.getLast?_eq_some_getLast hne
    have hmem : (deliveries.getLast hne).event ∈ events :=
      (hdelivered _).mp (List.mem_map_of_mem (List.getLast_mem hne))
    have hoffset := (shows_last credentialId topic hlast).offset_eq hshows
    rw [hlast, Option.map_some, List.inj_on_of_nodup_map hdistinct hmem hgreatest.1 hoffset]
  · intro hlast
    obtain ⟨d, hd, rfl⟩ := Option.map_eq_some_iff.mp hlast
    exact shows_last credentialId topic hd

def issued : StatusEvent := ⟨"ISSUED", none, 1⟩

def revoked : StatusEvent := ⟨"REVOKED", none, 2⟩

theorem greatest_revoked : Greatest [issued, revoked] revoked :=
  ⟨by simp, by simp [issued, revoked]⟩

/-- Both events in order, and once more. -/
def redelivered : List Delivery :=
  [⟨issued, .upsertEntry "mdl", 0⟩, ⟨revoked, .updateStatus, 1⟩, ⟨issued, .upsertEntry "mdl", 2⟩,
    ⟨revoked, .updateStatus, 3⟩]

theorem shows_revoked_redelivered :
    Shows "c" (redelivered.foldl (deliver "c" "credentials") .empty) revoked := by
  refine (shows_greatest_iff .empty "c" "credentials" (by decide) (fun e => ?_)
    greatest_revoked).mpr rfl
  simp only [redelivered, List.map_cons, List.map_nil, List.mem_cons]
  tauto

/-- The issuance comes late. -/
def late : List Delivery := [⟨revoked, .updateStatus, 0⟩, ⟨issued, .upsertEntry "mdl", 1⟩]

theorem issued_again : Greatest [issued, revoked] revoked ∧
    (∀ e, e ∈ late.map (·.event) ↔ e ∈ [issued, revoked]) ∧
    Shows "c" (late.foldl (deliver "c" "credentials") .empty) issued ∧
    ¬ Shows "c" (late.foldl (deliver "c" "credentials") .empty) revoked := by
  have hshows : Shows "c" (late.foldl (deliver "c" "credentials") .empty) issued :=
    @shows_last "c" "credentials" .empty late ⟨issued, .upsertEntry "mdl", 1⟩ rfl
  refine ⟨greatest_revoked, fun e => ?_, hshows, fun h => ?_⟩
  · simp only [late, List.map_cons, List.map_nil, List.mem_cons]
    tauto
  · cases hshows.offset_eq h

end Marty.Infrastructure.CredentialLedger
