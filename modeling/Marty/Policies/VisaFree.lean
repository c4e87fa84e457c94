import Mathlib.Data.Fintype.EquivFin
import Marty.Lib.Run
import Marty.Policies.Annex9

/-! The countries of a visa-free grant.  The record of a certificate is what the calls for that
certificate make of it, one after the other; its countries are those of the first. -/

namespace Marty.Policies.VisaFree

open Lib Lib.Datetime Lib.Run Lib.Table Annex9 Annex9PolicyManager

/-- The identifier of a new record is not in use. -/
def step (m : Annex9PolicyManager) (c : VisaFreeCall) : Option Annex9PolicyManager :=
  if c.recordId ∈ m.visaFreeRecords.map (·.recordId) then none
  else some (m.manageVisaFreeStatus c).1

/-- What the calls for one certificate make of its record. -/
def replay : List VisaFreeCall → Option VisaFreeEntryRecord
  | [] => none
  | c :: cs => some ((c :: cs).foldl (fun v c => c.change v) c.newRecord)

def callsFor (cmcId : String) (cs : List VisaFreeCall) : List VisaFreeCall :=
  cs.filter (·.cmcId = cmcId)

variable {m m' : Annex9PolicyManager} {c : VisaFreeCall} {cs : List VisaFreeCall} {cmcId : String}
  {v : VisaFreeEntryRecord} {now : Time}

theorem replay_concat (cs : List VisaFreeCall) (c : VisaFreeCall) :
    replay (cs ++ [c]) = some (c.change ((replay cs).getD c.newRecord)) := by
  cases cs with
  | nil => rfl
  | cons first cs => simp [replay, List.foldl_append]

/-- The record of every certificate is the one its calls make. -/
structure Replays (cs : List VisaFreeCall) (m : Annex9PolicyManager) : Prop where
  nodup : (m.visaFreeRecords.map (·.recordId)).Nodup
  record : ∀ cmcId, m.getVisaFreeRecord cmcId = replay (callsFor cmcId cs)

theorem getVisaFreeRecord_cmcId (h : m.getVisaFreeRecord cmcId = some v) :
    v ∈ m.visaFreeRecords ∧ v.cmcId = cmcId :=
  ⟨List.mem_of_find?_eq_some h, by simpa using List.find?_some h⟩

theorem getVisaFreeRecord_modify {id : String} :
    getVisaFreeRecord
        { m with visaFreeRecords := Table.modify (·.recordId) id c.change m.visaFreeRecords }
        cmcId =
      (m.getVisaFreeRecord cmcId).map fun v => if v.recordId = id then c.change v else v := by
  rw [getVisaFreeRecord, Table.modify, List.find?_map, getVisaFreeRecord]
  congr 2
  funext v
  simp only [Function.comp]
  split <;> simp

theorem replays_step (hm : Replays cs m) (h : step m c = some m') : Replays (cs ++ [c]) m' := by
  unfold step at h
  split at h
  case isTrue => cases h
  case isFalse hfresh =>
    obtain rfl := Option.some.inj h
    have hcalls : ∀ cmcId, callsFor cmcId (cs ++ [c]) =
        if c.cmcId = cmcId then callsFor cmcId cs ++ [c] else callsFor cmcId cs := by
      intro cmcId
      split <;> simp [callsFor, *]
    unfold manageVisaFreeStatus
    split
    case h_1 record hrecord =>
      obtain ⟨hmem, hcmc⟩ := getVisaFreeRecord_cmcId hrecord
      refine ⟨nodup_modify (fun _ => VisaFreeCall.change_recordId) hm.nodup, fun cmcId => ?_⟩
      rw [getVisaFreeRecord_modify, hcalls]
      split
      case isTrue heq =>
        subst heq
        rw [replay_concat, ← hm.record, hrecord]
        simp
      case isFalse hne =>
        rw [hm.record]
        cases hreplay : replay (callsFor cmcId cs) with
        | none => rfl
        | some v =>
          obtain ⟨hv, hvcmc⟩ := getVisaFreeRecord_cmcId ((hm.record cmcId).trans hreplay)
          have hother : v.recordId ≠ record.recordId := by
            intro hid
            obtain rfl := List.inj_on_of_nodup_map hm.nodup hv hmem hid
            exact hne (hcmc.symm.trans hvcmc)
          simp [hother]
    case h_2 hnone =>
      simp only [upsert_of_notMem hfresh]
      refine ⟨nodup_append_singleton hm.nodup (by simpa using hfresh), fun cmcId => ?_⟩
      rw [getVisaFreeRecord, List.find?_append, ← getVisaFreeRecord, hm.record, hcalls]
      split
      case isTrue heq =>
        subst heq
        rw [replay_concat, ← hm.record, hnone]
        simp
      case isFalse hne => simp [hne]

theorem replays_of_run (hr : run step {} cs = some m) : Replays cs m := by
  have hstep : ∀ (before : List VisaFreeCall) m c m', Replays before m → True →
      step m c = some m' → Replays (before ++ [c]) m' :=
    fun _ _ _ _ hm _ h => replays_step hm h
  have hinit : Replays [] {} := ⟨List.nodup_nil, fun _ => rfl⟩
  exact run_trace_invariant hstep hinit (guarded_of_mem (fun _ _ _ => trivial) _) hr

/-! The countries for which a record is eligible. -/

theorem isEligibleForCountry_eq_some_true {country : String} :
    v.isEligibleForCountry country now = some true ↔
      v.isCurrentlyEligible now = some true ∧
        (country ∈ v.eligibleCountries ∨ v.eligibleCountries = []) := by
  unfold VisaFreeEntryRecord.isEligibleForCountry
  cases v.isCurrentlyEligible now with
  | none => simp
  | some eligible => cases eligible <;> simp

/-- The validity that the call gives is over when it begins, or it has no time zone. -/
def Ended (c : VisaFreeCall) : Prop :=
  ∃ u, c.validUntil = some u ∧ u.lt? (.utc (c.clock 2)) ≠ some false

/-- A grant is valid at some time, unless it had ended when it was made. -/
theorem exists_isCurrentlyEligible (hc : c.status = .eligible) :
    (∃ now, (c.change v).isCurrentlyEligible now = some true) ↔ ¬ Ended c := by
  have hchange : ∀ now, (c.change v).isCurrentlyEligible now =
      if now < c.clock 2 then some false
      else c.validUntil.elim (some true) fun u => (u.lt? (.utc now)).map (!·) := by
    intro now
    rw [VisaFreeCall.change, hc]
    cases c.validUntil <;>
      simp [VisaFreeEntryRecord.updateStatus, VisaFreeEntryRecord.isCurrentlyEligible]
  simp only [hchange, Ended]
  cases c.validUntil with
  | none => simpa using ⟨c.clock 2, Int.le_refl _⟩
  | some u =>
    constructor
    · rintro ⟨now, hnow⟩ ⟨u', hu', hended⟩
      obtain rfl := Option.some.inj hu'
      split at hnow
      case isTrue => cases hnow
      case isFalse hle =>
        have hlt : u.lt? (.utc now) = some false := by simpa using hnow
        exact hended (Stamp.not_lt_of_le (Int.not_lt.mp hle) hlt)
    · intro h
      have hlt : u.lt? (.utc (c.clock 2)) = some false := by
        by_contra hne
        exact h ⟨u, rfl, hne⟩
      exact ⟨c.clock 2, by simp [hlt]⟩

/-- The record of the certificate, if it has one, is never eligible for a country that is not in
the list. -/
def LimitedTo (m : Annex9PolicyManager) (cmcId : String) (countries : List String) : Prop :=
  ∀ v, m.getVisaFreeRecord cmcId = some v →
    ∀ country now, v.isEligibleForCountry country now = some true → country ∈ countries

/-- Some country is not in the list of countries. -/
theorem exists_notMem (countries : List String) : ∃ country, country ∉ countries := by
  obtain ⟨country, h⟩ := Infinite.exists_notMem_finset countries.toFinset
  exact ⟨country, by simpa using h⟩

/-- The countries of the call are some, and all of them in the list. -/
def Within (c : VisaFreeCall) (countries : List String) : Prop :=
  c.eligibleCountries ≠ [] ∧ c.eligibleCountries ⊆ countries

theorem within_iff {countries : List String} :
    Within c countries ↔
      ∀ country, country ∈ c.eligibleCountries ∨ c.eligibleCountries = [] →
        country ∈ countries := by
  constructor
  · rintro ⟨hne, hsub⟩ country (hcountry | hempty)
    · exact hsub hcountry
    · exact absurd hempty hne
  · intro h
    refine ⟨fun hempty => ?_, fun country hcountry => h country (.inl hcountry)⟩
    obtain ⟨country, hcountry⟩ := exists_notMem countries
    exact hcountry (h country (.inr hempty))

theorem foldl_change_eligibleCountries (cs : List VisaFreeCall) (v : VisaFreeEntryRecord) :
    (cs.foldl (fun v c => c.change v) v).eligibleCountries = v.eligibleCountries := by
  induction cs generalizing v with
  | nil => rfl
  | cons c cs ih => rw [List.foldl_cons, ih, VisaFreeCall.change_eligibleCountries]

/-- The record of some calls has the countries of the first, and it is left by the last. -/
theorem replay_eq {first last : VisaFreeCall} (hfirst : cs.head? = some first)
    (hlast : cs.getLast? = some last) :
    ∃ v, replay cs = some (last.change v) ∧ v.eligibleCountries = first.eligibleCountries := by
  obtain ⟨cs, rfl⟩ := List.getLast?_eq_some_iff.mp hlast
  rw [replay_concat]
  cases cs with
  | nil =>
    obtain rfl : last = first := by simpa using hfirst
    exact ⟨last.newRecord, rfl, rfl⟩
  | cons c cs =>
    obtain rfl : c = first := by simpa using hfirst
    exact ⟨_, rfl, foldl_change_eligibleCountries _ _⟩

/-- After a grant, its countries limit the record exactly when the countries of the first call for
the certificate are some of them, or the grant had ended when it was made. -/
theorem limitedTo_iff {calls : List VisaFreeCall} {first last : VisaFreeCall}
    (hr : run step {} calls = some m) (hfirst : (callsFor cmcId calls).head? = some first)
    (hlast : (callsFor cmcId calls).getLast? = some last) (hstatus : last.status = .eligible) :
    LimitedTo m cmcId last.eligibleCountries ↔
      Within first last.eligibleCountries ∨ Ended last := by
  obtain ⟨v, hreplay, hv⟩ := replay_eq hfirst hlast
  have hrecord := ((replays_of_run hr).record cmcId).trans hreplay
  simp only [LimitedTo, hrecord, Option.some.injEq, forall_eq', isEligibleForCountry_eq_some_true,
    VisaFreeCall.change_eligibleCountries, hv, within_iff]
  constructor
  · intro h
    by_contra! hneither
    obtain ⟨⟨country, hcountry, hnot⟩, hended⟩ := hneither
    obtain ⟨now, hnow⟩ := (exists_isCurrentlyEligible hstatus).mpr hended
    exact hnot (h country now ⟨hnow, hcountry⟩)
  · rintro (hwithin | hended) country now ⟨hnow, hcountry⟩
    · exact hwithin country hcountry
    · exact absurd hended ((exists_isCurrentlyEligible hstatus).mp ⟨now, hnow⟩)

/-- A grant for a certificate without a time limit. -/
def grant (recordId : String) (countries : List String) (start : Time) : VisaFreeCall where
  cmcId := "cmc-1"
  status := .eligible
  grantingAuthority := "authority"
  reason := "review"
  eligibleCountries := countries
  recordId := recordId
  named := start
  reviewed := start
  clock := fun n => start + n

/-- A first grant, and a second one with one more country. -/
def extended : List VisaFreeCall := [grant "visa-1" ["FR"] 0, grant "visa-2" ["FR", "DE"] 10]

theorem limitedTo_extended :
    ∃ m, run step {} extended = some m ∧ LimitedTo m "cmc-1" ["FR", "DE"] := by
  have hfirst : (callsFor "cmc-1" extended).head? = some (grant "visa-1" ["FR"] 0) := rfl
  have hlast : (callsFor "cmc-1" extended).getLast? = some (grant "visa-2" ["FR", "DE"] 10) := rfl
  have hwithin : Within (grant "visa-1" ["FR"] 0) ["FR", "DE"] :=
    ⟨List.cons_ne_nil _ _, fun _ h => List.mem_append_left ["DE"] h⟩
  exact ⟨_, rfl, (limitedTo_iff rfl hfirst hlast rfl).mpr (.inl hwithin)⟩

/-- The second grant is for one country, but the record keeps the countries of the first. -/
theorem grant_not_limited :
    (∃ m v, run step {} [grant "visa-1" ["FR", "DE"] 0, grant "visa-2" ["FR"] 10] = some m ∧
      m.getVisaFreeRecord "cmc-1" = some v ∧ v.isEligibleForCountry "DE" 20 = some true) ∧
    ∃ m v, run step {} [grant "visa-1" [] 0, grant "visa-2" ["FR"] 10] = some m ∧
      m.getVisaFreeRecord "cmc-1" = some v ∧ v.isEligibleForCountry "US" 20 = some true :=
  ⟨⟨_, _, rfl, rfl, rfl⟩, ⟨_, _, rfl, rfl, rfl⟩⟩


end Marty.Policies.VisaFree
