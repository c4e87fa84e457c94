import Mathlib.Tactic.NormNum
import Mathlib.Tactic.Positivity
import Marty.Security.KeyAnomaly

/-! The pattern that the recent events of a key are held against.  The learning window ends now,
so that it has the recent events too: nothing they do is unusual in the light of it. -/

namespace Marty.Security.Baseline

open Lib Lib.Datetime KeyAnomaly

variable {events : List KeyUsageEvent} {keyId : String} {start stop : Time} {e : KeyUsageEvent}

/-- The event is at `start` or later, and not after `stop`. -/
def Between (start stop : Time) (e : KeyUsageEvent) : Prop :=
  e.timestamp.lt? (.utc start) = some false ∧ Stamp.lt? (.utc stop) e.timestamp = some false

instance : Decidable (Between start stop e) := inferInstanceAs (Decidable (_ ∧ _))

theorem mem_getEventsForKey {l : List KeyUsageEvent}
    (h : getEventsForKey events keyId start stop = some l) :
    e ∈ l ↔ e ∈ events ∧ e.keyId = keyId ∧ Between start stop e := by
  obtain ⟨late, hlate, h⟩ := Option.bind_eq_some_iff.mp h
  have hnot : ∀ o : Option Bool, o.map (!·) = some true ↔ o = some false := by
    intro o
    rcases o with _ | _ | _ <;> simp
  rw [mem_filter? h, mem_filter? hlate, List.mem_filter, hnot, hnot, decide_eq_true_iff, Between]
  tauto

theorem groupFrom_covers {hours : List Int} {first last hour : Int} (hle : first ≤ last)
    (h : first ≤ hour ∧ hour ≤ last ∨ hour ∈ hours) :
    ∃ r ∈ groupFrom first last hours, r.1 ≤ hour ∧ hour ≤ r.2 := by
  induction hours generalizing first last with
  | nil =>
    rcases h with h | h
    · exact ⟨_, List.mem_singleton_self _, h⟩
    · cases h
  | cons next hours ih =>
    unfold groupFrom
    split
    case isTrue hnext =>
      refine ih (by omega) ?_
      rcases h with h | h
      · exact .inl ⟨h.1, by omega⟩
      · rcases List.mem_cons.mp h with rfl | h
        · exact .inl ⟨by omega, le_rfl⟩
        · exact .inr h
    case isFalse =>
      rcases h with h | h
      · exact ⟨_, List.mem_cons_self, h⟩
      · have hrest : ∃ r ∈ groupFrom next next hours, r.1 ≤ hour ∧ hour ≤ r.2 := by
          refine ih le_rfl ?_
          rcases List.mem_cons.mp h with rfl | h
          · exact .inl ⟨le_rfl, le_rfl⟩
          · exact .inr h
        obtain ⟨r, hr, h⟩ := hrest
        exact ⟨r, List.mem_cons_of_mem _ hr, h⟩

theorem groupConsecutiveHours_covers {hours : List Int} {hour : Int} (h : hour ∈ hours) :
    ∃ r ∈ groupConsecutiveHours hours, r.1 ≤ hour ∧ hour ≤ r.2 := by
  have hsorted : hour ∈ hours.insertionSort (· ≤ ·) := (List.mem_insertionSort _).mpr h
  unfold groupConsecutiveHours
  cases hs : hours.insertionSort (· ≤ ·) with
  | nil =>
    rw [hs] at hsorted
    cases hsorted
  | cons first rest =>
    rw [hs] at hsorted
    refine groupFrom_covers le_rfl ?_
    rcases List.mem_cons.mp hsorted with rfl | h
    · exact .inl ⟨le_rfl, le_rfl⟩
    · exact .inr h

theorem hour_mem_activeHours (h : e ∈ events) : e.timestamp.hour ∈ activeHours events := by
  refine List.mem_filter.mpr ⟨List.mem_map.mpr ⟨e.timestamp.hour.toNat, ?_, ?_⟩, ?_⟩
  · simp only [List.mem_range, Stamp.hour, days, hours, seconds]
    omega
  · simp only [Stamp.hour, days, hours, seconds, Int.ofNat_eq_natCast]
    omega
  · have hmem : e.timestamp.hour ∈ events.map (·.timestamp.hour) := List.mem_map_of_mem h
    exact decide_eq_true (List.count_pos_iff.mpr hmem)

/-- Every event is inside the pattern that is learned from it. -/
theorem learn_covers (lib : Library) (p : UsagePattern) (now : Time) (h : e ∈ events) :
    e.operation ∈ (p.learn lib events now).commonOperations ∧
      (∀ network, ipNetwork e.sourceIp = some network →
        network ∈ (p.learn lib events now).commonIpRanges) ∧
      ∃ r ∈ (p.learn lib events now).commonTimeRanges,
        r.1 ≤ e.timestamp.hour ∧ e.timestamp.hour ≤ r.2 := by
  have hactive := hour_mem_activeHours h
  refine ⟨List.mem_map_of_mem h, fun network hn => List.mem_filterMap.mpr ⟨e, h, hn⟩, ?_⟩
  simp only [UsagePattern.learn, List.ne_nil_of_mem hactive, if_false]
  exact groupConsecutiveHours_covers hactive

section detectors

variable {x : Analysis}

/-- The alerts are all of one type, for the key that is analysed. -/
def Only (x : Analysis) (type : AnomalyType) (alerts : List KeyAnomalyAlert) : Prop :=
  ∀ a ∈ alerts, a.keyId = x.keyId ∧ a.anomalyType = type

theorem only_nil {type : AnomalyType} : Only x type [] := List.forall_mem_nil _

theorem only_ite {c : Prop} [Decidable c] {type : AnomalyType} {severity : AnomalySeverity}
    {description : String} {involved : List KeyUsageEvent} {confidence : ℚ}
    {actions : List String} :
    Only x type
      (if c then [x.alert type severity description involved confidence actions] else []) := by
  split
  · exact List.forall_mem_singleton.mpr ⟨rfl, rfl⟩
  · exact only_nil

theorem only_frequency : Only x .unusualFrequency x.detectFrequencyAnomalies := by
  unfold Analysis.detectFrequencyAnomalies
  split
  · exact only_nil
  · exact only_ite

theorem only_time : Only x .timeAnomaly x.detectTimeAnomalies := by
  unfold Analysis.detectTimeAnomalies
  split
  · exact only_nil
  · exact only_ite

theorem only_unauthorized : Only x .operationAnomaly x.detectUnauthorizedOperations := by
  unfold Analysis.detectUnauthorizedOperations
  split
  · exact only_nil
  · exact only_ite

theorem only_unusual : Only x .patternDeviation x.detectUnusualOperations := by
  unfold Analysis.detectUnusualOperations
  split
  · exact only_nil
  · exact only_ite

theorem only_user : Only x .unauthorizedAccess x.detectUserAnomalies := by
  unfold Analysis.detectUserAnomalies
  split
  · exact only_nil
  · exact only_ite

theorem only_ip : Only x .locationAnomaly x.detectIpAnomalies := by
  unfold Analysis.detectIpAnomalies
  split
  · exact only_nil
  · exact only_ite

theorem only_failure : Only x .failedOperations x.detectFailureAnomalies := only_ite

theorem only_volume {spikes : List KeyAnomalyAlert} (h : x.detectVolumeSpikes = some spikes) :
    Only x .volumeSpike spikes := by
  unfold Analysis.detectVolumeSpikes at h
  split at h
  · obtain rfl := Option.some.inj h
    exact only_nil
  · obtain ⟨current, -, rfl⟩ := Option.map_eq_some_iff.mp h
    exact only_ite

theorem expired_types {expired : List KeyAnomalyAlert} (h : x.detectExpiredKeyUsage = some expired)
    {a : KeyAnomalyAlert} (ha : a ∈ expired) :
    a.keyId = x.keyId ∧ (a.anomalyType = .expiredKeyUsage ∨ a.anomalyType = .revokedKeyUsage) := by
  unfold Analysis.detectExpiredKeyUsage at h
  split at h
  case h_1 =>
    obtain rfl := Option.some.inj h
    cases ha
  case h_2 =>
    obtain ⟨late, -, h⟩ := Option.bind_eq_some_iff.mp h
    obtain ⟨revoked, -, rfl⟩ := Option.map_eq_some_iff.mp h
    rcases List.mem_append.mp ha with ha | ha
    · obtain ⟨hkey, htype⟩ := only_ite a ha
      exact ⟨hkey, .inl htype⟩
    · obtain ⟨hkey, htype⟩ := only_ite a ha
      exact ⟨hkey, .inr htype⟩

/-- The types of alert that compare the events with the pattern. -/
def AgainstPattern : AnomalyType → Prop
  | .timeAnomaly | .locationAnomaly | .patternDeviation => True
  | _ => False

/-- Each alert is for the key, and those against the pattern come from three detectors. -/
theorem mem_detectAnomalies {alerts : List KeyAnomalyAlert} (h : x.detectAnomalies = some alerts)
    {a : KeyAnomalyAlert} (ha : a ∈ alerts) :
    a.keyId = x.keyId ∧ (AgainstPattern a.anomalyType →
      a ∈ x.detectTimeAnomalies ∨ a ∈ x.detectIpAnomalies ∨ a ∈ x.detectUnusualOperations) := by
  unfold Analysis.detectAnomalies at h
  split at h
  case isTrue =>
    obtain rfl := Option.some.inj h
    cases ha
  case isFalse =>
    obtain ⟨expired, hexpired, h⟩ := Option.bind_eq_some_iff.mp h
    obtain ⟨spikes, hspikes, rfl⟩ := Option.map_eq_some_iff.mp h
    have hother : ∀ {type l}, Only x type l → ¬ AgainstPattern type → a ∈ l →
        a.keyId = x.keyId ∧ (AgainstPattern a.anomalyType →
          a ∈ x.detectTimeAnomalies ∨ a ∈ x.detectIpAnomalies ∨ a ∈ x.detectUnusualOperations) := by
      intro type l honly hnot ha
      obtain ⟨hkey, htype⟩ := honly a ha
      exact ⟨hkey, fun h => absurd (htype ▸ h) hnot⟩
    simp only [Analysis.detectOperationAnomalies, List.mem_append] at ha
    rcases ha with ((((((ha | ha) | ha | ha) | ha) | ha) | ha) | ha) | ha
    · exact hother only_frequency id ha
    · exact ⟨(only_time a ha).1, fun _ => .inl ha⟩
    · exact hother only_unauthorized id ha
    · exact ⟨(only_unusual a ha).1, fun _ => .inr (.inr ha)⟩
    · exact hother only_user id ha
    · exact ⟨(only_ip a ha).1, fun _ => .inr (.inl ha)⟩
    · exact hother only_failure id ha
    · obtain ⟨hkey, htype | htype⟩ := expired_types hexpired ha
      · exact ⟨hkey, fun h => by rw [htype] at h; cases h⟩
      · exact ⟨hkey, fun h => by rw [htype] at h; cases h⟩
    · exact hother (only_volume hspikes) id ha

theorem not_share_lt {n : Nat} {share : ℚ} (hshare : 0 ≤ share) :
    ¬ ((([] : List KeyUsageEvent).length : ℚ) > n * share) := by
  simp only [List.length_nil, Nat.cast_zero, gt_iff_lt, not_lt]
  positivity

/-- Nothing is unusual against a pattern that was learned from the events themselves. -/
theorem nothing_unusual {historical : List KeyUsageEvent} {p : UsagePattern} {now : Time}
    (hpattern : x.pattern = some (p.learn x.lib historical now))
    (hsub : ∀ e ∈ x.events, e ∈ historical) :
    x.detectTimeAnomalies = [] ∧ x.detectIpAnomalies = [] ∧ x.detectUnusualOperations = [] := by
  have hcovers : ∀ e ∈ x.events, _ := fun e he => learn_covers x.lib p now (hsub e he)
  have htime : x.outsideNormalHours (p.learn x.lib historical now).commonTimeRanges = [] := by
    refine List.filter_eq_nil_iff.mpr fun e he => ?_
    simpa using (hcovers e he).2.2
  have hip : x.fromUnusualNetworks (p.learn x.lib historical now).commonIpRanges = [] := by
    refine List.filter_eq_nil_iff.mpr fun e he => ?_
    cases hn : ipNetwork e.sourceIp with
    | none => simp
    | some network => simpa using (hcovers e he).2.1 network hn
  have hops : x.events.filter
      (·.operation ∉ (p.learn x.lib historical now).commonOperations) = [] := by
    refine List.filter_eq_nil_iff.mpr fun e he => ?_
    simpa using (hcovers e he).1
  refine ⟨?_, ?_, ?_⟩
  · simp only [Analysis.detectTimeAnomalies, hpattern, htime]
    exact if_neg fun h => not_share_lt (by norm_num) h.2
  · simp only [Analysis.detectIpAnomalies, hpattern, hip]
    exact if_neg fun h => not_share_lt (by norm_num) h.2
  · simp only [Analysis.detectUnusualOperations, hpattern, hops]
    exact if_neg fun h => not_share_lt (by norm_num) h.2

end detectors

variable {m : Monitor} {now : Time}

/-- The events of the key in the last 24 hours. -/
def recent (m : Monitor) (keyId : String) (now : Time) : List KeyUsageEvent :=
  m.events.filter fun e => e.keyId = keyId ∧ Between (now - hours 24) now e

/-- The events of the key before the last 24 hours and inside the learning window. -/
def earlier (m : Monitor) (keyId : String) (now : Time) : List KeyUsageEvent :=
  m.events.filter fun e => e.keyId = keyId ∧
    e.timestamp.lt? (.utc (now - days m.learningWindowDays)) = some false ∧
    e.timestamp.lt? (.utc (now - hours 24)) = some true

theorem lookup_updatePattern (lib : Library) (patterns : Patterns) {historical : List KeyUsageEvent}
    (h : historical ≠ []) (now : Time) :
    ∃ p : UsagePattern, (updatePattern lib patterns keyId historical now).lookup keyId =
      some (p.learn lib historical now) := by
  simp only [updatePattern, h, if_false]
  exact ⟨_, Dict.lookup_set_self _ _ _⟩

/-- The analysis of a key leaves the events as they are; its alerts are for the key and, when the
key has earlier events, none of them is against the pattern. -/
theorem analyzeKey_spec (lib : Library) (now : Time) (clock : String → Time) (m : Monitor)
    (keyId : String) :
    (m.analyzeKey lib now clock keyId).1.events = m.events ∧
      (m.analyzeKey lib now clock keyId).1.learningWindowDays = m.learningWindowDays ∧
      ∀ a ∈ (m.analyzeKey lib now clock keyId).2, a.keyId = keyId ∧
        (earlier m keyId now ≠ [] → ¬ AgainstPattern a.anomalyType) := by
  have hnothing : ∀ m' : Monitor, m'.events = m.events →
      m'.learningWindowDays = m.learningWindowDays →
      (m', ([] : List KeyAnomalyAlert)).1.events = m.events ∧
        (m', ([] : List KeyAnomalyAlert)).1.learningWindowDays = m.learningWindowDays ∧
        ∀ a ∈ (m', ([] : List KeyAnomalyAlert)).2, a.keyId = keyId ∧
          (earlier m keyId now ≠ [] → ¬ AgainstPattern a.anomalyType) :=
    fun m' hevents hdays => ⟨hevents, hdays, List.forall_mem_nil _⟩
  unfold Monitor.analyzeKey
  split
  · exact hnothing m rfl rfl
  · exact hnothing m rfl rfl
  · next events hsome hrecent =>
    split
    · exact hnothing m rfl rfl
    · next historical hhistorical =>
      dsimp only
      split
      · exact hnothing _ rfl rfl
      · next alerts halerts =>
        refine ⟨rfl, rfl, fun a ha => ?_⟩
        obtain ⟨hkey, hsource⟩ := mem_detectAnomalies halerts ha
        refine ⟨hkey, fun hearlier hagainst => ?_⟩
        obtain ⟨old, hold⟩ := List.exists_mem_of_ne_nil _ hearlier
        obtain ⟨hmem, hold⟩ := List.mem_filter.mp hold
        have hold := of_decide_eq_true hold
        have hwindow : now - days m.learningWindowDays < now - hours 24 :=
          Stamp.lt_of_between hold.2.1 hold.2.2
        have hsub : ∀ e ∈ events, e ∈ historical := by
          intro e he
          obtain ⟨hmem, hkey, hbetween⟩ := (mem_getEventsForKey hrecent).mp he
          exact (mem_getEventsForKey hhistorical).mpr
            ⟨hmem, hkey, Stamp.not_lt_of_le hwindow.le hbetween.1, hbetween.2⟩
        have hne : historical ≠ [] := by
          obtain ⟨e, he⟩ := List.exists_mem_of_ne_nil events hsome
          exact List.ne_nil_of_mem (hsub e he)
        obtain ⟨p, hp⟩ := lookup_updatePattern lib m.patterns hne (clock keyId)
        obtain ⟨htime, hip, hops⟩ := @nothing_unusual ⟨lib, keyId, events, _, _, _, clock keyId⟩
          historical p (clock keyId) hp hsub
        rw [htime, hip, hops] at hsource
        rcases hsource hagainst with h | h | h <;> cases h

/-- The analysis of a list of keys. -/
theorem analyzeKeys_spec (lib : Library) (now : Time) (clock : String → Time) {keyId : String}
    (hearlier : earlier m keyId now ≠ []) (keys : List String)
    {acc : Monitor × List KeyAnomalyAlert} (hevents : acc.1.events = m.events)
    (hdays : acc.1.learningWindowDays = m.learningWindowDays)
    (halerts : ∀ a ∈ acc.2, a.keyId = keyId → ¬ AgainstPattern a.anomalyType) :
    ∀ a ∈ (keys.foldl (Monitor.analyzeNext lib now clock) acc).2,
      a.keyId = keyId → ¬ AgainstPattern a.anomalyType := by
  induction keys generalizing acc with
  | nil => exact halerts
  | cons k keys ih =>
    obtain ⟨hevents', hdays', hnew⟩ := analyzeKey_spec lib now clock acc.1 k
    refine ih (hevents'.trans hevents) (hdays'.trans hdays) fun a ha hkey => ?_
    rcases List.mem_append.mp ha with ha | ha
    · exact halerts a ha hkey
    · obtain ⟨hk, hnot⟩ := hnew a ha
      obtain rfl : k = keyId := hk.symm.trans hkey
      refine hnot ?_
      rwa [earlier, hevents, hdays]

/-- The analysis produces an alert of the type for the key. -/
def Produces (lib : Library) (now : Time) (clock : String → Time) (m : Monitor) (keyId : String)
    (type : AnomalyType) : Prop :=
  ∃ a ∈ (m.runPeriodicAnalysis lib now clock).2, a.keyId = keyId ∧ a.anomalyType = type

theorem not_produces (lib : Library) (now : Time) (clock : String → Time) {m : Monitor}
    {keyId : String} (hearlier : earlier m keyId now ≠ []) (type : AnomalyType)
    (htype : AgainstPattern type) : ¬ Produces lib now clock m keyId type := by
  rintro ⟨a, ha, hkey, rfl⟩
  exact @analyzeKeys_spec m lib now clock keyId hearlier _ (m, []) rfl rfl
    (List.forall_mem_nil _) a ha hkey htype

/-- More than a share of the recent events have a feature that none of the earlier ones has. -/
def Deviates {β : Type} [DecidableEq β] (m : Monitor) (keyId : String) (now : Time)
    (feature : KeyUsageEvent → Option β) (share : ℚ) : Prop :=
  let unseen := (recent m keyId now).filter fun e => (feature e).any fun b =>
    (earlier m keyId now).all fun e' => feature e' ≠ some b
  (unseen.length : ℚ) > (recent m keyId now).length * share

instance {β : Type} [DecidableEq β] {keyId : String} {feature : KeyUsageEvent → Option β}
    {share : ℚ} : Decidable (Deviates m keyId now feature share) :=
  inferInstanceAs (Decidable (_ > _))

/-- A registered key with earlier events and ten recent ones. -/
structure Watched (m : Monitor) (keyId : String) (now : Time) : Prop where
  registered : keyId ∈ m.keys.map (·.1)
  earlier : earlier m keyId now ≠ []
  recent : 10 ≤ (recent m keyId now).length

section

variable (lib : Library) (now : Time) (clock : String → Time) (m : Monitor) (keyId : String)

def HoursDeviate : Prop := Deviates m keyId now (fun e => some e.timestamp.hour) (3 / 10)

def NetworksDeviate : Prop := Deviates m keyId now (fun e => ipNetwork e.sourceIp) (1 / 5)

def OperationsDeviate : Prop := Deviates m keyId now (fun e => some e.operation) (1 / 2)

/-- The deviations of a key are reported exactly when there are none: no alert against the pattern
is ever produced for a key with earlier events. -/
theorem deviations_reported_iff :
    (Watched m keyId now →
      (HoursDeviate now m keyId → Produces lib now clock m keyId .timeAnomaly) ∧
      (NetworksDeviate now m keyId → Produces lib now clock m keyId .locationAnomaly) ∧
      (OperationsDeviate now m keyId → Produces lib now clock m keyId .patternDeviation)) ↔
      ¬ (Watched m keyId now ∧ (HoursDeviate now m keyId ∨ NetworksDeviate now m keyId ∨
        OperationsDeviate now m keyId)) := by
  constructor
  · rintro h ⟨hwatched, hdeviates⟩
    obtain ⟨htime, hlocation, hpattern⟩ := h hwatched
    rcases hdeviates with hd | hd | hd
    · exact not_produces lib now clock hwatched.earlier .timeAnomaly trivial (htime hd)
    · exact not_produces lib now clock hwatched.earlier .locationAnomaly trivial (hlocation hd)
    · exact not_produces lib now clock hwatched.earlier .patternDeviation trivial (hpattern hd)
  · intro h hwatched
    refine ⟨fun hd => ?_, fun hd => ?_, fun hd => ?_⟩
    · exact absurd ⟨hwatched, .inl hd⟩ h
    · exact absurd ⟨hwatched, .inr (.inl hd)⟩ h
    · exact absurd ⟨hwatched, .inr (.inr hd)⟩ h

end

/-- A key signs at noon, from inside. -/
def signed : KeyUsageEvent where
  eventId := "1"
  timestamp := .utc (days 95 + hours 12)
  keyId := "k"
  operation := .sign
  userId := "u"
  sourceIp := "10.0.0.1"

/-- It exports at three in the morning, from outside. -/
def exported : KeyUsageEvent where
  eventId := "2"
  timestamp := .utc (days 100 + hours 3)
  keyId := "k"
  operation := .export_
  userId := "u"
  sourceIp := "203.0.113.7"

def leak : Monitor where
  events := signed :: List.replicate 10 exported
  keys := [("k", { keyId := "k" })]

theorem leak_unreported : Watched leak "k" (days 101) ∧ HoursDeviate (days 101) leak "k" ∧
    NetworksDeviate (days 101) leak "k" ∧ OperationsDeviate (days 101) leak "k" ∧
    ∀ lib clock, ¬ Produces lib (days 101) clock leak "k" .timeAnomaly ∧
      ¬ Produces lib (days 101) clock leak "k" .locationAnomaly ∧
      ¬ Produces lib (days 101) clock leak "k" .patternDeviation := by
  have hearlier : earlier leak "k" (days 101) ≠ [] := by decide +kernel
  refine ⟨⟨by decide, hearlier, by decide +kernel⟩, ?_, ?_, ?_, fun lib clock => ⟨?_, ?_, ?_⟩⟩
  · unfold HoursDeviate
    decide +kernel
  · unfold NetworksDeviate
    decide +kernel
  · unfold OperationsDeviate
    decide +kernel
  · exact not_produces lib _ clock hearlier .timeAnomaly trivial
  · exact not_produces lib _ clock hearlier .locationAnomaly trivial
  · exact not_produces lib _ clock hearlier .patternDeviation trivial

end Marty.Security.Baseline
