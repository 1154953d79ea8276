import ZedBot.Notifications.Plans

/-! The notices over a cycle.

    The remaining time is rounded down to whole minutes before a bucket is picked. A scan within a
    minute that a threshold names is therefore early: the service is called expired, or the window is
    called entered, by less than a minute too soon. At every other instant the notices are truthful. -/

namespace ZedBot.Notifications

/-- What one scan sees of a service. -/
structure Scan where
  now : ℤ
  service : RuleServiceState
  panel : RulePanelState := {}
  deriving DecidableEq, Repr

/-- A scan of the service `id` in the cycle of an expiry and a quota. -/
structure Scan.InCycle (scan : Scan) (id : String) (expiresAt : Option ℤ) (volumeBytes : ℤ) : Prop where
  id : scan.service.id = id
  expiresAt : scan.service.expiresAt = expiresAt
  volumeBytes : scan.service.volumeBytes = volumeBytes

/-- The bucket of the expiry plan. -/
def Scan.expiryBucket (scan : Scan) (thresholds : List ExpiryThreshold) : Option ExpiryThreshold :=
  scan.service.expiresAt.bind fun e => pickExpiryBucket (minutesToExpiry e scan.now) thresholds

/-- The bucket of the traffic plan. -/
def Scan.trafficBucket (scan : Scan) (percents : List ℤ) : Option ℤ :=
  let usage := computeTrafficUsage scan.service.usedBytes scan.service.volumeBytes
  if usage.unlimited then none else pickTrafficBucket usage.rawPercent percents

/-- The usage has reached a percentage of the quota. -/
def Scan.Reached (scan : Scan) (pct : ℤ) : Prop :=
  0 < scan.service.volumeBytes ∧ pct * scan.service.volumeBytes ≤ 100 * scan.service.usedBytes

/-- The window of a threshold; the expired one has none left. -/
def ExpiryThreshold.window (t : ExpiryThreshold) : ℤ := t.minutesBefore.getD 0

/-- A scan is not within a minute that a threshold names, but for its last instant. -/
def Scan.Punctual (scan : Scan) (thresholds : List ExpiryThreshold) : Prop :=
  ∀ e, scan.service.expiresAt = some e → scan.now < e → (e - scan.now) % 60000 ≠ 0 →
    ∀ t ∈ thresholds, t.window ≠ (e - scan.now) / 60000

/-- What the notices of a cycle promise, and the keys of any two scans of its service. -/
structure NoticesTruthful (sha : Sha256) (hashed : Set String) (thresholds : List ExpiryThreshold)
    (percents : List ℤ) (trial : Bool) (scans : List Scan) : Prop where
  onTime : ∀ scan ∈ scans, ∀ e, scan.service.expiresAt = some e → ∀ plan,
    planExpiry sha scan.service scan.panel thresholds scan.now trial = some plan →
    (plan.type = .SERVICE_EXPIRED ∨ plan.type = .TRIAL_EXPIRED → e ≤ scan.now) ∧
    (plan.type = .SERVICE_EXPIRY ∨ plan.type = .TRIAL_NEAR_EXPIRY → scan.now < e)
  tightest : ∀ scan ∈ scans, ∀ e, scan.service.expiresAt = some e → ∀ t w,
    scan.expiryBucket thresholds = some t → t.minutesBefore = some w →
    e - scan.now ≤ w * 60000 ∧ ∀ t' ∈ thresholds, ∀ w', t'.minutesBefore = some w' →
      e - scan.now ≤ w' * 60000 → w ≤ w'
  narrowing : scans.Pairwise fun a b => ∀ t t', a.expiryBucket thresholds = some t →
    b.expiryBucket thresholds = some t' → t'.window ≤ t.window
  expiryKeys : ∀ a b : Scan, a.service.id = b.service.id →
    expiryCycleInput a.service.expiresAt ∈ hashed → expiryCycleInput b.service.expiresAt ∈ hashed →
    ∀ t t' p p', a.expiryBucket thresholds = some t → b.expiryBucket thresholds = some t' →
    planExpiry sha a.service a.panel thresholds a.now trial = some p →
    planExpiry sha b.service b.panel thresholds b.now trial = some p' →
    (p.dedupeKey = p'.dedupeKey ↔ a.service.expiresAt = b.service.expiresAt ∧ t = t')
  largest : ∀ scan ∈ scans,
    (∀ p, scan.trafficBucket percents = some p →
      p ∈ percents ∧ scan.Reached p ∧ ∀ q ∈ percents, scan.Reached q → q ≤ p) ∧
    (scan.trafficBucket percents = none → ∀ q ∈ percents, ¬ scan.Reached q)
  growing : scans.Pairwise fun a b => a.service.usedBytes ≤ b.service.usedBytes →
    ∀ p, a.trafficBucket percents = some p → ∃ q, b.trafficBucket percents = some q ∧ p ≤ q
  trafficKeys : ∀ a b : Scan, a.service.id = b.service.id →
    quotaCycleInput a.service.volumeBytes a.service.expiresAt ∈ hashed →
    quotaCycleInput b.service.volumeBytes b.service.expiresAt ∈ hashed →
    ∀ t t' p p', a.trafficBucket percents = some t → b.trafficBucket percents = some t' →
    planTraffic sha a.service a.panel percents a.now = some p →
    planTraffic sha b.service b.panel percents b.now = some p' →
    (p.dedupeKey = p'.dedupeKey ↔
      (a.service.volumeBytes = b.service.volumeBytes ∧ a.service.expiresAt = b.service.expiresAt) ∧
        t = t')

/-! ### The keys -/

section Keys

variable {sha : Sha256} {id key key' : String} {s s' : Option ℤ} {trial trial' : Bool}

theorem expiryDedupeKey_inj
    (h : expiryDedupeKey sha id key s trial = expiryDedupeKey sha id key' s' trial') :
    trial = trial' ∧ key = key' ∧ expiryCycleFingerprint sha s = expiryCycleFingerprint sha s' := by
  have hlist := congrArg String.toList h
  simp only [expiryDedupeKey, toString, String.toList_append, List.append_assoc] at hlist
  have hkind : ∀ trial : Bool, ':' ∉ (if trial then "trial" else "expiry").toList := by decide
  obtain ⟨htrial, hrest⟩ := split_at_separator (hkind trial) (hkind trial')
    (List.append_cancel_left (List.append_cancel_left (List.append_cancel_left hlist)))
  have hlength : (':' :: (expiryCycleFingerprint sha s).toList).length =
      (':' :: (expiryCycleFingerprint sha s').toList).length := by
    rw [List.length_cons, List.length_cons, expiryCycleFingerprint, expiryCycleFingerprint,
      length_shortHash, length_shortHash]
  have hrest : key.toList ++ ':' :: (expiryCycleFingerprint sha s).toList =
      key'.toList ++ ':' :: (expiryCycleFingerprint sha s').toList := hrest
  obtain ⟨hkey, hprint⟩ := List.append_inj' hrest hlength
  refine ⟨?_, String.toList_injective hkey, String.toList_injective (List.cons.inj hprint).2⟩
  revert htrial
  cases trial <;> cases trial' <;> decide

theorem trafficDedupeKey_inj {p p' v v' : ℤ}
    (h : trafficDedupeKey sha id p v s = trafficDedupeKey sha id p' v' s') :
    p = p' ∧ quotaCycleFingerprint sha v s = quotaCycleFingerprint sha v' s' := by
  have hlist := congrArg String.toList h
  simp only [trafficDedupeKey, String.toList_append, List.append_assoc] at hlist
  obtain ⟨hpct, hprint⟩ := split_at_separator (separator_notMem_int (by decide) (by decide))
    (separator_notMem_int (by decide) (by decide))
    (List.append_cancel_left (List.append_cancel_left (List.append_cancel_left hlist)))
  exact ⟨toString_int_inj (String.toList_injective hpct), String.toList_injective hprint⟩

end Keys

/-! ### What is planned -/

section Planned

variable {sha : Sha256} {scan : Scan} {thresholds : List ExpiryThreshold} {percents : List ℤ}
  {trial : Bool} {plan : NotificationPlan} {e : ℤ}

/-- A plan is made for its bucket. -/
theorem planExpiry_bucket (he : scan.service.expiresAt = some e)
    (h : planExpiry sha scan.service scan.panel thresholds scan.now trial = some plan) :
    ∃ t, scan.expiryBucket thresholds = some t ∧
      plan.dedupeKey = expiryDedupeKey sha scan.service.id t.key (some e) trial ∧
      plan.type = (if t.minutesBefore = none then if trial then .TRIAL_EXPIRED else .SERVICE_EXPIRED
        else if trial then .TRIAL_NEAR_EXPIRY else .SERVICE_EXPIRY) := by
  rw [planExpiry, he] at h
  obtain ⟨t, ht, rfl⟩ := Option.map_eq_some_iff.mp h
  refine ⟨t, ?_, rfl, by simp⟩
  rw [Scan.expiryBucket, he]
  exact ht

theorem planTraffic_bucket
    (h : planTraffic sha scan.service scan.panel percents scan.now = some plan) :
    ∃ t, scan.trafficBucket percents = some t ∧ plan.dedupeKey =
      trafficDedupeKey sha scan.service.id t scan.service.volumeBytes scan.service.expiresAt := by
  rw [planTraffic] at h
  split at h
  · cases h
  · rename_i hlimited
    obtain ⟨t, ht, rfl⟩ := Option.map_eq_some_iff.mp h
    refine ⟨t, ?_, rfl⟩
    rw [Scan.trafficBucket, if_neg hlimited, ht]

/-- The bucket of a scan: the expired threshold, or the tightest window of the whole minutes. -/
theorem expiryBucket_cases (he : scan.service.expiresAt = some e) {t : ExpiryThreshold}
    (h : scan.expiryBucket thresholds = some t) :
    (minutesToExpiry e scan.now ≤ 0 ∧ t ∈ thresholds ∧ t.minutesBefore = none) ∨
      0 < minutesToExpiry e scan.now ∧ ∃ w, Tightest (minutesToExpiry e scan.now) thresholds t w := by
  rw [Scan.expiryBucket, he, Option.bind_some] at h
  by_cases hm : minutesToExpiry e scan.now ≤ 0
  · rw [pickExpiryBucket, if_pos hm] at h
    have hfound := List.find?_some h
    exact .inl ⟨hm, List.mem_of_find?_eq_some h, of_decide_eq_true hfound⟩
  · rw [not_le] at hm
    exact .inr ⟨hm, (pickExpiryBucket_spec hm thresholds).1 t h⟩

/-- A punctual scan of a valid list plans what is true at its instant. -/
theorem onTime_of_punctual (hpunctual : scan.Punctual thresholds)
    (he : scan.service.expiresAt = some e)
    (h : planExpiry sha scan.service scan.panel thresholds scan.now trial = some plan) :
    (plan.type = .SERVICE_EXPIRED ∨ plan.type = .TRIAL_EXPIRED → e ≤ scan.now) ∧
    (plan.type = .SERVICE_EXPIRY ∨ plan.type = .TRIAL_NEAR_EXPIRY → scan.now < e) := by
  obtain ⟨t, ht, -, htype⟩ := planExpiry_bucket he h
  rcases expiryBucket_cases he ht with ⟨hm, hmem, hnone⟩ | ⟨hm, w, hw⟩
  · rw [if_pos hnone] at htype
    refine ⟨fun _ => ?_, fun hpre => ?_⟩
    · by_contra hlt
      have hlt : scan.now < e := not_le.mp hlt
      rw [minutesToExpiry] at hm
      refine hpunctual e he hlt (by omega) t hmem ?_
      rw [ExpiryThreshold.window, hnone, Option.getD_none]
      omega
    · rw [htype] at hpre
      cases trial <;> simp at hpre
  · rw [if_neg (by rw [hw.window]; exact nofun)] at htype
    refine ⟨fun hexpired => ?_, fun _ => ?_⟩
    · rw [htype] at hexpired
      cases trial <;> simp at hexpired
    · rw [minutesToExpiry] at hm
      omega

theorem tightest_of_punctual (hpunctual : scan.Punctual thresholds)
    (he : scan.service.expiresAt = some e) {t : ExpiryThreshold} {w : ℤ}
    (h : scan.expiryBucket thresholds = some t) (hw : t.minutesBefore = some w) :
    e - scan.now ≤ w * 60000 ∧ ∀ t' ∈ thresholds, ∀ w', t'.minutesBefore = some w' →
      e - scan.now ≤ w' * 60000 → w ≤ w' := by
  rcases expiryBucket_cases he h with ⟨-, -, hnone⟩ | ⟨hm, v, hv⟩
  · rw [hnone] at hw
    cases hw
  obtain rfl : v = w := by
    have hwindow := hv.window
    rw [hw] at hwindow
    cases hwindow
    rfl
  have hentered := hv.entered
  rw [minutesToExpiry] at hm hentered
  refine ⟨?_, fun t' ht' w' hw' hle => hv.tightest t' ht' w' hw' ?_⟩
  · by_contra hgt
    refine hpunctual e he (by omega) (by omega) t hv.mem ?_
    rw [ExpiryThreshold.window, hw, Option.getD_some]
    omega
  · rw [minutesToExpiry]
    omega

/-- A scan that plans what is true, of the tightest window, is punctual. -/
theorem punctual_of_truthful (hvalid : ValidThresholds thresholds)
    (hontime : ∀ e, scan.service.expiresAt = some e → ∀ plan,
      planExpiry sha scan.service scan.panel thresholds scan.now trial = some plan →
      (plan.type = .SERVICE_EXPIRED ∨ plan.type = .TRIAL_EXPIRED → e ≤ scan.now))
    (htight : ∀ e, scan.service.expiresAt = some e → ∀ t w,
      scan.expiryBucket thresholds = some t → t.minutesBefore = some w →
      e - scan.now ≤ w * 60000) : scan.Punctual thresholds := by
  intro e he hlt hmod t hmem hwindow
  by_cases hm : minutesToExpiry e scan.now ≤ 0
  · -- within the last minute the expired threshold is picked
    have hnone : t.minutesBefore = none := by
      cases hw : t.minutesBefore with
      | none => rfl
      | some w =>
        have hpos := hvalid.positive t hmem w hw
        rw [ExpiryThreshold.window, hw, Option.getD_some] at hwindow
        rw [minutesToExpiry] at hm
        omega
    obtain ⟨b, hb⟩ : ∃ b, pickExpiryBucket (minutesToExpiry e scan.now) thresholds = some b := by
      rw [pickExpiryBucket, if_pos hm]
      exact Option.isSome_iff_exists.mp (List.find?_isSome.mpr ⟨t, hmem, decide_eq_true hnone⟩)
    obtain ⟨plan, hplan⟩ : ∃ plan,
        planExpiry sha scan.service scan.panel thresholds scan.now trial = some plan := by
      simp only [planExpiry, he, hb, Option.map_some]
      exact ⟨_, rfl⟩
    obtain ⟨b', hb', -, htype⟩ := planExpiry_bucket he hplan
    have hexpired : b'.minutesBefore = none := by
      rcases expiryBucket_cases he hb' with ⟨-, -, hn⟩ | ⟨hpos, -⟩
      · exact hn
      · omega
    rw [if_pos hexpired] at htype
    have hle := hontime e he plan hplan (by rw [htype]; cases trial <;> simp)
    omega
  · -- the window of exactly the whole minutes is picked before it is entered
    rw [not_le] at hm
    have hwindow' : t.minutesBefore = some (minutesToExpiry e scan.now) := by
      cases hw : t.minutesBefore with
      | none =>
        rw [ExpiryThreshold.window, hw, Option.getD_none] at hwindow
        rw [minutesToExpiry] at hm
        omega
      | some w =>
        rw [ExpiryThreshold.window, hw, Option.getD_some] at hwindow
        rw [hwindow, minutesToExpiry]
    obtain ⟨hsome, hnone⟩ := pickExpiryBucket_spec hm thresholds
    cases hb : pickExpiryBucket (minutesToExpiry e scan.now) thresholds with
    | none => exact lt_irrefl _ (hnone hb t hmem _ hwindow')
    | some b =>
      obtain ⟨w, hw⟩ := hsome b hb
      have hle := hw.tightest t hmem _ hwindow' (le_refl _)
      have hcontains := htight e he b w (by rw [Scan.expiryBucket, he]; exact hb) hw.window
      rw [minutesToExpiry] at hle
      omega

end Planned

/-! ### A sequence of scans -/

section Scans

variable {a b : Scan} {thresholds : List ExpiryThreshold} {percents : List ℤ}

/-- STEP: a later scan of the cycle does not return to a wider window. -/
theorem narrowing_step (hvalid : ValidThresholds thresholds) (hnow : a.now ≤ b.now)
    (hcycle : b.service.expiresAt = a.service.expiresAt) {t t' : ExpiryThreshold}
    (ht : a.expiryBucket thresholds = some t) (ht' : b.expiryBucket thresholds = some t') :
    t'.window ≤ t.window := by
  obtain ⟨e, he, -⟩ := Option.bind_eq_some_iff.mp ht
  have hminutes : minutesToExpiry e b.now ≤ minutesToExpiry e a.now := by
    rw [minutesToExpiry, minutesToExpiry]
    omega
  have hwindow : ∀ {t : ExpiryThreshold} {w : ℤ}, t.minutesBefore = some w → t.window = w :=
    fun h => by rw [ExpiryThreshold.window, h, Option.getD_some]
  have hnonneg : ∀ t ∈ thresholds, 0 ≤ t.window := by
    intro t hmem
    cases hw : t.minutesBefore with
    | none => rw [ExpiryThreshold.window, hw, Option.getD_none]
    | some w =>
      rw [hwindow hw]
      exact (hvalid.positive t hmem w hw).le
  rcases expiryBucket_cases (hcycle.trans he) ht' with ⟨-, -, hnone⟩ | ⟨hb, w', hw'⟩
  · rw [ExpiryThreshold.window, hnone, Option.getD_none]
    rcases expiryBucket_cases he ht with ⟨-, hmem, -⟩ | ⟨-, w, hw⟩
    · exact hnonneg t hmem
    · exact hnonneg t hw.mem
  · rcases expiryBucket_cases he ht with ⟨ha, -, -⟩ | ⟨-, w, hw⟩
    · omega
    · rw [hwindow hw.window, hwindow hw'.window]
      exact hw'.tightest t hw.mem w hw.window (hminutes.trans hw.entered)

/-- The percentage of the usage reaches a positive threshold where the usage does. -/
theorem le_rawPercent_iff {scan : Scan} {pct : ℤ} (hvolume : 0 < scan.service.volumeBytes)
    (hpct : 0 < pct) :
    pct ≤ (computeTrafficUsage scan.service.usedBytes scan.service.volumeBytes).rawPercent ↔
      scan.Reached pct := by
  rw [computeTrafficUsage, if_neg (not_le.mpr hvolume), Scan.Reached]
  dsimp only
  rw [Int.le_ediv_iff_mul_le hvolume]
  have hpos : 0 < pct * scan.service.volumeBytes := Int.mul_pos hpct hvolume
  split
  · constructor
    · intro h
      omega
    · rintro ⟨-, h⟩
      omega
  · constructor
    · intro h
      exact ⟨hvolume, by omega⟩
    · rintro ⟨-, h⟩
      omega

theorem trafficBucket_spec {scan : Scan} (hpercents : ∀ q ∈ percents, 0 < q) :
    (∀ p, scan.trafficBucket percents = some p →
      p ∈ percents ∧ scan.Reached p ∧ ∀ q ∈ percents, scan.Reached q → q ≤ p) ∧
    (scan.trafficBucket percents = none → ∀ q ∈ percents, ¬ scan.Reached q) := by
  rw [Scan.trafficBucket]
  by_cases hvolume : 0 < scan.service.volumeBytes
  · have hlimited :
        (computeTrafficUsage scan.service.usedBytes scan.service.volumeBytes).unlimited = false := by
      rw [computeTrafficUsage, if_neg (not_le.mpr hvolume)]
    rw [hlimited, if_neg Bool.false_ne_true]
    obtain ⟨hsome, hnone⟩ := pickTrafficBucket_spec
      (computeTrafficUsage scan.service.usedBytes scan.service.volumeBytes).rawPercent percents
    refine ⟨fun p hp => ?_, fun hp q hq hreached => ?_⟩
    · obtain ⟨hmem, hle, hmax⟩ := hsome p hp
      refine ⟨hmem, (le_rawPercent_iff hvolume (hpercents p hmem)).mp hle, fun q hq hreached => ?_⟩
      exact hmax q hq ((le_rawPercent_iff hvolume (hpercents q hq)).mpr hreached)
    · have hlt := hnone hp q hq
      have hle := (le_rawPercent_iff hvolume (hpercents q hq)).mpr hreached
      omega
  · have hunlimited :
        (computeTrafficUsage scan.service.usedBytes scan.service.volumeBytes).unlimited = true := by
      rw [computeTrafficUsage, if_pos (not_lt.mp hvolume)]
    rw [hunlimited, if_pos rfl]
    exact ⟨nofun, fun _ q _ hreached => hvolume hreached.1⟩

/-- STEP: the bucket does not fall while the usage grows. -/
theorem growing_step (hpercents : ∀ q ∈ percents, 0 < q)
    (hvolume : b.service.volumeBytes = a.service.volumeBytes)
    (hused : a.service.usedBytes ≤ b.service.usedBytes) {p : ℤ}
    (hp : a.trafficBucket percents = some p) :
    ∃ q, b.trafficBucket percents = some q ∧ p ≤ q := by
  obtain ⟨hmem, ⟨hpos, hle⟩, -⟩ := (trafficBucket_spec hpercents).1 p hp
  have hreached : b.Reached p := ⟨by rw [hvolume]; exact hpos, by rw [hvolume]; omega⟩
  cases hb : b.trafficBucket percents with
  | none => exact absurd hreached ((trafficBucket_spec hpercents).2 hb p hmem)
  | some q => exact ⟨q, rfl, ((trafficBucket_spec hpercents).1 q hb).2.2 p hmem hreached⟩

end Scans

/-- TRUTHFUL NOTICES: the notices of a cycle are truthful and their buckets monotone, and their keys
    name cycle and bucket, exactly where no scan falls within a minute that a threshold names. -/
theorem notices_truthful_iff (sha : Sha256) (hashed : Set String)
    (hdistinct : Set.InjOn (shortHash sha) hashed) (raw rawTraffic : Option String)
    (fallback : List ExpiryThreshold)
    (hfallback : fallback = DEFAULT_EXPIRY_THRESHOLDS ∨ fallback = DEFAULT_TRIAL_THRESHOLDS)
    (trial : Bool) (id : String) (expiresAt : Option ℤ) (volumeBytes : ℤ) (scans : List Scan)
    (hcycle : ∀ scan ∈ scans, scan.InCycle id expiresAt volumeBytes)
    (hsorted : scans.Pairwise fun a b => a.now ≤ b.now) :
    NoticesTruthful sha hashed (parseExpiryThresholds raw fallback)
        (parseTrafficThresholds rawTraffic DEFAULT_TRAFFIC_THRESHOLDS) trial scans ↔
      ∀ scan ∈ scans, scan.Punctual (parseExpiryThresholds raw fallback) := by
  have hvalid : ValidThresholds (parseExpiryThresholds raw fallback) := by
    refine parseExpiryThresholds_valid ?_
    rcases hfallback with rfl | rfl
    · exact default_thresholds_valid.1
    · exact default_thresholds_valid.2
  have hpercents := fun q => @parseTrafficThresholds_pos rawTraffic q
  constructor
  · intro h scan hscan
    refine punctual_of_truthful hvalid
      (fun e he plan hplan => (h.onTime scan hscan e he plan hplan).1)
      (fun e he t w ht hw => (h.tightest scan hscan e he t w ht hw).1)
  · intro hpunctual
    refine ⟨fun scan hscan e he plan hplan => onTime_of_punctual (hpunctual scan hscan) he hplan,
      fun scan hscan e he t w ht hw => tightest_of_punctual (hpunctual scan hscan) he ht hw,
      ?_, ?_, fun scan _ => trafficBucket_spec hpercents, ?_, ?_⟩
    · refine hsorted.imp_of_mem fun {a b} ha hb hnow t t' ht ht' => ?_
      refine narrowing_step hvalid hnow ?_ ht ht'
      rw [(hcycle a ha).expiresAt, (hcycle b hb).expiresAt]
    · intro a b hid ha hb t t' p p' ht ht' hp hp'
      obtain ⟨e, he, -⟩ := Option.bind_eq_some_iff.mp ht
      obtain ⟨e', he', -⟩ := Option.bind_eq_some_iff.mp ht'
      obtain ⟨u, hu, hkey, -⟩ := planExpiry_bucket he hp
      obtain ⟨u', hu', hkey', -⟩ := planExpiry_bucket he' hp'
      rw [ht] at hu
      rw [ht'] at hu'
      cases hu
      cases hu'
      have hmem : ∀ {scan : Scan} {e t}, scan.service.expiresAt = some e →
          scan.expiryBucket (parseExpiryThresholds raw fallback) = some t →
          t ∈ parseExpiryThresholds raw fallback := by
        intro scan e t he ht
        rcases expiryBucket_cases he ht with ⟨-, hmem, -⟩ | ⟨-, w, hw⟩
        · exact hmem
        · exact hw.mem
      rw [hkey, hkey', hid, ← he, ← he']
      constructor
      · intro h
        obtain ⟨-, hkeys, hprint⟩ := expiryDedupeKey_inj h
        exact ⟨expiryCycleInput_inj (hdistinct ha hb hprint),
          List.inj_on_of_nodup_map hvalid.keys (hmem he ht) (hmem he' ht') hkeys⟩
      · rintro ⟨hexpires, rfl⟩
        rw [hexpires]
    · refine hsorted.imp_of_mem fun {a b} ha hb _ hused p hp => growing_step hpercents ?_ hused hp
      rw [(hcycle a ha).volumeBytes, (hcycle b hb).volumeBytes]
    · intro a b hid ha hb t t' p p' ht ht' hp hp'
      obtain ⟨u, hu, hkey⟩ := planTraffic_bucket hp
      obtain ⟨u', hu', hkey'⟩ := planTraffic_bucket hp'
      rw [ht] at hu
      rw [ht'] at hu'
      cases hu
      cases hu'
      rw [hkey, hkey', hid]
      constructor
      · intro h
        obtain ⟨rfl, hprint⟩ := trafficDedupeKey_inj h
        exact ⟨quotaCycleInput_inj (hdistinct ha hb hprint), rfl⟩
      · rintro ⟨⟨hvolume, hexpires⟩, rfl⟩
        rw [hvolume, hexpires]

/-! ### The last minute -/

/-- The digests of the two inputs of one cycle. -/
def cycleDigest : Sha256 where
  hex s :=
    if s = "expiry|86400000" then
      "5efe02a5e13b2ed6b43e7575e1bf0f249798d36f8779eaa9cc85606d6f40b007"
    else "9468fb6fa237eb9b218f63bd3bc1b386fb5f6c34226b45f9fef88b6212b6fa3a"
  length_hex s := by
    split <;> decide

def cycleInputs : Set String := {"expiry|86400000", "quota|1000|86400000"}

/-- A service that expires at the end of the first day, seen so many milliseconds before. -/
def scanBefore (left : ℤ) : Scan where
  now := 86400000 - left
  service :=
    { id := "s1", username := "u1", volumeBytes := 1000, usedBytes := 900,
      expiresAt := some 86400000 }

theorem cycleDigest_injOn : Set.InjOn (shortHash cycleDigest) cycleInputs := by
  have hne : shortHash cycleDigest "expiry|86400000" ≠ shortHash cycleDigest "quota|1000|86400000" := by
    decide +kernel
  rintro a (rfl | rfl) b (rfl | rfl) h
  · rfl
  · exact (hne h).elim
  · exact (hne h.symm).elim
  · rfl

/-- Three hours before the expiry to the millisecond, and just after it. -/
theorem notices_truthful_two_scans : NoticesTruthful cycleDigest cycleInputs
    (parseExpiryThresholds none DEFAULT_EXPIRY_THRESHOLDS)
    (parseTrafficThresholds none DEFAULT_TRAFFIC_THRESHOLDS) false
    [scanBefore 10800000, scanBefore (-1)] := by
  refine (notices_truthful_iff cycleDigest cycleInputs cycleDigest_injOn none none _ (.inl rfl) false
    "s1" (some 86400000) 1000 [scanBefore 10800000, scanBefore (-1)] ?_ ?_).mpr ?_
  · intro scan hscan
    simp only [List.mem_cons, List.not_mem_nil, or_false] at hscan
    rcases hscan with rfl | rfl <;> exact ⟨rfl, rfl, rfl⟩
  · simp [scanBefore]
  · intro scan hscan e he hlt hmod
    simp only [List.mem_cons, List.not_mem_nil, or_false] at hscan
    rcases hscan with rfl | rfl
    · cases he
      exact absurd rfl hmod
    · cases he
      exact absurd hlt (by decide)

/-- Half a minute before the expiry the service is called expired. -/
theorem expired_too_early :
    (planExpiry cycleDigest (scanBefore 30000).service {} DEFAULT_EXPIRY_THRESHOLDS
      (scanBefore 30000).now false).map (·.type) = some .SERVICE_EXPIRED ∧
    (scanBefore 30000).now < 86400000 ∧
    ¬ NoticesTruthful cycleDigest cycleInputs (parseExpiryThresholds none DEFAULT_EXPIRY_THRESHOLDS)
      (parseTrafficThresholds none DEFAULT_TRAFFIC_THRESHOLDS) false [scanBefore 30000] := by
  have hplanned : (planExpiry cycleDigest (scanBefore 30000).service {} DEFAULT_EXPIRY_THRESHOLDS
      (scanBefore 30000).now false).map (·.type) = some .SERVICE_EXPIRED := rfl
  refine ⟨hplanned, by decide, fun h => ?_⟩
  obtain ⟨plan, hplan, htype⟩ := Option.map_eq_some_iff.mp hplanned
  have hle := (h.onTime _ (.head _) 86400000 rfl plan hplan).1 (.inl htype)
  exact absurd hle (by decide)

end ZedBot.Notifications
