import ZedBot.Winback.Eligibility

/-! Win-back notifications over a lapse cycle.

    Each scan of a customer sends at most one notification, and puts its stage to those sent in the
    cycle. Whatever the scans find and when they come, the stages sent go up, each is the highest one
    overdue at its moment, there are at most so many, and none is sent to a customer who is blocked.

        scan:   30 days ── 40 ── 95 ── 200
        sent:   30         –     90    –       (60 is never sent after 90) -/

namespace ZedBot.Winback

variable {snapshot : CustomerLifecycleSnapshot} {config : WinbackConfig} {now : ℤ}
  {stageDays sent : List ℤ} {inactiveDays d : ℤ}

/-! ### The stage that is due -/

theorem le_maxSentOf {s : ℤ} (hs : s ∈ sent) : s ≤ maxSentOf sent := by
  rw [maxSentOf]
  cases hmax : sent.max? with
  | none =>
    rw [List.max?_eq_none_iff] at hmax
    rw [hmax] at hs
    cases hs
  | some m => exact (List.max?_eq_some_iff.mp hmax).2 s hs

/-- What the selection has found among the stages it has gone through. -/
structure Selected (inactiveDays maxSent : ℤ) (seen : List ℤ) (target : Option ℤ) : Prop where
  found : ∀ t ∈ target, t ∈ seen ∧ t ≤ inactiveDays ∧ maxSent < t
  highest : ∀ d ∈ seen, d ≤ inactiveDays → maxSent < d → ∃ t ∈ target, d ≤ t

theorem selected_foldl (inactiveDays maxSent : ℤ) (stages seen : List ℤ) (target : Option ℤ)
    (h : Selected inactiveDays maxSent seen target) :
    Selected inactiveDays maxSent (seen ++ stages) (stages.foldl (fun target d =>
      if d ≤ inactiveDays ∧ maxSent < d then some (target.elim d (max · d)) else target) target) := by
  induction stages generalizing seen target with
  | nil => rwa [List.append_nil]
  | cons d stages ih =>
    rw [List.foldl_cons, List.append_cons]
    refine ih (seen ++ [d]) _ ?_
    split_ifs with hd
    · refine ⟨fun t ht => ?_, fun e he hle hlt => ⟨_, rfl, ?_⟩⟩
      · obtain rfl := Option.mem_some_iff.mp ht
        cases target with
        | none => exact ⟨List.mem_append_right _ (List.mem_singleton_self d), hd⟩
        | some t =>
          rcases max_choice t d with heq | heq
          · obtain ⟨hmem, hrest⟩ := h.found t rfl
            rw [Option.elim_some, heq]
            exact ⟨List.mem_append_left _ hmem, hrest⟩
          · rw [Option.elim_some, heq]
            exact ⟨List.mem_append_right _ (List.mem_singleton_self d), hd⟩
      · rcases List.mem_append.mp he with he | he
        · obtain ⟨t, rfl, het⟩ := h.highest e he hle hlt
          exact le_max_of_le_left het
        · rw [List.mem_singleton.mp he]
          cases target with
          | none => exact le_refl d
          | some t => exact le_max_right t d
    · refine ⟨fun t ht => ?_, fun e he hle hlt => ?_⟩
      · obtain ⟨hmem, hrest⟩ := h.found t ht
        exact ⟨List.mem_append_left _ hmem, hrest⟩
      · rcases List.mem_append.mp he with he | he
        · exact h.highest e he hle hlt
        · rw [List.mem_singleton.mp he] at hle hlt
          exact absurd ⟨hle, hlt⟩ hd

/-- The stage that is selected is the highest overdue one, and above every stage sent. -/
theorem selectWinbackStage_some (h : selectWinbackStage stageDays inactiveDays sent = some d) :
    d ∈ stageDays ∧ d ≤ inactiveDays ∧ (∀ s ∈ sent, s < d) ∧
      ∀ e ∈ stageDays, e ≤ inactiveDays → e ≤ d := by
  have hselected : Selected inactiveDays (maxSentOf sent) stageDays
      (selectWinbackStage stageDays inactiveDays sent) :=
    selected_foldl inactiveDays (maxSentOf sent) stageDays [] none ⟨nofun, nofun⟩
  rw [h] at hselected
  obtain ⟨hmem, hle, hlt⟩ := hselected.found d rfl
  refine ⟨hmem, hle, fun s hs => lt_of_le_of_lt (le_maxSentOf hs) hlt, fun e he hoverdue => ?_⟩
  rcases lt_or_ge (maxSentOf sent) e with hnew | hold
  · obtain ⟨t, ht, het⟩ := hselected.highest e he hoverdue hnew
    obtain rfl := Option.mem_some_iff.mp ht
    exact het
  · exact le_of_lt (lt_of_le_of_lt hold hlt)

/-! ### A customer who is blocked -/

/-- No condition holds under which nothing may be sent. -/
structure Free (config : WinbackConfig) (snapshot : CustomerLifecycleSnapshot) (now : ℤ) : Prop where
  active : snapshot.userStatus = "ACTIVE"
  group : snapshot.userGroup ∈ config.allowedUserGroups
  optedIn : snapshot.marketingMessagesEnabled = true
  awake : ∀ t ∈ snapshot.winbackSnoozedUntil, t ≤ now
  settled : snapshot.hasOpenFinancialReconciliation = false ∧ snapshot.hasPendingReceiptReview = false
  notBuying : snapshot.hasResumableCheckout = false ∧ snapshot.hasProvisioningService = false ∧
    snapshot.hasUnresolvedProvisioningOrder = false
  noService : snapshot.hasUsablePaidService = false ∧ snapshot.hasUncertainPaidService = false
  noTrial : snapshot.hasActiveTrial = false ∧ snapshot.hasTrialProvisioning = false

/-- A branch that blocks was not taken. -/
theorem not_of_reason {c : Prop} [Decidable c] {a b : CustomerLifecycleSegment}
    {r : WinbackExclusionReason} (ha : SEGMENT_REASON a = some r)
    (h : SEGMENT_REASON (if c then a else b) = none) : ¬ c ∧ SEGMENT_REASON b = none := by
  by_cases hc : c
  · rw [if_pos hc, ha] at h
    cases h
  · rw [if_neg hc] at h
    exact ⟨hc, h⟩

/-- A segment without a reason to block is that of a customer who is free. -/
theorem free_of_segment
    (h : SEGMENT_REASON (resolveCustomerLifecycleSegment snapshot config now) = none) :
    Free config snapshot now := by
  rw [resolveCustomerLifecycleSegment] at h
  obtain ⟨hactive, h⟩ := not_of_reason rfl h
  obtain ⟨hgroup, h⟩ := not_of_reason rfl h
  by_cases hpaying : (!isPayingCustomer snapshot config) = true
  · rw [if_pos hpaying] at h
    exact absurd (not_of_reason rfl h).2 (by decide)
  rw [if_neg hpaying] at h
  obtain ⟨hopted, h⟩ := not_of_reason rfl h
  obtain ⟨hsnoozed, h⟩ := not_of_reason rfl h
  obtain ⟨hhold, h⟩ := not_of_reason rfl h
  obtain ⟨hbuying, h⟩ := not_of_reason rfl h
  obtain ⟨husable, h⟩ := not_of_reason rfl h
  obtain ⟨huncertain, -⟩ := not_of_reason rfl h
  simp only [Bool.or_eq_true, not_or, Bool.not_eq_true] at hhold hbuying
  obtain ⟨⟨⟨⟨hcheckout, hprovisioning⟩, horder⟩, hactiveTrial⟩, htrialProvisioning⟩ := hbuying
  refine ⟨not_not.mp hactive, not_not.mp hgroup, ?_, fun t ht => ?_, hhold, ⟨hcheckout,
    hprovisioning, horder⟩, ⟨Bool.not_eq_true _ ▸ husable, Bool.not_eq_true _ ▸ huncertain⟩,
    hactiveTrial, htrialProvisioning⟩
  · simpa using hopted
  · rw [Option.mem_def.mp ht] at hsnoozed
    simpa using hsnoozed

/-! ### Scans -/

/-- A notification of a cycle: who got it and when, and its stage. -/
structure Sending where
  snapshot : CustomerLifecycleSnapshot
  now : ℤ
  stageDays : ℤ
  inactiveDays : ℤ

/-- A scan: the snapshot is completed by what was sent in the cycle. -/
def scan (config : WinbackConfig) (sent : List Sending) (at_ : CustomerLifecycleSnapshot × ℤ) :
    List Sending :=
  let snapshot :=
    { at_.1 with
      existingCycleNotificationCount := sent.length
      sentStageDaysThisCycle := sent.map Sending.stageDays }
  match evaluateCustomerWinbackEligibility snapshot config at_.2 with
  | .eligible _ stageDays inactiveDays => sent ++ [⟨snapshot, at_.2, stageDays, inactiveDays⟩]
  | .excluded _ _ => sent

/-- The notifications of a cycle after the scans. -/
def sentAfter (config : WinbackConfig) (scans : List (CustomerLifecycleSnapshot × ℤ)) : List Sending :=
  scans.foldl (scan config) []

/-- What holds of the notifications of a cycle. -/
structure Staged (config : WinbackConfig) (sent : List Sending) : Prop where
  ascending : (sent.map Sending.stageDays).Pairwise (· < ·)
  configured : ∀ x ∈ sent, x.stageDays ∈ config.stageDays
  overdue : ∀ x ∈ sent, resolveCustomerInactiveDays x.snapshot x.now = some x.inactiveDays ∧
    x.stageDays ≤ x.inactiveDays
  highest : ∀ x ∈ sent, ∀ d ∈ config.stageDays, d ≤ x.inactiveDays → d ≤ x.stageDays
  few : sent.length ≤ config.maximumNotificationsPerLapseCycle
  free : ∀ x ∈ sent, Free config x.snapshot x.now

/-- Who is eligible is free, has a stage that is due, and has not got too many notifications. -/
theorem evaluate_eligible {segment : CustomerLifecycleSegment} {stage : ℤ}
    (h : evaluateCustomerWinbackEligibility snapshot config now =
      .eligible segment stage inactiveDays) :
    Free config snapshot now ∧
      snapshot.existingCycleNotificationCount < config.maximumNotificationsPerLapseCycle ∧
      resolveCustomerInactiveDays snapshot now = some inactiveDays ∧
      selectWinbackStage config.stageDays inactiveDays snapshot.sentStageDaysThisCycle =
        some stage := by
  rw [evaluateCustomerWinbackEligibility] at h
  split at h
  · cases h
  · rename_i hreason
    split_ifs at h with hcron hmost
    split at h
    · cases h
    · rename_i days hdays
      split at h
      · cases h
      · rename_i found hfound
        cases h
        exact ⟨free_of_segment hreason, not_le.mp hmost, hdays, hfound⟩

/-- STEP: a scan keeps the notifications of a cycle staged. -/
theorem scan_staged {sendings : List Sending} (h : Staged config sendings)
    (at_ : CustomerLifecycleSnapshot × ℤ) : Staged config (scan config sendings at_) := by
  rw [scan]
  split
  · rename_i segment stage days heligible
    obtain ⟨hfree, hmost, hdays, hstage⟩ := evaluate_eligible heligible
    obtain ⟨hmem, hoverdue, hnew, hhighest⟩ := selectWinbackStage_some hstage
    refine ⟨?_, ?_, ?_, ?_, ?_, ?_⟩
    · rw [List.map_append, List.pairwise_append]
      refine ⟨h.ascending, List.pairwise_singleton _ _, fun a ha b hb => ?_⟩
      rw [List.mem_singleton.mp hb]
      exact hnew a ha
    · exact List.forall_mem_append.mpr ⟨h.configured, List.forall_mem_singleton.mpr hmem⟩
    · exact List.forall_mem_append.mpr ⟨h.overdue, List.forall_mem_singleton.mpr ⟨hdays, hoverdue⟩⟩
    · exact List.forall_mem_append.mpr ⟨h.highest, List.forall_mem_singleton.mpr hhighest⟩
    · rw [List.length_append, List.length_singleton]
      push_cast
      exact hmost
    · exact List.forall_mem_append.mpr ⟨h.free, List.forall_mem_singleton.mpr hfree⟩
  · exact h

/-- RUN: the notifications of a cycle are staged, for every configuration that is read. -/
theorem winback_staged (raw : Raw) {fallback : WinbackConfig} (hfallback : ValidConfig fallback)
    (scans : List (CustomerLifecycleSnapshot × ℤ)) :
    Staged (parseWinbackConfig raw fallback) (sentAfter (parseWinbackConfig raw fallback) scans) := by
  have hvalid := parse_valid raw hfallback
  generalize parseWinbackConfig raw fallback = config at hvalid
  have hfew : ((([] : List Sending).length : ℕ) : ℤ) ≤ config.maximumNotificationsPerLapseCycle := by
    have hmost := hvalid.most.1
    rw [List.length_nil]
    omega
  have hrun : ∀ sendings, Staged config sendings → Staged config (scans.foldl (scan config) sendings) := by
    induction scans with
    | nil => exact fun _ h => h
    | cons at_ scans ih => exact fun sendings h => ih _ (scan_staged h at_)
  exact hrun [] ⟨List.Pairwise.nil, by simp, by simp, by simp, hfew, by simp⟩

/-- A customer whose last service ended at instant 0. -/
def lapsedCustomer : CustomerLifecycleSnapshot where
  userStatus := "ACTIVE"
  userGroup := "F"
  cronNotificationsEnabled := true
  marketingMessagesEnabled := true
  completedPaidServiceOrderCount := 1
  lifetimePaidServiceSpendToman := 0
  hasUsablePaidService := false
  hasUncertainPaidService := false
  hasProvisioningService := false
  latestPaidServiceEffectiveEndAt := some 0
  hasActiveTrial := false
  hasTrialProvisioning := false
  hasResumableCheckout := false
  hasPendingReceiptReview := false
  hasOpenFinancialReconciliation := false
  hasUnresolvedProvisioningOrder := false
  winbackSnoozedUntil := none
  existingCycleNotificationCount := 0
  sentStageDaysThisCycle := []

/-- Scans after 35, 40, 95 and 200 days. -/
def fourScans : List (CustomerLifecycleSnapshot × ℤ) :=
  [35, 40, 95, 200].map fun days => (lapsedCustomer, days * DAY_MS)

theorem winback_staged_four :
    (sentAfter (parseWinbackConfig (.text "") DEFAULT_WINBACK_CONFIG) fourScans).map
        Sending.stageDays = [30, 90] ∧
      Staged (parseWinbackConfig (.text "") DEFAULT_WINBACK_CONFIG)
        (sentAfter (parseWinbackConfig (.text "") DEFAULT_WINBACK_CONFIG) fourScans) :=
  ⟨by decide +kernel, winback_staged (.text "") default_valid fourScans⟩

end ZedBot.Winback
