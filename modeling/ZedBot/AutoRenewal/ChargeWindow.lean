import ZedBot.AutoRenewal.Execute

/-! The window of the charge.

    A notice is scheduled before the charge, and a deferral that would come later drops it, so that
    the gate never waits for a schedule; behind the cap it waits for nothing. An attempt is created
    in the charge window, and a debit is its execution. The grace is checked by the scan alone: the
    debits are inside it where no execution comes later.

        expiry - lead        cap                       expiry + grace
        ────┼─────────────────┼──────────────────────────────┼────▶
            due: the gate     the gate proceeds              the scan gives up -/

namespace ZedBot.AutoRenewal

variable {c : MandateCycle} {s s' : System} {now : ℤ}

/-! ### The gate -/

/-- A notice of the cycle: it is scheduled for the charge at the latest, and is stale from there. -/
structure Fits (c : MandateCycle) (n : AutomatedNotification) : Prop where
  scheduledFor : n.scheduledFor ≤ c.expectedChargeAt
  availableUntil : n.availableUntil = some c.expectedChargeAt

/-- A notice that is still to be delivered. -/
def Pending (notice : Option AutomatedNotificationStatus) : Prop :=
  notice = some .SCHEDULED ∨ notice = some .READY ∨ notice = some .SENDING

theorem due_iff : isAutoRenewalDue (some c.expiresAtEpoch) now c.chargeLeadMinutes = true ↔
    c.expectedChargeAt ≤ now := by
  rw [isAutoRenewalDue, decide_eq_true_eq, MandateCycle.expectedChargeAt]
  omega

theorem waitForDelivery_defer {until_ : ℤ}
    (h : waitForDelivery c.expectedChargeAt now = .defer until_) : until_ ≤ c.cap := by
  rw [waitForDelivery] at h
  split_ifs at h
  rw [← PrechargeGateDecision.defer.inj h, MandateCycle.cap]
  exact Int.min_le_right _ _

theorem waitForDelivery_proceed {reason : Option GateReason}
    (h : waitForDelivery c.expectedChargeAt now = .proceed reason) : c.cap ≤ now := by
  rw [waitForDelivery] at h
  split_ifs at h with hcap
  exact hcap

/-- In the charge window the gate waits until the cap at the latest. -/
theorem gate_defer {notice : Option AutomatedNotification} (hfits : ∀ n ∈ notice, Fits c n)
    (hdue : c.expectedChargeAt ≤ now) {minutes : ℕ} {until_ : ℤ}
    (h : evaluateAutoRenewalPrechargeGate notice c.expectedChargeAt minutes now = .defer until_) :
    until_ ≤ c.cap := by
  by_cases hminutes : minutes = 0
  · simp only [evaluateAutoRenewalPrechargeGate, if_pos hminutes] at h
    cases h
  cases notice with
  | none =>
    simp only [evaluateAutoRenewalPrechargeGate, if_neg hminutes] at h
    cases h
  | some n =>
    have hscheduled : ¬ now < n.scheduledFor := by
      have hle := (hfits n rfl).scheduledFor
      omega
    simp only [evaluateAutoRenewalPrechargeGate, if_neg hminutes, if_neg hscheduled] at h
    cases hstatus : n.status <;> simp only [hstatus] at h
    case SCHEDULED | READY | SENDING => exact waitForDelivery_defer h
    all_goals cases h

/-- The gate lets a pending notice pass from the cap on only. -/
theorem gate_proceed {notice : Option AutomatedNotification} {minutes : ℕ}
    (hdisabled : minutes = 0 → notice = none) {reason : Option GateReason}
    (h : evaluateAutoRenewalPrechargeGate notice c.expectedChargeAt minutes now = .proceed reason)
    (hpending : Pending (notice.map (·.status))) : c.cap ≤ now := by
  cases notice with
  | none => rcases hpending with h | h | h <;> cases h
  | some n =>
    have hminutes : minutes ≠ 0 := fun hzero => nomatch hdisabled hzero
    simp only [evaluateAutoRenewalPrechargeGate, if_neg hminutes] at h
    rcases hpending with hstatus | hstatus | hstatus
    · replace hstatus : n.status = .SCHEDULED := Option.some.inj hstatus
      rw [hstatus] at h
      dsimp only at h
      split_ifs at h
      exact waitForDelivery_proceed h
    · replace hstatus : n.status = .READY := Option.some.inj hstatus
      rw [hstatus] at h
      exact waitForDelivery_proceed h
    · replace hstatus : n.status = .SENDING := Option.some.inj hstatus
      rw [hstatus] at h
      exact waitForDelivery_proceed h

/-! ### The invariant -/

structure Sound (c : MandateCycle) (s : System) : Prop where
  disabled : c.prechargeNoticeMinutes = 0 → s.notice = none
  notice : ∀ n ∈ s.notice, Fits c n
  attempt : s.attempt ≠ none → c.expectedChargeAt ≤ s.clock
  created : ∀ x ∈ s.created, Pending x.notice → c.cap ≤ x.createdAt
  debits : ∀ d ∈ s.debits, c.expectedChargeAt ≤ d ∧ d ≤ c.graceEnd

/-- A step that moves the mandate, the live expiry or the columns of the attempt. -/
structure Keeps (s s' : System) : Prop where
  clock : s'.clock = s.clock
  notice : s'.notice = s.notice
  attempt : s'.attempt ≠ none → s.attempt ≠ none
  created : s'.created = s.created
  debits : s'.debits = s.debits

namespace Keeps

theorem refl (s : System) : Keeps s s := ⟨rfl, rfl, id, rfl, rfl⟩

theorem trans {s'' : System} (h : Keeps s s') (h' : Keeps s' s'') : Keeps s s'' :=
  ⟨h'.clock.trans h.clock, h'.notice.trans h.notice, fun hne => h.attempt (h'.attempt hne),
    h'.created.trans h.created, h'.debits.trans h.debits⟩

theorem updateActive (s : System) (data : ServiceAutoRenewalMandate → ServiceAutoRenewalMandate) :
    Keeps s (s.updateActive data) := by
  rw [System.updateActive]
  split_ifs
  · exact ⟨rfl, rfl, id, rfl, rfl⟩
  · exact .refl s

theorem pauseMandate (s : System) : Keeps s s.pauseMandate := updateActive s _

theorem deferMandate (s : System) (nextEvaluationAt : ℤ) :
    Keeps s (s.deferMandate nextEvaluationAt) := updateActive s _

theorem updateAttempt (s : System) (now : ℤ)
    (data : ServiceAutoRenewalAttempt → ServiceAutoRenewalAttempt) :
    Keeps s (s.updateAttempt now data) := by
  refine ⟨rfl, rfl, fun hne hnone => hne ?_, rfl, rfl⟩
  rw [System.updateAttempt, hnone, Option.map_none]

theorem transitionAttempt (s : System) (now : ℤ) (status : AutoRenewalAttemptStatus) :
    Keeps s (s.transitionAttempt now status) := updateAttempt s now _

theorem sound (h : Keeps s s') (hs : Sound c s) : Sound c s' where
  disabled hminutes := h.notice.trans (hs.disabled hminutes)
  notice := h.notice ▸ hs.notice
  attempt hne := h.clock ▸ hs.attempt (h.attempt hne)
  created := h.created ▸ hs.created
  debits := h.debits ▸ hs.debits

end Keeps

/-- A step of the notice alone. -/
theorem Sound.updateNotice (h : Sound c s) {data : AutomatedNotification → AutomatedNotification}
    (hdata : ∀ n, Fits c n → Fits c (data n)) : Sound c (s.updateNotice data) := by
  refine ⟨fun hminutes => ?_, fun n hn => ?_, h.attempt, h.created, h.debits⟩
  · rw [System.updateNotice, h.disabled hminutes, Option.map_none]
  · obtain ⟨m, hm, rfl⟩ := Option.map_eq_some_iff.mp hn
    exact hdata m (h.notice m hm)

/-! ### The steps -/

theorem ensure_sound (h : Sound c s) (o : ScanOracle) (expiresAt : ℤ) :
    Sound c (ensureAutoRenewalPrechargeNotice c s o expiresAt now).1 := by
  have hstale : Sound c (cancelStaleUpcomingNotices s) :=
    h.updateNotice fun n hn => by split_ifs <;> exact ⟨hn.scheduledFor, hn.availableUntil⟩
  simp only [ensureAutoRenewalPrechargeNotice]
  generalize hschedule : resolveAutoRenewalNoticeSchedule (some expiresAt) c.chargeLeadMinutes
    c.prechargeNoticeMinutes now = schedule
  cases hkind : schedule.kind with
  | disabled | missed => exact h
  | scheduled | catchUp =>
    dsimp only
    split
    · rename_i scheduledFor expectedChargeAt hfor hat
      have hnew : expiresAt = c.expiresAtEpoch → Sound c { s with
          notice := some { scheduledFor, availableUntil := some expectedChargeAt } } := by
        intro hcycle
        rw [← hschedule, hcycle] at hfor hat
        obtain ⟨hminutes, hcharge, hle⟩ := noticeSchedule_before hfor
        rw [hcharge] at hat
        refine ⟨fun hzero => (hminutes hzero).elim, fun n hn => ?_, h.attempt, h.created, h.debits⟩
        rw [← Option.some.inj hn]
        exact ⟨hle, hat.symm⟩
      split_ifs <;> first | exact h | exact hstale | exact hnew ‹_›
    · exact h

theorem evaluateNotDue_sound (h : Sound c s) (o : ScanOracle) (expiresAt : ℤ) :
    Sound c (evaluateNotDue c s o expiresAt now).1 := by
  rw [evaluateNotDue]
  split_ifs
  · exact (Keeps.deferMandate s _).sound h
  · exact (Keeps.deferMandate _ _).sound (ensure_sound h o expiresAt)

/-- The attempt is created in the charge window, and the gate has let it pass. -/
theorem createAttempt_sound (h : Sound c s) (hclock : s.clock = now)
    (hdue : c.expectedChargeAt ≤ now) (o : ScanOracle) (expiresAt : ℤ) :
    Sound c (createAttempt c s o expiresAt now).1 := by
  have hdeferred : ∀ t, Sound c (s.deferMandate t) := fun t => (Keeps.deferMandate s t).sound h
  rw [createAttempt]
  by_cases hother : expiresAt ≠ c.expiresAtEpoch
  · rw [if_pos hother]
    cases o.otherDeferred <;> exact hdeferred _
  rw [if_neg hother]
  cases hgate : evaluateAutoRenewalPrechargeGate s.notice c.expectedChargeAt
    c.prechargeNoticeMinutes now with
  | defer until_ => exact hdeferred until_
  | proceed reason =>
    by_cases hthrows : o.createThrows = true
    · simp only [if_pos hthrows]
      exact h
    simp only [if_neg hthrows]
    have hrest := hdeferred (now + UNCERTAIN_RETRY_MS)
    have hkeeps := Keeps.deferMandate s (now + UNCERTAIN_RETRY_MS)
    cases s.attempt with
    | none =>
      refine ⟨hrest.disabled, hrest.notice, fun _ => ?_, fun x hx hpending => ?_, hrest.debits⟩
      · change c.expectedChargeAt ≤ (s.deferMandate (now + UNCERTAIN_RETRY_MS)).clock
        rw [hkeeps.clock, hclock]
        exact hdue
      · rcases List.mem_cons.mp hx with rfl | hx
        · exact gate_proceed h.disabled hgate hpending
        · exact h.created x hx hpending
    | some existing =>
      exact ⟨hrest.disabled, hrest.notice, hrest.attempt, hrest.created, hrest.debits⟩

/-- SCAN. -/
theorem evaluateMandate_sound (h : Sound c s) (hclock : s.clock = now) (o : ScanOracle) :
    Sound c (evaluateMandate c s o now).1 := by
  have hpaused : Sound c s.pauseMandate := (Keeps.pauseMandate s).sound h
  have hdeferred : ∀ t, Sound c (s.deferMandate t) := fun t => (Keeps.deferMandate s t).sound h
  rw [evaluateMandate]
  split
  · exact hpaused
  split
  · exact hpaused
  · rename_i expiresAt hexpires
    by_cases hdue : ¬ isAutoRenewalDue (some expiresAt) now c.chargeLeadMinutes = true
    · rw [if_pos hdue]
      exact evaluateNotDue_sound h o expiresAt
    rw [if_neg hdue]
    have hcreate : Sound c (createAttempt c s o expiresAt now).1 := by
      by_cases hcycle : expiresAt = c.expiresAtEpoch
      · rw [not_not, hcycle, due_iff] at hdue
        exact createAttempt_sound h hclock hdue o expiresAt
      · rw [createAttempt, if_pos hcycle]
        cases o.otherDeferred <;> exact hdeferred _
    split_ifs <;> first | exact hdeferred _ | exact hpaused | exact hcreate

theorem finishFulfillment_keeps (s : System) (dispatch : DispatchResult) (now : ℤ) :
    Keeps s (finishFulfillment s dispatch now).1 := by
  cases dispatch with
  | renewed expiresAt =>
    have hattempt := Keeps.transitionAttempt s now .COMPLETED
    exact ⟨rfl, rfl, hattempt.attempt, rfl, rfl⟩
  | refunded =>
    have hattempt := Keeps.transitionAttempt s now .FAILED
    rw [finishFulfillment]
    split_ifs
    · exact hattempt.trans (Keeps.pauseMandate _)
    · dsimp only
      exact hattempt.trans (Keeps.updateActive _ _)
  | uncertain => exact (Keeps.transitionAttempt s now _).trans (Keeps.pauseMandate _)

theorem fulfill_keeps (s : System) (o : ExecuteOracle) (now : ℤ) :
    Keeps s (fulfill s o now).1 := by
  have hrecorded := Keeps.transitionAttempt s now .PAYMENT_CREATED
  have hfulfilling := hrecorded.trans (Keeps.transitionAttempt _ now .FULFILLING)
  rw [fulfill]
  split_ifs
  · exact .refl s
  · exact hrecorded
  · exact hfulfilling
  · exact hfulfilling.trans (finishFulfillment_keeps _ _ _)

theorem handleInsufficientBalance_keeps (c : MandateCycle) (s : System)
    (attempt : ServiceAutoRenewalAttempt) (now : ℤ) :
    Keeps s (handleInsufficientBalance c s attempt now).1 := by
  have hpaused : Keeps s (s.pauseMandate.transitionAttempt now .INSUFFICIENT_BALANCE) :=
    (Keeps.pauseMandate s).trans (Keeps.transitionAttempt _ now _)
  rw [handleInsufficientBalance]
  split
  · split_ifs
    · exact (Keeps.updateAttempt s now _).trans (Keeps.deferMandate _ _)
    · exact hpaused
  · exact hpaused

theorem afterPayment_keeps (c : MandateCycle) (s : System) (outcome : WalletOutcome)
    (attempt : ServiceAutoRenewalAttempt) (o : ExecuteOracle) (now : ℤ) :
    Keeps s (afterPayment c s outcome attempt o now).1 := by
  cases outcome with
  | priceAboveLimit | planInvalid =>
    exact (Keeps.pauseMandate s).trans (Keeps.transitionAttempt _ now _)
  | walletDisabled | error => exact Keeps.updateAttempt s now _
  | insufficientBalance => exact handleInsufficientBalance_keeps c s attempt now
  | settled | alreadySettled => exact fulfill_keeps s o now

/-- The settlement debits at most once, at the instant of the execution. -/
theorem pay_cases (c : MandateCycle) (s : System) (o : ExecuteOracle) (now : ℤ) :
    (payAutoRenewalWithWallet c s o now).1 = s ∨
      (payAutoRenewalWithWallet c s o now).1 = { s with debits := [now] } := by
  rw [payAutoRenewalWithWallet]
  split_ifs
  all_goals first | exact .inl rfl | exact .inr rfl

/-- An execution that may come to a debit. -/
def Chargeable (c : MandateCycle) (s : System) (now : ℤ) : Prop :=
  (∃ attempt ∈ s.attempt, isClaimable attempt now = true) ∧ s.mandate.status = .ACTIVE ∧
    s.expiresAt = some c.expiresAtEpoch

/-- A claimed attempt is executed without a debit, or with one where the mandate is active and the
    cycle is the live one. -/
theorem runClaimedAttempt_keeps (c : MandateCycle) (s : System)
    (attempt : ServiceAutoRenewalAttempt) (o : ExecuteOracle) (now : ℤ) :
    Keeps s (runClaimedAttempt c s attempt o now).1 ∨
      (s.mandate.status = .ACTIVE ∧ s.expiresAt = some c.expiresAtEpoch ∧
        Keeps { s with debits := [now] } (runClaimedAttempt c s attempt o now).1) := by
  have hpaused : ∀ status, Keeps s (s.pauseMandate.transitionAttempt now status) := fun status =>
    (Keeps.pauseMandate s).trans (Keeps.transitionAttempt _ now status)
  rw [runClaimedAttempt]
  split_ifs with hcrash hactive hineligible hcycle hplan hprice
  · exact .inl (.refl s)
  · exact .inl (Keeps.transitionAttempt s now _)
  · exact .inl (hpaused _)
  · exact .inl ((Keeps.transitionAttempt s now _).trans (Keeps.deferMandate _ _))
  · exact .inl (hpaused _)
  · exact .inl (hpaused _)
  · dsimp only
    rcases pay_cases c s o now with hsame | hdebit
    · rw [hsame]
      exact .inl (afterPayment_keeps c s _ attempt o now)
    · rw [hdebit]
      exact .inr ⟨not_not.mp hactive, not_not.mp hcycle, afterPayment_keeps c _ _ attempt o now⟩

/-- EXECUTE: a debit is the execution of an attempt that is due, inside the grace. -/
theorem execute_sound (h : Sound c s) (hclock : s.clock = now) (o : ExecuteOracle)
    (hgrace : now ≤ c.graceEnd ∨ ¬ Chargeable c s now) :
    Sound c (executeAutoRenewalAttempt c s o now).1 := by
  rw [executeAutoRenewalAttempt]
  cases hattempt : s.attempt with
  | none => exact h
  | some attempt =>
    dsimp only
    split_ifs with hstatus hclaimable henabled
    · exact h
    · have hclaimed := Keeps.transitionAttempt s now .CLAIMED
      rcases runClaimedAttempt_keeps c (s.transitionAttempt now .CLAIMED) attempt o now with
        hkeeps | ⟨hactive, hlive, hkeeps⟩
      · exact (hclaimed.trans hkeeps).sound h
      · have hin : now ≤ c.graceEnd := hgrace.resolve_right fun hnot =>
          hnot ⟨⟨attempt, hattempt, hclaimable⟩, hactive, hlive⟩
        have hdue : c.expectedChargeAt ≤ now := by
          rw [← hclock]
          refine h.attempt ?_
          rw [hattempt]
          exact Option.some_ne_none attempt
        have hsound := hclaimed.sound h
        refine hkeeps.sound ⟨hsound.disabled, hsound.notice, hsound.attempt, hsound.created, ?_⟩
        intro d hd
        rw [List.mem_singleton.mp hd]
        exact ⟨hdue, hin⟩
    · exact h
    · exact h

/-! ### The notice -/

theorem deferOrSuppress_fits {n : AutomatedNotification} (h : Fits c n) (when_ : ℤ) :
    Fits c (deferOrSuppress n when_) := by
  rw [deferOrSuppress]
  split_ifs with hlate
  · exact ⟨h.scheduledFor, h.availableUntil⟩
  · refine ⟨?_, h.availableUntil⟩
    rw [h.availableUntil, Option.any_some, decide_eq_true_eq] at hlate
    change when_ ≤ c.expectedChargeAt
    omega

theorem sendNotice_fits {n : AutomatedNotification} (h : Fits c n) (o : DeliveryOracle) (now : ℤ) :
    Fits c (sendNotice n o now) := by
  rw [sendNotice]
  split_ifs <;> exact ⟨h.scheduledFor, h.availableUntil⟩

/-- DELIVER: a notice that waits waits for an instant before the charge. -/
theorem deliverNotice_fits {n : AutomatedNotification} (h : Fits c n) (s : System)
    (o : DeliveryOracle) (now : ℤ) : Fits c (deliverNotice c s n o now) := by
  rw [deliverNotice]
  split_ifs
  · exact h
  · exact ⟨h.scheduledFor, h.availableUntil⟩
  · exact ⟨h.scheduledFor, h.availableUntil⟩
  · split
    · exact ⟨h.scheduledFor, h.availableUntil⟩
    · split
      · exact deferOrSuppress_fits h _
      · exact deferOrSuppress_fits h _
      · exact sendNotice_fits h o now

theorem recoverOrphan_fits {n : AutomatedNotification} (h : Fits c n) (now : ℤ) :
    Fits c (recoverOrphan n now) := by
  rw [recoverOrphan]
  split_ifs
  · exact ⟨h.scheduledFor, h.availableUntil⟩
  · exact h

theorem reconcile_keeps (c : MandateCycle) (s : System) (now : ℤ) :
    Keeps s (runAutoRenewalReconcile c s now) := by
  rw [runAutoRenewalReconcile]
  split
  · exact .refl s
  · split_ifs
    · exact Keeps.transitionAttempt s now _
    · exact ⟨rfl, rfl, id, rfl, rfl⟩
    · exact .refl s

theorem cleanup_keeps (c : MandateCycle) (s : System) (now : ℤ) :
    Keeps s (runAutoRenewalCleanup c s now) := by
  rw [runAutoRenewalCleanup]
  split
  · exact .refl s
  · split_ifs
    · exact ⟨rfl, rfl, fun hne => (hne rfl).elim, rfl, rfl⟩
    · exact .refl s

theorem cancelMandate_sound (h : Sound c s) (now : ℤ) : Sound c (cancelMandate s now) := by
  rw [cancelMandate]
  split_ifs
  · exact h
  · have hcancelled : Keeps s
        { s with mandate := { s.mandate with status := .CANCELLED, nextEvaluationAt := none } } :=
      ⟨rfl, rfl, id, rfl, rfl⟩
    refine ((hcancelled.trans (Keeps.updateAttempt _ now _)).sound h).updateNotice fun n hn => ?_
    split_ifs
    · exact ⟨hn.scheduledFor, hn.availableUntil⟩
    · exact hn

theorem resume_keeps (s : System) (now : ℤ) : Keeps s (resumeMandateByUser s now) := by
  rw [resumeMandateByUser]
  split_ifs
  · exact ⟨rfl, rfl, id, rfl, rfl⟩
  · exact .refl s

theorem adminStop_keeps (s : System) (cancel : Bool) : Keeps s (adminStopMandate s cancel) := by
  rw [adminStopMandate]
  split_ifs
  · exact ⟨rfl, rfl, id, rfl, rfl⟩
  · exact Keeps.updateActive s _

/-! ### Runs -/

/-- An execution later than the grace does not find the attempt due, the mandate active and the
    cycle live at once. -/
def InGrace (c : MandateCycle) (s : System) (now : ℤ) : Event → Prop
  | .execute _ _ => now ≤ c.graceEnd ∨ ¬ Chargeable c s now
  | _ => True

theorem Sound.tick (h : Sound c s) (hle : s.clock ≤ now) : Sound c { s with clock := now } :=
  ⟨h.disabled, h.notice, fun hne => Int.le_trans (h.attempt hne) hle, h.created, h.debits⟩

/-- STEP: what an event does at an instant keeps the invariant. -/
theorem Sound.apply (h : Sound c s) (hclock : s.clock = now) {e : Event}
    (hgrace : InGrace c s now e) (hs : s.apply c now e = some s') : Sound c s' := by
  cases e with
  | scan o =>
    rw [System.apply] at hs
    split_ifs at hs
    rw [← Option.some.inj hs]
    exact evaluateMandate_sound h hclock o
  | reconcile =>
    rw [← Option.some.inj hs]
    exact (reconcile_keeps c s now).sound h
  | cleanup =>
    rw [← Option.some.inj hs]
    exact (cleanup_keeps c s now).sound h
  | execute o stalled =>
    rw [System.apply] at hs
    split_ifs at hs
    rw [← Option.some.inj hs]
    have hjob : Keeps s { s with job := stalled } := ⟨rfl, rfl, id, rfl, rfl⟩
    exact execute_sound (hjob.sound h) hclock o hgrace
  | deliver o =>
    rw [← Option.some.inj hs]
    exact h.updateNotice fun n hn => deliverNotice_fits hn s o now
  | answer result =>
    rw [System.apply] at hs
    cases hnotice : s.notice with
    | none =>
      rw [hnotice] at hs
      cases hs
    | some n =>
      rw [hnotice] at hs
      dsimp only at hs
      split_ifs at hs
      rw [← Option.some.inj hs]
      have hn := h.notice n hnotice
      have hsome : s.notice ≠ none := by
        rw [hnotice]
        exact Option.some_ne_none n
      refine ⟨fun hzero => (hsome (h.disabled hzero)).elim, fun m hm => ?_, h.attempt, h.created,
        h.debits⟩
      rw [← Option.some.inj hm]
      exact ⟨hn.scheduledFor, hn.availableUntil⟩
  | recover =>
    rw [← Option.some.inj hs]
    exact h.updateNotice fun n hn => recoverOrphan_fits hn now
  | expireNoticeRow =>
    rw [System.apply] at hs
    split at hs
    · split_ifs at hs
      rw [← Option.some.inj hs]
      exact ⟨fun _ => rfl, nofun, h.attempt, h.created, h.debits⟩
    · cases hs
  | cancel =>
    rw [← Option.some.inj hs]
    exact cancelMandate_sound h now
  | pause =>
    rw [← Option.some.inj hs]
    exact (Keeps.updateActive s _).sound h
  | resume =>
    rw [← Option.some.inj hs]
    exact (resume_keeps s now).sound h
  | adminStop cancel =>
    rw [← Option.some.inj hs]
    exact (adminStop_keeps s cancel).sound h
  | sync expiresAt =>
    rw [← Option.some.inj hs]
    exact ⟨h.disabled, h.notice, h.attempt, h.created, h.debits⟩

theorem Sound.step (h : Sound c s) {e : Event} (hgrace : InGrace c s now e)
    (hs : s.step c now e = some s') : Sound c s' := by
  rw [System.step] at hs
  split_ifs at hs with hle
  refine (h.tick hle).apply rfl ?_ hs
  cases e <;> exact hgrace

/-- RUN. -/
theorem Sound.reached (h : Sound c s) (hrun : System.Reaches c (InGrace c) s s') : Sound c s' := by
  induction hrun with
  | refl => exact h
  | tail now e _ hgrace hs ih => exact ih.step hgrace hs

/-- A cycle that nothing has happened to. -/
structure Fresh (s : System) : Prop where
  notice : s.notice = none
  attempt : s.attempt = none
  created : s.created = []
  debits : s.debits = []

theorem Fresh.sound (h : Fresh s) (c : MandateCycle) : Sound c s where
  disabled _ := h.notice
  notice n hn := by
    rw [h.notice] at hn
    cases hn
  attempt hne := (hne h.attempt).elim
  created x hx := by
    rw [h.created] at hx
    cases hx
  debits d hd := by
    rw [h.debits] at hd
    cases hd

/-- What the cycle promises: no attempt is created while its notice is pending before the cap, the
    gate does not wait beyond the cap, and the debits are in the window of the charge. -/
structure Timely (c : MandateCycle) (s : System) : Prop where
  created : ∀ x ∈ s.created, Pending x.notice → c.cap ≤ x.createdAt
  deferred : ∀ now until_, isAutoRenewalDue (some c.expiresAtEpoch) now c.chargeLeadMinutes = true →
    evaluateAutoRenewalPrechargeGate s.notice c.expectedChargeAt c.prechargeNoticeMinutes now =
      .defer until_ → until_ ≤ c.cap
  debits : ∀ d ∈ s.debits, c.expectedChargeAt ≤ d ∧ d ≤ c.graceEnd

theorem Sound.timely (h : Sound c s) : Timely c s where
  created := h.created
  deferred _ _ hdue hgate := gate_defer h.notice (due_iff.mp hdue) hgate
  debits := h.debits

/-- Where no execution comes later than the grace to an attempt that is due, the cycle is timely. -/
theorem charge_in_window (c : MandateCycle) (hfresh : Fresh s)
    (hrun : System.Reaches c (InGrace c) s s') : Timely c s' :=
  ((hfresh.sound c).reached hrun).timely

/-- The default settings, for a service that expires at the hundredth hour. -/
def defaultCycle : MandateCycle where
  expiresAtEpoch := 100 * HOUR_MS
  chargeLeadMinutes := 180
  maximumChargeToman := 1000
  prechargeNoticeMinutes := 1440
  graceHours := 48
  insufficientRetryIntervalsMinutes := [0, 360, 1440]
  maxAttemptsPerCycle := 3
  attemptRetentionDays := 365

def freshSystem : System := { clock := 0, expiresAt := some (100 * HOUR_MS) }

theorem freshSystem_fresh : Fresh freshSystem := ⟨rfl, rfl, rfl, rfl⟩

/-- The notice is created and sent, the wallet is empty at the charge, and a retry succeeds. -/
def timelyEvents : List (ℤ × Event) :=
  [(0, .scan {}), (73 * HOUR_MS, .deliver {}), (73 * HOUR_MS, .answer .sent),
    (97 * HOUR_MS, .scan {}), (97 * HOUR_MS, .execute { balanceCovers := false } false),
    (103 * HOUR_MS, .scan {}), (103 * HOUR_MS, .execute { balanceCovers := true } false)]

theorem reaches_of_exec {P : System → ℤ → Event → Prop} (es : List (ℤ × Event))
    (hP : ∀ e ∈ es, ∀ x, P x e.1 e.2) {start : System} (hstart : System.Reaches c P start s)
    (h : s.exec c es = some s') : System.Reaches c P start s' := by
  induction es generalizing s with
  | nil =>
    rw [← Option.some.inj h]
    exact hstart
  | cons e es ih =>
    obtain ⟨next, hstep, hrest⟩ := Option.bind_eq_some_iff.mp h
    exact ih (fun e' he' => hP e' (.tail _ he')) (hstart.tail e.1 e.2 (hP e (.head _) s) hstep) hrest

theorem charge_in_window_retry : ∃ s', freshSystem.exec defaultCycle timelyEvents = some s' ∧
    s'.debits = [103 * HOUR_MS] ∧ Timely defaultCycle s' := by
  refine ⟨_, rfl, by decide, charge_in_window defaultCycle freshSystem_fresh
    (reaches_of_exec timelyEvents (fun e he x => ?_) .refl rfl)⟩
  simp only [timelyEvents, List.mem_cons, List.not_mem_nil, or_false] at he
  rcases he with rfl | rfl | rfl | rfl | rfl | rfl | rfl
  all_goals first | trivial | exact .inl (by decide)

/-- A late attempt: the retry after an empty wallet comes when the grace is over. -/
def lateEvents : List (ℤ × Event) :=
  [(147 * HOUR_MS, .scan {}), (147 * HOUR_MS, .execute { balanceCovers := false } false),
    (153 * HOUR_MS, .reconcile), (153 * HOUR_MS, .execute { balanceCovers := true } false)]

theorem late_debit : Fresh freshSystem ∧ ∃ s',
    freshSystem.exec defaultCycle lateEvents = some s' ∧
      s'.debits = [153 * HOUR_MS] ∧ ¬ Timely defaultCycle s' := by
  refine ⟨freshSystem_fresh, _, rfl, by decide, fun h => ?_⟩
  have hgrace := (h.debits (153 * HOUR_MS) (by decide)).2
  revert hgrace
  decide

end ZedBot.AutoRenewal
