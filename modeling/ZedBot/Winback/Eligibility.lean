import ZedBot.Winback.Config

/-! The win-back decision: the lifecycle segment of a customer, the stage that is due, and whether a
    notification is sent. Times are milliseconds. -/

namespace ZedBot.Winback

inductive CustomerLifecycleSegment where
  | ACTIVE_CUSTOMER
  | RECENTLY_LAPSED
  | LAPSED_STAGE_1
  | LAPSED_STAGE_2
  | LAPSED_STAGE_3
  | NEVER_PAID
  | TRIAL_ONLY
  | PURCHASE_IN_PROGRESS
  | FINANCIAL_HOLD
  | SERVICE_STATE_UNCERTAIN
  | MARKETING_OPT_OUT
  | WINBACK_SNOOZED
  | INELIGIBLE_USER_GROUP
  | INELIGIBLE_USER_STATUS
  deriving DecidableEq, Repr

structure CustomerLifecycleSnapshot where
  userStatus : String
  userGroup : String
  cronNotificationsEnabled : Bool
  marketingMessagesEnabled : Bool
  completedPaidServiceOrderCount : ℤ
  lifetimePaidServiceSpendToman : ℤ
  hasUsablePaidService : Bool
  hasUncertainPaidService : Bool
  hasProvisioningService : Bool
  /-- The inactive-since anchor. -/
  latestPaidServiceEffectiveEndAt : Option ℤ
  hasActiveTrial : Bool
  hasTrialProvisioning : Bool
  hasResumableCheckout : Bool
  hasPendingReceiptReview : Bool
  hasOpenFinancialReconciliation : Bool
  hasUnresolvedProvisioningOrder : Bool
  winbackSnoozedUntil : Option ℤ
  /-- Win-back notifications already generated in the current lapse cycle. -/
  existingCycleNotificationCount : ℤ
  /-- Stage-day values already notified in the current lapse cycle. -/
  sentStageDaysThisCycle : List ℤ
  deriving DecidableEq, Repr

def DAY_MS : ℤ := 24 * 3600000

def resolveCustomerInactiveSince (snapshot : CustomerLifecycleSnapshot) : Option ℤ :=
  snapshot.latestPaidServiceEffectiveEndAt

/-- Whole days of inactivity since the anchor. -/
def resolveCustomerInactiveDays (snapshot : CustomerLifecycleSnapshot) (now : ℤ) : Option ℤ :=
  (resolveCustomerInactiveSince snapshot).map fun since => (now - since) / DAY_MS

def isPayingCustomer (snapshot : CustomerLifecycleSnapshot) (config : WinbackConfig) : Bool :=
  config.minimumCompletedPaidOrders ≤ snapshot.completedPaidServiceOrderCount ∧
    config.minimumLifetimeSpendToman ≤ snapshot.lifetimePaidServiceSpendToman

/-- The index of the highest stage that is overdue. -/
def stageIndex (stageDays : List ℤ) (inactiveDays : ℤ) : ℕ :=
  (List.range stageDays.length).foldl
    (fun index i => if stageDays[i]?.any (· ≤ inactiveDays) then i else index) 0

def resolveCustomerLifecycleSegment (snapshot : CustomerLifecycleSnapshot) (config : WinbackConfig)
    (now : ℤ) : CustomerLifecycleSegment :=
  if snapshot.userStatus ≠ "ACTIVE" then .INELIGIBLE_USER_STATUS
  else if snapshot.userGroup ∉ config.allowedUserGroups then .INELIGIBLE_USER_GROUP
  else if !isPayingCustomer snapshot config then
    if snapshot.hasActiveTrial || snapshot.hasTrialProvisioning then .TRIAL_ONLY else .NEVER_PAID
  else if !snapshot.marketingMessagesEnabled then .MARKETING_OPT_OUT
  else if snapshot.winbackSnoozedUntil.any (now < ·) then .WINBACK_SNOOZED
  else if snapshot.hasOpenFinancialReconciliation || snapshot.hasPendingReceiptReview then
    .FINANCIAL_HOLD
  else if snapshot.hasResumableCheckout || snapshot.hasProvisioningService ||
      snapshot.hasUnresolvedProvisioningOrder || snapshot.hasActiveTrial ||
      snapshot.hasTrialProvisioning then .PURCHASE_IN_PROGRESS
  else if snapshot.hasUsablePaidService then .ACTIVE_CUSTOMER
  else if snapshot.hasUncertainPaidService then .SERVICE_STATE_UNCERTAIN
  else
    match resolveCustomerInactiveDays snapshot now with
    | none => .ACTIVE_CUSTOMER
    | some inactiveDays =>
      -- without a first stage the comparison is one with `undefined`, which fails
      if config.stageDays.head?.any (inactiveDays < ·) then .RECENTLY_LAPSED
      else
        match stageIndex config.stageDays inactiveDays with
        | 0 => .LAPSED_STAGE_1
        | 1 => .LAPSED_STAGE_2
        | _ => .LAPSED_STAGE_3

inductive WinbackExclusionReason where
  | ineligibleStatus
  | ineligibleGroup
  | neverPaid
  | trialOnly
  | marketingOptOut
  | snoozed
  | financialHold
  | purchaseInProgress
  | activeService
  | serviceUncertain
  | tooEarly
  | cronDisabled
  | maxCycleReached
  | noStageDue
  deriving DecidableEq, Repr

inductive WinbackEligibility where
  | eligible (segment : CustomerLifecycleSegment) (stageDays inactiveDays : ℤ)
  | excluded (segment : CustomerLifecycleSegment) (reason : WinbackExclusionReason)
  deriving DecidableEq, Repr

/-- The reason of a segment that blocks. -/
def SEGMENT_REASON : CustomerLifecycleSegment → Option WinbackExclusionReason
  | .INELIGIBLE_USER_STATUS => some .ineligibleStatus
  | .INELIGIBLE_USER_GROUP => some .ineligibleGroup
  | .NEVER_PAID => some .neverPaid
  | .TRIAL_ONLY => some .trialOnly
  | .MARKETING_OPT_OUT => some .marketingOptOut
  | .WINBACK_SNOOZED => some .snoozed
  | .FINANCIAL_HOLD => some .financialHold
  | .PURCHASE_IN_PROGRESS => some .purchaseInProgress
  | .ACTIVE_CUSTOMER => some .activeService
  | .SERVICE_STATE_UNCERTAIN => some .serviceUncertain
  | .RECENTLY_LAPSED => some .tooEarly
  | .LAPSED_STAGE_1 | .LAPSED_STAGE_2 | .LAPSED_STAGE_3 => none

/-- The largest stage that was sent, or -1. -/
def maxSentOf (sentStageDaysThisCycle : List ℤ) : ℤ := sentStageDaysThisCycle.max?.getD (-1)

/-- The highest overdue stage that is above every stage sent. -/
def selectWinbackStage (stageDays : List ℤ) (inactiveDays : ℤ) (sentStageDaysThisCycle : List ℤ) :
    Option ℤ :=
  let maxSent := maxSentOf sentStageDaysThisCycle
  stageDays.foldl
    (fun target d =>
      if d ≤ inactiveDays ∧ maxSent < d then some (target.elim d (max · d)) else target)
    none

def evaluateCustomerWinbackEligibility (snapshot : CustomerLifecycleSnapshot) (config : WinbackConfig)
    (now : ℤ) : WinbackEligibility :=
  let segment := resolveCustomerLifecycleSegment snapshot config now
  match SEGMENT_REASON segment with
  | some blocked => .excluded segment blocked
  | none =>
    if !snapshot.cronNotificationsEnabled then .excluded segment .cronDisabled
    else if config.maximumNotificationsPerLapseCycle ≤ snapshot.existingCycleNotificationCount then
      .excluded segment .maxCycleReached
    else
      match resolveCustomerInactiveDays snapshot now with
      | none => .excluded segment .noStageDue
      | some inactiveDays =>
        match selectWinbackStage config.stageDays inactiveDays snapshot.sentStageDaysThisCycle with
        | none => .excluded segment .noStageDue
        | some stage => .eligible segment stage inactiveDays

end ZedBot.Winback
