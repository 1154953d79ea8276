import ZedBot.AutoRenewal.Schedule

/-! One cycle of a mandate: its notice, its attempt and its charge.

    The scan creates the notice before the charge instant and the attempt after it, behind the gate;
    the delivery sends or defers the notice; the reconcile pass enqueues an attempt again; the bot
    executes it. What these find in the rest of the database, and what Telegram and the panel
    answer, is left to oracles. Scans of another cycle of the same service are there as far as they
    touch this one. The journal lists the creations of the attempt and the debits of the wallet. -/

namespace ZedBot.AutoRenewal

/-- A mandate cycle, and the settings it runs under. -/
structure MandateCycle where
  expiresAtEpoch : ℤ
  chargeLeadMinutes : ℕ
  maximumChargeToman : ℤ
  prechargeNoticeMinutes : ℕ
  graceHours : ℕ
  insufficientRetryIntervalsMinutes : List ℕ
  maxAttemptsPerCycle : ℕ
  attemptRetentionDays : ℕ
  deriving DecidableEq, Repr

namespace MandateCycle

/-- The instant of the expected charge. -/
def expectedChargeAt (c : MandateCycle) : ℤ := c.expiresAtEpoch - c.chargeLeadMinutes * MINUTE_MS

def graceEnd (c : MandateCycle) : ℤ := c.expiresAtEpoch + c.graceHours * HOUR_MS

/-- How long the gate may wait. -/
def cap (c : MandateCycle) : ℤ := c.expectedChargeAt + AUTO_RENEWAL_PRECHARGE_GATE_MAX_DEFER_MS

end MandateCycle

/-! ### Rows -/

inductive AutomatedNotificationStatus
  | SCHEDULED | READY | SENDING | SENT | FAILED | DEAD_LETTER | CANCELLED | SUPPRESSED | EXPIRED
  deriving DecidableEq, Repr

/-- The notice row of the cycle; `sends` are the messages of it that wait for Telegram's answer. -/
structure AutomatedNotification where
  status : AutomatedNotificationStatus := .SCHEDULED
  scheduledFor : ℤ
  availableUntil : Option ℤ
  claimedAt : Option ℤ := none
  sends : ℕ := 0
  deriving DecidableEq, Repr

inductive AutoRenewalMandateStatus
  | ACTIVE | PAUSED | CANCELLED
  deriving DecidableEq, Repr

structure ServiceAutoRenewalMandate where
  status : AutoRenewalMandateStatus := .ACTIVE
  nextEvaluationAt : Option ℤ := none
  insufficientBalanceRetryEnabled : Bool := true
  consecutiveFailureCount : ℕ := 0
  deriving DecidableEq, Repr

inductive AutoRenewalAttemptStatus
  | SCHEDULED | CLAIMED | PAYMENT_CREATED | FULFILLING | COMPLETED | INSUFFICIENT_BALANCE
  | REQUIRES_ACTION | FAILED | DEAD_LETTER | CANCELLED | SKIPPED
  deriving DecidableEq, Repr

structure ServiceAutoRenewalAttempt where
  status : AutoRenewalAttemptStatus := .SCHEDULED
  attemptNumber : ℕ := 1
  nextAttemptAt : Option ℤ := none
  updatedAt : ℤ
  deriving DecidableEq, Repr

/-- The creation of an attempt, with the status its notice had. -/
structure Creation where
  createdAt : ℤ
  notice : Option AutomatedNotificationStatus
  deriving DecidableEq, Repr

structure System where
  clock : ℤ
  /-- The live expiry of the service. -/
  expiresAt : Option ℤ
  mandate : ServiceAutoRenewalMandate := {}
  notice : Option AutomatedNotification := none
  attempt : Option ServiceAutoRenewalAttempt := none
  /-- An execute job of the attempt is queued. -/
  job : Bool := false
  created : List Creation := []
  debits : List ℤ := []
  deriving DecidableEq, Repr

namespace System

/-- An update of the mandate that is guarded by its status. -/
def updateActive (s : System)
    (data : ServiceAutoRenewalMandate → ServiceAutoRenewalMandate) : System :=
  if s.mandate.status = .ACTIVE then { s with mandate := data s.mandate } else s

def pauseMandate (s : System) : System := s.updateActive fun m => { m with status := .PAUSED }

def deferMandate (s : System) (nextEvaluationAt : ℤ) : System :=
  s.updateActive fun m => { m with nextEvaluationAt := some nextEvaluationAt }

/-- `transitionAttempt`. -/
def updateAttempt (s : System) (now : ℤ)
    (data : ServiceAutoRenewalAttempt → ServiceAutoRenewalAttempt) : System :=
  { s with attempt := s.attempt.map fun a => { data a with updatedAt := now } }

def transitionAttempt (s : System) (now : ℤ) (status : AutoRenewalAttemptStatus) : System :=
  s.updateAttempt now fun a => { a with status }

def updateNotice (s : System) (data : AutomatedNotification → AutomatedNotification) : System :=
  { s with notice := s.notice.map data }

end System

/-! ### The notice -/

inductive PrechargeNoticeOutcome
  | scheduled (created : Bool) | catchUp (created : Bool)
  | missed | disabled | productUnavailable | noCycle
  deriving DecidableEq, Repr

/-- What a scan finds beside the rows of the cycle. -/
structure ScanOracle where
  serviceMissing : Bool := false
  /-- The side channel of the notice throws. -/
  noticeThrows : Bool := false
  productMissing : Bool := false
  /-- Another cycle has its notice already. -/
  otherNoticeExists : Bool := false
  stateStale : Bool := false
  productUnavailable : Bool := false
  panelUnavailable : Bool := false
  priceToman : ℤ := 1
  openReview : Bool := false
  /-- Another cycle is deferred by its gate. -/
  otherDeferred : Option ℤ := none
  createThrows : Bool := false
  deriving DecidableEq, Repr

/-- `cancelStaleUpcomingNotices`, called for another cycle. -/
def cancelStaleUpcomingNotices (s : System) : System :=
  s.updateNotice fun n => if n.status = .SCHEDULED then { n with status := .CANCELLED } else n

/-- The notice of the live cycle is created, once; a live cycle that is another one supersedes the
    notice of this one. -/
def ensureAutoRenewalPrechargeNotice (c : MandateCycle) (s : System) (o : ScanOracle)
    (expiresAt now : ℤ) : System × PrechargeNoticeOutcome :=
  let schedule := resolveAutoRenewalNoticeSchedule (some expiresAt) c.chargeLeadMinutes
    c.prechargeNoticeMinutes now
  let outcome := if schedule.kind = .catchUp then PrechargeNoticeOutcome.catchUp else .scheduled
  match schedule.kind with
  | .disabled => (s, .disabled)
  | .missed => (s, .missed)
  | .scheduled | .catchUp =>
    match schedule.scheduledForEpoch, schedule.expectedChargeAtEpoch with
    | some scheduledFor, some expectedChargeAt =>
      if expiresAt = c.expiresAtEpoch then
        if s.notice.isSome then (s, outcome false)
        else if o.productMissing then (s, .productUnavailable)
        else
          ({ s with notice := some { scheduledFor, availableUntil := some expectedChargeAt } },
            outcome true)
      else if o.otherNoticeExists then (s, outcome false)
      else if o.productMissing then (s, .productUnavailable)
      else (cancelStaleUpcomingNotices s, outcome true)
    | _, _ => (s, .noCycle)

/-! ### The gate -/

inductive GateReason
  | windowMissed | deliveryUnconfirmed
  deriving DecidableEq, Repr

inductive PrechargeGateDecision
  | proceed (reason : Option GateReason)
  | defer (until_ : ℤ)
  deriving DecidableEq, Repr

/-- A notice that is still to be delivered, in front of the cap. -/
def waitForDelivery (expectedChargeAtEpoch nowEpoch : ℤ) : PrechargeGateDecision :=
  let cap := expectedChargeAtEpoch + AUTO_RENEWAL_PRECHARGE_GATE_MAX_DEFER_MS
  if cap ≤ nowEpoch then .proceed (some .deliveryUnconfirmed)
  else .defer (min (nowEpoch + AUTO_RENEWAL_PRECHARGE_GATE_STEP_MS) cap)

def evaluateAutoRenewalPrechargeGate (notice : Option AutomatedNotification)
    (expectedChargeAtEpoch : ℤ) (prechargeNoticeMinutes : ℕ) (nowEpoch : ℤ) :
    PrechargeGateDecision :=
  if prechargeNoticeMinutes = 0 then .proceed none
  else
    match notice with
    | none => .proceed (some .windowMissed)
    | some notice =>
      match notice.status with
      | .SENT | .SUPPRESSED | .FAILED | .DEAD_LETTER | .EXPIRED | .CANCELLED => .proceed none
      | .SCHEDULED =>
        if nowEpoch < notice.scheduledFor then .defer notice.scheduledFor
        else waitForDelivery expectedChargeAtEpoch nowEpoch
      | .READY | .SENDING => waitForDelivery expectedChargeAtEpoch nowEpoch

/-! ### The scan -/

/-- What the scan tallies. -/
structure EvaluationTally where
  due : Bool := false
  created : Bool := false
  enqueued : Bool := false
  uncertain : Bool := false
  paused : Bool := false
  scheduled : Bool := false
  catchUp : Bool := false
  deriving DecidableEq, Repr

def UNCERTAIN_RETRY_MS : ℤ := 15 * MINUTE_MS

/-- A service before its charge window. -/
def evaluateNotDue (c : MandateCycle) (s : System) (o : ScanOracle) (expiresAt now : ℤ) :
    System × EvaluationTally :=
  let (s', outcome) :=
    if o.noticeThrows then (s, .missed) else ensureAutoRenewalPrechargeNotice c s o expiresAt now
  (s'.deferMandate (expiresAt - c.chargeLeadMinutes * MINUTE_MS),
    { scheduled := outcome = .scheduled true, catchUp := outcome = .catchUp true })

/-- The attempt of the live cycle, behind the gate; of another cycle only the deferral is seen. -/
def createAttempt (c : MandateCycle) (s : System) (o : ScanOracle) (expiresAt now : ℤ) :
    System × EvaluationTally :=
  if expiresAt ≠ c.expiresAtEpoch then
    match o.otherDeferred with
    | some until_ => (s.deferMandate until_, { due := true })
    | none => (s.deferMandate (now + UNCERTAIN_RETRY_MS), { due := true })
  else
    match evaluateAutoRenewalPrechargeGate s.notice c.expectedChargeAt c.prechargeNoticeMinutes
      now with
    | .defer until_ => (s.deferMandate until_, { due := true })
    | .proceed _ =>
      -- The loop over the mandates catches an error other than the unique index.
      if o.createThrows then (s, {})
      else
        match s.attempt with
        | none =>
          ({ s.deferMandate (now + UNCERTAIN_RETRY_MS) with
              attempt := some { updatedAt := now }
              job := true
              created := ⟨now, s.notice.map (·.status)⟩ :: s.created },
            { due := true, created := true, enqueued := true })
        | some existing =>
          let resumed : Bool :=
            existing.status ∈ [.SCHEDULED, .CLAIMED, .PAYMENT_CREATED, .FULFILLING]
          ({ s.deferMandate (now + UNCERTAIN_RETRY_MS) with job := s.job || resumed },
            { due := true, enqueued := resumed })

def evaluateMandate (c : MandateCycle) (s : System) (o : ScanOracle) (now : ℤ) :
    System × EvaluationTally :=
  if o.serviceMissing then (s.pauseMandate, { paused := true })
  else
    match s.expiresAt with
    | none => (s.pauseMandate, { paused := true })
    | some expiresAt =>
      if ¬ isAutoRenewalDue (some expiresAt) now c.chargeLeadMinutes then
        evaluateNotDue c s o expiresAt now
      else if ¬ isWithinAutoRenewalGrace (some expiresAt) now c.graceHours then
        (s.deferMandate (now + 24 * HOUR_MS), { due := true })
      else if o.stateStale then
        (s.deferMandate (now + UNCERTAIN_RETRY_MS), { due := true, uncertain := true })
      else if o.productUnavailable ∨ o.panelUnavailable ∨
          ¬ (resolveAutoRenewalCharge o.priceToman c.maximumChargeToman).eligible then
        (s.pauseMandate, { due := true, paused := true })
      else if o.openReview then (s.deferMandate (now + UNCERTAIN_RETRY_MS), { due := true })
      else createAttempt c s o expiresAt now

/-- The query of the scan. -/
def isEvaluated (s : System) (now : ℤ) : Bool :=
  s.mandate.status = .ACTIVE ∧ s.mandate.nextEvaluationAt.all (· ≤ now)

/-! ### The reconcile pass and the clean-up -/

def ORPHAN_MS : ℤ := 15 * MINUTE_MS

def runAutoRenewalReconcile (c : MandateCycle) (s : System) (now : ℤ) : System :=
  match s.attempt with
  | none => s
  | some attempt =>
    if attempt.status ∈ [.SCHEDULED, .CLAIMED] ∧ attempt.updatedAt < now - ORPHAN_MS then
      if s.expiresAt ≠ some c.expiresAtEpoch then s.transitionAttempt now .CANCELLED
      else { s with job := true }
    else s

def runAutoRenewalCleanup (c : MandateCycle) (s : System) (now : ℤ) : System :=
  match s.attempt with
  | none => s
  | some attempt =>
    if attempt.status ∈ [.COMPLETED, .FAILED, .DEAD_LETTER, .CANCELLED, .SKIPPED] ∧
        attempt.updatedAt < now - c.attemptRetentionDays * 24 * HOUR_MS then
      { s with attempt := none }
    else s

end ZedBot.AutoRenewal
