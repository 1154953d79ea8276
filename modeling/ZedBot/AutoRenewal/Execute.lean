import ZedBot.AutoRenewal.Cycle

/-! The execution of an attempt, the delivery of a notice, and the runs of a cycle.

    The executor claims the attempt, checks the mandate, the live expiry, the plan and the price,
    and settles from the wallet; it may die at any of its writes. The delivery re-validates the
    notice and sends, defers or ends it. Steps come at times that do not decrease. -/

namespace ZedBot.AutoRenewal

/-! ### Execution -/

/-- Where an execution dies. -/
inductive CrashPoint
  | beforePayment | afterPayment | afterRecorded | afterFulfilling
  deriving DecidableEq, Repr

/-- What the dispatcher answers about the renewal. -/
inductive DispatchResult
  | renewed (expiresAt : Option ℤ) | refunded | uncertain
  deriving DecidableEq, Repr

structure ExecuteOracle where
  enabled : Bool := true
  crash : Option CrashPoint := none
  serviceIneligible : Bool := false
  planUnavailable : Bool := false
  priceToman : ℤ := 1
  walletEnabled : Bool := true
  balanceCovers : Bool := true
  dispatch : DispatchResult := .uncertain
  deriving DecidableEq, Repr

inductive ExecuteStatus
  | notFound | already (status : AutoRenewalAttemptStatus) | notDue | systemDisabled | error
  | mandateInactive | serviceIneligible | cycleChanged | planUnavailable | priceAboveLimit
  | walletDisabled | insufficientPaused | insufficientRetry | completed | fulfillmentFailedRefunded
  | requiresAction
  deriving DecidableEq, Repr

inductive WalletOutcome
  | planInvalid | priceAboveLimit | error | walletDisabled | insufficientBalance | settled
  | alreadySettled
  deriving DecidableEq, Repr

def FULFILLMENT_FAILURE_PAUSE_THRESHOLD : ℕ := 1

/-- The settlement, with one debit for the idempotency key of the cycle. -/
def payAutoRenewalWithWallet (c : MandateCycle) (s : System) (o : ExecuteOracle) (now : ℤ) :
    System × WalletOutcome :=
  let charge := resolveAutoRenewalCharge o.priceToman c.maximumChargeToman
  if o.planUnavailable then (s, .planInvalid)
  else if charge.reason = .priceAboveLimit then (s, .priceAboveLimit)
  else if ¬ charge.eligible then (s, .error)
  else if ¬ o.walletEnabled then (s, .walletDisabled)
  else if s.debits ≠ [] then (s, .alreadySettled)
  else if o.balanceCovers then ({ s with debits := [now] }, .settled)
  else (s, .insufficientBalance)

/-- The next attempt of the cycle, or a pause. -/
def handleInsufficientBalance (c : MandateCycle) (s : System) (attempt : ServiceAutoRenewalAttempt)
    (now : ℤ) : System × ExecuteStatus :=
  let nextNumber := attempt.attemptNumber + 1
  match c.insufficientRetryIntervalsMinutes[attempt.attemptNumber]? with
  | some nextIntervalMinutes =>
    if s.mandate.insufficientBalanceRetryEnabled ∧ nextNumber ≤ c.maxAttemptsPerCycle then
      let nextAt := now + nextIntervalMinutes * MINUTE_MS
      let s := s.updateAttempt now fun a =>
        { a with status := .SCHEDULED, attemptNumber := nextNumber, nextAttemptAt := some nextAt }
      (s.deferMandate nextAt, .insufficientRetry)
    else (s.pauseMandate.transitionAttempt now .INSUFFICIENT_BALANCE, .insufficientPaused)
  | none => (s.pauseMandate.transitionAttempt now .INSUFFICIENT_BALANCE, .insufficientPaused)

def finishFulfillment (s : System) (dispatch : DispatchResult) (now : ℤ) : System × ExecuteStatus :=
  match dispatch with
  | .renewed expiresAt =>
    ({ s.transitionAttempt now .COMPLETED with
        expiresAt
        mandate := { s.mandate with consecutiveFailureCount := 0, nextEvaluationAt := none } },
      .completed)
  | .refunded =>
    let failures := s.mandate.consecutiveFailureCount + 1
    let s := s.transitionAttempt now .FAILED
    (if FULFILLMENT_FAILURE_PAUSE_THRESHOLD ≤ failures then s.pauseMandate
      else s.updateActive fun m => { m with consecutiveFailureCount := failures },
      .fulfillmentFailedRefunded)
  | .uncertain => ((s.transitionAttempt now .REQUIRES_ACTION).pauseMandate, .requiresAction)

/-- The wallet is charged: the order is recorded and fulfilled. -/
def fulfill (s : System) (o : ExecuteOracle) (now : ℤ) : System × ExecuteStatus :=
  if o.crash = some .afterPayment then (s, .error)
  else
    let s := s.transitionAttempt now .PAYMENT_CREATED
    if o.crash = some .afterRecorded then (s, .error)
    else
      let s := s.transitionAttempt now .FULFILLING
      if o.crash = some .afterFulfilling then (s, .error)
      else finishFulfillment s o.dispatch now

/-- What the executor does with the outcome of the settlement. -/
def afterPayment (c : MandateCycle) (s : System) (outcome : WalletOutcome)
    (attempt : ServiceAutoRenewalAttempt) (o : ExecuteOracle) (now : ℤ) : System × ExecuteStatus :=
  match outcome with
  | .priceAboveLimit => (s.pauseMandate.transitionAttempt now .FAILED, .priceAboveLimit)
  | .planInvalid => (s.pauseMandate.transitionAttempt now .FAILED, .planUnavailable)
  | .walletDisabled | .error =>
    (s.updateAttempt now fun a =>
      { a with status := .SCHEDULED, nextAttemptAt := some (now + 15 * MINUTE_MS) },
      if outcome = .error then .error else .walletDisabled)
  | .insufficientBalance => handleInsufficientBalance c s attempt now
  | .settled | .alreadySettled => fulfill s o now

def runClaimedAttempt (c : MandateCycle) (s : System) (attempt : ServiceAutoRenewalAttempt)
    (o : ExecuteOracle) (now : ℤ) : System × ExecuteStatus :=
  if o.crash = some .beforePayment then (s, .error)
  else if s.mandate.status ≠ .ACTIVE then (s.transitionAttempt now .CANCELLED, .mandateInactive)
  else if o.serviceIneligible ∨ s.expiresAt = none then
    (s.pauseMandate.transitionAttempt now .CANCELLED, .serviceIneligible)
  else if s.expiresAt ≠ some c.expiresAtEpoch then
    ((s.transitionAttempt now .CANCELLED).deferMandate now, .cycleChanged)
  else if o.planUnavailable then
    (s.pauseMandate.transitionAttempt now .FAILED, .planUnavailable)
  else if (resolveAutoRenewalCharge o.priceToman c.maximumChargeToman).reason =
      .priceAboveLimit then
    (s.pauseMandate.transitionAttempt now .FAILED, .priceAboveLimit)
  else
    let (s', outcome) := payAutoRenewalWithWallet c s o now
    afterPayment c s' outcome attempt o now

/-- The executor claims a SCHEDULED attempt whose `nextAttemptAt` has elapsed. -/
def isClaimable (attempt : ServiceAutoRenewalAttempt) (now : ℤ) : Bool :=
  attempt.status = .SCHEDULED ∧ attempt.nextAttemptAt.all (· ≤ now)

def executeAutoRenewalAttempt (c : MandateCycle) (s : System) (o : ExecuteOracle) (now : ℤ) :
    System × ExecuteStatus :=
  match s.attempt with
  | none => (s, .notFound)
  | some attempt =>
    if attempt.status ≠ .SCHEDULED then (s, .already attempt.status)
    else if ¬ isClaimable attempt now then (s, .notDue)
    else if ¬ o.enabled then (s, .systemDisabled)
    else runClaimedAttempt c (s.transitionAttempt now .CLAIMED) attempt o now

/-! ### Delivery -/

structure DeliveryOracle where
  systemEnabled : Bool := true
  gateOpen : Bool := true
  renewalEnabled : Bool := true
  /-- The mandate is of another user or not funded by the wallet, or the service is gone. -/
  sourceGone : Bool := false
  productUnavailable : Bool := false
  priceToman : ℤ := 1
  /-- The end of the quiet hours that the instant is in. -/
  quietUntil : Option ℤ := none
  /-- The next local midnight, where the daily limit is reached. -/
  cappedUntil : Option ℤ := none
  token : Bool := true
  chat : Bool := true
  deriving DecidableEq, Repr

/-- The end of a delivery that does not send. -/
inductive Terminal
  | cancel | suppress | expire
  deriving DecidableEq, Repr

def Terminal.status : Terminal → AutomatedNotificationStatus
  | .cancel => .CANCELLED
  | .suppress => .SUPPRESSED
  | .expire => .EXPIRED

def isTerminal (status : AutomatedNotificationStatus) : Bool :=
  status ∈ [.SENT, .DEAD_LETTER, .CANCELLED, .SUPPRESSED, .EXPIRED]

/-- `revalidateAutoRenewalUpcomingForDelivery`; `none` where the notice is still true. -/
def revalidateAutoRenewalUpcomingForDelivery (c : MandateCycle) (s : System) (o : DeliveryOracle)
    (now : ℤ) : Option Terminal :=
  if o.sourceGone ∨ s.mandate.status ≠ .ACTIVE then some .cancel
  else if s.expiresAt ≠ some c.expiresAtEpoch then some .cancel
  else if c.expectedChargeAt ≤ now then some .expire
  else if o.productUnavailable ∨
      ¬ (resolveAutoRenewalCharge o.priceToman c.maximumChargeToman).eligible then some .cancel
  else none

/-- Quiet hours or the daily limit: the notice waits, or is dropped where it would come too late. -/
def deferOrSuppress (notice : AutomatedNotification) (when_ : ℤ) : AutomatedNotification :=
  if notice.availableUntil.any (· ≤ when_) then { notice with status := .SUPPRESSED }
  else { notice with status := .SCHEDULED, scheduledFor := when_ }

/-- The claim of a notice that is to be sent now. -/
def sendNotice (notice : AutomatedNotification) (o : DeliveryOracle) (now : ℤ) :
    AutomatedNotification :=
  let notice := { notice with status := .SENDING, claimedAt := some now }
  if ¬ o.token then { notice with status := .SCHEDULED }
  else if ¬ o.chat then { notice with status := .CANCELLED }
  else { notice with sends := notice.sends + 1 }

/-- A delivery job up to the request to Telegram. -/
def deliverNotice (c : MandateCycle) (s : System) (notice : AutomatedNotification)
    (o : DeliveryOracle) (now : ℤ) : AutomatedNotification :=
  if isTerminal notice.status then notice
  else if notice.availableUntil.any (· ≤ now) then { notice with status := .EXPIRED }
  else if ¬ o.systemEnabled ∨ ¬ o.gateOpen ∨ ¬ o.renewalEnabled then
    { notice with status := .CANCELLED }
  else
    match revalidateAutoRenewalUpcomingForDelivery c s o now with
    | some decision => { notice with status := decision.status }
    | none =>
      match o.quietUntil, o.cappedUntil with
      | some when_, _ => deferOrSuppress notice when_
      | none, some when_ => deferOrSuppress notice when_
      | none, none => sendNotice notice o now

/-- What Telegram answers to a message. -/
inductive SendResult
  | sent | rateLimited | deadLetter | failed
  deriving DecidableEq, Repr

def SendResult.status : SendResult → AutomatedNotificationStatus
  | .sent => .SENT
  | .rateLimited => .SCHEDULED
  | .deadLetter => .DEAD_LETTER
  | .failed => .FAILED

def SENDING_ORPHAN_MS : ℤ := 10 * MINUTE_MS

/-- `runNotificationReconcile`: a message that was claimed too long ago is scheduled again. -/
def recoverOrphan (notice : AutomatedNotification) (now : ℤ) : AutomatedNotification :=
  if notice.status = .SENDING ∧ notice.claimedAt.any (· < now - SENDING_ORPHAN_MS) then
    { notice with status := .SCHEDULED }
  else notice

/-! ### The user -/

/-- `cancelMandate`. -/
def cancelMandate (s : System) (now : ℤ) : System :=
  if s.mandate.status = .CANCELLED then s
  else
    let s := { s with mandate := { s.mandate with status := .CANCELLED, nextEvaluationAt := none } }
    let s := s.updateAttempt now fun a =>
      if a.status ∈ [.SCHEDULED, .CLAIMED] then { a with status := .CANCELLED } else a
    s.updateNotice fun n =>
      if n.status ∈ [.SCHEDULED, .READY] then { n with status := .CANCELLED } else n

def pauseMandateByUser (s : System) : System :=
  s.updateActive fun m => { m with status := .PAUSED, nextEvaluationAt := none }

def resumeMandateByUser (s : System) (now : ℤ) : System :=
  if s.mandate.status = .PAUSED then
    { s with
      mandate := { s.mandate with
        status := .ACTIVE
        consecutiveFailureCount := 0
        nextEvaluationAt := some now } }
  else s

def adminStopMandate (s : System) (cancel : Bool) : System :=
  if cancel then
    { s with mandate := { s.mandate with status := .CANCELLED, nextEvaluationAt := none } }
  else pauseMandateByUser s

/-! ### Runs -/

/-- What may happen next. A delivery job may come at any time, as its queue lets it. -/
inductive Event
  | scan (o : ScanOracle)
  | reconcile
  | cleanup
  /-- A queued job is run; a stalled one stays in the queue. -/
  | execute (o : ExecuteOracle) (stalled : Bool)
  | deliver (o : DeliveryOracle)
  | answer (result : SendResult)
  | recover
  | expireNoticeRow
  | cancel
  | pause
  | resume
  | adminStop (cancel : Bool)
  | sync (expiresAt : Option ℤ)
  deriving DecidableEq, Repr

namespace System

/-- What an event does at an instant. -/
def apply (c : MandateCycle) (s : System) (now : ℤ) : Event → Option System
  | .scan o => if isEvaluated s now then some (evaluateMandate c s o now).1 else none
  | .reconcile => some (runAutoRenewalReconcile c s now)
  | .cleanup => some (runAutoRenewalCleanup c s now)
  | .execute o stalled =>
    if s.job then some (executeAutoRenewalAttempt c { s with job := stalled } o now).1 else none
  | .deliver o => some (s.updateNotice fun n => deliverNotice c s n o now)
  | .answer result =>
    match s.notice with
    | some n =>
      if 0 < n.sends then
        some { s with notice := some { n with status := result.status, sends := n.sends - 1 } }
      else none
    | none => none
  | .recover => some (s.updateNotice fun n => recoverOrphan n now)
  | .expireNoticeRow =>
    match s.notice with
    | some n =>
      if isTerminal n.status ∨ n.status = .FAILED then some { s with notice := none } else none
    | none => none
  | .cancel => some (cancelMandate s now)
  | .pause => some (pauseMandateByUser s)
  | .resume => some (resumeMandateByUser s now)
  | .adminStop cancel => some (adminStopMandate s cancel)
  | .sync expiresAt => some { s with expiresAt }

/-- An event at an instant that is not before the last one. -/
def step (c : MandateCycle) (s : System) (now : ℤ) (e : Event) : Option System :=
  if s.clock ≤ now then apply c { s with clock := now } now e else none

def exec (c : MandateCycle) (s : System) : List (ℤ × Event) → Option System
  | [] => some s
  | (now, e) :: es => (s.step c now e).bind fun s' => s'.exec c es

/-- A state that is reached by events, each of which meets a condition in the state before it. -/
inductive Reaches (c : MandateCycle) (P : System → ℤ → Event → Prop) (s : System) : System → Prop
  | refl : Reaches c P s s
  | tail {s' s'' : System} (now : ℤ) (e : Event) (h : Reaches c P s s') (hP : P s' now e)
    (hs : s'.step c now e = some s'') : Reaches c P s s''

end System

end ZedBot.AutoRenewal
