import ZedBot.Stars.Settlement

/-! The worker's passes: the scan of Telegram's transaction history, which hands lost payments to the
    bot and confirms refunds, and the detection of subscriptions past their period; the bot's
    consumer of the execute queue; the handler of a live payment. -/

namespace ZedBot.Stars
open ReadCommitted

structure StarsSubscriptionConfig where
  graceMinutes : ℕ := 180
  transactionLookbackHours : ℕ := 72
  maxPagesPerRun : ℕ := 10
  transactionPageSize : ℕ := 100
  refundMaxAttempts : ℕ := 5
  deriving DecidableEq, Repr

def STARS_SUBSCRIPTION_PERIOD_SECONDS : ℕ := 2592000
def STARS_SUBSCRIPTION_PAYLOAD_PREFIX : String := "zedbot:sub:"
def STARS_SUB_ENROLLMENT_CLOCK_SKEW_MS : ℕ := 10 * 60000

/-- `startsWith`. -/
def startsWith (s pre : String) : Bool := pre.toList.isPrefixOf s.toList

/-- A character of base64url. -/
def isBase64Url (c : Char) : Bool := c.isAlphanum ∨ c = '_' ∨ c = '-'

/-- The public payload id of a subscription invoice payload: 16 to 64 characters of base64url. -/
def parseStarsSubscriptionPayload (payload : String) : Option String :=
  if startsWith payload STARS_SUBSCRIPTION_PAYLOAD_PREFIX then
    let id := payload.toList.drop STARS_SUBSCRIPTION_PAYLOAD_PREFIX.length
    if 16 ≤ id.length ∧ id.length ≤ 64 ∧ id.all isBase64Url then some (String.ofList id) else none
  else none

/-! ### The scan of one transaction -/

/-- The payload of a partner, when it has the prefix of the subscriptions. -/
def hasSubscriptionPayload (p : StarTransactionPartner) : Bool :=
  p.invoicePayload.any (startsWith · STARS_SUBSCRIPTION_PAYLOAD_PREFIX)

/-- An incoming subscription payment. -/
def isSubscriptionPayment (tx : StarTransaction) : Bool :=
  tx.source.any fun s =>
    s.type = "user" ∧ s.transactionType = some "invoice_payment" ∧ hasSubscriptionPayload s ∧
      s.subscriptionPeriod = some STARS_SUBSCRIPTION_PERIOD_SECONDS ∧ 0 < tx.amount

/-- An outgoing refund to a user. -/
def isOutgoingRefund (tx : StarTransaction) : Bool :=
  tx.receiver.any fun r => r.type = "user" ∧ hasSubscriptionPayload r

inductive RecoverOutcome
  | recovered | ignored | review
  deriving DecidableEq, Repr

/-- The statuses of a settled or settling charge. -/
def isSettledOrSettling (c : TelegramStarsSubscriptionCharge) : Bool :=
  c.status = .SETTLING ∨ c.status = .FULFILLING ∨ c.status = .COMPLETED

/-- The subscription of a partner's payload, when the partner is its user. -/
def findOwnSubscription (partner : Option StarTransactionPartner) :
    Stars (Option (ℕ × TelegramStarsServiceSubscription)) := do
  match parseStarsSubscriptionPayload ((partner.bind (·.invoicePayload)).getD "") with
  | none => return none
  | some payloadId =>
    let found ← findSubscriptionOfPayload payloadId
    match found with
    | none => return none
    | some (id, sub) =>
      let user ← findUser sub.userId
      if (user.map (·.telegramId)) = none ∨
          (user.map (·.telegramId)) ≠ partner.bind (·.userId) then
        return none
      return some (id, sub)

/-- Hands one lost subscription payment to the bot. -/
def tryRecoverPayment (tx : StarTransaction) : Stars RecoverOutcome := do
  let found ← findOwnSubscription tx.source
  match found with
  | none => return .ignored
  | some (id, sub) =>
    if tx.amount ≠ sub.starsAmount then
      return .review
    if tx.date * 1000 + STARS_SUB_ENROLLMENT_CLOCK_SKEW_MS < sub.createdAt then
      return .ignored
    let existing ← findChargeOfTelegram tx.id
    if existing ≠ none then
      return .ignored
    let settledCount ← select fun v =>
      (matchingCharges (fun c => c.subscriptionId = id ∧ isSettledOrSettling c) v).length
    addJob (.SETTLE_RECOVERED_CHARGE
      { subscriptionId := id
        telegramPaymentChargeId := tx.id
        starsAmount := tx.amount
        telegramTransactionAtSec := tx.date
        isFirstRecurring := sub.initialTelegramPaymentChargeId = none ∧ settledCount = 0 })
    return .recovered

/-- The charges that an observed refund confirms: by subscription and amount. -/
def confirmedByRefund (subscriptionId : ℕ) (amount : ℤ) (c : TelegramStarsSubscriptionCharge) : Bool :=
  c.subscriptionId = subscriptionId ∧ c.starsAmount = amount ∧ c.status = .REFUND_PENDING

def confirmEffect (refundId : String) (subscriptionId : ℕ) (amount : ℤ) (now : ℕ) (v : StarsView) :
    Effect StarsRow StarsEntry ℕ where
  result := (matchingCharges (confirmedByRefund subscriptionId amount) v).length
  writes := (matchingCharges (confirmedByRefund subscriptionId amount) v).map fun x =>
    ⟨.charge x.1, some (refundedCharge now x.2)⟩
  entries := [.refundObserved refundId subscriptionId amount
    ((matchingCharges (confirmedByRefund subscriptionId amount) v).map (·.1))]

/-- `updateMany` over the charges of a subscription, and its record. -/
def confirmRefunds (refundId : String) (subscriptionId : ℕ) (amount : ℤ) (now : ℕ) : Stars ℕ :=
  sql (confirmEffect refundId subscriptionId amount now)

/-- Confirms an observed refund. -/
def tryReconcileRefund (tx : StarTransaction) : Stars Bool := do
  let found ← findOwnSubscription tx.receiver
  match found with
  | none => return false
  | some (id, _) =>
    let now ← now
    let claimed ← confirmRefunds tx.id id tx.amount now
    return 0 < claimed

/-! ### The scan -/

structure RecoveryCounters where
  transactionsChecked : ℕ := 0
  chargesRecovered : ℕ := 0
  refundsConfirmed : ℕ := 0
  requiresReview : ℕ := 0
  pagesProcessed : ℕ := 0
  deriving DecidableEq, Repr

def scanTransaction (counters : RecoveryCounters) (tx : StarTransaction) :
    Stars RecoveryCounters := do
  let counters := { counters with transactionsChecked := counters.transactionsChecked + 1 }
  if isSubscriptionPayment tx then
    let outcome ← tryRecoverPayment tx
    match outcome with
    | .recovered => return { counters with chargesRecovered := counters.chargesRecovered + 1 }
    | .review => return { counters with requiresReview := counters.requiresReview + 1 }
    | .ignored => return counters
  else if isOutgoingRefund tx then
    let confirmed ← tryReconcileRefund tx
    if confirmed then
      return { counters with refundsConfirmed := counters.refundsConfirmed + 1 }
    return counters
  else
    return counters

def scanTransactions (counters : RecoveryCounters) : List StarTransaction → Stars RecoveryCounters
  | [] => return counters
  | tx :: txs => do
    let counters ← scanTransaction counters tx
    scanTransactions counters txs

/-- One page of the history, or a failure of the API. -/
def getStarTransactions (offset limit : ℕ) : Stars (Option (List StarTransaction)) := ext fun c w =>
  (if c.flag then some ((w.transactions.drop offset).take (min 100 (max 1 limit))) else none, w)

/-- `findUnique`, else `upsert`. -/
def loadOrCreateCursor : Stars TelegramStarsReconciliationCursor := do
  let existing ← select fun v => v.rows .cursor
  match existing with
  | some cursor => return cursor
  | none =>
    sql fun v =>
      match v.rows .cursor with
      | some cursor => { result := cursor }
      | none => { result := {}, writes := [⟨.cursor, some {}⟩] }

def updateCursor
    (data : TelegramStarsReconciliationCursor → TelegramStarsReconciliationCursor) : Stars ℕ :=
  update .cursor (onRow (fun _ => true) data)

structure RecoveryResult where
  counters : RecoveryCounters
  cursorStale : Bool
  nextOffset : ℕ
  deriving DecidableEq, Repr

/-- The page is older than the lookback window. -/
def pastLookback (oldestRelevant : ℕ) (transactions : List StarTransaction) : Bool :=
  transactions.any fun tx => tx.date * 1000 < oldestRelevant

/-- At most `pages` more pages. -/
def scanPages (config : StarsSubscriptionConfig) (bootstrap : Bool) (cursorOffset oldestRelevant : ℕ) :
    (pages runOffset persistentOffset : ℕ) → RecoveryCounters → Stars RecoveryResult
  | 0, _, persistentOffset, counters => return ⟨counters, false, persistentOffset⟩
  | pages + 1, runOffset, persistentOffset, counters => do
    let res ← getStarTransactions runOffset config.transactionPageSize
    match res with
    | none =>
      let _ ← updateCursor fun c =>
        { c with consecutiveFailureCount := c.consecutiveFailureCount + 1 }
      return ⟨counters, true, persistentOffset⟩
    | some transactions =>
      let scanned ← scanTransactions counters transactions
      let counters := { scanned with pagesProcessed := scanned.pagesProcessed + 1 }
      let persistentOffset :=
        if bootstrap then cursorOffset + counters.transactionsChecked else persistentOffset
      let shortPage : Bool := transactions.length < config.transactionPageSize
      let _ ← updateCursor fun c =>
        { c with
          nextOffset := persistentOffset
          consecutiveFailureCount := 0
          bootstrapCompleted := c.bootstrapCompleted || (bootstrap && shortPage) }
      if shortPage ∨ (¬ bootstrap ∧ pastLookback oldestRelevant transactions) then
        return ⟨counters, false, persistentOffset⟩
      scanPages config bootstrap cursorOffset oldestRelevant pages
        (runOffset + transactions.length) persistentOffset counters

/-- One bounded pass: it continues from the cursor until the history is scanned once, then it scans
    the newest pages again and again. -/
def runStarsTransactionRecovery (config : StarsSubscriptionConfig) : Stars RecoveryResult := do
  let token ← external
  if ¬ token then
    return ⟨{}, false, 0⟩
  let cursor ← loadOrCreateCursor
  let now ← now
  scanPages config (¬ cursor.bootstrapCompleted) cursor.nextOffset
    (now - config.transactionLookbackHours * 3600000) config.maxPagesPerRun
    (if cursor.bootstrapCompleted then 0 else cursor.nextOffset) cursor.nextOffset {}

/-! ### Subscriptions past their period -/

def PAST_DUE_BATCH : ℕ := 200

/-- The subscriptions that the pass selects. -/
def mayBePastDue (cutoff : ℕ) (s : TelegramStarsServiceSubscription) : Bool :=
  (s.status = .ACTIVE ∨ s.status = .REACTIVATION_ALLOWED) ∧ s.currentPeriodEndsAt.any (· < cutoff)

/-- A charge of a newer period, received or on its way to completion. -/
def isNewerCharge (subscriptionId endsAt : ℕ) (c : TelegramStarsSubscriptionCharge) : Bool :=
  c.subscriptionId = subscriptionId ∧
    (c.status = .RECEIVED ∨ isSettledOrSettling c) ∧ endsAt < c.subscriptionExpirationDate

/-- One candidate of the pass. -/
def markPastDue (now id : ℕ) (sub : TelegramStarsServiceSubscription) : Stars Bool := do
  match sub.currentPeriodEndsAt with
  | none => return false
  | some endsAt =>
    if sub.lastSubscriptionUpdateState = some "active" ∧ sub.subscriptionUpdateAt.any (endsAt < ·) then
      return false
    let newerCharge ← select fun v => (matchingCharges (isNewerCharge id endsAt) v).length
    if 0 < newerCharge then
      return false
    let claimed ← updateSubscription id
      (fun s => (s.status = .ACTIVE ∨ s.status = .REACTIVATION_ALLOWED) ∧
        s.currentPeriodEndsAt = some endsAt) fun s =>
      { s with
        status := .PAST_DUE
        pastDueMarkedAt := some now
        safeLastErrorCode := some "past-due" }
    return 0 < claimed

/-- Marks the subscriptions whose paid period and grace have elapsed. -/
def runStarsPastDueDetection (config : StarsSubscriptionConfig) : Stars Unit := do
  let now ← now
  let candidates ← select fun v =>
    (subscriptionIds v.journal).filterMap fun id =>
      match v.rows (.subscription id) with
      | some s =>
        if mayBePastDue (now - config.graceMinutes * 60000) s then some (id, s) else none
      | none => none
  forEach (fun x => do
    let _ ← markPastDue now x.1 x.2
    return ()) (candidates.take PAST_DUE_BATCH)

/-! ### Charges that are stuck or wait for their refund -/

def BATCH : ℕ := 200

/-- The statuses of a charge that the reconciliation re-drives. -/
def isStuck (c : TelegramStarsSubscriptionCharge) : Bool :=
  c.status = .SETTLING ∨ c.status = .FULFILLING ∨ c.status = .RECONCILIATION_REQUIRED

/-- Hands the charges that are stuck past the threshold to the bot. -/
def runStarsFulfillmentReconcile : Stars Unit := do
  let aged ← ask (·.aged)
  let stuck ← select fun v =>
    ((matchingCharges isStuck v).filter fun x => x.1 ∈ aged).take BATCH
  forEach (fun x => addJob (.RECONCILE_CHARGE x.1)) stuck

/-- One charge of the refund retry: an exhausted one surfaces on its subscription, one that was
    tried lately waits. -/
def retryRefund (config : StarsSubscriptionConfig) (aged : List ℕ) (id : ℕ)
    (charge : TelegramStarsSubscriptionCharge) : Stars Unit := do
  if config.refundMaxAttempts ≤ charge.refundAttempts then
    let _ ← updateSubscription charge.subscriptionId
      (fun s => ¬ (s.status = .CANCELLED ∨ s.status = .EXPIRED ∨ s.status = .REQUIRES_ACTION))
      fun s => { s with status := .REQUIRES_ACTION, safeLastErrorCode := some "refund-exhausted" }
    return ()
  else if 0 < charge.refundAttempts ∧ id ∉ aged then
    return ()
  else
    addJob (.RETRY_REFUND id)

/-- Hands the charges that wait for their refund to the bot. -/
def runStarsRefundRetry (config : StarsSubscriptionConfig) : Stars Unit := do
  let aged ← ask (·.aged)
  let pending ← select fun v =>
    (matchingCharges (fun c => c.status = .REFUND_PENDING) v).take BATCH
  forEach (fun x => retryRefund config aged x.1 x.2) pending

/-! ### The bot -/

/-- One job of the execute queue. -/
def runJob : StarsExecuteJob → Stars Unit
  | .SETTLE_RECOVERED_CHARGE input => do
    let result ← settleRecoveredStarsCharge input
    refundIfRequired result
  | .RETRY_REFUND chargeId => do
    let _ ← refundStarsSubscriptionCharge chargeId
    return ()
  | .RECONCILE_CHARGE chargeId => do
    let result ← reconcileStarsChargeById chargeId
    refundIfRequired result

/-- The consumer takes some job; a job leaves the queue when it has been run. -/
def consumeJob : Stars Unit := do
  let taken ← ext fun c w => (w.jobs[c.number]?, w)
  match taken with
  | none => return ()
  | some job =>
    runJob job
    ext fun _ w => ((), { w with jobs := w.jobs.erase job })

/-- A `successful_payment` update. -/
structure SuccessfulPayment where
  invoicePayload : String
  currency : String
  isRecurring : Bool
  isFirstRecurring : Bool
  subscriptionExpirationDate : Option ℕ
  fromUserId : ℕ
  telegramPaymentChargeId : String
  totalAmount : ℤ
  deriving DecidableEq, Repr

def liveInput (sp : SuccessfulPayment) (expirationSec : ℕ) : StarsChargeInput where
  telegramPaymentChargeId := sp.telegramPaymentChargeId
  starsAmount := sp.totalAmount
  isFirstRecurring := sp.isFirstRecurring
  subscriptionExpirationDate := expirationSec * 1000

/-- The handler of a live payment. -/
def onSuccessfulPayment (sp : SuccessfulPayment) : Stars Unit := do
  match parseStarsSubscriptionPayload sp.invoicePayload, sp.subscriptionExpirationDate with
  | some payloadId, some expirationSec =>
    if sp.currency ≠ "XTR" ∨ ¬ sp.isRecurring then
      return ()
    let found ← findSubscriptionOfPayload payloadId
    match found with
    | none => return ()
    | some (id, sub) =>
      let user ← findUser sub.userId
      if (user.map (·.telegramId)) ≠ some sp.fromUserId then
        return ()
      let result ← settleTelegramStarsSubscriptionCharge id sub (liveInput sp expirationSec)
      refundIfRequired result
  | _, _ => return ()

/-! ### Telegram itself -/

/-- Telegram lists a new transaction that is no refund. -/
def telegramLists (tx : StarTransaction) : Stars Unit := ext fun _ w =>
  ((), if isOutgoingRefund tx then w else { w with transactions := tx :: w.transactions })

/-- Telegram refunds a payment by itself. -/
def telegramRefunds (userId : ℕ) (chargeId : String) : Stars Unit := ext fun c w =>
  ((), (w.refund userId chargeId c.now).getD w)

/-! ### Any number of calls -/

/-- One call of the bot or of the worker, or something that Telegram does by itself. -/
inductive StarsCall
  | onSuccessfulPayment (sp : SuccessfulPayment)
  | consumeJob
  | refundStarsSubscriptionCharge (chargeId : ℕ)
  | reconcileStarsChargeById (chargeId : ℕ)
  | runStarsTransactionRecovery (config : StarsSubscriptionConfig)
  | runStarsPastDueDetection (config : StarsSubscriptionConfig)
  | runStarsFulfillmentReconcile
  | runStarsRefundRetry (config : StarsSubscriptionConfig)
  | telegramLists (tx : StarTransaction)
  | telegramRefunds (userId : ℕ) (chargeId : String)

/-- The program of a call. -/
def StarsCall.prog : StarsCall → Stars Unit
  | onSuccessfulPayment sp => Stars.onSuccessfulPayment sp
  | consumeJob => Stars.consumeJob
  | refundStarsSubscriptionCharge chargeId => do
    let _ ← Stars.refundStarsSubscriptionCharge chargeId
    return ()
  | reconcileStarsChargeById chargeId => do
    let result ← Stars.reconcileStarsChargeById chargeId
    refundIfRequired result
  | runStarsTransactionRecovery config => do
    let _ ← Stars.runStarsTransactionRecovery config
    return ()
  | runStarsPastDueDetection config => Stars.runStarsPastDueDetection config
  | runStarsFulfillmentReconcile => Stars.runStarsFulfillmentReconcile
  | runStarsRefundRetry config => Stars.runStarsRefundRetry config
  | telegramLists tx => Stars.telegramLists tx
  | telegramRefunds userId chargeId => Stars.telegramRefunds userId chargeId

/-- Any number of calls, each a process of its own. -/
def starsPool (calls : ℕ → Option StarsCall) (p : ℕ) : Stars Unit :=
  match calls p with
  | some c => c.prog
  | none => return ()

end ZedBot.Stars
