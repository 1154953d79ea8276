import ZedBot.Stars.Subscriptions

/-! The settlement of a Stars charge and its refund.

    One charge id leads to at most one financial chain (checkout, payment, order) and at most one
    renewal; the order is fulfilled by code outside the model. Notices to the user are not
    modelled. -/

namespace ZedBot.Stars
open ReadCommitted

structure StarsChargeInput where
  telegramPaymentChargeId : String
  starsAmount : ℤ
  isFirstRecurring : Bool
  subscriptionExpirationDate : ℕ
  evidenceSource : TelegramStarsChargeEvidenceSource := .LIVE_SUCCESSFUL_PAYMENT
  periodEndSource : TelegramStarsPeriodEndSource := .LIVE_EXACT
  telegramTransactionAt : Option ℕ := none
  deriving DecidableEq, Repr

inductive SettleChargeResult
  | renewed (orderId : ℕ)
  | alreadyCompleted
  | inProgress
  | refundRequired (chargeId : ℕ)
  | reconciliationRequired
  | ignored (reason : String)
  deriving DecidableEq, Repr

/-- The frozen entitlement, when its required numbers are there. -/
def parseFrozen (sub : TelegramStarsServiceSubscription) : Option EntitlementSnapshot :=
  if sub.entitlementSnapshot.durationDays = none ∨ sub.entitlementSnapshot.starsAmount = none then
    none
  else some sub.entitlementSnapshot

/-! ### The charge row -/

/-- The charge row of an input. -/
def receivedCharge (subscriptionId : ℕ) (input : StarsChargeInput) (now : ℕ) :
    TelegramStarsSubscriptionCharge where
  subscriptionId := subscriptionId
  telegramPaymentChargeId := input.telegramPaymentChargeId
  starsAmount := input.starsAmount
  isFirstRecurring := input.isFirstRecurring
  subscriptionExpirationDate := input.subscriptionExpirationDate
  status := .RECEIVED
  evidenceSource := input.evidenceSource
  periodEndSource := input.periodEndSource
  telegramTransactionAt := input.telegramTransactionAt
  recoveredAt := if input.evidenceSource = .STAR_TRANSACTION_RECOVERY then some now else none

/-- The creation of a charge row, unless its id or its Telegram id is taken. -/
def chargeEffect (id : ℕ) (c : TelegramStarsSubscriptionCharge) (v : StarsView) :
    Effect StarsRow StarsEntry Bool :=
  match v.rows (.charge id), v.rows (.chargeOfTelegram c.telegramPaymentChargeId) with
  | none, none =>
    { result := true
      writes := [⟨.charge id, some c⟩, ⟨.chargeOfTelegram c.telegramPaymentChargeId, some id⟩]
      entries := [.charge id] }
  | _, _ => { result := false }

/-- `telegramStarsSubscriptionCharge.create`; `false` is P2002. -/
def createCharge (id : ℕ) (c : TelegramStarsSubscriptionCharge) : Stars Bool :=
  sql (chargeEffect id c)

/-- The exact period end of a live update. -/
def exactCharge (input : StarsChargeInput) (c : TelegramStarsSubscriptionCharge) :
    TelegramStarsSubscriptionCharge :=
  { c with
    periodEndSource := .LIVE_EXACT
    evidenceSource := .LIVE_SUCCESSFUL_PAYMENT
    subscriptionExpirationDate := input.subscriptionExpirationDate }

/-- The convergence upgrade: a live update after a recovered charge replaces the derived period end on
    the charge, and on the subscription where that still holds the derived one. -/
def upgradePeriodEnd (subscriptionId chargeId : ℕ) (existing : TelegramStarsSubscriptionCharge)
    (input : StarsChargeInput) : Stars Unit := do
  if existing.periodEndSource = .RECOVERED_DERIVED ∧ input.periodEndSource = .LIVE_EXACT then
    let _ ← updateCharge chargeId (fun c => c.periodEndSource = .RECOVERED_DERIVED)
      (exactCharge input)
    let _ ← updateSubscription subscriptionId
      (fun s => s.currentPeriodEndsAt = some existing.subscriptionExpirationDate) fun s =>
      { s with
        currentPeriodEndsAt := some input.subscriptionExpirationDate
        nextExpectedChargeAt := some input.subscriptionExpirationDate }
    return ()
  else
    return ()

/-! ### The financial chain -/

/-- What the transaction throws: P2002, or anything else. -/
inductive ChainThrow
  | p2002 | crash
  deriving DecidableEq, Repr

def chainSnapshot (frozen : EntitlementSnapshot) : ProductSnapshot where
  productName := frozen.productName
  invoiceDescription := some ("اشتراک ماهانه " ++ frozen.productName.getD "undefined")
  originalPriceToman := some 0
  durationDays := frozen.durationDays
  volumeGb := frozen.volumeGb
  panelName := some (frozen.panelName.getD "")
  categoryName := some (frozen.categoryName.getD "")

def chainCheckout (subscription : TelegramStarsServiceSubscription) (frozen : EntitlementSnapshot)
    (now : ℕ) : CheckoutSession where
  userId := subscription.userId
  purpose := .ORDER_PAYMENT
  productId := some subscription.productId
  serviceId := some subscription.serviceId
  orderType := some .SERVICE_RENEWAL
  productSnapshot := chainSnapshot frozen
  status := .PAID
  paidAt := some now
  expiresAt := now + 3600000

/-- The idempotency key of a charge's payment. -/
def chargeKey (telegramPaymentChargeId : String) : IdempotencyKey :=
  .fixed ("stars-sub-charge:" ++ telegramPaymentChargeId)

def chainPayment (subscription : TelegramStarsServiceSubscription) (input : StarsChargeInput)
    (checkoutId now : ℕ) : Payment where
  userId := subscription.userId
  checkoutSessionId := some checkoutId
  purpose :=
    if input.isFirstRecurring then .SERVICE_SUBSCRIPTION_INITIAL else .SERVICE_SUBSCRIPTION_RECURRING
  status := .APPROVED
  provider := some .TELEGRAM_STARS
  amountToman := 0
  payableAmountToman := 0
  externalTransactionId := some input.telegramPaymentChargeId
  authority := some subscription.publicPayloadId
  idempotencyKey := some (chargeKey input.telegramPaymentChargeId)
  settlementStatus := .SETTLED
  settledAt := some now
  paidAt := some now
  createdAt := now

def chainOrder (subscription : TelegramStarsServiceSubscription) (frozen : EntitlementSnapshot)
    (checkoutId paymentId now : ℕ) : Order where
  userId := subscription.userId
  checkoutSessionId := some checkoutId
  type := .SERVICE_RENEWAL
  status := .PAID
  productId := some subscription.productId
  serviceId := some subscription.serviceId
  paymentId := some paymentId
  productNameSnapshot := frozen.productName
  productPriceSnapshot := some 0
  durationDaysSnapshot := frozen.durationDays
  volumeGbSnapshot := frozen.volumeGb
  panelNameSnapshot := frozen.panelName
  categorySnapshot := frozen.categoryName
  createdAt := now
  paidAt := some now

/-- `payment.create` under its three unique columns; `false` is P2002. -/
def createPayment (id : ℕ) (subscription : TelegramStarsServiceSubscription)
    (input : StarsChargeInput) (p : Payment) : Stars Bool := sql fun v =>
  let key := chargeKey input.telegramPaymentChargeId
  let charge := StarsKey.paymentOfCharge p.provider input.telegramPaymentChargeId
  match v.rows (.payment id), v.rows (.paymentOfKey key),
    v.rows (.paymentOfAuthority subscription.publicPayloadId), v.rows charge with
  | none, none, none, none =>
    { result := true
      writes := [⟨.payment id, some p⟩, ⟨.paymentOfKey key, some id⟩,
        ⟨.paymentOfAuthority subscription.publicPayloadId, some id⟩, ⟨charge, some id⟩] }
  | _, _, _, _ => { result := false }

/-- The link of the charge to its chain. -/
def fulfillingCharge (paymentId checkoutId orderId now : ℕ) (c : TelegramStarsSubscriptionCharge) :
    TelegramStarsSubscriptionCharge :=
  { c with
    status := .FULFILLING
    fulfillmentStartedAt := some now
    paymentId := some paymentId
    checkoutSessionId := some checkoutId
    orderId := some orderId }

/-- The first charge id is recorded and the period moved. -/
def movedPeriod (input : StarsChargeInput) (paymentId now : ℕ)
    (s : TelegramStarsServiceSubscription) : TelegramStarsServiceSubscription :=
  { s with
    initialTelegramPaymentChargeId :=
      if input.isFirstRecurring then some input.telegramPaymentChargeId
      else s.initialTelegramPaymentChargeId
    initialPaymentId := if input.isFirstRecurring then some paymentId else s.initialPaymentId
    lastChargeAt := some now
    currentPeriodStartedAt := some now
    currentPeriodEndsAt := some input.subscriptionExpirationDate
    nextExpectedChargeAt := some input.subscriptionExpirationDate }

/-- The all-or-nothing financial chain: checkout, payment, order and their links. A failure of the
    database itself is an answer of the oracle. -/
def settlementChain (subscriptionId : ℕ) (subscription : TelegramStarsServiceSubscription)
    (frozen : EntitlementSnapshot) (input : StarsChargeInput) (chargeId now : ℕ) :
    Stars (Except ChainThrow ℕ) := transaction do
  let alive ← external
  if ¬ alive then
    return .error .crash
  let checkoutId ← freshId
  let created ← update (.checkout checkoutId) (onFree (chainCheckout subscription frozen now))
  if created = 0 then
    return .error .p2002
  let paymentId ← freshId
  let paid ← createPayment paymentId subscription input (chainPayment subscription input checkoutId now)
  if ¬ paid then
    return .error .p2002
  let owned ← update (.checkout checkoutId) (onRow (fun _ => true) fun c : CheckoutSession =>
    { c with settledByPaymentId := some paymentId })
  if owned = 0 then
    return .error .crash
  let orderId ← freshId
  let ordered ← update (.order orderId)
    (onFree (chainOrder subscription frozen checkoutId paymentId now))
  if ordered = 0 then
    return .error .p2002
  let linked ← update (.payment paymentId) (onRow (fun _ => true) fun p : Payment =>
    { p with orderId := some orderId })
  if linked = 0 then
    return .error .crash
  let fulfilling ← updateCharge chargeId (fun _ => true)
    (fulfillingCharge paymentId checkoutId orderId now)
  if fulfilling = 0 then
    return .error .crash
  let moved ← updateSubscription subscriptionId (fun _ => true) (movedPeriod input paymentId now)
  if moved = 0 then
    return .error .crash
  return .ok orderId

/-! ### Fulfilment -/

/-- The statuses from which a fulfilled charge makes the subscription ACTIVE. -/
def recoversToActive (s : TelegramStarsServiceSubscription) : Bool :=
  s.status = .PENDING_PAYMENT ∨ s.status = .ACTIVE ∨ s.status = .PAST_DUE ∨
    s.status = .REACTIVATION_ALLOWED

/-- Drives fulfilment for a settled charge's order and maps the outcome; each status is written by
    the charge's id alone. -/
def finishAfterOrder (subscriptionId chargeId orderId : ℕ) : Stars SettleChargeResult := do
  let dispatch ← ask (·.dispatch)
  let now ← now
  if dispatch.renewed ∧ dispatch.ok then
    let _ ← updateCharge chargeId (fun _ => true) fun c =>
      { c with status := .COMPLETED, completedAt := some now, safeErrorCode := none }
    let _ ← updateSubscription subscriptionId recoversToActive fun s =>
      { s with
        status := .ACTIVE
        lastSuccessfulOrderId := some orderId
        pastDueMarkedAt := none
        safeLastErrorCode := none }
    return .renewed orderId
  else if dispatch.renewed ∧ dispatch.refunded then
    let _ ← updateCharge chargeId (fun _ => true) fun c =>
      { c with
        status := .REFUND_PENDING
        refundRequestedAt := some now
        safeErrorCode := some "fulfillment-failed" }
    return .refundRequired chargeId
  else
    let _ ← updateCharge chargeId (fun _ => true) fun c =>
      { c with status := .RECONCILIATION_REQUIRED, safeErrorCode := some "outcome-uncertain" }
    return .reconciliationRequired

/-- What a failed transaction leaves: a lost unique race leaves the charge as it is. -/
def chainResult (subscriptionId chargeId : ℕ) : Except ChainThrow ℕ → Stars SettleChargeResult
  | .ok orderId => finishAfterOrder subscriptionId chargeId orderId
  | .error .p2002 => return .inProgress
  | .error .crash => do
    let _ ← updateCharge chargeId (fun c => c.status = .SETTLING) fun c =>
      { c with status := .RECONCILIATION_REQUIRED, safeErrorCode := some "settlement-failed" }
    return .reconciliationRequired

/-- Claim the charge (RECEIVED to SETTLING), so that only one caller settles it, and settle. -/
def claimAndSettle (subscriptionId : ℕ) (subscription : TelegramStarsServiceSubscription)
    (frozen : EntitlementSnapshot) (input : StarsChargeInput) (chargeId : ℕ) :
    Stars SettleChargeResult := do
  let startedAt ← now
  let claimed ← updateCharge chargeId (fun c => c.status = .RECEIVED) fun c =>
    { c with status := .SETTLING, settlementStartedAt := some startedAt }
  if claimed = 0 then
    return .inProgress
  let now ← now
  let user ← findUser subscription.userId
  if user = none then
    let _ ← updateCharge chargeId (fun _ => true) fun c =>
      { c with status := .FAILED, safeErrorCode := some "user-missing" }
    return .ignored "user-missing"
  let result ← settlementChain subscriptionId subscription frozen input chargeId now
  chainResult subscriptionId chargeId result

/-- What a charge that exists already is answered; `none` goes on to claim it. -/
def resolvedResult (subscriptionId chargeId : ℕ) (existing : TelegramStarsSubscriptionCharge) :
    Stars (Option SettleChargeResult) :=
  match existing.status, existing.orderId with
  | .COMPLETED, _ => return some .alreadyCompleted
  | .REFUND_PENDING, _ => return some (.refundRequired chargeId)
  | .REFUNDED, _ => return some (.ignored "already-refunded")
  | .FAILED, _ => return some (.ignored "already-failed")
  | .IGNORED, _ => return some (.ignored "already-ignored")
  | .RECONCILIATION_REQUIRED, _ => return some .reconciliationRequired
  | _, some orderId => do
    let result ← finishAfterOrder subscriptionId chargeId orderId
    return some result
  | _, none => return none

/-- Settles one accepted charge end-to-end; `subscription` is the row that the caller read. -/
def settleTelegramStarsSubscriptionCharge (subscriptionId : ℕ)
    (subscription : TelegramStarsServiceSubscription) (input : StarsChargeInput) :
    Stars SettleChargeResult := do
  match parseFrozen subscription with
  | none => return .ignored "bad-entitlement-snapshot"
  | some frozen =>
    if input.starsAmount ≠ subscription.starsAmount then
      return .ignored "amount-mismatch"
    let now ← now
    let id ← freshId
    let created ← createCharge id (receivedCharge subscriptionId input now)
    if created then
      claimAndSettle subscriptionId subscription frozen input id
    else
      let found ← findChargeOfTelegram input.telegramPaymentChargeId
      match found with
      | none => return .inProgress
      | some (chargeId, existing) =>
        upgradePeriodEnd subscriptionId chargeId existing input
        let resolved ← resolvedResult subscriptionId chargeId existing
        match resolved with
        | some result => return result
        | none => claimAndSettle subscriptionId subscription frozen input chargeId

/-! ### Recovered charges and the reconciliation of stuck ones -/

/-- The period end of a recovered charge: the transaction date and one period. -/
def deriveRecoveredPeriodEnd (transactionAtMs periodSeconds : ℕ) : ℕ :=
  transactionAtMs + periodSeconds * 1000

def recoveredInput (subscription : TelegramStarsServiceSubscription) (input : RecoveredChargeInput) :
    StarsChargeInput where
  telegramPaymentChargeId := input.telegramPaymentChargeId
  starsAmount := input.starsAmount
  isFirstRecurring := input.isFirstRecurring
  subscriptionExpirationDate := deriveRecoveredPeriodEnd (input.telegramTransactionAtSec * 1000)
    subscription.subscriptionPeriodSeconds
  evidenceSource := .STAR_TRANSACTION_RECOVERY
  periodEndSource := .RECOVERED_DERIVED
  telegramTransactionAt := some (input.telegramTransactionAtSec * 1000)

/-- Settles a charge recovered from the transaction history. -/
def settleRecoveredStarsCharge (input : RecoveredChargeInput) : Stars SettleChargeResult := do
  let found ← findSubscription input.subscriptionId
  match found with
  | none => return .ignored "subscription-missing"
  | some subscription =>
    settleTelegramStarsSubscriptionCharge input.subscriptionId subscription
      (recoveredInput subscription input)

/-- The input that a charge row stores. -/
def storedInput (c : TelegramStarsSubscriptionCharge) : StarsChargeInput where
  telegramPaymentChargeId := c.telegramPaymentChargeId
  starsAmount := c.starsAmount
  isFirstRecurring := c.isFirstRecurring
  subscriptionExpirationDate := c.subscriptionExpirationDate
  evidenceSource := c.evidenceSource
  periodEndSource := c.periodEndSource
  telegramTransactionAt := c.telegramTransactionAt

/-- A charge and its subscription. -/
def findChargeWithSubscription (chargeId : ℕ) :
    Stars (Option (TelegramStarsSubscriptionCharge × TelegramStarsServiceSubscription)) :=
  select fun v => (v.rows (.charge chargeId)).bind fun c =>
    (v.rows (.subscription c.subscriptionId)).map fun s => (c, s)

/-- Re-drives a stuck charge. -/
def reconcileStarsChargeById (chargeId : ℕ) : Stars SettleChargeResult := do
  let found ← findChargeWithSubscription chargeId
  match found with
  | none => return .ignored "charge-missing"
  | some (charge, subscription) =>
    match charge.status, charge.orderId with
    | .COMPLETED, _ => return .alreadyCompleted
    | .REFUND_PENDING, _ => return .refundRequired chargeId
    | .REFUNDED, _ => return .ignored "already-refunded"
    | .FAILED, _ => return .ignored "already-failed"
    | .IGNORED, _ => return .ignored "already-ignored"
    | _, some orderId => finishAfterOrder charge.subscriptionId chargeId orderId
    | _, none =>
      let _ ← updateCharge chargeId
        (fun c => (c.status = .SETTLING ∨ c.status = .RECONCILIATION_REQUIRED) ∧ c.orderId = none)
        fun c => { c with status := .RECEIVED, safeErrorCode := none }
      settleTelegramStarsSubscriptionCharge charge.subscriptionId subscription (storedInput charge)

/-! ### Refunds -/

inductive RefundOutcome
  | refunded
  | alreadyRefunded
  | retryScheduled (attempts : ℕ)
  | exhausted (attempts : ℕ)
  | skipped (reason : String)
  deriving DecidableEq, Repr

def chargeStatusText : TelegramStarsSubscriptionChargeStatus → String
  | .RECEIVED => "RECEIVED"
  | .SETTLING => "SETTLING"
  | .FULFILLING => "FULFILLING"
  | .COMPLETED => "COMPLETED"
  | .RECONCILIATION_REQUIRED => "RECONCILIATION_REQUIRED"
  | .REFUND_PENDING => "REFUND_PENDING"
  | .REFUNDED => "REFUNDED"
  | .FAILED => "FAILED"
  | .IGNORED => "IGNORED"

/-- The data of a confirmed refund. -/
def refundedCharge (now : ℕ) (c : TelegramStarsSubscriptionCharge) :
    TelegramStarsSubscriptionCharge :=
  { c with status := .REFUNDED, refundedAt := some now, safeErrorCode := none }

/-- Refunds one failed charge through Telegram for its exact charge id. -/
def refundStarsSubscriptionCharge (chargeId : ℕ) : Stars RefundOutcome := do
  let found ← findChargeWithSubscription chargeId
  match found with
  | none => return .skipped "charge-missing"
  | some (charge, subscription) =>
    if charge.status = .REFUNDED then
      return .alreadyRefunded
    if charge.status ≠ .REFUND_PENDING then
      return .skipped ("not-refundable:" ++ chargeStatusText charge.status)
    let user ← findUser subscription.userId
    match user with
    | none => return .skipped "user-missing"
    | some u =>
      let maxAttempts ← ask (·.number)
      let refunded ← refundStarPayment u.telegramId charge.telegramPaymentChargeId
      if ¬ refunded then
        let attempts := charge.refundAttempts + 1
        let _ ← updateCharge chargeId (fun c => c.status = .REFUND_PENDING) fun c =>
          { c with refundAttempts := attempts, safeErrorCode := some "refund-api-error" }
        if maxAttempts ≤ attempts then
          return .exhausted attempts
        return .retryScheduled attempts
      let now ← now
      let claimed ← updateCharge chargeId (fun c => c.status = .REFUND_PENDING) (refundedCharge now)
      if claimed = 0 then
        return .alreadyRefunded
      let _ ← updateSubscription charge.subscriptionId
        (fun s => ¬ (s.status = .CANCELLED ∨ s.status = .EXPIRED)) fun s =>
        { s with
          status := .REQUIRES_ACTION
          telegramExtensionCanceled := true
          safeLastErrorCode := some "charge-refunded" }
      return .refunded

/-- Settle, and refund what the settlement could not grant. -/
def refundIfRequired (result : SettleChargeResult) : Stars Unit :=
  match result with
  | .refundRequired chargeId => do
    let _ ← refundStarsSubscriptionCharge chargeId
    return ()
  | _ => return ()

end ZedBot.Stars
