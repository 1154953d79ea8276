import ZedBot.Payments.ProviderEvents

/-! Gateway settlement: the claim of a checkout by one payment, and what follows from it in the same
    transaction; the filing of duplicate successes; the settlement sweep.

    Decisions of code outside the model (the customer-info gate, the reservation bind, the discount
    claim, the provider's verification) are answers of the oracle. -/

namespace ZedBot
open ReadCommitted

/-- `snapshotString`: an empty string counts as absent. -/
def snapshotString (o : Option String) : Option String := o.filter (· ≠ "")

/-- `snapshotIntArray`: an empty array counts as absent. -/
def snapshotIntArray (o : Option (List ℤ)) : Option (List ℤ) := o.filter (· ≠ [])

/-- The order type of a checkout; legacy checkouts carry it in the snapshot. -/
def resolveOrderType (c : CheckoutSession) : OrderType :=
  match c.orderType with
  | some t => t
  | none => if c.productSnapshot.productType = some .OTHER_PRODUCT then .OTHER_PRODUCT
      else .SERVICE_PURCHASE

/-- The frozen sold terms that every order-creating path copies from the snapshot. -/
def soldOrder (snapshot : ProductSnapshot) (o : Order) : Order :=
  { o with
    productNameSnapshot := snapshotString snapshot.productName
    productDescriptionSnapshot := snapshotString snapshot.invoiceDescription
    productPriceSnapshot := snapshot.originalPriceToman
    durationDaysSnapshot := snapshot.durationDays
    volumeGbSnapshot := snapshot.volumeGb
    inboundIdsSnapshot := snapshotIntArray snapshot.inboundIds
    panelNameSnapshot := snapshotString snapshot.panelName
    locationSnapshot :=
      if snapshot.allLocations then some "ALL" else snapshotString snapshot.serviceLocation
    categorySnapshot := snapshotString snapshot.categoryName
    serviceNoteSnapshot := snapshotString snapshot.serviceUserNote }

/-- The PAID order of a settled checkout. -/
def orderOfSettledCheckout (checkoutId : ℕ) (c : CheckoutSession) (paymentId now : ℕ) : Order :=
  soldOrder c.productSnapshot
    { userId := c.userId
      checkoutSessionId := some checkoutId
      type := resolveOrderType c
      status := .PAID
      productId := c.productId
      serviceId := c.serviceId
      paymentId := some paymentId
      originalPriceToman := c.originalPriceToman
      discountAmountToman := c.discountAmountToman
      finalPriceToman := c.finalPriceToman
      discountCodeId := c.discountCodeId
      createdAt := now
      paidAt := some now }

theorem orderOfSettledCheckout_checkout (cid pid now : ℕ) (c : CheckoutSession) :
    (orderOfSettledCheckout cid c pid now).checkoutSessionId = some cid := rfl

/-! ### Duplicate successes -/

structure DuplicateSuccessInput where
  checkoutSessionId : ℕ
  duplicatePaymentId : ℕ
  primaryPaymentId : Option ℕ
  userId : ℕ
  expectedAmountToman : ℤ
  safeReason : String

/-- `slice(0, 200)`. -/
def slice200 (s : String) : String := String.ofList (s.toList.take 200)

def findCaseForDuplicatePayment (paymentId : ℕ) : App (Option FinancialReconciliationCase) :=
  select fun v => v.rows (.reconciliation paymentId)

/-- `financialReconciliationCase.create`; `false` is P2002 on the unique `duplicatePaymentId`. -/
def createCase (paymentId : ℕ) (c : FinancialReconciliationCase) : App ℕ :=
  update (.reconciliation paymentId) (onFree c)

/-- Find or create the one case of a payment; a lost race resolves to the winner. -/
def findOrCreateCase (paymentId : ℕ) (c : FinancialReconciliationCase) :
    App (Except Unit (FinancialReconciliationCase × Bool)) := do
  let existing ← findCaseForDuplicatePayment paymentId
  if let some e := existing then
    return .ok (e, false)
  let created ← createCase paymentId c
  if created = 1 then
    return .ok (c, true)
  let winner ← findCaseForDuplicatePayment paymentId
  match winner with
  | some w => return .ok (w, false)
  | none => return .error ()

/-- Files one reconciliation case for a duplicate successful payment and marks the payment's local
    settlement, in one transaction. -/
def recordDuplicateSuccess (input : DuplicateSuccessInput) :
    App (Except Unit (FinancialReconciliationCase × Bool)) :=
  transaction do
    let _ ← updatePayment input.duplicatePaymentId (fun p => p.settlementStatus = .UNSETTLED)
      fun p => { p with
        settlementStatus := .DUPLICATE_SUCCESS_REVIEW
        settlementReason := some (slice200 input.safeReason) }
    findOrCreateCase input.duplicatePaymentId
      { type := .DUPLICATE_CHECKOUT_PAYMENT
        checkoutSessionId := input.checkoutSessionId
        primaryPaymentId := input.primaryPaymentId
        userId := input.userId
        expectedAmountToman := input.expectedAmountToman
        safeReason := slice200 input.safeReason }

/-! ### The settlement of one gateway payment -/

/-- What the settlement transaction throws. -/
inductive SettleThrow
  | duplicateSuccess (ownerPaymentId : Option ℕ) (checkoutStatus : CheckoutStatus)
  | abortToAlready
  | settleAbort (reason : String)
  | crash
  deriving DecidableEq, Repr

inductive SettleOutcome
  | settled (payment : Payment) (order : Option (ℕ × Order)) (purpose : PaymentPurpose)
  | already (payment : Payment) (order : Option (ℕ × Order)) (purpose : PaymentPurpose)
  | failed (status : PaymentStatus)
  | pending
  | duplicate (payment : Payment) (reconciliationCase : FinancialReconciliationCase)
      (created : Bool)
  | error (error : String)
  | threw
  deriving DecidableEq, Repr

/-- `FAILED_STATUSES`. -/
def isFailedStatus : PaymentStatus → Bool
  | .REJECTED | .FAILED | .EXPIRED | .CANCELLED | .DELETED => true
  | _ => false

/-- "already" outcome: the payment settled before - load its order. -/
def alreadyOutcome (payment : Payment) : App SettleOutcome := do
  if payment.purpose ≠ .ORDER_PAYMENT then
    return .already payment none payment.purpose
  match payment.orderId, payment.checkoutSessionId with
  | some id, _ =>
    let o ← findOrder id
    return .already payment (o.map fun o => (id, o)) payment.purpose
  | none, some c =>
    let o ← findOrderOfCheckout c
    return .already payment o payment.purpose
  | none, none => return .already payment none payment.purpose

/-- The data of the claim: the checkout is PAID and owned. -/
def claimedCheckout (paymentId now : ℕ) (c : CheckoutSession) : CheckoutSession :=
  { c with settledByPaymentId := some paymentId, status := .PAID, paidAt := some now }

/-- The data of the settlement's approval. -/
def settledPayment (now : ℕ) (p : Payment) : Payment :=
  { p with
    status := .APPROVED
    paidAt := some now
    reviewedAt := some now
    settlementStatus := .SETTLED
    settledAt := some now }

/-- The atomic cross-provider claim: compare-and-set on an unowned PENDING checkout; `ok` also when
    this payment owns it already. -/
def claimCheckout (checkoutId paymentId now : ℕ) : App (Except SettleThrow Unit) := do
  let claimed ← updateCheckout checkoutId
    (fun c => c.settledByPaymentId = none ∧ c.status = .PENDING) (claimedCheckout paymentId now)
  if claimed = 1 then
    return .ok ()
  let fresh ← findCheckout checkoutId
  match fresh with
  | none => return .error (.settleAbort "checkout disappeared during settlement")
  | some f =>
    if f.settledByPaymentId = some paymentId then
      return .ok ()
    return .error (.duplicateSuccess f.settledByPaymentId f.status)

/-- The first ledger row of a payment's top-up. -/
def findTopup (journal : List Entry) (paymentId : ℕ) : Option WalletTransaction :=
  journal.findSome? fun
    | .wallet w =>
      if w.relatedPaymentId = some paymentId ∧ w.reason = .WALLET_TOPUP_CARD_TO_CARD then some w
      else none
    | .draft _ | .openPayment _ | .commission _ => none

/-- The balance of a locked user row. -/
def balanceOf (id : ℕ) : App (Option ℤ) := select fun v => (v.rows (.user id)).map (·.balanceToman)

/-- Credit a wallet top-up: the increment, then the ledger row from the balance it left. -/
def creditTopup (paymentId userId : ℕ) (amountToman : ℤ) : App (Except SettleThrow ℤ) := do
  let credited ← updateUser userId (fun _ => true) fun u =>
    { u with
      balanceToman := u.balanceToman + amountToman
      totalChargedToman := u.totalChargedToman + amountToman }
  if credited = 0 then
    return .error .crash
  let balance ← balanceOf userId
  match balance with
  | none => return .error .crash
  | some balanceAfter =>
    createWalletTransaction
      { userId := userId
        amountToman := amountToman
        type := .CHARGE
        source := .USER_PAYMENT
        reason := .WALLET_TOPUP_CARD_TO_CARD
        relatedPaymentId := some paymentId
        balanceBeforeToman := balanceAfter - amountToman
        balanceAfterToman := balanceAfter }
    return .ok balanceAfter

/-- Order creation with the unique-constraint backstop: a lost race reuses the winner. -/
def createOrderIdempotent (checkoutId userId orderId : ℕ) (data : Order) :
    App (Except SettleThrow ((ℕ × Order) × Bool)) := do
  let created ← createOrder orderId data
  if created then
    return .ok ((orderId, data), true)
  let winner ← findOrderOfCheckout checkoutId
  match winner with
  | some (id, w) =>
    if w.userId = userId then
      return .ok ((id, w), false)
    return .error .crash
  | none => return .error .crash

/-- The order found, or a new one. -/
def reuseOrCreate (existing : Option (ℕ × Order)) (checkoutId userId orderId : ℕ) (data : Order) :
    App (Except SettleThrow ((ℕ × Order) × Bool)) :=
  match existing with
  | some o => return .ok (o, false)
  | none => createOrderIdempotent checkoutId userId orderId data

/-- The user counters that move with the one order of a checkout. -/
def countOrder (finalPriceToman : ℤ) (u : User) : User :=
  { u with
    ordersCount := u.ordersCount + 1
    paidOrdersCount := u.paidOrdersCount + 1
    totalPurchaseAmountToman := u.totalPurchaseAmountToman + finalPriceToman }

/-- A settled order whose reservation could not be bound: one durable case, unless the payment has
    one. -/
def fileServiceUsernameUnboundCase (checkoutId paymentId userId : ℕ) (expectedAmountToman : ℤ)
    (safeReason : String) : App (Except Unit (FinancialReconciliationCase × Bool)) :=
  findOrCreateCase paymentId
    { type := .SERVICE_USERNAME_UNBOUND
      checkoutSessionId := checkoutId
      primaryPaymentId := none
      userId := userId
      expectedAmountToman := expectedAmountToman
      safeReason := slice200 safeReason }

/-- What a newly created order brings: the reservation bind (a failure files a case), the link from
    the payment and the user's counters. -/
def linkCreatedOrder (checkoutId paymentId orderId : ℕ) (c : CheckoutSession) :
    App (Except SettleThrow Unit) := do
  let bound ← external
  if ¬ bound then
    let filed ← fileServiceUsernameUnboundCase checkoutId paymentId c.userId c.finalPriceToman
      "gateway settlement reservation bind failed"
    if let .error _ := filed then
      return .error .crash
  let linked ← updatePayment paymentId (fun _ => true) fun p => { p with orderId := some orderId }
  if linked = 0 then
    return .error .crash
  let counted ← updateUser c.userId (fun _ => true) (countOrder c.finalPriceToman)
  if counted = 0 then
    return .error .crash
  return .ok ()

/-- The order of a claimed checkout: created once, or the existing one linked. -/
def settleOrder (checkoutId paymentId : ℕ) (c : CheckoutSession) (payment : Payment) (now : ℕ) :
    App (Except SettleThrow (ℕ × Order)) := do
  let existing ← findOrderOfCheckout checkoutId
  let orderId ← freshId
  let result ← reuseOrCreate existing checkoutId c.userId orderId
    (orderOfSettledCheckout checkoutId c paymentId now)
  match result with
  | .error e => return .error e
  | .ok (order, true) =>
    let linked ← linkCreatedOrder checkoutId paymentId order.1 c
    match linked with
    | .error e => return .error e
    | .ok () => return .ok order
  | .ok (order, false) =>
    if payment.orderId ≠ none then
      return .ok order
    let linked ← updatePayment paymentId (fun _ => true) fun p =>
      { p with orderId := some order.1 }
    if linked = 0 then
      return .error .crash
    return .ok order

/-- Discount finalization of the gateway path: a failed claim keeps the settlement and flags the
    order. -/
def finalizeGatewayDiscount (c : CheckoutSession) (orderId : ℕ) : App (Except SettleThrow Unit) := do
  if c.discountCodeId = none ∨ c.discountAmountToman ≤ 0 then
    return .ok ()
  let claimed ← external
  if claimed then
    return .ok ()
  let note := "discount usage cap exceeded after external payment - manual review"
  let flagged ← updateOrder orderId (fun _ => true) fun o => { o with adminNote := some note }
  if flagged = 0 then
    return .error .crash
  return .ok ()

/-- The settlement transaction. -/
def settleTransaction (checkoutId paymentId : ℕ) (c : CheckoutSession) (payment : Payment)
    (now : ℕ) : App (Except SettleThrow (Option (ℕ × Order))) := transaction do
  let claimed ← claimCheckout checkoutId paymentId now
  if let .error e := claimed then
    return .error e
  let flipped ← updatePayment paymentId isOpen (settledPayment now)
  if flipped = 0 then
    return .error .abortToAlready
  if payment.purpose = .WALLET_CHARGE then
    let existing ← select fun v => findTopup v.journal paymentId
    if existing ≠ none then
      return .ok none
    let credited ← creditTopup paymentId payment.userId payment.amountToman
    match credited with
    | .error e => return .error e
    | .ok _ => return .ok none
  let settled ← settleOrder checkoutId paymentId c payment now
  match settled with
  | .error e => return .error e
  | .ok order =>
    let finalized ← finalizeGatewayDiscount c order.1
    match finalized with
    | .error e => return .error e
    | .ok () => return .ok (some order)

/-- The text of a checkout status in a case's reason. -/
def checkoutStatusText : CheckoutStatus → String
  | .PENDING => "PENDING"
  | .PAID => "PAID"
  | .EXPIRED => "EXPIRED"
  | .CANCELLED => "CANCELLED"
  | .FAILED_REFUNDED => "FAILED_REFUNDED"
  | .COMPLETED => "COMPLETED"

/-- File a duplicate success and answer with its case. -/
def duplicateOutcome (checkoutId paymentId : ℕ) (payment : Payment) (primary : Option ℕ)
    (reason : String) : App SettleOutcome := do
  let record ← recordDuplicateSuccess
    { checkoutSessionId := checkoutId
      duplicatePaymentId := paymentId
      primaryPaymentId := primary
      userId := payment.userId
      expectedAmountToman := payment.amountToman
      safeReason := reason }
  match record with
  | .error _ => return .threw
  | .ok (c, created) =>
    let fresh ← findPayment paymentId
    return .duplicate (fresh.getD payment) c created

/-- The answer to a settlement transaction that committed or threw. -/
def settleResult (checkoutId paymentId : ℕ) (payment : Payment) :
    Except SettleThrow (Option (ℕ × Order)) → App SettleOutcome
  | .ok order => do
    let settled ← findPayment paymentId
    return .settled (settled.getD payment) order payment.purpose
  | .error .abortToAlready => do
    let fresh ← findPayment paymentId
    match fresh with
    | none => return .pending
    | some p =>
      if p.status = .APPROVED then
        alreadyOutcome p
      else if isFailedStatus p.status then
        return .failed p.status
      else
        return .pending
  | .error (.duplicateSuccess owner status) =>
    duplicateOutcome checkoutId paymentId payment owner
      (if owner ≠ none then
        "duplicate provider success: checkout already settled by another payment"
      else "checkout not claimable (status " ++ checkoutStatusText status ++
        ") with no recorded owner")
  | .error (.settleAbort reason) => return .error reason
  | .error .crash => return .error "خطایی رخ داد. لطفاً دوباره تلاش کنید."

/-- The settlement proper, after the provider's success is known: the amount guard, the
    customer-info gate, the transaction and what its exceptions become. -/
def settleVerified (checkoutId paymentId : ℕ) (c : CheckoutSession) (payment : Payment) :
    App SettleOutcome := do
  if payment.amountToman ≠ payment.payableAmountToman ∨ payment.amountToman ≠ c.finalPriceToman then
    return .error "payment/checkout amount mismatch"
  let infoMissing ← external
  if infoMissing then
    return .error "customer info not submitted"
  let now ← now
  let result ← settleTransaction checkoutId paymentId c payment now
  settleResult checkoutId paymentId payment result

/-- Without a recorded SUCCESS: Zarinpal payments are verified on demand, the others wait for their
    event. `none` goes on to settle. -/
def verifyOnDemand (paymentId : ℕ) (payment : Payment) : App (Option SettleOutcome) := do
  if payment.providerStatus = some .SUCCESS then
    return none
  if payment.provider ≠ some .ZARINPAL ∨ payment.authority = none then
    return some .pending
  let configured ← external
  if ¬ configured then
    return some .pending
  let verification ← ask (·.verification)
  match verification with
  | .success transactionId =>
    recordProviderSuccessFromBot paymentId transactionId
    return none
  | .failed =>
    let _ ← updatePayment paymentId isOpen fun p => { p with status := .FAILED }
    return some (.failed .FAILED)
  | .uncertain => return some .pending

/-- Settles ONE gateway payment. -/
def settleGatewayPayment (paymentId : ℕ) : App SettleOutcome := do
  let some payment ← findPayment paymentId
    | return .error "payment not found or not a gateway payment"
  let checkout ← select fun v => payment.checkoutSessionId.bind fun c =>
    (v.rows (.checkout c)).map fun row => (c, row)
  if payment.provider = none then
    return .error "payment not found or not a gateway payment"
  if payment.purpose ≠ .ORDER_PAYMENT ∧ payment.purpose ≠ .WALLET_CHARGE then
    return .error "unsupported payment purpose"
  let some (checkoutId, c) := checkout | return .error "payment has no checkout session"
  if payment.status = .APPROVED then
    alreadyOutcome payment
  else if isFailedStatus payment.status then
    return .failed payment.status
  else if payment.status = .PENDING_REVIEW then
    return .error "payment is in manual review"
  else if payment.settlementStatus = .DUPLICATE_SUCCESS_REVIEW then
    let existingCase ← findCaseForDuplicatePayment paymentId
    match existingCase with
    | some e => return .duplicate payment e false
    | none =>
      duplicateOutcome checkoutId paymentId payment none
        "duplicate review marker found without a case - refiled"
  else
    let verified ← verifyOnDemand paymentId payment
    match verified with
    | some outcome => return outcome
    | none => settleVerified checkoutId paymentId c payment

/-! ### The settlement sweep -/

/-- The selection of the sweep's first pass. -/
def selectedByPass1 (p : Payment) : Bool :=
  isOnlineProvider p.provider ∧ p.providerStatus = some .SUCCESS ∧ isOpen p ∧
    p.settlementStatus = .UNSETTLED

/-- One sweep: settle the selected payments one by one, then expire the stale ones. What it does
    with the outcomes (fulfilment, notices) is not a write of this model. -/
def runGatewaySettlementSweep : App Unit := do
  let scanned ← ask (·.ids)
  let ready ← select fun v => scanned.filter fun id =>
    match v.rows (.payment id) with
    | some p => selectedByPass1 p
    | none => false
  forEach (fun id => do
    let _ ← settleGatewayPayment id
    return ()) (ready.take 20)
  let stale ← ask (·.ids)
  let _ ← expireStalePayments stale
  return ()

end ZedBot
