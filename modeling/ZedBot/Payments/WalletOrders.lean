import ZedBot.Payments.Receipts

/-! Orders paid from the wallet: the one settlement transaction, with its replay lookup by
    idempotency key, and the materialization of a pending personalized checkout. -/

namespace ZedBot
open ReadCommitted

/-- Reason code for a settlement that did not happen. -/
inductive WalletSettlementFailure
  | INVALID_FINANCIAL_INPUT | USER_NOT_ACTIVE | WALLET_DISABLED | DRAFT_STALE | RESERVATION_STALE
  | INSUFFICIENT_BALANCE | DISCOUNT_CHANGED | IDEMPOTENCY_CONFLICT
  deriving DecidableEq, Repr

structure WalletSettlementSuccess where
  order : ℕ × Order
  payment : ℕ × Payment
  checkout : ℕ × CheckoutSession
  walletTransaction : WalletTransaction
  newBalanceToman : ℤ
  alreadyPaid : Bool
  deriving DecidableEq, Repr

/-- `threw` stands for an exception that leaves the function. -/
inductive WalletSettlementResult
  | ok (success : WalletSettlementSuccess)
  | fail (code : WalletSettlementFailure)
  | threw
  deriving DecidableEq, Repr

structure WalletSettlementArgs where
  userId : ℕ
  orderType : OrderType
  productId : ℕ
  serviceId : Option ℕ
  snapshot : ProductSnapshot
  originalPriceToman : ℤ
  discountAmountToman : ℤ
  finalPriceToman : ℤ
  discountCodeId : Option ℕ
  idempotencyKey : IdempotencyKey
  existingCheckoutId : Option ℕ := none
  /-- The caller passed an `isExistingCheckoutSettleable` gate. -/
  gatesExistingCheckout : Bool := false
  /-- The caller passed a `claimReservation` step. -/
  claimsReservation : Bool := false
  deriving DecidableEq, Repr

/-- Validate every monetary value at the settlement boundary. -/
def hasValidFinancialInvariant (args : WalletSettlementArgs) : Bool :=
  isSafeInteger args.originalPriceToman ∧ isSafeInteger args.discountAmountToman ∧
    isSafeInteger args.finalPriceToman ∧
    0 < args.originalPriceToman ∧ 0 ≤ args.discountAmountToman ∧ 0 < args.finalPriceToman ∧
    args.discountAmountToman ≤ args.originalPriceToman ∧
    args.originalPriceToman - args.discountAmountToman = args.finalPriceToman ∧
    args.snapshot.originalPriceToman = some args.originalPriceToman ∧
    args.snapshot.discountAmountToman = some args.discountAmountToman ∧
    args.snapshot.finalPriceToman = some args.finalPriceToman

/-- The digest of everything an idempotency key promises. -/
def settlementPayloadFingerprint (args : WalletSettlementArgs) : Fingerprint where
  userId := args.userId
  orderType := args.orderType
  productId := args.productId
  serviceId := args.serviceId
  originalPriceToman := args.originalPriceToman
  discountAmountToman := args.discountAmountToman
  finalPriceToman := args.finalPriceToman
  discountCodeId := args.discountCodeId
  existingCheckoutId := args.existingCheckoutId

/-- The ledger row of a wallet-paid order. -/
def findSpend (journal : List Entry) (paymentId : ℕ) : Option WalletTransaction :=
  journal.findSome? fun
    | .wallet w =>
      if w.relatedPaymentId = some paymentId ∧ w.reason = .WALLET_ORDER_PAYMENT then some w
      else none
    | .draft _ | .openPayment _ | .commission _ => none

/-- Loads the settled result of a previously executed idempotency key, and its fingerprint. -/
def loadExistingSettlement (key : IdempotencyKey) :
    App (Option (WalletSettlementSuccess × Option Fingerprint)) := do
  let found ← select fun v => (v.rows (.paymentOfKey key)).bind fun id =>
    (v.rows (.payment id)).map fun p => (id, p)
  let some (paymentId, payment) := found | return none
  let some orderId := payment.orderId | return none
  let some checkoutId := payment.checkoutSessionId | return none
  let order ← findOrder orderId
  let checkout ← findCheckout checkoutId
  let spend ← select fun v => findSpend v.journal paymentId
  match order, checkout, spend with
  | some o, some c, some w =>
    return some
      ({ order := (orderId, o)
         payment := (paymentId, payment)
         checkout := (checkoutId, c)
         walletTransaction := w
         newBalanceToman := w.balanceAfterToman
         alreadyPaid := true }, payment.payloadFingerprint)
  | _, _, _ => return none

/-- The answer to a replayed key: the first result, unless the stored fingerprint differs. -/
def replayResult (fingerprint : Fingerprint)
    (existing : WalletSettlementSuccess × Option Fingerprint) : WalletSettlementResult :=
  if existing.2 ≠ none ∧ existing.2 ≠ some fingerprint then .fail .IDEMPOTENCY_CONFLICT
  else .ok existing.1

/-- What the settlement transaction throws. -/
inductive SettlementThrow
  | abort (code : WalletSettlementFailure)
  | p2002
  | crash
  deriving DecidableEq, Repr

/-- `checkoutSession.create`. -/
def createCheckout (id : ℕ) (c : CheckoutSession) : App ℕ := update (.checkout id) (onFree c)

/-- `payment.create` with an idempotency key; `false` is P2002 on the key (or the id). -/
def createKeyedPayment (id : ℕ) (key : IdempotencyKey) (p : Payment) : App Bool := sql fun v =>
  match v.rows (.payment id), v.rows (.paymentOfKey key) with
  | none, none =>
    { result := true
      writes := [⟨.payment id, some { p with idempotencyKey := some key }⟩,
        ⟨.paymentOfKey key, some id⟩] }
  | _, _ => { result := false }

/-- The data of the flip of an existing checkout. -/
def paidCheckout (now : ℕ) (c : CheckoutSession) : CheckoutSession :=
  { c with status := .PAID, paidAt := some now }

/-- The new PAID checkout of a settlement. -/
def walletCheckout (args : WalletSettlementArgs) (minutes now : ℕ) : CheckoutSession where
  userId := args.userId
  purpose := .ORDER_PAYMENT
  productId := some args.productId
  serviceId := args.serviceId
  orderType := some args.orderType
  productSnapshot := args.snapshot
  originalPriceToman := args.originalPriceToman
  discountAmountToman := args.discountAmountToman
  finalPriceToman := args.finalPriceToman
  discountCodeId := args.discountCodeId
  status := .PAID
  paidAt := some now
  expiresAt := now + minutes * 60000

/-- The checkout of the settlement: the existing one, flipped PAID under a strict identity and price
    guard, or a new PAID one. -/
def settlementCheckout (args : WalletSettlementArgs) (minutes now : ℕ) :
    App (Except SettlementThrow (ℕ × CheckoutSession)) := do
  match args.existingCheckoutId with
  | some id =>
    let flipped ← updateCheckout id
      (fun c => c.userId = args.userId ∧ c.purpose = .ORDER_PAYMENT ∧
        c.orderType = some args.orderType ∧ c.productId = some args.productId ∧
        c.finalPriceToman = args.finalPriceToman ∧ c.status = .PENDING ∧
        c.settledByPaymentId = none ∧ now < c.expiresAt)
      (paidCheckout now)
    if flipped ≠ 1 then
      return .error (.abort .DRAFT_STALE)
    let checkout ← findCheckout id
    match checkout with
    | some c => return .ok (id, c)
    | none => return .error .crash
  | none =>
    let id ← freshId
    let c := walletCheckout args minutes now
    let created ← createCheckout id c
    if created = 0 then
      return .error .p2002
    return .ok (id, c)

/-- The wallet payment of a settlement. -/
def walletPayment (args : WalletSettlementArgs) (checkoutId now : ℕ) : Payment where
  userId := args.userId
  checkoutSessionId := some checkoutId
  purpose := .PAY_WITH_WALLET
  status := .APPROVED
  amountToman := args.finalPriceToman
  payableAmountToman := args.finalPriceToman
  paidAt := some now
  payloadFingerprint := some (settlementPayloadFingerprint args)
  settlementStatus := .SETTLED
  settledAt := some now
  createdAt := now

/-- The PAID order of a settlement. -/
def walletOrder (args : WalletSettlementArgs) (checkoutId paymentId now : ℕ) : Order :=
  soldOrder args.snapshot
    { userId := args.userId
      checkoutSessionId := some checkoutId
      type := args.orderType
      status := .PAID
      productId := some args.productId
      serviceId := args.serviceId
      paymentId := some paymentId
      originalPriceToman := args.originalPriceToman
      discountAmountToman := args.discountAmountToman
      finalPriceToman := args.finalPriceToman
      discountCodeId := args.discountCodeId
      createdAt := now
      paidAt := some now }

/-- The counters of a wallet-paid order and the deduction. -/
def deductOrder (args : WalletSettlementArgs) (u : User) : User :=
  { u with
    balanceToman := u.balanceToman - args.finalPriceToman
    totalSpentToman := u.totalSpentToman + args.finalPriceToman
    totalDiscountToman :=
      if 0 < args.discountAmountToman then u.totalDiscountToman + args.discountAmountToman
      else u.totalDiscountToman
    ordersCount := u.ordersCount + 1
    paidOrdersCount := u.paidOrdersCount + 1
    totalPurchaseAmountToman := u.totalPurchaseAmountToman + args.finalPriceToman }

/-- The atomic check-and-deduct and its ledger row, from the balance read back under the lock. -/
def deductBalance (args : WalletSettlementArgs) (orderId paymentId : ℕ) :
    App (Except SettlementThrow WalletTransaction) := do
  let deducted ← updateUser args.userId (fun u => args.finalPriceToman ≤ u.balanceToman)
    (deductOrder args)
  if deducted ≠ 1 then
    return .error (.abort .INSUFFICIENT_BALANCE)
  let balance ← balanceOf args.userId
  match balance with
  | none => return .error .crash
  | some balanceAfter =>
    let w : WalletTransaction :=
      { userId := args.userId
        amountToman := args.finalPriceToman
        type := .SPEND
        source := .ORDER
        reason := .WALLET_ORDER_PAYMENT
        relatedOrderId := some orderId
        relatedPaymentId := some paymentId
        balanceBeforeToman := balanceAfter + args.finalPriceToman
        balanceAfterToman := balanceAfter }
    createWalletTransaction w
    return .ok w

/-- The buyer may pay: an ACTIVE account, and the reservation claimed where one is needed. -/
def checkPayer (args : WalletSettlementArgs) : App (Except SettlementThrow Unit) := do
  let payer ← findUser args.userId
  match payer with
  | none => return .error (.abort .USER_NOT_ACTIVE)
  | some u =>
    if u.status ≠ .ACTIVE then
      return .error (.abort .USER_NOT_ACTIVE)
    if args.claimsReservation then
      let claimed ← external
      if ¬ claimed then
        return .error (.abort .RESERVATION_STALE)
      return .ok ()
    else
      return .ok ()

/-- The settlement transaction. -/
def walletTransactionBody (args : WalletSettlementArgs) (minutes now : ℕ) :
    App (Except SettlementThrow WalletSettlementSuccess) := transaction do
  let checkout ← settlementCheckout args minutes now
  match checkout with
  | .error e => return .error e
  | .ok (checkoutId, c) =>
    let paymentId ← freshId
    let payment := walletPayment args checkoutId now
    let paid ← createKeyedPayment paymentId args.idempotencyKey payment
    if ¬ paid then
      return .error .p2002
    let owned ← updateCheckout checkoutId (fun _ => true) fun c =>
      { c with settledByPaymentId := some paymentId }
    if owned = 0 then
      return .error .crash
    let orderId ← freshId
    let order := walletOrder args checkoutId paymentId now
    let ordered ← createOrder orderId order
    if ¬ ordered then
      return .error .p2002
    let payer ← checkPayer args
    if let .error e := payer then
      return .error e
    let linked ← updatePayment paymentId (fun _ => true) fun p => { p with orderId := some orderId }
    if linked = 0 then
      return .error .crash
    let deducted ← deductBalance args orderId paymentId
    match deducted with
    | .error e => return .error e
    | .ok w =>
      let success : WalletSettlementSuccess :=
        { order := (orderId, order)
          payment := (paymentId, { payment with
            idempotencyKey := some args.idempotencyKey, orderId := some orderId })
          checkout := (checkoutId, c)
          walletTransaction := w
          newBalanceToman := w.balanceAfterToman
          alreadyPaid := false }
      if args.discountCodeId = none ∨ args.discountAmountToman ≤ 0 then
        return .ok success
      let claimed ← external
      if ¬ claimed then
        return .error (.abort .DISCOUNT_CHANGED)
      return .ok success

/-- Settles one wallet payment, atomically and exactly once. -/
def settleWalletOrder (args : WalletSettlementArgs) : App WalletSettlementResult := do
  if ¬ hasValidFinancialInvariant args then
    return .fail .INVALID_FINANCIAL_INPUT
  let fingerprint := settlementPayloadFingerprint args
  let existing ← loadExistingSettlement args.idempotencyKey
  if let some e := existing then
    return replayResult fingerprint e
  let enabled ← external
  if ¬ enabled then
    return .fail .WALLET_DISABLED
  let settleable ← external
  if args.existingCheckoutId ≠ none ∧ args.gatesExistingCheckout ∧ ¬ settleable then
    return .fail .DRAFT_STALE
  let minutes ← ask (·.number)
  let now ← now
  let result ← walletTransactionBody args minutes now
  match result with
  | .ok success => return .ok success
  | .error (.abort code) => return .fail code
  | .error .p2002 =>
    let settled ← loadExistingSettlement args.idempotencyKey
    match settled with
    | some e => return replayResult fingerprint e
    | none => return .threw
  | .error .crash => return .threw

/-! ### The pending personalized checkout -/

structure MaterializeArgs where
  userId : ℕ
  productId : ℕ
  snapshot : ProductSnapshot
  originalPriceToman : ℤ
  discountAmountToman : ℤ
  finalPriceToman : ℤ
  discountCodeId : Option ℕ

/-- A payment that may still settle. -/
def awaitsSettlement (p : Payment) : Bool :=
  p.status = .PENDING ∨ p.status = .PENDING_REVIEW ∨ p.status = .PROCESSING

/-- The ids of the payments that became open. -/
def openPaymentIds (journal : List Entry) : List ℕ :=
  journal.filterMap fun
    | .openPayment id => some id
    | .wallet _ | .draft _ | .commission _ => none

/-- Checkout `id` has a payment awaiting settlement. -/
def hasAwaitingPayment (v : AppView) (id : ℕ) : Bool :=
  (openPaymentIds v.journal).any fun pid =>
    match v.rows (.payment pid) with
    | some p => p.checkoutSessionId = some id ∧ awaitsSettlement p
    | none => false

/-- The superseded checkouts of a user and product, among the rows the scan visits: PENDING ones
    without a payment awaiting settlement. -/
def findSuperseded (args : MaterializeArgs) (checkoutIds : List ℕ) : App (List ℕ) :=
  select fun v => checkoutIds.filter fun id =>
    match v.rows (.checkout id) with
    | some c =>
      c.userId = args.userId ∧ c.productId = some args.productId ∧ c.status = .PENDING ∧
        ¬ hasAwaitingPayment v id
    | none => false

/-- `updateMany` by ids: every one of these checkouts becomes CANCELLED, whatever it is now. -/
def cancelCheckouts (ids : List ℕ) : App ℕ := sql fun v =>
  let hit := ids.filterMap fun id => (v.rows (.checkout id)).map fun c => (id, c)
  { result := hit.length
    writes := hit.map fun x => ⟨.checkout x.1, some { x.2 with status := .CANCELLED }⟩ }

/-- The fresh PENDING checkout. -/
def pendingCheckout (args : MaterializeArgs) (minutes now : ℕ) : CheckoutSession where
  userId := args.userId
  purpose := .ORDER_PAYMENT
  productId := some args.productId
  orderType := some .OTHER_PRODUCT
  productSnapshot := args.snapshot
  originalPriceToman := args.originalPriceToman
  discountAmountToman := args.discountAmountToman
  finalPriceToman := args.finalPriceToman
  discountCodeId := args.discountCodeId
  status := .PENDING
  expiresAt := now + minutes * 60000

/-- Cancels the superseded PENDING checkouts of the user and product and creates a fresh one. -/
def materializePendingOtherProductCheckout (args : MaterializeArgs) :
    App (Except Unit (ℕ × CheckoutSession)) := do
  let minutes ← ask (·.number)
  let now ← now
  transaction do
    let checkoutIds ← ask (·.ids)
    let superseded ← findSuperseded args checkoutIds
    let _ ← cancelCheckouts superseded
    let id ← freshId
    let c := pendingCheckout args minutes now
    let created ← createCheckout id c
    if created = 0 then
      return .error ()
    return .ok (id, c)

end ZedBot
