import ZedBot.Payments.WalletOrders

/-! How a payment of a checkout comes into being: the one gateway payment of a checkout and gateway,
    and the receipt of a card transfer. Whether an adapter is there and what it answers is left to
    the oracle. -/

namespace ZedBot
open ReadCommitted

/-- The columns of a gateway row that payments read. -/
structure PaymentGateway where
  id : ℕ
  type : PaymentGatewayType
  isEnabled : Bool
  deriving DecidableEq, Repr

/-- The purpose of a payment mirrors its checkout's. -/
def paymentPurpose (c : CheckoutSession) : PaymentPurpose :=
  if c.purpose = .WALLET_CHARGE then .WALLET_CHARGE else .ORDER_PAYMENT

/-- `payment.create` of an open payment; `false` is P2002 on the key. -/
def createOpenPayment (id : ℕ) (key : IdempotencyKey) (p : Payment) : App Bool := sql fun v =>
  match v.rows (.payment id), v.rows (.paymentOfKey key) with
  | none, none =>
    { result := true
      writes := [⟨.payment id, some { p with idempotencyKey := some key }⟩,
        ⟨.paymentOfKey key, some id⟩]
      entries := [.openPayment id] }
  | _, _ => { result := false }

def gatewayPayment (userId checkoutId : ℕ) (c : CheckoutSession) (gateway : PaymentGateway)
    (now : ℕ) : Payment where
  userId := userId
  checkoutSessionId := some checkoutId
  purpose := paymentPurpose c
  status := .PENDING
  amountToman := c.finalPriceToman
  payableAmountToman := c.finalPriceToman
  provider := some gateway.type
  expiresAt := some c.expiresAt
  createdAt := now

/-- A dead attempt that never saw a provider success. -/
def isRevivable (p : Payment) : Bool :=
  (p.status = .FAILED ∨ p.status = .CANCELLED ∨ p.status = .EXPIRED) ∧
    p.providerStatus ≠ some .SUCCESS

/-- The `where` of a revival: `NOT` of a comparison with a null is unknown. -/
def canRevive (p : Payment) : Bool := isRevivable p ∧ p.providerStatus ≠ none

/-- The data of the revival. -/
def revivedPayment (expiresAt : ℕ) (p : Payment) : Payment :=
  { p with
    status := .PENDING
    providerStatus := none
    authority := none
    externalReference := none
    externalTransactionId := none
    expiresAt := some expiresAt }

/-- The unique-index entries of the provider's handles of a payment, cleared. -/
def clearedHandles (p : Payment) : List (Write Row) :=
  (p.authority.toList.map fun a => ⟨.paymentOfAuthority a, none⟩) ++
    p.externalTransactionId.toList.map fun x => ⟨.paymentOfCharge p.provider x, none⟩

/-- The revival of a dead attempt: PENDING again, without the handles of the provider. -/
def revivePayment (id expiresAt : ℕ) : App ℕ := sql fun v =>
  match v.rows (.payment id) with
  | some p =>
    if canRevive p then
      { result := 1
        writes := ⟨.payment id, some (revivedPayment expiresAt p)⟩ :: clearedHandles p
        entries := [.openPayment id] }
    else { result := 0 }
  | none => { result := 0 }

def findPaymentOfKey (key : IdempotencyKey) : App (Option (ℕ × Payment)) := select fun v =>
  (v.rows (.paymentOfKey key)).bind fun id => (v.rows (.payment id)).map fun p => (id, p)

/-- The one payment row of a checkout and gateway. -/
def loadOrCreatePaymentRow (userId checkoutId : ℕ) (c : CheckoutSession)
    (gateway : PaymentGateway) : App (Option (ℕ × Payment)) := do
  let key := IdempotencyKey.gateway checkoutId gateway.id
  let id ← freshId
  let now ← now
  let p := gatewayPayment userId checkoutId c gateway now
  let created ← createOpenPayment id key p
  if created then
    return some (id, { p with idempotencyKey := some key })
  let found ← findPaymentOfKey key
  let some (rowId, row) := found | return none
  if row.status = .PENDING then
    return some (rowId, row)
  let revived ← revivePayment rowId c.expiresAt
  if revived = 0 then
    return none
  let fresh ← findPayment rowId
  return fresh.map fun p => (rowId, p)

/-- What the adapter answers to a creation: a handle, or a failure. -/
def createAtProvider : App (Option String) := do
  let created ← external
  let authority ← ask (·.text)
  if ¬ created ∨ authority = "" then
    return none
  return some authority

/-- The handle of a payment, with its unique-index entry; refused when another row holds it. -/
def updateAuthority (id : ℕ) (authority : String) : App UpdateResult := sql fun v =>
  match v.rows (.payment id), v.rows (.paymentOfAuthority authority) with
  | none, _ => { result := .recordNotFound }
  | some _, some other => { result := if other = id then .updated else .uniqueViolation }
  | some p, none =>
    { result := .updated
      writes := [⟨.payment id, some { p with authority := some authority }⟩,
        ⟨.paymentOfAuthority authority, some id⟩] }

/-- Returns or creates the gateway payment of a checkout; `none` is unavailable. -/
def getOrCreateGatewayPayment (userId checkoutId : ℕ) (c : CheckoutSession)
    (gateway : PaymentGateway) : App (Option ℕ) := do
  if ¬ gateway.isEnabled ∨ ¬ isOnlineProvider (some gateway.type) then
    return none
  let available ← external
  if ¬ available then
    return none
  let existing ← findPaymentOfKey (.gateway checkoutId gateway.id)
  let reusable ← external
  let now ← now
  if let some (id, p) := existing then
    if p.status = .PENDING ∧ p.authority ≠ none ∧ p.expiresAt.all (now < ·) ∧ reusable then
      return some id
  let payment ← loadOrCreatePaymentRow userId checkoutId c gateway
  let some (id, p) := payment | return none
  if p.authority ≠ none ∧ reusable then
    return some id
  let created ← createAtProvider
  match created with
  | none =>
    let _ ← updatePayment id (fun p => p.status = .PENDING) fun p => { p with status := .FAILED }
    return none
  | some authority =>
    let _ ← updateAuthority id authority
    return some id

def receiptPayment (userId checkoutId : ℕ) (c : CheckoutSession) (now : ℕ) : Payment where
  userId := userId
  checkoutSessionId := some checkoutId
  purpose := paymentPurpose c
  status := .PENDING_REVIEW
  amountToman := c.finalPriceToman
  payableAmountToman := c.finalPriceToman
  expiresAt := some c.expiresAt
  createdAt := now

/-- The payment of a receipt and the receipt itself. -/
def createReceiptPayment (id : ℕ) (p : Payment) : App Bool := sql fun v =>
  match v.rows (.payment id) with
  | some _ => { result := false }
  | none =>
    { result := true
      writes := [⟨.payment id, some p⟩, ⟨.receipts id, [.PENDING_REVIEW]⟩]
      entries := [.openPayment id] }

/-- The checkout has a payment in review. -/
def hasPendingReview (v : AppView) (checkoutId : ℕ) : Bool :=
  (openPaymentIds v.journal).any fun pid =>
    match v.rows (.payment pid) with
    | some p => p.checkoutSessionId = some checkoutId ∧ p.status = .PENDING_REVIEW
    | none => false

/-- Records a manual receipt, unless the checkout has one in review. -/
def submitReceipt (userId checkoutId : ℕ) (c : CheckoutSession) : App (Except Unit ℕ) := do
  let existing ← select fun v => hasPendingReview v checkoutId
  if existing then
    return .error ()
  let now ← now
  transaction do
    let id ← freshId
    let created ← createReceiptPayment id (receiptPayment userId checkoutId c now)
    if ¬ created then
      return .error ()
    return .ok id

end ZedBot
