import ZedBot.MiniApp.Checkouts
import ZedBot.Payments.SettlementTx

/-! `POST /commerce/pay/wallet`: the wallet payment of a Mini App draft.

    The request carries a sealed quote. The route opens it, reads the draft again, issues a fresh
    quote for it and compares the two before it calls the settlement. A valid seal is an input here:
    a token stands for the payload it was sealed from. -/

namespace ZedBot
open ReadCommitted

inductive CommerceOperation
  | NEW_PURCHASE | RENEWAL | EXTRA_VOLUME | EXTRA_TIME
  deriving DecidableEq, Repr

/-- `operationOfOrderType`. -/
def operationOfOrderType : Option OrderType → Option CommerceOperation
  | some .SERVICE_PURCHASE => some .NEW_PURCHASE
  | some .SERVICE_RENEWAL => some .RENEWAL
  | some .EXTRA_VOLUME => some .EXTRA_VOLUME
  | some .EXTRA_TIME => some .EXTRA_TIME
  | _ => none

/-- What `quoteFingerprint` digests: two digests are equal when these are. `live` stands for the
    columns of the product, its category and panel and of the service. -/
structure QuoteFingerprint where
  live : ℕ
  discountCodeId : Option ℕ
  discountAmountToman : ℤ
  finalPriceToman : ℤ
  serviceId : Option ℕ
  deriving DecidableEq, Repr

structure QuotePayload where
  userId : ℕ
  checkoutId : ℕ
  operation : CommerceOperation
  finalPriceToman : ℤ
  fingerprint : QuoteFingerprint
  expiresAtMs : ℕ
  deriving DecidableEq, Repr

/-- Opens a sealed quote; `none` is EXPIRED. -/
def openQuote (token : QuotePayload) (nowMs : ℕ) : Option QuotePayload :=
  if token.expiresAtMs ≤ nowMs then none else some token

/-- `RENEWAL_QUOTE_TTL_SECONDS`. -/
def renewalQuoteTtlSeconds : ℕ := 120

/-- `RENEWAL_IDEMPOTENCY_KEY_PATTERN`. -/
def isRenewalIdempotencyKey (s : String) : Bool :=
  16 ≤ s.toList.length ∧ s.toList.length ≤ 128 ∧
    s.toList.all fun c => c.isAlphanum ∨ c = '_' ∨ c = '-'

def validMoney (c : CheckoutSession) : Bool :=
  isSafeInteger c.originalPriceToman ∧ 0 < c.originalPriceToman ∧
    isSafeInteger c.discountAmountToman ∧ 0 ≤ c.discountAmountToman ∧
    isSafeInteger c.finalPriceToman ∧ 0 < c.finalPriceToman ∧
    c.originalPriceToman - c.discountAmountToman = c.finalPriceToman

/-- `mapDomainCode`, on the codes of a settlement. -/
def mapDomainCode : WalletSettlementFailure → CommerceCode
  | .INSUFFICIENT_BALANCE => .INSUFFICIENT_BALANCE
  | .IDEMPOTENCY_CONFLICT => .IDEMPOTENCY_CONFLICT
  | .WALLET_DISABLED => .WALLET_DISABLED
  | .DISCOUNT_CHANGED => .DISCOUNT_INVALID
  | .INVALID_FINANCIAL_INPUT | .USER_NOT_ACTIVE | .DRAFT_STALE | .RESERVATION_STALE => .INTERNAL

/-- The status and code of a settlement that did not happen. -/
def settlementRefusal (code : WalletSettlementFailure) : Reply :=
  .refused (if code = .INSUFFICIENT_BALANCE then 409 else 400) (mapDomainCode code)

/-! ### The fresh quote -/

/-- The one owned, unsettled and unexpired PENDING draft with a public id. A public id is a prefix
    of row ids: which row has it, and whether only one, is the oracle's answer. -/
def loadOwnedPendingCheckout (userId nowMs : ℕ) :
    App (Option (ℕ × CheckoutSession × CommerceOperation)) := do
  let id ← ask (·.id)
  let unique ← external
  let row ← findCheckout id
  let some c := row | return none
  if ¬ unique ∨ c.userId ≠ userId ∨ c.status ≠ .PENDING ∨ c.settledByPaymentId ≠ none ∨
      c.purpose ≠ .ORDER_PAYMENT ∨ c.expiresAt ≤ nowMs then
    return none
  let some operation := operationOfOrderType c.orderType | return none
  return some (id, c, operation)

/-- Issues a short-lived quote against an existing draft. The live rows behind it are the oracle's:
    whether the product and service are still there, and what they say now. -/
def issueQuoteForCheckout (userId : ℕ) : App (Except CommerceCode QuotePayload) := do
  let nowMs ← now
  let found ← loadOwnedPendingCheckout userId nowMs
  let some (id, c, operation) := found | return .error .CHECKOUT_UNAVAILABLE
  let hasProductId ← external
  if ¬ hasProductId ∨ (operation ≠ .NEW_PURCHASE ∧ c.serviceId = none) then
    return .error .CHECKOUT_UNAVAILABLE
  let stateFound ← external
  if ¬ stateFound then
    return .error .QUOTE_STALE
  let live ← ask (·.number)
  return .ok
    { userId := userId
      checkoutId := id
      operation := operation
      finalPriceToman := c.finalPriceToman
      fingerprint :=
        { live := live
          discountCodeId := c.discountCodeId
          discountAmountToman := c.discountAmountToman
          finalPriceToman := c.finalPriceToman
          serviceId := c.serviceId }
      expiresAtMs := nowMs + renewalQuoteTtlSeconds * 1000 }

/-! ### The route -/

/-- A request: who is signed in, the idempotency key, the quote, and the instant the route opens
    it. -/
structure PayRequest where
  owner : ℕ
  clientRequestId : String
  draftToken : QuotePayload
  nowMs : ℕ
  deriving DecidableEq, Repr

/-- The rollout gate: unreadable, closed or open. -/
def requireRollout : App (Option Reply) := do
  let readable ← external
  if ¬ readable then
    return some (.refused 503 .FEATURE_UNAVAILABLE)
  let enabled ← external
  if ¬ enabled then
    return some (.refused 403 .FEATURE_DISABLED)
  return none

/-- What the route hands to the settlement. -/
def PayRequest.settlementArgs (req : PayRequest) (c : CheckoutSession) (orderType : OrderType)
    (productId : ℕ) : WalletSettlementArgs where
  userId := req.owner
  orderType := orderType
  productId := productId
  serviceId := c.serviceId
  snapshot := c.productSnapshot
  originalPriceToman := c.originalPriceToman
  discountAmountToman := c.discountAmountToman
  finalPriceToman := c.finalPriceToman
  discountCodeId := c.discountCodeId
  idempotencyKey := .fixed req.clientRequestId
  existingCheckoutId := some req.draftToken.checkoutId
  claimsReservation := req.draftToken.operation = .NEW_PURCHASE

/-- The answer to a settlement. -/
def settlementReply : WalletSettlementResult → Reply
  | .ok y => .settled y.checkout.1 y.payment.1 y.order.1 y.newBalanceToman
  | .fail code => settlementRefusal code
  | .threw => .refused 500 .INTERNAL

/-- The draft `c` was priced like its sealed quote: settle it. -/
def PayRequest.settle (req : PayRequest) (c : CheckoutSession) : App Reply := do
  -- `orderType!` and `productId!`: every creator of drafts sets both
  let some orderType := c.orderType | return .refused 500 .INTERNAL
  let some productId := c.productId | return .refused 500 .INTERNAL
  let result ← settleWalletOrder (req.settlementArgs c orderType productId)
  return settlementReply result

/-- The draft `c` of the opened quote is PENDING: settle it if a fresh quote is the same. -/
def PayRequest.confirm (req : PayRequest) (c : CheckoutSession) : App Reply := do
  let freshUser ← findUser req.owner
  if freshUser = none then
    return .refused 404 .NOT_FOUND
  let fresh ← issueQuoteForCheckout req.owner
  match fresh with
  | .error code => return .refused 409 code
  | .ok quote =>
    let nowMs ← now
    let some freshOpened := openQuote quote nowMs | return .refused 409 .QUOTE_STALE
    if freshOpened.fingerprint ≠ req.draftToken.fingerprint ∨
        req.draftToken.finalPriceToman ≠ c.finalPriceToman ∨
        req.draftToken.operation ≠ freshOpened.operation then
      return .refused 409 .QUOTE_STALE
    req.settle c

def payWallet (req : PayRequest) : App Reply := do
  if ¬ isRenewalIdempotencyKey req.clientRequestId then
    return .refused 400 .BAD_REQUEST
  let some opened := openQuote req.draftToken req.nowMs | return .refused 400 .QUOTE_EXPIRED
  if opened.userId ≠ req.owner then
    return .refused 400 .BAD_REQUEST
  let denied ← requireRollout
  if let some reply := denied then
    return reply
  let row ← findCheckout opened.checkoutId
  let some c := row | return .refused 409 .CHECKOUT_UNAVAILABLE
  if c.userId ≠ req.owner ∨ c.status ≠ .PENDING ∨ ¬ validMoney c then
    return .refused 409 .CHECKOUT_UNAVAILABLE
  req.confirm c

/-- Process `p` gets its request. -/
def receive (p : ℕ) : App Unit :=
  ext fun _ w => ((), { w with http := .received p :: w.http })

/-- One request, as process `p`. -/
def PayRequest.call (req : PayRequest) (p : ℕ) : App Unit := do
  receive p
  let reply ← payWallet req
  answer p reply

/-- Any number of requests, each a process of its own. -/
def payPool (requests : ℕ → Option PayRequest) (p : ℕ) : App Unit :=
  match requests p with
  | some req => req.call p
  | none => return ()

end ZedBot
