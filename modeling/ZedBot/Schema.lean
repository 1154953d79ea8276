import Mathlib.Algebra.GroupWithZero.Nat
import Mathlib.Data.Int.Notation
import ZedBot.ReadCommitted.RelyGuarantee

/-! The tables of the commerce database.

    Ids are natural numbers, instants are milliseconds, amounts are whole Toman. A table is a family
    of rows keyed by id; a unique index of the schema is a family of its own (`orderOfCheckout`,
    `paymentOfKey`, `paymentOfCharge`), written together with the row it indexes, so that a second
    writer of one index entry waits for the first like on any row. `WalletTransaction` is only ever
    appended to. Columns that no modelled function reads or writes are left out. -/

namespace ZedBot
open ReadCommitted

/-! ### Enumerations -/

inductive UserStatus
  | ACTIVE | BLOCKED | DISABLED | DELETED
  deriving DecidableEq, Repr

inductive CheckoutPurpose
  | WALLET_CHARGE | ORDER_PAYMENT | PAY_WITH_WALLET
  deriving DecidableEq, Repr

inductive CheckoutStatus
  | PENDING | PAID | EXPIRED | CANCELLED | FAILED_REFUNDED | COMPLETED
  deriving DecidableEq, Repr

inductive PaymentPurpose
  | WALLET_CHARGE | ORDER_PAYMENT | PAY_WITH_WALLET | SERVICE_SUBSCRIPTION_INITIAL
  | SERVICE_SUBSCRIPTION_RECURRING
  deriving DecidableEq, Repr

inductive PaymentStatus
  | PENDING | PENDING_REVIEW | PROCESSING | APPROVED | REJECTED | FAILED | EXPIRED | CANCELLED
  | DELETED
  deriving DecidableEq, Repr

inductive PaymentGatewayType
  | CARD_TO_CARD | PLISIO | NOWPAYMENTS | AGHAYEPARDAKHT | ZARINPAL | TELEGRAM_STARS | CUSTOM
  deriving DecidableEq, Repr

/-- The normalized outcome a provider reports (`Payment.providerStatus`). -/
inductive NormalizedPaymentStatus
  | PENDING | PROCESSING | SUCCESS | FAILED | EXPIRED | CANCELLED
  deriving DecidableEq, Repr

inductive PaymentSettlementStatus
  | UNSETTLED | SETTLED | DUPLICATE_SUCCESS_REVIEW
  deriving DecidableEq, Repr

inductive FinancialReconciliationType
  | DUPLICATE_CHECKOUT_PAYMENT | SERVICE_USERNAME_UNBOUND
  deriving DecidableEq, Repr

inductive OrderType
  | SERVICE_PURCHASE | SERVICE_RENEWAL | EXTRA_VOLUME | EXTRA_TIME | LOCATION_CHANGE | OTHER_PRODUCT
  deriving DecidableEq, Repr

inductive OrderStatus
  | PENDING_PAYMENT | WAITING_RECEIPT | PENDING_REVIEW | PAID | PROVISIONING | COMPLETED | FAILED
  | CANCELLED | REFUNDED
  deriving DecidableEq, Repr

inductive WalletTransactionType
  | CHARGE | SPEND | REFUND | CASHBACK | COMMISSION | MANUAL_ADD | MANUAL_DEDUCT | DEBT_ADD
  | DEBT_PAYMENT | DISCOUNT | SYSTEM_ADJUSTMENT
  deriving DecidableEq, Repr

inductive WalletTransactionSource
  | USER_PAYMENT | ORDER | ADMIN | REFERRAL | CASHBACK | SYSTEM | REPRESENTATIVE_DEBT
  deriving DecidableEq, Repr

/-- The constant reasons that guards look for, and free text. -/
inductive WalletReason
  | WALLET_TOPUP_CARD_TO_CARD | WALLET_ORDER_PAYMENT | REFUND_PROVISIONING_FAILED | text (s : String)
  deriving DecidableEq, Repr

inductive ProductType
  | SERVICE_PRODUCT | OTHER_PRODUCT
  deriving DecidableEq, Repr

inductive ReferralCommissionStatus
  | PENDING | PAID | CANCELLED | REVERSED | REVERSAL_PENDING
  deriving DecidableEq, Repr

/-! ### Rows -/

structure User where
  telegramId : ℕ := 0
  status : UserStatus := .ACTIVE
  balanceToman : ℤ := 0
  allowNegativeBalance : Bool := false
  totalChargedToman : ℤ := 0
  totalSpentToman : ℤ := 0
  totalDiscountToman : ℤ := 0
  totalRefundedToman : ℤ := 0
  totalManualAddedToman : ℤ := 0
  totalManualDeductedToman : ℤ := 0
  ordersCount : ℤ := 0
  paidOrdersCount : ℤ := 0
  totalPurchaseAmountToman : ℤ := 0
  totalReferralPurchaseCount : ℤ := 0
  totalReferralPurchaseAmountToman : ℤ := 0
  totalReferralCommissionToman : ℤ := 0
  deriving DecidableEq, Repr

/-- The typed fields of a checkout's `productSnapshot`; `none` is an absent or ill-typed field. -/
structure ProductSnapshot where
  productType : Option ProductType := none
  productName : Option String := none
  invoiceDescription : Option String := none
  originalPriceToman : Option ℤ := none
  discountAmountToman : Option ℤ := none
  finalPriceToman : Option ℤ := none
  durationDays : Option ℤ := none
  volumeGb : Option ℤ := none
  inboundIds : Option (List ℤ) := none
  panelName : Option String := none
  allLocations : Bool := false
  serviceLocation : Option String := none
  categoryName : Option String := none
  serviceUserNote : Option String := none
  serviceUsername : Option String := none
  serviceUsernameReservationId : Option String := none
  deriving DecidableEq, Repr

structure CheckoutSession where
  userId : ℕ
  purpose : CheckoutPurpose
  productId : Option ℕ := none
  serviceId : Option ℕ := none
  orderType : Option OrderType := none
  productSnapshot : ProductSnapshot := {}
  originalPriceToman : ℤ := 0
  discountAmountToman : ℤ := 0
  finalPriceToman : ℤ := 0
  discountCodeId : Option ℕ := none
  status : CheckoutStatus := .PENDING
  settledByPaymentId : Option ℕ := none
  expiresAt : ℕ := 0
  paidAt : Option ℕ := none
  deriving DecidableEq, Repr

/-- The idempotency key of a payment. -/
inductive IdempotencyKey
  | gateway (checkoutId gatewayId : ℕ)
  | wallet (userId : ℕ) (nonce : String)
  | extraVolume (userId : ℕ) (nonce : String)
  | extraTime (userId : ℕ) (nonce : String)
  | fixed (key : String)
  deriving DecidableEq, Repr

/-- What `settlementPayloadFingerprint` digests: two digests are equal when these are. -/
structure Fingerprint where
  userId : ℕ
  orderType : OrderType
  productId : ℕ
  serviceId : Option ℕ
  originalPriceToman : ℤ
  discountAmountToman : ℤ
  finalPriceToman : ℤ
  discountCodeId : Option ℕ
  existingCheckoutId : Option ℕ
  deriving DecidableEq, Repr

structure Payment where
  userId : ℕ
  orderId : Option ℕ := none
  checkoutSessionId : Option ℕ := none
  purpose : PaymentPurpose
  status : PaymentStatus := .PENDING
  amountToman : ℤ
  payableAmountToman : ℤ
  provider : Option PaymentGatewayType := none
  authority : Option String := none
  externalReference : Option String := none
  providerStatus : Option NormalizedPaymentStatus := none
  verifiedAt : Option ℕ := none
  externalTransactionId : Option String := none
  payloadFingerprint : Option Fingerprint := none
  idempotencyKey : Option IdempotencyKey := none
  settlementStatus : PaymentSettlementStatus := .UNSETTLED
  settledAt : Option ℕ := none
  settlementReason : Option String := none
  expiresAt : Option ℕ := none
  paidAt : Option ℕ := none
  reviewedAt : Option ℕ := none
  reviewedByAdminId : Option ℕ := none
  rejectReason : Option String := none
  createdAt : ℕ := 0
  deriving DecidableEq, Repr

structure FinancialReconciliationCase where
  type : FinancialReconciliationType
  checkoutSessionId : ℕ
  primaryPaymentId : Option ℕ
  userId : ℕ
  expectedAmountToman : ℤ
  safeReason : String
  deriving DecidableEq, Repr

structure Order where
  userId : ℕ
  checkoutSessionId : Option ℕ := none
  type : OrderType
  status : OrderStatus := .PENDING_PAYMENT
  productId : Option ℕ := none
  serviceId : Option ℕ := none
  paymentId : Option ℕ := none
  originalPriceToman : ℤ := 0
  discountAmountToman : ℤ := 0
  finalPriceToman : ℤ := 0
  discountCodeId : Option ℕ := none
  productNameSnapshot : Option String := none
  productDescriptionSnapshot : Option String := none
  productPriceSnapshot : Option ℤ := none
  durationDaysSnapshot : Option ℤ := none
  volumeGbSnapshot : Option ℤ := none
  inboundIdsSnapshot : Option (List ℤ) := none
  serviceNoteSnapshot : Option String := none
  panelNameSnapshot : Option String := none
  locationSnapshot : Option String := none
  categorySnapshot : Option String := none
  adminNote : Option String := none
  failureReason : Option String := none
  createdAt : ℕ := 0
  paidAt : Option ℕ := none
  completedAt : Option ℕ := none
  deriving DecidableEq, Repr

structure Referral where
  id : ℕ
  referrerUserId : ℕ
  firstPurchaseAt : Option ℕ := none
  firstPurchaseOrderId : Option ℕ := none
  totalPurchaseAmountToman : ℤ := 0
  totalCommissionAmountToman : ℤ := 0
  deriving DecidableEq, Repr

structure ReferralCommission where
  referredUserId : ℕ
  referrerUserId : ℕ
  amountToman : ℤ
  percent : ℤ
  status : ReferralCommissionStatus
  recoveredToman : ℤ := 0
  recoveryOutstandingToman : ℤ := 0
  reversalRequestedAt : Option ℕ := none
  paidAt : Option ℕ := none
  reversedAt : Option ℕ := none
  deriving DecidableEq, Repr

/-- The request-level idempotency row of the Mini App. -/
structure MiniAppRequestIdempotency where
  operation : String
  fingerprint : String
  resultCheckoutSessionId : Option ℕ := none
  resultPaymentId : Option ℕ := none
  deriving DecidableEq, Repr

structure WalletTransaction where
  userId : ℕ
  amountToman : ℤ
  type : WalletTransactionType
  source : WalletTransactionSource
  reason : WalletReason
  relatedOrderId : Option ℕ := none
  relatedPaymentId : Option ℕ := none
  adminId : Option ℕ := none
  balanceBeforeToman : ℤ
  balanceAfterToman : ℤ
  deriving DecidableEq, Repr

/-! ### The store -/

/-- Rows and unique-index entries. A commission is keyed by its unique `orderId`, a referral by its
    unique `referredUserId`, a case by its unique `duplicatePaymentId`; the receipts of one payment
    are one row. An advisory lock is a row that counts its holders. -/
inductive Key
  | user (id : ℕ)
  | checkout (id : ℕ)
  | payment (id : ℕ)
  | receipts (paymentId : ℕ)
  | order (id : ℕ)
  | orderOfCheckout (checkoutId : ℕ)
  | paymentOfKey (key : IdempotencyKey)
  | paymentOfAuthority (authority : String)
  | paymentOfCharge (provider : Option PaymentGatewayType) (transactionId : String)
  | reconciliation (paymentId : ℕ)
  | commission (orderId : ℕ)
  | referral (referredUserId : ℕ)
  | miniAppRequest (userId : ℕ) (clientRequestId : String)
  | purchaseCheckoutLock (userId productId : ℕ)
  deriving DecidableEq

/-- The row type of a key. -/
@[reducible] def Row : Key → Type
  | .user _ => Option User
  | .checkout _ => Option CheckoutSession
  | .payment _ => Option Payment
  | .receipts _ => List PaymentStatus
  | .order _ => Option Order
  | .orderOfCheckout _ => Option ℕ
  | .paymentOfKey _ => Option ℕ
  | .paymentOfAuthority _ => Option ℕ
  | .paymentOfCharge _ _ => Option ℕ
  | .reconciliation _ => Option FinancialReconciliationCase
  | .commission _ => Option ReferralCommission
  | .referral _ => Option Referral
  | .miniAppRequest _ _ => Option MiniAppRequestIdempotency
  | .purchaseCheckoutLock _ _ => ℕ

/-- The append-only rows: the wallet ledger, and the ids of the inserted drafts, of the payments that
    became open and of the inserted commissions, which a statement that matches rows by their columns
    visits. -/
inductive Entry
  | wallet (w : WalletTransaction)
  | draft (checkoutId : ℕ)
  | openPayment (paymentId : ℕ)
  | commission (orderId : ℕ)
  deriving DecidableEq, Repr

/-- The code of a refused commerce request. -/
inductive CommerceCode
  | FEATURE_DISABLED | FEATURE_UNAVAILABLE | BAD_REQUEST | NOT_FOUND | PRODUCT_UNAVAILABLE
  | SERVICE_NOT_ELIGIBLE | OPTION_UNAVAILABLE | CHECKOUT_UNAVAILABLE | DISCOUNT_INVALID
  | QUOTE_EXPIRED | QUOTE_STALE | INSUFFICIENT_BALANCE | IDEMPOTENCY_CONFLICT | WALLET_DISABLED
  | INTERNAL
  deriving DecidableEq, Repr

/-- What a Mini App request is answered. -/
inductive Reply
  | draft (checkoutId : ℕ)
  | settled (checkoutId paymentId orderId : ℕ) (balanceToman : ℤ)
  | refused (httpStatus : ℕ) (code : CommerceCode)
  deriving DecidableEq, Repr

inductive HttpEvent
  | received (request : ℕ)
  | replied (request : ℕ) (reply : Reply)
  deriving DecidableEq, Repr

/-- What is outside the database: what the Mini App's users sent and saw, newest first. -/
structure World where
  http : List HttpEvent := []
  deriving DecidableEq, Repr

/-- The answer of a provider's verification call. -/
inductive Verification
  | success (transactionId : Option String)
  | failed
  | uncertain
  deriving DecidableEq, Repr

/-- The referral settings; read from the settings table on every credit. -/
structure ReferralConfig where
  commissionPercent : ℤ := 10
  firstPurchaseOnly : Bool := true
  minPurchaseToman : ℤ := 0
  deriving DecidableEq, Repr

/-- What the resolver, the price list and the discount check make of a draft request. -/
structure DraftTerms where
  snapshot : ProductSnapshot := {}
  originalPriceToman : ℤ
  discountAmountToman : ℤ
  finalPriceToman : ℤ
  discountCodeId : Option ℕ := none
  deriving DecidableEq, Repr

/-- What the oracle answers: the clock, a fresh id, and what code outside the model decides. -/
structure Choice where
  now : ℕ := 0
  id : ℕ := 0
  flag : Bool := true
  ids : List ℕ := []
  number : ℕ := 0
  text : String := ""
  verification : Verification := .uncertain
  referralConfig : ReferralConfig := {}
  terms : Except CommerceCode DraftTerms := .error .PRODUCT_UNAVAILABLE
  deriving Repr

/-- A program of the repository. -/
abbrev App := Prog Row Entry World Choice

abbrev AppStore := Store Row Entry World
abbrev AppTx := Tx Row Entry
abbrev AppView := View Row Entry
abbrev AppConfig := Config Row Entry World Choice

/-! ### The empty database -/

def emptyRows : ∀ k, Row k
  | .receipts _ => []
  | .purchaseCheckoutLock _ _ => (0 : ℕ)
  | .user _ | .checkout _ | .payment _ | .order _ | .orderOfCheckout _ | .paymentOfKey _
  | .paymentOfAuthority _ | .paymentOfCharge _ _ | .reconciliation _ | .commission _
  | .referral _ | .miniAppRequest _ _ => none

def emptyStore : AppStore := { rows := emptyRows, world := {} }

/-! ### JavaScript strings and numbers -/

/-- The white space that `String.prototype.trim` removes. -/
def isJsSpace (c : Char) : Bool :=
  c.toNat ∈ [0x9, 0xA, 0xB, 0xC, 0xD, 0x20, 0xA0, 0x1680, 0x2028, 0x2029, 0x202F, 0x205F, 0x3000,
    0xFEFF] ∨ (0x2000 ≤ c.toNat ∧ c.toNat ≤ 0x200A)

/-- `trim()`. -/
def jsTrim (s : String) : String :=
  String.ofList (((s.toList.dropWhile isJsSpace).reverse.dropWhile isJsSpace).reverse)

/-- `length`: the number of UTF-16 code units. -/
def jsLength (s : String) : ℕ := (s.toList.map fun c => if c.toNat < 0x10000 then 1 else 2).sum

/-- `Number.isSafeInteger`. -/
def isSafeInteger (n : ℤ) : Bool := -9007199254740991 ≤ n ∧ n ≤ 9007199254740991

/-! ### Statements -/

/-- `new Date()`. -/
def now : App ℕ := ask (·.now)

/-- A fresh uuid. -/
def freshId : App ℕ := ask (·.id)

/-- A yes/no answer of code outside the model. -/
def external : App Bool := ask (·.flag)

/-- The row of an `UPDATE … WHERE`, when it exists and matches. -/
def onRow {T : Type} (cond : T → Bool) (data : T → T) : Option T → Option (Option T)
  | some x => if cond x then some (some (data x)) else none
  | none => none

theorem onRow_eq_some {T : Type} {cond : T → Bool} {data : T → T} {o n : Option T} :
    onRow cond data o = some n ↔ ∃ x, o = some x ∧ cond x ∧ n = some (data x) := by
  cases o with
  | none => simp [onRow]
  | some x =>
    rcases Bool.eq_false_or_eq_true (cond x) with h | h
    · simp only [onRow, h, if_true, Option.some.injEq]
      constructor
      · rintro rfl; exact ⟨x, rfl, h, rfl⟩
      · rintro ⟨y, rfl, _, rfl⟩; rfl
    · simp [onRow, h]

theorem onRow_eq_none {T : Type} {cond : T → Bool} {data : T → T} {o : Option T} :
    onRow cond data o = none ↔ ∀ x, o = some x → cond x = false := by
  cases o with
  | none => simp [onRow]
  | some x => rcases Bool.eq_false_or_eq_true (cond x) with h | h <;> simp [onRow, h]

/-- A row that an `INSERT` creates, when its primary key is free. -/
def onFree {T : Type} (x : T) : Option T → Option (Option T)
  | some _ => none
  | none => some (some x)

theorem onFree_eq_some {T : Type} {x : T} {o n : Option T} :
    onFree x o = some n ↔ o = none ∧ n = some x := by
  cases o <;> simp [onFree, eq_comm]

def findUser (id : ℕ) : App (Option User) := select fun v => v.rows (.user id)
def findCheckout (id : ℕ) : App (Option CheckoutSession) := select fun v => v.rows (.checkout id)
def findPayment (id : ℕ) : App (Option Payment) := select fun v => v.rows (.payment id)
def findReceipts (id : ℕ) : App (List PaymentStatus) := select fun v => v.rows (.receipts id)
def findOrder (id : ℕ) : App (Option Order) := select fun v => v.rows (.order id)

def updateUser (id : ℕ) (cond : User → Bool) (data : User → User) : App ℕ :=
  update (.user id) (onRow cond data)

def updateCheckout (id : ℕ) (cond : CheckoutSession → Bool)
    (data : CheckoutSession → CheckoutSession) : App ℕ :=
  update (.checkout id) (onRow cond data)

def updatePayment (id : ℕ) (cond : Payment → Bool) (data : Payment → Payment) : App ℕ :=
  update (.payment id) (onRow cond data)

def updateOrder (id : ℕ) (cond : Order → Bool) (data : Order → Order) : App ℕ :=
  update (.order id) (onRow cond data)

/-- The order of a checkout, by the unique index. -/
def findOrderOfCheckout (checkoutId : ℕ) : App (Option (ℕ × Order)) := select fun v =>
  match v.rows (.orderOfCheckout checkoutId) with
  | some id => (v.rows (.order id)).map fun o => (id, o)
  | none => none

/-- `order.create`: the order and its entry in the unique index, or P2002. -/
def createOrder (id : ℕ) (o : Order) : App Bool := sql fun v =>
  match v.rows (.order id), o.checkoutSessionId with
  | some _, _ => { result := false }
  | none, none => { result := true, writes := [⟨.order id, some o⟩] }
  | none, some c =>
    match v.rows (.orderOfCheckout c) with
    | some _ => { result := false }
    | none => { result := true, writes := [⟨.order id, some o⟩, ⟨.orderOfCheckout c, some id⟩] }

/-- Append one row to the wallet ledger. -/
def createWalletTransaction (w : WalletTransaction) : App Unit := append (.wallet w)

end ZedBot
