import ZedBot.Payments.Settlement

/-! Receipt review: an admin approves or rejects a card-to-card payment.

    Approval validates what it read before the transaction and flips the payment, its receipts and
    the checkout by compare-and-set inside it. Rejection flips the payment and its receipts by
    compare-and-set; the checkout of a rejected payment is expired on the strength of the earlier
    read alone. -/

namespace ZedBot
open ReadCommitted

def REJECT_REASON_MAX : ℕ := 1000

def NOT_FOUND := "مورد یافت نشد."
def ALREADY_REVIEWED := "این رسید قبلاً بررسی شده است."
def NO_CHECKOUT := "پیش‌فاکتور این پرداخت یافت نشد؛ رسید قابل تایید نیست."
def CHECKOUT_NOT_PENDING := "وضعیت پیش‌فاکتور برای تایید معتبر نیست."
def AMOUNT_MISMATCH := "مبلغ رسید با پیش‌فاکتور هم‌خوانی ندارد."
def NO_PENDING_RECEIPT := "رسید در انتظار بررسی برای این پرداخت وجود ندارد."
def CUSTOMER_INFO_REQUIRED :=
  "اطلاعات سفارش مشتری هنوز ثبت نشده است؛ ابتدا باید فرم اطلاعات تکمیل شود."
def RESERVATION_RECONCILE_REQUIRED :=
  "تایید این رسید ممکن نیست: رزرو نام کاربری سرویس معتبر نیست و باید بررسی شود. رسید در وضعیت بررسی باقی می‌ماند."
def DISCOUNT_CLAIM_FAILED_ADMIN :=
  "کد تخفیف این پرداخت دیگر معتبر نیست (سقف استفاده تکمیل یا منقضی شده است). تایید انجام نشد؛ در صورت نیاز رسید را رد کنید."
def SUBMITTED_AFTER_EXPIRY := "رسید بعد از انقضای پیش‌فاکتور ثبت شده و قابل تایید نیست."
def REASON_LENGTH_ERROR := "دلیل رد باید بین ۱ تا ۱۰۰۰ کاراکتر باشد."

inductive ApproveReceiptResult
  | orderPayment (payment : Payment) (order : ℕ × Order) (orderType : OrderType)
  | walletTopup (payment : Payment) (amountToman newBalanceToman : ℤ)
  | error (error : String)
  /-- An exception other than `ReviewAbortError`. -/
  | threw
  deriving DecidableEq, Repr

inductive RejectReceiptResult
  | ok (payment : Payment) (reason : String)
  | error (error : String)
  | threw
  deriving DecidableEq, Repr

/-- What the review transactions throw: `ReviewAbortError` with its text, or anything else. -/
inductive ReviewThrow
  | abort (userError : String)
  | crash
  deriving DecidableEq, Repr

/-- The payment of a review with its checkout and receipts, for the reviewable purposes. -/
structure PaymentForReview where
  payment : Payment
  checkout : Option (ℕ × CheckoutSession)
  receipts : List PaymentStatus

def loadReviewPayment (paymentId : ℕ) : App (Option PaymentForReview) := do
  let some payment ← findPayment paymentId | return none
  let checkout ← select fun v => payment.checkoutSessionId.bind fun c =>
    (v.rows (.checkout c)).map fun row => (c, row)
  let receipts ← findReceipts paymentId
  if payment.purpose ≠ .ORDER_PAYMENT ∧ payment.purpose ≠ .WALLET_CHARGE then
    return none
  return some { payment, checkout, receipts }

/-- Flip the PENDING_REVIEW receipts of a payment; the result is their number. -/
def flipReceipts (paymentId : ℕ) (status : PaymentStatus) : App ℕ := sql fun v =>
  let receipts := v.rows (.receipts paymentId)
  let hit := receipts.count .PENDING_REVIEW
  if hit = 0 then { result := 0 }
  else
    { result := hit
      writes := [⟨.receipts paymentId,
        receipts.map fun r => if r = .PENDING_REVIEW then status else r⟩] }

/-- The data of an admin's approval. -/
def approvedPayment (adminId now : ℕ) (p : Payment) : Payment :=
  { settledPayment now p with reviewedByAdminId := some adminId }

/-- The compare-and-set approval of the payment and its receipts. -/
def approvePayment (paymentId adminId now : ℕ) (purposeGuard : Payment → Bool) :
    App (Except ReviewThrow Unit) := do
  let flipped ← updatePayment paymentId
    (fun p => p.status = .PENDING_REVIEW ∧ purposeGuard p) (approvedPayment adminId now)
  if flipped = 0 then
    return .error (.abort ALREADY_REVIEWED)
  let receiptsFlipped ← flipReceipts paymentId .APPROVED
  if receiptsFlipped = 0 then
    return .error (.abort NO_PENDING_RECEIPT)
  return .ok ()

/-- The compare-and-set flip of the checkout, which also records its owner. -/
def payCheckout (checkoutId paymentId now : ℕ) : App (Except ReviewThrow Unit) := do
  let flipped ← updateCheckout checkoutId
    (fun c => c.status = .PENDING ∧ c.settledByPaymentId = none) (claimedCheckout paymentId now)
  if flipped = 0 then
    return .error (.abort CHECKOUT_NOT_PENDING)
  return .ok ()

/-- The order of an approved receipt: the existing one, or a new one with its bind, link and
    counters. A P2002 of the creation is not caught here. -/
def approveOrder (checkoutId paymentId : ℕ) (c : CheckoutSession) (now : ℕ) :
    App (Except ReviewThrow (ℕ × Order)) := do
  let existing ← findOrderOfCheckout checkoutId
  if let some o := existing then
    return .ok o
  let orderId ← freshId
  let order := orderOfSettledCheckout checkoutId c paymentId now
  let created ← createOrder orderId order
  if ¬ created then
    return .error .crash
  let bound ← external
  if ¬ bound then
    return .error (.abort RESERVATION_RECONCILE_REQUIRED)
  let linked ← updatePayment paymentId (fun _ => true) fun p => { p with orderId := some orderId }
  if linked = 0 then
    return .error .crash
  let counted ← updateUser c.userId (fun _ => true) (countOrder c.finalPriceToman)
  if counted = 0 then
    return .error .crash
  return .ok (orderId, order)

/-- The approval transaction of an order payment. -/
def approveTransaction (paymentId checkoutId adminId : ℕ) (c : CheckoutSession) (now : ℕ) :
    App (Except ReviewThrow (ℕ × Order)) := transaction do
  let approved ← approvePayment paymentId adminId now fun _ => true
  if let .error e := approved then
    return .error e
  let paid ← payCheckout checkoutId paymentId now
  if let .error e := paid then
    return .error e
  let result ← approveOrder checkoutId paymentId c now
  match result with
  | .error e => return .error e
  | .ok order =>
    if c.discountCodeId = none ∨ c.discountAmountToman ≤ 0 then
      return .ok order
    let claimed ← external
    if ¬ claimed then
      return .error (.abort DISCOUNT_CLAIM_FAILED_ADMIN)
    return .ok order

/-- The approval transaction of a wallet top-up; the result is the new balance. -/
def topupTransaction (paymentId checkoutId adminId : ℕ) (payment : Payment) (now : ℕ) :
    App (Except ReviewThrow ℤ) := transaction do
  let approved ← approvePayment paymentId adminId now fun p => p.purpose = .WALLET_CHARGE
  if let .error e := approved then
    return .error e
  let paid ← payCheckout checkoutId paymentId now
  if let .error e := paid then
    return .error e
  let existing ← select fun v => findTopup v.journal paymentId
  if let some w := existing then
    return .ok w.balanceAfterToman
  let credited ← creditTopup paymentId payment.userId payment.amountToman
  match credited with
  | .error _ => return .error .crash
  | .ok newBalance => return .ok newBalance

/-- Approves the reviewed wallet top-up. -/
def approveWalletTopup (paymentId checkoutId adminId : ℕ) (payment : Payment) (now : ℕ) :
    App ApproveReceiptResult := do
  let result ← topupTransaction paymentId checkoutId adminId payment now
  match result with
  | .ok newBalance => return .walletTopup payment payment.amountToman newBalance
  | .error (.abort e) => return .error e
  | .error .crash => return .threw

/-- Approves a PENDING_REVIEW payment. -/
def approveReceiptPayment (paymentId adminId : ℕ) : App ApproveReceiptResult := do
  let some review ← loadReviewPayment paymentId | return .error NOT_FOUND
  let payment := review.payment
  if payment.status ≠ .PENDING_REVIEW then
    return .error ALREADY_REVIEWED
  let some (checkoutId, c) := review.checkout | return .error NO_CHECKOUT
  if c.status ≠ .PENDING then
    return .error CHECKOUT_NOT_PENDING
  if payment.amountToman ≠ c.finalPriceToman ∨ payment.payableAmountToman ≠ c.finalPriceToman then
    return .error AMOUNT_MISMATCH
  if .PENDING_REVIEW ∉ review.receipts then
    return .error NO_PENDING_RECEIPT
  if payment.createdAt > c.expiresAt then
    return .error SUBMITTED_AFTER_EXPIRY
  let now ← now
  if payment.purpose = .WALLET_CHARGE then
    approveWalletTopup paymentId checkoutId adminId payment now
  else
    let infoMissing ← external
    if infoMissing then
      return .error CUSTOMER_INFO_REQUIRED
    let result ← approveTransaction paymentId checkoutId adminId c now
    match result with
    | .ok order => return .orderPayment payment order (resolveOrderType c)
    | .error (.abort e) => return .error e
    | .error .crash => return .threw

/-- The rejection transaction. The checkout is expired by an update on its id alone, when the read
    before the transaction saw it PENDING and past its deadline. -/
def rejectTransaction (paymentId adminId : ℕ) (checkout : Option (ℕ × CheckoutSession))
    (reason : String) (now : ℕ) : App (Except ReviewThrow Unit) := transaction do
  let flipped ← updatePayment paymentId (fun p => p.status = .PENDING_REVIEW) fun p =>
    { p with
      status := .REJECTED
      reviewedAt := some now
      reviewedByAdminId := some adminId
      rejectReason := some reason }
  if flipped = 0 then
    return .error (.abort ALREADY_REVIEWED)
  let _ ← flipReceipts paymentId .REJECTED
  match checkout with
  | none => return .ok ()
  | some (checkoutId, c) =>
    if c.status = .PENDING ∧ c.expiresAt ≤ now then
      let expired ← updateCheckout checkoutId (fun _ => true) fun c => { c with status := .EXPIRED }
      if expired = 0 then
        return .error .crash
      return .ok ()
    else
      return .ok ()

/-- Rejects a PENDING_REVIEW payment with the admin's reason. -/
def rejectReceiptPayment (paymentId adminId : ℕ) (reasonRaw : String) :
    App RejectReceiptResult := do
  let reason := jsTrim reasonRaw
  if jsLength reason = 0 ∨ jsLength reason > REJECT_REASON_MAX then
    return .error REASON_LENGTH_ERROR
  let some review ← loadReviewPayment paymentId | return .error NOT_FOUND
  if review.payment.status ≠ .PENDING_REVIEW then
    return .error ALREADY_REVIEWED
  let now ← now
  let result ← rejectTransaction paymentId adminId review.checkout reason now
  match result with
  | .ok () => return .ok review.payment reason
  | .error (.abort e) => return .error e
  | .error .crash => return .threw

end ZedBot
