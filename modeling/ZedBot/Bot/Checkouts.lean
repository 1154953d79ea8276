import ZedBot.MiniApp.Checkouts
import ZedBot.Payments.PaymentCreation

/-! The bot's creators of PENDING checkouts.

    Each cancels the older PENDING checkouts of its target first: of the same service, of the same
    product, or the user's other top-ups. Snapshots, prices and the username claim come from code
    outside the model. -/

namespace ZedBot
open ReadCommitted

/-- What the review screen hands over. -/
structure ServiceCheckoutArgs where
  userId : ℕ
  serviceId : ℕ
  productId : ℕ
  terms : DraftTerms
  deriving DecidableEq, Repr

def serviceCheckout (orderType : OrderType) (args : ServiceCheckoutArgs) (minutes now : ℕ) :
    CheckoutSession where
  userId := args.userId
  purpose := .ORDER_PAYMENT
  productId := some args.productId
  serviceId := some args.serviceId
  orderType := some orderType
  productSnapshot := args.terms.snapshot
  originalPriceToman := args.terms.originalPriceToman
  discountAmountToman := args.terms.discountAmountToman
  finalPriceToman := args.terms.finalPriceToman
  discountCodeId := args.terms.discountCodeId
  status := .PENDING
  expiresAt := now + minutes * 60000

/-- Cancels the PENDING checkouts of the user and service and creates a fresh one. -/
def createServiceCheckout (orderType : OrderType) (args : ServiceCheckoutArgs) :
    App (Except Unit (ℕ × CheckoutSession)) := do
  let minutes ← ask (·.number)
  let _ ← cancelDrafts fun c =>
    c.userId = args.userId ∧ c.serviceId = some args.serviceId ∧ c.status = .PENDING
  let now ← now
  let id ← freshId
  let c := serviceCheckout orderType args minutes now
  let created ← insertDraft id c
  if ¬ created then
    return .error ()
  return .ok (id, c)

def createRenewalCheckoutSession (args : ServiceCheckoutArgs) :
    App (Except Unit (ℕ × CheckoutSession)) := createServiceCheckout .SERVICE_RENEWAL args

def createExtraVolumeCheckout (args : ServiceCheckoutArgs) :
    App (Except Unit (ℕ × CheckoutSession)) := createServiceCheckout .EXTRA_VOLUME args

def createExtraTimeCheckout (args : ServiceCheckoutArgs) :
    App (Except Unit (ℕ × CheckoutSession)) := createServiceCheckout .EXTRA_TIME args

structure ProductCheckoutArgs where
  userId : ℕ
  productId : ℕ
  productType : ProductType
  terms : DraftTerms
  deriving DecidableEq, Repr

def productCheckout (args : ProductCheckoutArgs) (minutes now : ℕ) : CheckoutSession where
  userId := args.userId
  purpose := .ORDER_PAYMENT
  productId := some args.productId
  orderType := some (if args.productType = .SERVICE_PRODUCT then .SERVICE_PURCHASE
    else .OTHER_PRODUCT)
  productSnapshot := args.terms.snapshot
  originalPriceToman := args.terms.originalPriceToman
  discountAmountToman := args.terms.discountAmountToman
  finalPriceToman := args.terms.finalPriceToman
  discountCodeId := args.terms.discountCodeId
  status := .PENDING
  expiresAt := now + minutes * 60000

/-- Cancels the PENDING checkouts of the user and product and creates a fresh one, with its username
    claimed. -/
def createCheckoutSession (args : ProductCheckoutArgs) :
    App (Except Unit (ℕ × CheckoutSession)) := do
  let minutes ← ask (·.number)
  let now ← now
  transaction do
    let _ ← cancelDrafts fun c =>
      c.userId = args.userId ∧ c.productId = some args.productId ∧ c.status = .PENDING
    let id ← freshId
    let c := productCheckout args minutes now
    let created ← insertDraft id c
    if ¬ created then
      return .error ()
    let claimed ← external
    if ¬ claimed then
      return .error ()
    return .ok (id, c)

def topupCheckout (userId : ℕ) (amountToman : ℤ) (minutes now : ℕ) : CheckoutSession where
  userId := userId
  purpose := .WALLET_CHARGE
  originalPriceToman := amountToman
  discountAmountToman := 0
  finalPriceToman := amountToman
  status := .PENDING
  expiresAt := now + minutes * 60000

/-- Cancels the user's PENDING top-ups and creates a fresh one. -/
def createWalletTopupCheckout (userId : ℕ) (amountToman : ℤ) :
    App (Except Unit (ℕ × CheckoutSession)) := do
  let enabled ← external
  if ¬ enabled then
    return .error ()
  let minutes ← ask (·.number)
  let _ ← cancelDrafts fun c =>
    c.userId = userId ∧ c.purpose = .WALLET_CHARGE ∧ c.status = .PENDING
  let now ← now
  let id ← freshId
  let c := topupCheckout userId amountToman minutes now
  let created ← insertDraft id c
  if ¬ created then
    return .error ()
  return .ok (id, c)

end ZedBot
