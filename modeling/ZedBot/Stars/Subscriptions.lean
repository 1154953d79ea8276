import ZedBot.Schema

/-! The tables of the Stars subscriptions and what is outside of them: Telegram's history of Star
    transactions and the queue between the worker and the bot.

    A subscription is charged by Telegram once per period. A charge row is keyed by Telegram's charge
    id (`chargeOfTelegram`); the payment that a settlement creates is keyed by three unique columns:
    the idempotency key, the external transaction id and the authority. -/

namespace ZedBot
open ReadCommitted

/-! ### Rows -/

inductive TelegramStarsSubscriptionStatus
  | PENDING_PAYMENT | ACTIVE | CANCEL_AT_PERIOD_END | REACTIVATION_ALLOWED | PAST_DUE | EXPIRED
  | REQUIRES_ACTION | CANCELLED
  deriving DecidableEq, Repr

inductive TelegramStarsSubscriptionChargeStatus
  | RECEIVED | SETTLING | FULFILLING | COMPLETED | RECONCILIATION_REQUIRED | REFUND_PENDING
  | REFUNDED | FAILED | IGNORED
  deriving DecidableEq, Repr

inductive TelegramStarsChargeEvidenceSource
  | LIVE_SUCCESSFUL_PAYMENT | STAR_TRANSACTION_RECOVERY
  deriving DecidableEq, Repr

inductive TelegramStarsPeriodEndSource
  | LIVE_EXACT | RECOVERED_DERIVED
  deriving DecidableEq, Repr

/-- The typed fields of a subscription's `entitlementSnapshot`. -/
structure EntitlementSnapshot where
  durationDays : Option ℤ := none
  starsAmount : Option ℤ := none
  volumeGb : Option ℤ := none
  productName : Option String := none
  panelName : Option String := none
  categoryName : Option String := none
  deriving DecidableEq, Repr

structure TelegramStarsServiceSubscription where
  userId : ℕ
  serviceId : ℕ
  productId : ℕ
  status : TelegramStarsSubscriptionStatus := .PENDING_PAYMENT
  publicPayloadId : String
  starsAmount : ℤ
  subscriptionPeriodSeconds : ℕ := 2592000
  entitlementSnapshot : EntitlementSnapshot := {}
  initialPaymentId : Option ℕ := none
  initialTelegramPaymentChargeId : Option String := none
  currentPeriodStartedAt : Option ℕ := none
  currentPeriodEndsAt : Option ℕ := none
  nextExpectedChargeAt : Option ℕ := none
  telegramExtensionCanceled : Bool := false
  lastSubscriptionUpdateState : Option String := none
  subscriptionUpdateAt : Option ℕ := none
  pastDueMarkedAt : Option ℕ := none
  lastChargeAt : Option ℕ := none
  lastSuccessfulOrderId : Option ℕ := none
  safeLastErrorCode : Option String := none
  createdAt : ℕ := 0
  deriving DecidableEq, Repr

structure TelegramStarsSubscriptionCharge where
  subscriptionId : ℕ
  telegramPaymentChargeId : String
  starsAmount : ℤ
  isFirstRecurring : Bool
  subscriptionExpirationDate : ℕ
  status : TelegramStarsSubscriptionChargeStatus := .RECEIVED
  evidenceSource : TelegramStarsChargeEvidenceSource := .LIVE_SUCCESSFUL_PAYMENT
  periodEndSource : TelegramStarsPeriodEndSource := .LIVE_EXACT
  telegramTransactionAt : Option ℕ := none
  recoveredAt : Option ℕ := none
  paymentId : Option ℕ := none
  checkoutSessionId : Option ℕ := none
  orderId : Option ℕ := none
  settlementStartedAt : Option ℕ := none
  fulfillmentStartedAt : Option ℕ := none
  completedAt : Option ℕ := none
  refundRequestedAt : Option ℕ := none
  refundedAt : Option ℕ := none
  refundAttempts : ℕ := 0
  safeErrorCode : Option String := none
  deriving DecidableEq, Repr

/-- The single row of the scan's position. -/
structure TelegramStarsReconciliationCursor where
  nextOffset : ℕ := 0
  bootstrapCompleted : Bool := false
  consecutiveFailureCount : ℕ := 0
  deriving DecidableEq, Repr

inductive StarsKey
  | user (id : ℕ)
  | subscription (id : ℕ)
  | subscriptionOfPayload (publicPayloadId : String)
  | charge (id : ℕ)
  | chargeOfTelegram (telegramPaymentChargeId : String)
  | checkout (id : ℕ)
  | payment (id : ℕ)
  | paymentOfKey (key : IdempotencyKey)
  | paymentOfAuthority (authority : String)
  | paymentOfCharge (provider : Option PaymentGatewayType) (transactionId : String)
  | order (id : ℕ)
  | cursor
  deriving DecidableEq

/-- The row type of a key. -/
@[reducible] def StarsRow : StarsKey → Type
  | .user _ => Option User
  | .subscription _ => Option TelegramStarsServiceSubscription
  | .subscriptionOfPayload _ => Option ℕ
  | .charge _ => Option TelegramStarsSubscriptionCharge
  | .chargeOfTelegram _ => Option ℕ
  | .checkout _ => Option CheckoutSession
  | .payment _ => Option Payment
  | .paymentOfKey _ => Option ℕ
  | .paymentOfAuthority _ => Option ℕ
  | .paymentOfCharge _ _ => Option ℕ
  | .order _ => Option Order
  | .cursor => Option TelegramStarsReconciliationCursor

/-- The append-only rows: the ids of the subscriptions and charges, which a statement that matches rows
    by their columns visits, and a record of the refunds that the scan observed, with the charges
    that each confirmed. -/
inductive StarsEntry
  | subscription (id : ℕ)
  | charge (id : ℕ)
  | refundObserved (telegramPaymentChargeId : String) (subscriptionId : ℕ) (amount : ℤ)
    (confirmed : List ℕ)
  deriving DecidableEq, Repr

/-! ### Telegram and the queue -/

/-- The safe subset of a transaction partner. -/
structure StarTransactionPartner where
  type : String
  transactionType : Option String := none
  userId : Option ℕ := none
  invoicePayload : Option String := none
  subscriptionPeriod : Option ℕ := none
  deriving DecidableEq, Repr

/-- The safe subset of a `StarTransaction`. The id of a refund is the id of the payment it refunds. -/
structure StarTransaction where
  id : String
  amount : ℤ
  /-- Unix seconds. -/
  date : ℕ
  source : Option StarTransactionPartner := none
  receiver : Option StarTransactionPartner := none
  deriving DecidableEq, Repr

structure RecoveredChargeInput where
  subscriptionId : ℕ
  telegramPaymentChargeId : String
  starsAmount : ℤ
  telegramTransactionAtSec : ℕ
  isFirstRecurring : Bool
  deriving DecidableEq, Repr

/-- A job of the bot's execute queue. -/
inductive StarsExecuteJob
  | SETTLE_RECOVERED_CHARGE (input : RecoveredChargeInput)
  | RETRY_REFUND (chargeId : ℕ)
  | RECONCILE_CHARGE (chargeId : ℕ)
  deriving DecidableEq, Repr

/-- Two jobs have one id (`starsSubscriptionExecuteJobId`). -/
def StarsExecuteJob.sameId : StarsExecuteJob → StarsExecuteJob → Bool
  | SETTLE_RECOVERED_CHARGE a, SETTLE_RECOVERED_CHARGE b =>
    a.telegramPaymentChargeId = b.telegramPaymentChargeId
  | RETRY_REFUND a, RETRY_REFUND b => a = b
  | RECONCILE_CHARGE a, RECONCILE_CHARGE b => a = b
  | _, _ => false

/-- What Telegram holds: its history of transactions, newest first, and the charge ids it has refunded;
    and the jobs that are queued or being run. -/
structure Telegram where
  transactions : List StarTransaction := []
  refunded : List String := []
  jobs : List StarsExecuteJob := []
  deriving DecidableEq, Repr

/-- The refund of a payment, as the history lists it. -/
def refundTransaction (payment : StarTransaction) (date : ℕ) : StarTransaction where
  id := payment.id
  amount := payment.amount
  date := date
  receiver := payment.source.map fun s => { s with transactionType := none }

/-- Refund a payment of a user, once. -/
def Telegram.refund (w : Telegram) (userId : ℕ) (chargeId : String) (date : ℕ) : Option Telegram :=
  if chargeId ∈ w.refunded then none
  else
    (w.transactions.find? fun tx => tx.id = chargeId ∧ (tx.source.bind (·.userId)) = some userId).map
      fun payment =>
        { w with
          transactions := refundTransaction payment date :: w.transactions
          refunded := chargeId :: w.refunded }

/-- How a call of Telegram's API ends: answered, refused, or lost after it was done. -/
inductive ApiAnswer
  | ok | refused | lost
  deriving DecidableEq, Repr

/-- What `dispatchPaidOrderFulfillment` answers for the order of a charge. -/
structure DispatchResult where
  /-- A renewal of a service. -/
  renewed : Bool := true
  ok : Bool := false
  refunded : Bool := false
  deriving DecidableEq, Repr

/-- What the oracle answers: the clock, a fresh id, and what code outside the model decides. -/
structure StarsChoice where
  now : ℕ := 0
  id : ℕ := 0
  flag : Bool := true
  number : ℕ := 0
  answer : ApiAnswer := .ok
  dispatch : DispatchResult := {}
  /-- The charges whose `updatedAt` lies before the cutoff of a pass. -/
  aged : List ℕ := []
  deriving DecidableEq, Repr

/-- A program of the Stars subscriptions. -/
abbrev Stars := Prog StarsRow StarsEntry Telegram StarsChoice

abbrev StarsStore := Store StarsRow StarsEntry Telegram
abbrev StarsTx := Tx StarsRow StarsEntry
abbrev StarsView := View StarsRow StarsEntry
abbrev StarsConfig := Config StarsRow StarsEntry Telegram StarsChoice

def emptyStarsRows : ∀ k, StarsRow k
  | .user _ | .subscription _ | .subscriptionOfPayload _ | .charge _ | .chargeOfTelegram _
  | .checkout _ | .payment _ | .paymentOfKey _ | .paymentOfAuthority _ | .paymentOfCharge _ _
  | .order _ | .cursor => none

namespace Stars

/-! ### Statements -/

/-- `new Date()`. -/
def now : Stars ℕ := ask (·.now)

/-- A fresh uuid. -/
def freshId : Stars ℕ := ask (·.id)

/-- A yes/no answer of code outside the model. -/
def external : Stars Bool := ask (·.flag)

def findUser (id : ℕ) : Stars (Option User) := select fun v => v.rows (.user id)

def findSubscription (id : ℕ) : Stars (Option TelegramStarsServiceSubscription) :=
  select fun v => v.rows (.subscription id)

def findSubscriptionOfPayload (publicPayloadId : String) :
    Stars (Option (ℕ × TelegramStarsServiceSubscription)) := select fun v =>
  (v.rows (.subscriptionOfPayload publicPayloadId)).bind fun id =>
    (v.rows (.subscription id)).map fun s => (id, s)

def findCharge (id : ℕ) : Stars (Option TelegramStarsSubscriptionCharge) :=
  select fun v => v.rows (.charge id)

def findChargeOfTelegram (telegramPaymentChargeId : String) :
    Stars (Option (ℕ × TelegramStarsSubscriptionCharge)) := select fun v =>
  (v.rows (.chargeOfTelegram telegramPaymentChargeId)).bind fun id =>
    (v.rows (.charge id)).map fun c => (id, c)

/-- `updateMany` or `update` on the id of a charge. -/
def updateCharge (id : ℕ) (cond : TelegramStarsSubscriptionCharge → Bool)
    (data : TelegramStarsSubscriptionCharge → TelegramStarsSubscriptionCharge) : Stars ℕ :=
  update (.charge id) (onRow cond data)

def updateSubscription (id : ℕ) (cond : TelegramStarsServiceSubscription → Bool)
    (data : TelegramStarsServiceSubscription → TelegramStarsServiceSubscription) : Stars ℕ :=
  update (.subscription id) (onRow cond data)

/-- The charges listed in the journal. -/
def chargeIds (journal : List StarsEntry) : List ℕ :=
  journal.filterMap fun
    | .charge id => some id
    | .subscription _ | .refundObserved .. => none

/-- The subscriptions listed in the journal. -/
def subscriptionIds (journal : List StarsEntry) : List ℕ :=
  journal.filterMap fun
    | .subscription id => some id
    | .charge _ | .refundObserved .. => none

/-- The charges that match a condition. -/
def matchingCharges (cond : TelegramStarsSubscriptionCharge → Bool) (v : StarsView) :
    List (ℕ × TelegramStarsSubscriptionCharge) :=
  (chargeIds v.journal).filterMap fun id =>
    match v.rows (.charge id) with
    | some c => if cond c then some (id, c) else none
    | none => none

/-- `queue.add`: a job whose id is there already is not added again. -/
def addJob (job : StarsExecuteJob) : Stars Unit := ext fun _ w =>
  ((), if w.jobs.any job.sameId then w else { w with jobs := w.jobs ++ [job] })

/-- What a call of `refundStarPayment` does and answers. -/
def refundAnswer (userId : ℕ) (chargeId : String) (c : StarsChoice) (w : Telegram) :
    Bool × Telegram :=
  match c.answer, w.refund userId chargeId c.now with
  | .ok, some w' => (true, w')
  | .lost, some w' => (false, w')
  | _, _ => (false, w)

/-- `refundStarPayment`: `true` is the answer of success. -/
def refundStarPayment (userId : ℕ) (chargeId : String) : Stars Bool :=
  ext (refundAnswer userId chargeId)

end Stars
end ZedBot
