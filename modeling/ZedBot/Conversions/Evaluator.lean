import Mathlib.Data.List.Sort
import Mathlib.Data.String.Basic

/-! The attribution of a completed order to a click on a notification.

    Instants are milliseconds. -/

namespace ZedBot.Conversions

inductive AttributionKind where
  | DIRECT_CHECKOUT
  | DIRECT_SERVICE
  | ASSISTED_WINBACK
  deriving DecidableEq, Repr

/-- Lower is stronger evidence. -/
def ATTRIBUTION_KIND_PRECEDENCE : AttributionKind → ℤ
  | .DIRECT_CHECKOUT => 1
  | .DIRECT_SERVICE => 2
  | .ASSISTED_WINBACK => 3

inductive NotificationType where
  | SERVICE_EXPIRY
  | SERVICE_TRAFFIC
  | SERVICE_EXPIRED
  | SERVICE_LIMITED
  | TRIAL_NEAR_EXPIRY
  | TRIAL_EXPIRED
  | ABANDONED_CHECKOUT
  | PAYMENT_RETRY
  | CUSTOMER_WINBACK
  | STARS_SUBSCRIPTION_ACTIVATED
  | STARS_SUBSCRIPTION_RENEWED
  | STARS_SUBSCRIPTION_CANCELLED
  | STARS_SUBSCRIPTION_PAST_DUE
  | STARS_SUBSCRIPTION_REQUIRES_ACTION
  | STARS_SUBSCRIPTION_REFUNDED
  | STARS_SUBSCRIPTION_PRICE_VERSION_CHANGED
  | AUTO_RENEWAL_UPCOMING
  | WALLET_LOW_BALANCE
  deriving DecidableEq, Repr

inductive NotificationCategory where
  | SERVICE
  | PAYMENT
  | MARKETING
  deriving DecidableEq, Repr

def NOTIFICATION_TYPE_CATEGORY : NotificationType → NotificationCategory
  | .SERVICE_EXPIRY | .SERVICE_TRAFFIC | .SERVICE_EXPIRED | .SERVICE_LIMITED | .TRIAL_NEAR_EXPIRY
  | .TRIAL_EXPIRED => .SERVICE
  | .CUSTOMER_WINBACK => .MARKETING
  | _ => .PAYMENT

inductive NotificationInteractionType where
  | OPEN_SERVICE
  | RENEW_SERVICE
  | BUY_EXTRA_VOLUME
  | CONTINUE_CHECKOUT
  | VIEW_PRODUCTS
  | DISMISS
  | VIEW_WALLET
  | SNOOZE_WINBACK
  | MARKETING_OPT_OUT
  deriving DecidableEq, Repr

inductive OrderType where
  | SERVICE_PURCHASE
  | SERVICE_RENEWAL
  | EXTRA_VOLUME
  | EXTRA_TIME
  | LOCATION_CHANGE
  | OTHER_PRODUCT
  deriving DecidableEq, Repr

structure AttributionConfig where
  directCheckoutWindowHours : ℤ
  directServiceWindowHours : ℤ
  assistedWinbackWindowDays : ℤ
  deriving DecidableEq, Repr

def DEFAULT_ATTRIBUTION_CONFIG : AttributionConfig where
  directCheckoutWindowHours := 72
  directServiceWindowHours := 72
  assistedWinbackWindowDays := 14

/-- One recorded click on one of the user's sent notifications. -/
structure AttributionInteraction where
  interactionId : String
  notificationId : String
  notificationType : NotificationType
  interactionType : NotificationInteractionType
  notificationSentAt : ℤ
  interactionAt : ℤ
  notificationCheckoutSessionId : Option String
  notificationServiceId : Option String
  deriving DecidableEq, Repr

/-- The completed paid order. -/
structure AttributionOrder where
  orderType : OrderType
  orderCompletedAt : ℤ
  finalPriceToman : ℤ
  checkoutSessionId : Option String
  serviceId : Option String
  isRefunded : Bool
  /-- Without it analytics is not enabled. -/
  analyticsStartedAt : Option ℤ
  deriving DecidableEq, Repr

structure AttributionEvidence where
  kind : AttributionKind
  notificationType : NotificationType
  notificationCategory : NotificationCategory
  interactionType : NotificationInteractionType
  orderType : OrderType
  checkoutMatched : Bool
  serviceMatched : Bool
  sentToClickSeconds : ℤ
  clickToOrderSeconds : ℤ
  windowSeconds : ℤ
  windowLimitSeconds : ℤ
  deriving DecidableEq, Repr

structure AttributionDecision where
  kind : AttributionKind
  interactionId : String
  notificationId : String
  notificationType : NotificationType
  interactionType : NotificationInteractionType
  grossRevenueToman : ℤ
  notificationSentAt : ℤ
  interactionAt : ℤ
  orderCompletedAt : ℤ
  windowSeconds : ℤ
  evidence : AttributionEvidence
  deriving DecidableEq, Repr

inductive AttributionSkipReason where
  | orderRefunded
  | beforeAnalyticsStart
  | analyticsNotStarted
  | noEligibleInteraction
  deriving DecidableEq, Repr

inductive AttributionEvaluation where
  | attributed (decision : AttributionDecision) (candidates : List AttributionDecision)
  | skipped (reason : AttributionSkipReason) (candidates : List AttributionDecision)
  deriving DecidableEq, Repr

/-! ### One click -/

def DIRECT_CHECKOUT_SOURCE_TYPES : List NotificationType := [.ABANDONED_CHECKOUT, .PAYMENT_RETRY]

def DIRECT_CHECKOUT_ACTIONS : List NotificationInteractionType := [.CONTINUE_CHECKOUT]

def DIRECT_SERVICE_SOURCE_TYPES : List NotificationType :=
  [.SERVICE_EXPIRY, .SERVICE_EXPIRED, .SERVICE_TRAFFIC, .SERVICE_LIMITED, .TRIAL_NEAR_EXPIRY,
    .TRIAL_EXPIRED]

def DIRECT_SERVICE_ACTIONS : List NotificationInteractionType :=
  [.RENEW_SERVICE, .BUY_EXTRA_VOLUME, .OPEN_SERVICE]

def DIRECT_SERVICE_ORDER_TYPES : List OrderType := [.SERVICE_RENEWAL, .EXTRA_VOLUME, .EXTRA_TIME]

def WINBACK_ACTIONS : List NotificationInteractionType := [.VIEW_PRODUCTS, .VIEW_WALLET, .OPEN_SERVICE]

/-- The conditions of a kind on the types, and its entity equality. -/
def isLinked (order : AttributionOrder) (it : AttributionInteraction) : AttributionKind → Bool
  | .DIRECT_CHECKOUT =>
    it.notificationType ∈ DIRECT_CHECKOUT_SOURCE_TYPES ∧ it.interactionType ∈ DIRECT_CHECKOUT_ACTIONS ∧
      it.notificationCheckoutSessionId.isSome ∧ order.checkoutSessionId.isSome ∧
      it.notificationCheckoutSessionId = order.checkoutSessionId
  | .DIRECT_SERVICE =>
    it.notificationType ∈ DIRECT_SERVICE_SOURCE_TYPES ∧ it.interactionType ∈ DIRECT_SERVICE_ACTIONS ∧
      order.orderType ∈ DIRECT_SERVICE_ORDER_TYPES ∧ it.notificationServiceId.isSome ∧
      order.serviceId.isSome ∧ it.notificationServiceId = order.serviceId
  | .ASSISTED_WINBACK =>
    it.notificationType = .CUSTOMER_WINBACK ∧ it.interactionType ∈ WINBACK_ACTIONS ∧
      order.orderType = .SERVICE_PURCHASE

def windowLimitMs (config : AttributionConfig) : AttributionKind → ℤ
  | .DIRECT_CHECKOUT => config.directCheckoutWindowHours * 3600000
  | .DIRECT_SERVICE => config.directServiceWindowHours * 3600000
  | .ASSISTED_WINBACK => config.assistedWinbackWindowDays * 86400000

/-- The first kind whose conditions and window are met; a kind out of its window leaves the others. -/
def kindOf (order : AttributionOrder) (it : AttributionInteraction) (config : AttributionConfig) :
    Option AttributionKind :=
  let clickToOrderMs := order.orderCompletedAt - it.interactionAt
  [AttributionKind.DIRECT_CHECKOUT, .DIRECT_SERVICE, .ASSISTED_WINBACK].find? fun kind =>
    isLinked order it kind ∧ clickToOrderMs ≤ windowLimitMs config kind

/-- `Math.round(ms / 1000)`. -/
def roundSeconds (ms : ℤ) : ℤ := (ms + 500) / 1000

/-- Classifies one pair; a decision when evidence holds. -/
def classifyPair (order : AttributionOrder) (it : AttributionInteraction) (config : AttributionConfig) :
    Option AttributionDecision :=
  if ¬ (it.notificationSentAt < it.interactionAt ∧ it.interactionAt < order.orderCompletedAt) then none
  else
    match kindOf order it config with
    | none => none
    | some kind =>
      let windowSeconds := max 0 (roundSeconds (order.orderCompletedAt - it.notificationSentAt))
      some
        { kind
          interactionId := it.interactionId
          notificationId := it.notificationId
          notificationType := it.notificationType
          interactionType := it.interactionType
          grossRevenueToman := max 0 order.finalPriceToman
          notificationSentAt := it.notificationSentAt
          interactionAt := it.interactionAt
          orderCompletedAt := order.orderCompletedAt
          windowSeconds
          evidence :=
            { kind
              notificationType := it.notificationType
              notificationCategory := NOTIFICATION_TYPE_CATEGORY it.notificationType
              interactionType := it.interactionType
              orderType := order.orderType
              checkoutMatched := decide (kind = .DIRECT_CHECKOUT)
              serviceMatched := decide (kind = .DIRECT_SERVICE)
              sentToClickSeconds := roundSeconds (it.interactionAt - it.notificationSentAt)
              clickToOrderSeconds := roundSeconds (order.orderCompletedAt - it.interactionAt)
              windowSeconds
              windowLimitSeconds := roundSeconds (windowLimitMs config kind) } }

/-! ### The winner -/

/-- The comparator: stronger kind, then later click, then smaller id. -/
def compareDecisions (a b : AttributionDecision) : ℤ :=
  let pa := ATTRIBUTION_KIND_PRECEDENCE a.kind
  let pb := ATTRIBUTION_KIND_PRECEDENCE b.kind
  if pa ≠ pb then pa - pb
  else if a.interactionAt ≠ b.interactionAt then b.interactionAt - a.interactionAt
  else if a.interactionId < b.interactionId then -1
  else if b.interactionId < a.interactionId then 1
  else 0

def rankAttributionCandidates (candidates : List AttributionDecision) : List AttributionDecision :=
  candidates.insertionSort fun a b => compareDecisions a b ≤ 0

def selectAttributionWinner (candidates : List AttributionDecision) : Option AttributionDecision :=
  (rankAttributionCandidates candidates).head?

def evaluateNotificationAttributionCandidate (order : AttributionOrder)
    (interactions : List AttributionInteraction) (config : AttributionConfig) :
    AttributionEvaluation :=
  match order.analyticsStartedAt with
  | none => .skipped .analyticsNotStarted []
  | some analyticsStartedAt =>
    if order.orderCompletedAt < analyticsStartedAt then .skipped .beforeAnalyticsStart []
    else if order.isRefunded then .skipped .orderRefunded []
    else
      let candidates := interactions.filterMap (classifyPair order · config)
      match selectAttributionWinner candidates with
      | none => .skipped .noEligibleInteraction candidates
      | some winner => .attributed winner candidates

end ZedBot.Conversions
