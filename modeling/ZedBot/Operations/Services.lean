import ZedBot.Schema

/-! Services, panels and what an executor of a paid order reads and writes.

    A renewal, extra volume or extra time changes an existing account of a panel and the row of its
    service. Instants are milliseconds, `totalBytes` and `expiresAt` are `none` where the source has
    `null` (unlimited); a field of a panel's answer that is `undefined` in the source is `none`. -/

namespace ZedBot.Operations

inductive ServiceStatus
  | CREATING | ACTIVE | DISABLED | EXPIRED | LIMITED | DELETED | FAILED
  deriving DecidableEq, Repr

inductive ServiceSource
  | PAID | FREE_TRIAL
  deriving DecidableEq, Repr

inductive PanelType
  | MARZBAN | XUI
  deriving DecidableEq, Repr

inductive PanelStatus
  | ACTIVE | INACTIVE | MAINTENANCE | FAILED
  deriving DecidableEq, Repr

def panelStatusText : PanelStatus → String
  | .ACTIVE => "ACTIVE"
  | .INACTIVE => "INACTIVE"
  | .MAINTENANCE => "MAINTENANCE"
  | .FAILED => "FAILED"

/-- The typed fields of a service's `remoteMetadata`: the client's e-mail label, and those of its
    clients. -/
structure RemoteMetadata where
  email : Option String := none
  clients : List (Option String) := []
  deriving DecidableEq, Repr

/-- A service, with the status of its panel. -/
structure Service where
  userId : ℕ
  username : String
  panelType : PanelType := .MARZBAN
  panelStatus : PanelStatus := .ACTIVE
  remoteMetadata : Option RemoteMetadata := none
  status : ServiceStatus := .ACTIVE
  source : ServiceSource := .PAID
  convertedToPaidAt : Option ℕ := none
  volumeBytes : ℤ := 0
  usedBytes : ℤ := 0
  remainingBytes : ℤ := 0
  durationDays : ℤ := 0
  startsAt : ℤ := 0
  expiresAt : Option ℤ := none
  lastSubscriptionUpdateAt : Option ℕ := none
  subscriptionUrl : Option String := none
  subscriptionToken : Option String := none
  configLinks : Option (List String) := none
  deletedAt : Option ℕ := none
  deriving DecidableEq, Repr

/-- What a product sells today. -/
structure LiveProduct where
  volumeGb : ℤ
  durationDays : ℤ
  deriving DecidableEq, Repr

inductive ServiceEventType
  | RENEWAL_APPLIED | EXTRA_VOLUME_APPLIED | EXTRA_TIME_APPLIED | COMMERCE_OPERATION_INTENT
  | COMMERCE_OPERATION_APPLIED | TRIAL_CONVERTED_TO_PAID
  deriving DecidableEq, Repr

/-! ### The panel -/

inductive PanelMethod
  | renewServiceAccount | addServiceVolume | addServiceTime
  deriving DecidableEq, Repr

/-- A call of the adapter. -/
structure PanelRequest where
  method : PanelMethod
  username : String
  totalBytes : Option ℤ
  expiresAt : Option ℤ
  deriving DecidableEq, Repr

/-- `RenewServiceAccountResult`. -/
structure PanelResult where
  ok : Bool
  uncertain : Bool := false
  usedBytes : Option ℤ := none
  totalBytes : Option (Option ℤ) := none
  remainingBytes : Option (Option ℤ) := none
  expiresAt : Option (Option ℤ) := none
  subscriptionUrl : Option String := none
  subscriptionToken : Option String := none
  configLinks : Option (List String) := none
  errorMessage : Option String := none
  deriving DecidableEq, Repr

/-- A call of the adapter answers or throws. -/
inductive PanelAnswer
  | result (r : PanelResult)
  | throws (message : String)
  deriving DecidableEq, Repr

/-! ### The remote model of an XUI service -/

inductive XuiRemoteModel
  | GLOBAL_CLIENT | LEGACY_PER_INBOUND | UNKNOWN
  deriving DecidableEq, Repr

def classifyXuiRemoteModel (service : Service) : XuiRemoteModel :=
  if service.panelType ≠ .XUI then .GLOBAL_CLIENT
  else
    match service.remoteMetadata with
    | none => .UNKNOWN
    | some metadata =>
      match metadata.email with
      | some email => if email = service.username then .GLOBAL_CLIENT else .UNKNOWN
      | none =>
        let emails := metadata.clients.filterMap id
        if emails = [] then .UNKNOWN
        else if emails.all (· = service.username) then .GLOBAL_CLIENT
        else if emails.any fun e => (service.username ++ "-").toList.isPrefixOf e.toList then
          .LEGACY_PER_INBOUND
        else .UNKNOWN

def serviceSupportsGlobalLifecycle (service : Service) : Bool :=
  service.panelType ≠ .XUI ∨ classifyXuiRemoteModel service = .GLOBAL_CLIENT

/-! ### One order and its rows -/

/-- The rows that the executors of an order read and write: the order, its product, the service that its
    `serviceId` names, the events logged for the order, the buyer's wallet with the order's refund
    row, and the calls of the adapter. -/
structure OrderRows where
  order : Order
  product : Option LiveProduct := none
  service : Option Service := none
  events : List ServiceEventType := []
  balanceToman : ℤ := 0
  totalRefundedToman : ℤ := 0
  refundRow : Option ℤ := none
  requests : List PanelRequest := []
  deriving DecidableEq, Repr

inductive LockAcquisition
  | acquired (lost : Bool)
  | contended
  | unavailable
  deriving DecidableEq, Repr

/-- What an executor meets: the clock, the service lock, the panel, and whether the two attempts to
    persist what the panel did succeed. -/
structure ExecutionEnv where
  now : ℕ
  lock : LockAcquisition := .acquired false
  panel : PanelRequest → PanelAnswer
  persists : Bool := true
  persistsAgain : Bool := true

/-- `reason.slice(0, 500)`. -/
def failureReason (reason : String) : String := String.ofList (reason.toList.take 500)

/-- The order fails and its price goes back to the wallet, once. The answer is whether the order is
    refunded. -/
def failAndRefund (reason : String) (x : OrderRows) : Bool × OrderRows :=
  let flipped : Bool := x.order.status = .PAID ∨ x.order.status = .PROVISIONING
  let failed := { x with
    order := { x.order with status := .FAILED, failureReason := some (failureReason reason) } }
  if x.refundRow ≠ none then (true, if flipped then failed else x)
  else if ¬ flipped then (false, x)
  else if x.order.finalPriceToman ≤ 0 then (true, failed)
  else
    (true, { failed with
      balanceToman := x.balanceToman + x.order.finalPriceToman
      totalRefundedToman := x.totalRefundedToman + x.order.finalPriceToman
      refundRow := some x.order.finalPriceToman })

/-- The stamp of the first paid operation on a trial, and its event. -/
def markTrialConversion (now : ℕ) (x : OrderRows) : OrderRows :=
  match x.service with
  | none => x
  | some s =>
    if s.source = .FREE_TRIAL ∧ s.convertedToPaidAt = none then
      { x with
        service := some { s with convertedToPaidAt := some now }
        events := x.events ++ [.TRIAL_CONVERTED_TO_PAID] }
    else x

/-- `updateMany` from one status of the order to another. -/
def moveOrder (old new : OrderStatus) (completedAt : Option ℕ) (o : Order) : Order :=
  if o.status = old then
    { o with status := new, completedAt := completedAt.or o.completedAt }
  else o

@[simp] theorem moveOrder_status (s new : OrderStatus) (t : Option ℕ) (o : Order) (h : o.status = s) :
    (moveOrder s new t o).status = new := by simp [moveOrder, h]

/-! ### Sizes and spans -/

def GIB : ℤ := 1024 * 1024 * 1024
def DAY_MS : ℤ := 86400000

/-- `Math.ceil(a / b)`. -/
def ceilDiv (a b : ℤ) : ℤ := -(-a / b)

/-- The later of the current expiry and now. -/
def expiryBase (now : ℕ) (expiresAt : Option ℤ) : ℤ :=
  match expiresAt with
  | some e => if (now : ℤ) < e then e else now
  | none => now

end ZedBot.Operations
