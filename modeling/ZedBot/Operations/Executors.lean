import ZedBot.Operations.Services

/-! The two executors of a paid operation.

    The bot has one executor per type of order, the Mini App's consumer one for all three. Both run
    under the lock of the service: they read the rows of the order, refuse and refund, or claim the
    order, call the panel and persist what it did. The bot's three executors differ in what they
    refuse, ask of the panel and persist; `BotOperation` names that. -/

namespace ZedBot.Operations

/-! ### The shared executor -/

inductive Operation
  | RENEWAL | EXTRA_VOLUME | EXTRA_TIME
  deriving DecidableEq, Repr

/-- The state after an operation. -/
structure PostState where
  totalBytes : Option ℤ
  remainingBytes : Option ℤ
  expiresAt : Option ℤ
  durationDays : ℤ
  volumeGb : ℤ
  deriving DecidableEq, Repr

/-- The post-state that the shared executor expects: its sold values are the order's snapshots. -/
def expected (operation : Operation) (service : Service) (order : Order) (now : ℕ) : PostState :=
  let volumeGb := order.volumeGbSnapshot.getD 0
  let durationDays := order.durationDaysSnapshot.getD 0
  match operation with
  | .EXTRA_VOLUME =>
    let totalBytes := max service.remainingBytes 0 + volumeGb * GIB
    ⟨some totalBytes, some totalBytes, service.expiresAt, durationDays, volumeGb⟩
  | .EXTRA_TIME =>
    ⟨if 0 < service.volumeBytes then some service.volumeBytes else none,
      some service.remainingBytes,
      some (expiryBase now service.expiresAt + durationDays * DAY_MS), durationDays, volumeGb⟩
  | .RENEWAL =>
    let totalBytes :=
      if volumeGb = 0 then none else some (max service.remainingBytes 0 + volumeGb * GIB)
    ⟨totalBytes, totalBytes,
      if 0 < durationDays then some (expiryBase now service.expiresAt + durationDays * DAY_MS)
      else service.expiresAt, durationDays, volumeGb⟩

inductive CommerceExecutionResult
  | success (service : Option Service)
  | replay (service : Service)
  | refunded (refunded : Bool) (code : String)
  | uncertain (code : String)
  | busy (code : String)
  /-- An exception that the executor does not catch. -/
  | thrown
  deriving DecidableEq, Repr

def refundDefinite (reason : String) (x : OrderRows) : Bool × OrderRows := failAndRefund reason x

def acquiredFailure : CommerceExecutionResult := .busy "EXECUTION_BUSY"

/-- The grant is invalid. -/
def invalidGrant (operation : Operation) (service : Service) (post : PostState) : Bool :=
  operation = .EXTRA_VOLUME ∧ (post.volumeGb ≤ 0 ∨ service.volumeBytes ≤ 0) ∨
    operation = .EXTRA_TIME ∧ (post.durationDays ≤ 0 ∨ service.expiresAt = none)

/-- What the shared executor asks of the panel. -/
def operationRequest (operation : Operation) (service : Service) (post : PostState) : PanelRequest :=
  match operation with
  | .RENEWAL => ⟨.renewServiceAccount, service.username, post.totalBytes, post.expiresAt⟩
  | .EXTRA_VOLUME => ⟨.addServiceVolume, service.username, post.totalBytes, service.expiresAt⟩
  | .EXTRA_TIME => ⟨.addServiceTime, service.username, post.totalBytes, post.expiresAt⟩

/-- The row that the shared executor persists: the panel's values, else the expected ones. -/
def operationUpdate (post : PostState) (remote : PanelResult) (service : Service) : Service :=
  { service with
    volumeBytes := (remote.totalBytes.join.or post.totalBytes).getD 0
    remainingBytes := (remote.remainingBytes.join.or post.remainingBytes).getD 0
    usedBytes := remote.usedBytes.getD 0
    expiresAt := remote.expiresAt.getD post.expiresAt
    status := .ACTIVE
    subscriptionUrl := remote.subscriptionUrl.or service.subscriptionUrl
    configLinks := remote.configLinks.or service.configLinks }

/-- The transaction that persists it. -/
def persistOperation (now : ℕ) (updated : Service) (x : OrderRows) : OrderRows :=
  markTrialConversion now { x with
    service := some updated
    events := x.events ++ [.COMMERCE_OPERATION_APPLIED]
    order := moveOrder .PROVISIONING .COMPLETED (some now) x.order }

/-- What the panel answers; an exception of the adapter counts as uncertain. -/
def remoteResult : PanelAnswer → PanelResult
  | .result r => r
  | .throws _ => { ok := false, uncertain := true }

/-- After the panel was called. -/
def finishOperation (env : ExecutionEnv) (lost : Bool) (post : PostState) (service : Service)
    (remote : PanelResult) (x : OrderRows) : CommerceExecutionResult × OrderRows :=
  if ¬ remote.ok then
    if remote.uncertain then (.uncertain "REMOTE_RESULT_UNCERTAIN", x)
    else
      let r := refundDefinite (remote.errorMessage.getD "definite panel refusal") x
      (.refunded r.1 "REMOTE_DEFINITE_FAILURE", r.2)
  else if lost then (.uncertain "LOCK_LOST_AFTER_REMOTE", x)
  else if ¬ env.persists then (.thrown, x)
  else
    let x := persistOperation env.now (operationUpdate post remote service) x
    (.success x.service, x)

/-- The target of a PAID order: refuse and refund, or claim and call the panel. -/
def operationOnTarget (operation : Operation) (env : ExecutionEnv) (lost : Bool) (x : OrderRows) :
    CommerceExecutionResult × OrderRows :=
  match x.service.filter fun s => s.userId = x.order.userId ∧ s.deletedAt = none with
  | none =>
    let r := refundDefinite "operation target unavailable" x
    (.refunded r.1 "SERVICE_UNAVAILABLE", r.2)
  | some service =>
    if service.panelStatus ≠ .ACTIVE then
      let r := refundDefinite "operation target unavailable" x
      (.refunded r.1 "SERVICE_UNAVAILABLE", r.2)
    else if invalidGrant operation service (expected operation service x.order env.now) then
      let r := refundDefinite "invalid operation grant" x
      (.refunded r.1 "INVALID_GRANT", r.2)
    else
      let post := expected operation service x.order env.now
      let request := operationRequest operation service post
      finishOperation env lost post service (remoteResult (env.panel request)) { x with
        order := moveOrder .PAID .PROVISIONING none x.order
        events := x.events ++ [.COMMERCE_OPERATION_INTENT]
        requests := x.requests ++ [request] }

/-- Under the lock. -/
def executeServiceOperationLocked (operation : Operation) (env : ExecutionEnv) (lost : Bool)
    (x : OrderRows) : CommerceExecutionResult × OrderRows :=
  match x.service, decide (.COMMERCE_OPERATION_APPLIED ∈ x.events) with
  | some service, true => (.replay service, x)
  | _, _ =>
    if x.order.status ≠ .PAID then (acquiredFailure, x)
    else operationOnTarget operation env lost x

def executeServiceOperation (operation : Operation) (env : ExecutionEnv) (x : OrderRows) :
    CommerceExecutionResult × OrderRows :=
  match x.order.serviceId, env.lock with
  | none, _ | _, .contended | _, .unavailable => (acquiredFailure, x)
  | some _, .acquired lost => executeServiceOperationLocked operation env lost x

/-! ### The bot's executors -/

def SERVICE_LOCK_BUSY_TEXT : String :=
  "عملیات دیگری روی این سرویس در حال انجام است. لطفاً چند لحظه دیگر دوباره تلاش کنید."
def SERVICE_LOCK_UNAVAILABLE_TEXT : String :=
  "انجام عملیات سرویس موقتاً امکان‌پذیر نیست. لطفاً کمی بعد دوباره تلاش کنید."
def SERVICE_LOCK_LOST_TEXT : String :=
  "نتیجه عملیات نامشخص ماند؛ وضعیت سفارش به‌صورت خودکار بررسی و اصلاح می‌شود."
def XUI_LEGACY_OPERATION_TEXT : String :=
  "این عملیات برای سرویس‌های قدیمی XUI پشتیبانی نمی‌شود."

/-- The outcome of a bot executor. -/
inductive RenewalOutcome
  | ok (service : Option Service) (alreadyApplied : Bool)
  | failed (refunded : Bool) (error : String)
  deriving DecidableEq, Repr

def failOrderWithRefund (reason : String) (x : OrderRows) : Bool × OrderRows :=
  failAndRefund reason x

/-- The sold value: the order's snapshot, else what the product sells today. -/
def soldVolumeGb (x : OrderRows) : ℤ :=
  (x.order.volumeGbSnapshot.or (x.product.map (·.volumeGb))).getD 0

def soldDays (x : OrderRows) : ℤ :=
  (x.order.durationDaysSnapshot.or (x.product.map (·.durationDays))).getD 0

/-- What distinguishes one of the bot's executors: its type and event, its texts, what it refuses
    before it looks at the panel, what it asks of the panel and what it persists. -/
structure BotOperation where
  type : OrderType
  eventType : ServiceEventType
  wrongTypeText : String
  inProgressText : String
  invalidStatusText : String
  failedText : String
  missingReason : String
  persistReason : String
  refusal : OrderRows → Service → Option String
  request : OrderRows → Service → ℕ → PanelRequest
  data : OrderRows → Service → PanelResult → ℕ → Service

/-- The transaction that persists what the panel did. -/
def BotOperation.persist (op : BotOperation) (now : ℕ) (updated : Service) (x : OrderRows) :
    OrderRows :=
  markTrialConversion now { x with
    service := some updated
    order := moveOrder .PROVISIONING .COMPLETED (some now) x.order
    events := x.events ++ [op.eventType] }

/-- What the panel answers; an exception of the adapter counts as a definite failure. -/
def panelResult : PanelAnswer → PanelResult
  | .result r => r
  | .throws message => { ok := false, errorMessage := some message }

/-- After the panel was called; `rows` are the rows that were read. -/
def BotOperation.finish (op : BotOperation) (env : ExecutionEnv) (lost : Bool) (rows : OrderRows)
    (service : Service) (result : PanelResult) (x : OrderRows) : RenewalOutcome × OrderRows :=
  if ¬ result.ok ∧ result.uncertain then (.failed false SERVICE_LOCK_LOST_TEXT, x)
  else if ¬ result.ok then
    let r := failOrderWithRefund (result.errorMessage.getD "unknown adapter error") x
    (.failed r.1 op.failedText, r.2)
  else if lost then (.failed false SERVICE_LOCK_LOST_TEXT, x)
  else if env.persists ∨ env.persistsAgain then
    let x := op.persist env.now (op.data rows service result env.now) x
    (.ok x.service false, x)
  else
    let r := failOrderWithRefund op.persistReason x
    (.failed r.1 op.failedText, r.2)

/-- The target of a PAID order: refuse and refund, or claim and call the panel. `rows` are the rows
    that were read, `x` what they have become since. -/
def BotOperation.onTarget (op : BotOperation) (env : ExecutionEnv) (lost : Bool)
    (rows x : OrderRows) : RenewalOutcome × OrderRows :=
  let target := rows.service.filter fun s =>
    s.userId = rows.order.userId ∧ s.deletedAt = none ∧ s.status ≠ .DELETED
  match rows.order.serviceId, target with
  | none, _ | _, none =>
    let r := failOrderWithRefund op.missingReason x
    (.failed r.1 op.failedText, r.2)
  | some _, some service =>
    if ¬ serviceSupportsGlobalLifecycle service then
      let r := failOrderWithRefund
        "xui legacy per-inbound service - global lifecycle unsupported" x
      (.failed r.1 XUI_LEGACY_OPERATION_TEXT, r.2)
    else
      match op.refusal rows service with
      | some reason =>
        let r := failOrderWithRefund reason x
        (.failed r.1 op.failedText, r.2)
      | none =>
        if service.panelStatus ≠ .ACTIVE then
          let r := failOrderWithRefund ("panel status is " ++ panelStatusText service.panelStatus) x
          (.failed r.1 op.failedText, r.2)
        else if x.order.status ≠ .PAID then
          (.failed false "سفارش توسط فرایند دیگری در حال پردازش است.", x)
        else
          let request := op.request rows service env.now
          op.finish env lost rows service (panelResult (env.panel request)) { x with
            order := moveOrder .PAID .PROVISIONING none x.order
            requests := x.requests ++ [request] }

/-- The body that runs under the lock, when the order names a service. -/
def BotOperation.executeUnlocked (op : BotOperation) (env : ExecutionEnv) (lost : Bool)
    (rows : OrderRows) : RenewalOutcome × OrderRows :=
  if rows.order.type ≠ op.type then (.failed false op.wrongTypeText, rows)
  else
    -- an already-applied operation wins over everything
    let applied : Bool := op.eventType ∈ rows.events
    let x :=
      if applied ∧ rows.order.status ≠ .COMPLETED then
        { rows with order := { rows.order with status := .COMPLETED, completedAt := some env.now } }
      else rows
    match rows.service, applied with
    | some service, true => (.ok (some service) true, x)
    | _, _ =>
      if rows.order.status = .PROVISIONING then (.failed false op.inProgressText, x)
      else if rows.order.status = .FAILED then
        (.failed false "این سفارش قبلاً ناموفق شده است.", x)
      else if rows.order.status ≠ .PAID then (.failed false op.invalidStatusText, x)
      else op.onTarget env lost rows x

def BotOperation.execute (op : BotOperation) (env : ExecutionEnv) (x : OrderRows) :
    RenewalOutcome × OrderRows :=
  if x.order.type ≠ op.type then (.failed false op.wrongTypeText, x)
  else
    match x.order.serviceId, env.lock with
    | none, _ => op.executeUnlocked env false x
    | some _, .contended => (.failed false SERVICE_LOCK_BUSY_TEXT, x)
    | some _, .unavailable => (.failed false SERVICE_LOCK_UNAVAILABLE_TEXT, x)
    | some _, .acquired lost => op.executeUnlocked env lost x

/-! ### Renewal -/

structure RenewalComputation where
  totalBytes : Option ℤ
  remainingBytes : Option ℤ
  expiresAt : Option ℤ
  deriving DecidableEq, Repr

/-- `ADD_TIME_AND_VOLUME_TO_NEXT_PERIOD`: what remains counts only on a limited service. -/
def calculateRenewal (service : Service) (volumeGb durationDays : ℤ) (now : ℕ) :
    RenewalComputation :=
  let expiresAt :=
    if 0 < durationDays then some (expiryBase now service.expiresAt + durationDays * DAY_MS)
    else service.expiresAt
  if volumeGb ≤ 0 then ⟨none, none, expiresAt⟩
  else
    let currentRemaining :=
      if 0 < service.volumeBytes ∧ 0 < service.remainingBytes then service.remainingBytes else 0
    let total := currentRemaining + volumeGb * GIB
    ⟨some total, some total, expiresAt⟩

/-- Days shown on the service row: from `startsAt` to the new expiry. -/
def renewedDurationDays (startsAt : ℤ) : Option ℤ → ℤ
  | none => 0
  | some expiresAt => max 0 (ceilDiv (expiresAt - startsAt) DAY_MS)

/-- A link of the panel is kept unless it is empty. -/
def newUrl (reported old : Option String) : Option String :=
  (reported.filter (· ≠ "")).or old

def newLinks (reported old : Option (List String)) : Option (List String) :=
  (reported.filter (· ≠ [])).or old

def serviceUpdateData (computed : RenewalComputation) (result : PanelResult) (service : Service)
    (now : ℕ) : Service :=
  let expiresAt := result.expiresAt.getD computed.expiresAt
  { service with
    status := .ACTIVE
    volumeBytes := computed.totalBytes.getD 0
    usedBytes := result.usedBytes.getD 0
    remainingBytes := computed.remainingBytes.getD 0
    expiresAt := expiresAt
    durationDays := renewedDurationDays service.startsAt expiresAt
    lastSubscriptionUpdateAt := some now
    subscriptionUrl := newUrl result.subscriptionUrl service.subscriptionUrl
    subscriptionToken := newUrl result.subscriptionToken service.subscriptionToken
    configLinks := newLinks result.configLinks service.configLinks }

def renewalOf (x : OrderRows) (service : Service) (now : ℕ) : RenewalComputation :=
  calculateRenewal service (soldVolumeGb x) (soldDays x) now

def executeRenewal : BotOperation where
  type := .SERVICE_RENEWAL
  eventType := .RENEWAL_APPLIED
  wrongTypeText := "این سفارش از نوع تمدید نیست."
  inProgressText := "تمدید این سفارش هم‌اکنون در حال انجام است."
  invalidStatusText := "وضعیت سفارش برای تمدید معتبر نیست."
  failedText := "تمدید سرویس ناموفق بود."
  missingReason := "renewal target service missing"
  persistReason := "renewal persistence failed after panel success"
  refusal _ _ := none
  request x service now :=
    let computed := renewalOf x service now
    ⟨.renewServiceAccount, service.username, computed.totalBytes, computed.expiresAt⟩
  data x service result now := serviceUpdateData (renewalOf x service now) result service now

def executeRenewalOrder (env : ExecutionEnv) (x : OrderRows) : RenewalOutcome × OrderRows :=
  executeRenewal.execute env x

/-! ### Extra volume -/

/-- What remains and the purchased volume. -/
def calculateExtraVolume (service : Service) (volumeGb : ℤ) : ℤ :=
  max service.remainingBytes 0 + volumeGb * GIB

def extraVolumeData (total : ℤ) (result : PanelResult) (service : Service) (now : ℕ) : Service :=
  { service with
    status := .ACTIVE
    volumeBytes := total
    usedBytes := result.usedBytes.getD 0
    remainingBytes := result.remainingBytes.join.getD total
    lastSubscriptionUpdateAt := some now
    subscriptionUrl := newUrl result.subscriptionUrl service.subscriptionUrl
    configLinks := newLinks result.configLinks service.configLinks }

def executeExtraVolume : BotOperation where
  type := .EXTRA_VOLUME
  eventType := .EXTRA_VOLUME_APPLIED
  wrongTypeText := "این سفارش از نوع حجم اضافه نیست."
  inProgressText := "افزایش حجم این سفارش هم‌اکنون در حال انجام است."
  invalidStatusText := "وضعیت سفارش برای افزایش حجم معتبر نیست."
  failedText := "افزایش حجم سرویس ناموفق بود."
  missingReason := "extra-volume target service missing"
  persistReason := "extra-volume persistence failed after panel success"
  refusal x service :=
    if service.volumeBytes ≤ 0 then some "target service has unlimited volume"
    else if soldVolumeGb x ≤ 0 then some "purchased volume is zero"
    else none
  request x service _ :=
    ⟨.addServiceVolume, service.username, some (calculateExtraVolume service (soldVolumeGb x)),
      service.expiresAt⟩
  data x service result now :=
    extraVolumeData (calculateExtraVolume service (soldVolumeGb x)) result service now

def executeExtraVolumeOrder (env : ExecutionEnv) (x : OrderRows) : RenewalOutcome × OrderRows :=
  executeExtraVolume.execute env x

/-! ### Extra time -/

/-- The purchased days from the current expiry, or from now. -/
def calculateExtraTime (service : Service) (purchasedDays : ℤ) (now : ℕ) : ℤ :=
  expiryBase now service.expiresAt + purchasedDays * DAY_MS

/-- Volume and usage stay unless the panel reports them; an exhausted service stays LIMITED. -/
def extraTimeData (newExpiresAt : ℤ) (result : PanelResult) (service : Service) (now : ℕ) :
    Service :=
  let finalExpiresAt := result.expiresAt.join.getD newExpiresAt
  { service with
    status :=
      if 0 < service.volumeBytes ∧ service.remainingBytes ≤ 0 then .LIMITED else .ACTIVE
    expiresAt := some finalExpiresAt
    durationDays := max 0 (ceilDiv (finalExpiresAt - service.startsAt) DAY_MS)
    lastSubscriptionUpdateAt := some now
    usedBytes := result.usedBytes.getD service.usedBytes
    remainingBytes := result.remainingBytes.join.getD service.remainingBytes
    subscriptionUrl := newUrl result.subscriptionUrl service.subscriptionUrl
    configLinks := newLinks result.configLinks service.configLinks }

def executeExtraTime : BotOperation where
  type := .EXTRA_TIME
  eventType := .EXTRA_TIME_APPLIED
  wrongTypeText := "این سفارش از نوع زمان اضافه نیست."
  inProgressText := "افزایش زمان این سفارش هم‌اکنون در حال انجام است."
  invalidStatusText := "وضعیت سفارش برای افزایش زمان معتبر نیست."
  failedText := "افزایش زمان سرویس ناموفق بود."
  missingReason := "extra-time target service missing"
  persistReason := "extra-time persistence failed after panel success"
  refusal x service :=
    if service.expiresAt = none then some "target service never expires"
    else if soldDays x ≤ 0 then some "purchased days is zero"
    else none
  request x service now :=
    ⟨.addServiceTime, service.username,
      if 0 < service.volumeBytes then some service.volumeBytes else none,
      some (calculateExtraTime service (soldDays x) now)⟩
  data x service result now :=
    extraTimeData (calculateExtraTime service (soldDays x) now) result service now

def executeExtraTimeOrder (env : ExecutionEnv) (x : OrderRows) : RenewalOutcome × OrderRows :=
  executeExtraTime.execute env x

end ZedBot.Operations
