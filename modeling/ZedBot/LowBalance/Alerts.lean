import ZedBot.ReadCommitted.RowLocks
import ZedBot.Schema

/-! The low-balance alerts: the state of each user, the outbox, and the one transition that the wallet
    observer, the reconciliation sweep and the backfill share.

    The journal lists the inserted users and backfill runs, and remembers as a history what the
    observations and the deliveries saw, which pages a backfill read and which units it committed. -/

namespace ZedBot.LowBalance
open ReadCommitted

/-! ### Rows -/

structure User where
  status : UserStatus := .ACTIVE
  balanceToman : ℤ := 0
  lowBalanceNotificationsEnabled : Bool := true
  paymentNotificationsEnabled : Bool := true
  deriving DecidableEq, Repr

inductive LowBalanceAlertStateValue
  | ARMED | ALERTED
  deriving DecidableEq, Repr

structure LowBalanceAlertState where
  state : LowBalanceAlertStateValue
  alertCycle : ℕ := 0
  lastObservedBalanceToman : ℤ
  lastThresholdToman : ℤ
  lastRearmBoundaryToman : ℤ
  lastConfigVersion : ℤ
  alertedAt : Option ℕ := none
  rearmedAt : Option ℕ := none
  deriving DecidableEq, Repr

/-- Who opened a cycle. -/
inductive Origin
  | event | reconcile | backfill
  deriving DecidableEq, Repr

/-- What a message will say, and the cycle and boundary it is judged by at delivery. -/
structure LowBalanceSnapshot where
  balanceToman : ℤ
  thresholdToman : ℤ
  rearmBoundaryToman : ℤ
  configVersion : ℤ
  alertCycle : ℕ
  origin : Origin
  deriving DecidableEq, Repr

structure AutomatedNotification where
  userId : ℕ
  ruleVersion : ℕ
  scheduledFor : ℕ
  payloadSnapshot : LowBalanceSnapshot
  deriving DecidableEq, Repr

inductive LowBalanceBackfillStatus
  | PENDING | RUNNING | COMPLETED | CANCELLED
  deriving DecidableEq, Repr

structure LowBalanceBackfillRun where
  status : LowBalanceBackfillStatus := .PENDING
  thresholdToman : ℤ
  rearmBoundaryToman : ℤ
  configVersion : ℤ
  cursorUserId : Option ℕ := none
  processedCount : ℕ := 0
  queuedCount : ℕ := 0
  skippedCount : ℕ := 0
  failedCount : ℕ := 0
  startedAt : Option ℕ := none
  completedAt : Option ℕ := none
  cancelledAt : Option ℕ := none
  safeErrorCode : Option String := none
  ownerToken : Option ℕ := none
  leaseExpiresAt : Option ℕ := none
  createdAt : ℕ := 0
  deriving DecidableEq, Repr

/-- A notification is keyed by its unique `dedupeKey`: the user and the cycle. -/
inductive AlertKey
  | user (id : ℕ)
  | alertState (userId : ℕ)
  | notification (userId cycle : ℕ)
  | backfillRun (id : ℕ)
  deriving DecidableEq

/-- The row type of a key. -/
@[reducible] def AlertRow : AlertKey → Type
  | .user _ => Option User
  | .alertState _ => Option LowBalanceAlertState
  | .notification _ _ => Option AutomatedNotification
  | .backfillRun _ => Option LowBalanceBackfillRun

/-- What an observation saw and did. -/
structure Observation where
  userId : ℕ
  /-- The state row was created by this observation. -/
  created : Bool
  balanceBeforeToman : Option ℤ
  balanceToman : ℤ
  eligible : Bool
  forceAlert : Bool
  /-- The cycle it opened. -/
  opened : Option ℕ
  /-- It wrote an outbox row. -/
  notified : Bool
  deriving DecidableEq, Repr

/-- How a unit of a backfill ended. -/
inductive UnitResult
  | queued | skipped | failed
  deriving DecidableEq, Repr

/-- What a delivery judged: its notification, and the balance committed when it locked the state. -/
structure Revalidation where
  notification : AutomatedNotification
  balanceToman : Option ℤ
  deriving DecidableEq, Repr

inductive AlertEntry
  | user (id : ℕ)
  | backfillRun (id : ℕ)
  | observation (o : Observation)
  | revalidation (v : Revalidation)
  | page (runId ownerToken : ℕ) (cursor : Option ℕ) (ids : List ℕ)
  | unit (runId ownerToken userId : ℕ) (result : UnitResult)
  deriving DecidableEq, Repr

/-- What the oracle answers: the clock, a fresh id, and whether a statement throws. -/
structure AlertChoice where
  now : ℕ := 0
  id : ℕ := 0
  throws : Bool := false
  deriving DecidableEq, Repr

abbrev Alerts := Prog AlertRow AlertEntry Unit AlertChoice

abbrev AlertStore := Store AlertRow AlertEntry Unit
abbrev AlertTx := Tx AlertRow AlertEntry
abbrev AlertView := View AlertRow AlertEntry
abbrev AlertLocal := Local AlertRow AlertEntry Unit
abbrev AlertConfig := Config AlertRow AlertEntry Unit AlertChoice

/-! ### Statements -/

def findUser (id : ℕ) : Alerts (Option User) := select fun v => v.rows (.user id)

/-- `SELECT … FOR UPDATE` on the state of a user. -/
def lockState (userId : ℕ) : Alerts (Option LowBalanceAlertState) :=
  selectForUpdate (AlertKey.alertState userId) (Option.isSome : Option LowBalanceAlertState → Bool)

def updateState (userId : ℕ) (data : LowBalanceAlertState → LowBalanceAlertState) : Alerts ℕ :=
  update (.alertState userId) (onRow (fun _ => true) data)

/-- `createMany … skipDuplicates` of one row: whether it was inserted. -/
def insertState (userId : ℕ) (row : LowBalanceAlertState) : Alerts ℕ :=
  update (.alertState userId) (onFree row)

def insertNotification (userId cycle : ℕ) (row : AutomatedNotification) : Alerts ℕ :=
  update (.notification userId cycle) (onFree row)

/-- Whether a cycle already has its notification. -/
def hasNotificationForCycle (userId cycle : ℕ) (v : AlertView) : Bool :=
  (v.rows (.notification userId cycle)).isSome

/-! ### The transition -/

def LOW_BALANCE_RULE_VERSION : ℕ := 1

structure LowBalanceNotificationDraft where
  ruleVersion : ℕ
  payloadSnapshot : LowBalanceSnapshot

/-- One observation. `authorizeForceAlert` is asked with the locked cycle. -/
structure LowBalanceObservationInput where
  userId : ℕ
  balanceBeforeToman : Option ℤ
  balanceAfterToman : ℤ
  thresholdToman : ℤ
  rearmBoundaryToman : ℤ
  configVersion : ℤ
  eligible : Bool
  forceAlert : Bool := false
  authorizeForceAlert : ℕ → AlertView → Bool := fun _ _ => true
  buildNotification : ℕ → LowBalanceNotificationDraft

inductive LowBalanceObservationOutcome
  | seededArmed (cycle : ℕ)
  | seededBaseline (cycle : ℕ)
  | alerted (cycle : ℕ) (notificationId : Option (ℕ × ℕ))
  | rearmed (cycle : ℕ)
  | unchanged (cycle : ℕ)
  deriving DecidableEq, Repr

/-- What ends the transaction of an observation. -/
inductive ObservationThrow
  | vanished | userGone | failed
  deriving DecidableEq, Repr

/-- The row that a first observation creates. -/
def seedState (input : LowBalanceObservationInput) (now : ℕ) : LowBalanceAlertState :=
  let seedBalance := input.balanceBeforeToman.getD input.balanceAfterToman
  let seedLow := seedBalance ≤ input.thresholdToman
  { state := if seedLow then .ALERTED else .ARMED
    alertCycle := 0
    lastObservedBalanceToman := seedBalance
    lastThresholdToman := input.thresholdToman
    lastRearmBoundaryToman := input.rearmBoundaryToman
    lastConfigVersion := input.configVersion
    alertedAt := if seedLow then some now else none }

/-- Ensures the row exists and returns it locked, and whether it was created. -/
def seedAndLockState (input : LowBalanceObservationInput) :
    Alerts (Except ObservationThrow (LowBalanceAlertState × Bool)) := do
  let now ← ask (·.now)
  let inserted ← insertState input.userId (seedState input now)
  let row ← lockState input.userId
  match row with
  | none => return .error .vanished
  | some state => return .ok (state, inserted = 1)

/-- The state after an observation that stays on its side of the machine. -/
def touched (input : LowBalanceObservationInput) (balance : ℤ) (st : LowBalanceAlertState) :
    LowBalanceAlertState :=
  { st with
    lastObservedBalanceToman := balance
    lastThresholdToman := input.thresholdToman
    lastRearmBoundaryToman := input.rearmBoundaryToman
    lastConfigVersion := input.configVersion }

def touch (input : LowBalanceObservationInput) (balance : ℤ) : Alerts Unit := do
  let _ ← updateState input.userId (touched input balance)
  return ()

/-- The state after its episode is closed: re-arming does not advance the cycle. -/
def rearmed (input : LowBalanceObservationInput) (balance : ℤ) (now : ℕ)
    (st : LowBalanceAlertState) : LowBalanceAlertState :=
  { touched input balance st with
    state := .ARMED
    rearmedAt := some now }

def rearm (input : LowBalanceObservationInput) (balance : ℤ) : Alerts Unit := do
  let now ← ask (·.now)
  let _ ← updateState input.userId (rearmed input balance now)
  return ()

/-- The state in the cycle that an observation opens. -/
def alertedIn (input : LowBalanceObservationInput) (balance : ℤ) (cycle now : ℕ)
    (st : LowBalanceAlertState) : LowBalanceAlertState :=
  { touched input balance st with
    state := .ALERTED
    alertCycle := cycle
    alertedAt := some now }

/-- Advances to the next cycle and writes its outbox row, where the user may be messaged; the second
    component is whether this call wrote it. -/
def openCycle (input : LowBalanceObservationInput) (balance : ℤ) (state : LowBalanceAlertState) :
    Alerts (LowBalanceObservationOutcome × Bool) := do
  let cycle := state.alertCycle + 1
  let now ← ask (·.now)
  let _ ← updateState input.userId (alertedIn input balance cycle now)
  if ¬ input.eligible then
    return (.alerted cycle none, false)
  let draft := input.buildNotification cycle
  let created ← insertNotification input.userId cycle
    { userId := input.userId
      ruleVersion := draft.ruleVersion
      scheduledFor := now
      payloadSnapshot := draft.payloadSnapshot }
  let row ← select fun v => v.rows (.notification input.userId cycle)
  return (.alerted cycle (row.map fun _ => (input.userId, cycle)), created = 1)

/-- The observed balance: what the caller witnessed, or the balance read under the state lock. -/
def observedBalance (input : LowBalanceObservationInput) : Alerts ℤ := do
  match input.balanceBeforeToman with
  | some _ => return input.balanceAfterToman
  | none =>
    let user ← findUser input.userId
    return (user.map (·.balanceToman)).getD input.balanceAfterToman

/-- The transition from the locked state. -/
def transition (input : LowBalanceObservationInput) (created : Bool) (balance : ℤ)
    (state : LowBalanceAlertState) : Alerts (LowBalanceObservationOutcome × Bool) := do
  let isLow := balance ≤ input.thresholdToman
  let isRecovered := input.rearmBoundaryToman < balance
  match state.state with
  | .ALERTED =>
    if isRecovered then
      rearm input balance
      return (.rearmed state.alertCycle, false)
    if input.forceAlert ∧ isLow then
      let authorized ← select (input.authorizeForceAlert state.alertCycle)
      if authorized then
        openCycle input balance state
      else
        touch input balance
        return (.unchanged state.alertCycle, false)
    else
      touch input balance
      return (if created then .seededBaseline state.alertCycle else .unchanged state.alertCycle, false)
  | .ARMED =>
    if isLow then
      openCycle input balance state
    else
      touch input balance
      return (if created then .seededArmed state.alertCycle else .unchanged state.alertCycle, false)

/-- The cycle an outcome opened. -/
def LowBalanceObservationOutcome.openedCycle : LowBalanceObservationOutcome → Option ℕ
  | .alerted cycle _ => some cycle
  | _ => none

/-- Applies one observation to a user's state, inside the caller's transaction. -/
def applyLowBalanceObservation (input : LowBalanceObservationInput) :
    Alerts (Except ObservationThrow LowBalanceObservationOutcome) := do
  let seeded ← seedAndLockState input
  match seeded with
  | .error e => return .error e
  | .ok (state, created) =>
    let balance ← observedBalance input
    let (outcome, notified) ← transition input created balance state
    append (.observation
      { userId := input.userId
        created := created
        balanceBeforeToman := input.balanceBeforeToman
        balanceToman := balance
        eligible := input.eligible
        forceAlert := input.forceAlert
        opened := outcome.openedCycle
        notified := notified })
    return .ok outcome

/-! ### The producers -/

/-- A configuration of the alerts, as one observation uses it. -/
structure FrozenConfig where
  thresholdToman : ℤ
  rearmBoundaryToman : ℤ
  configVersion : ℤ
  deriving DecidableEq, Repr

/-- Whether a user may receive a low-balance alert at all. -/
def evaluateEligibility (user : User) : Bool :=
  user.status = .ACTIVE ∧ user.lowBalanceNotificationsEnabled ∧ user.paymentNotificationsEnabled

def draftFor (config : FrozenConfig) (balance : ℤ) (origin : Origin) (cycle : ℕ) :
    LowBalanceNotificationDraft where
  ruleVersion := LOW_BALANCE_RULE_VERSION
  payloadSnapshot :=
    { balanceToman := balance
      thresholdToman := config.thresholdToman
      rearmBoundaryToman := config.rearmBoundaryToman
      configVersion := config.configVersion
      alertCycle := cycle
      origin := origin }

/-- The wallet observer, inside the transaction that moves the balance; `none` where the feature is
    disabled. -/
def observeWalletBalance (config : Option FrozenConfig) (userId : ℕ) (balanceBeforeToman : Option ℤ)
    (balanceAfterToman : ℤ) : Alerts (Except ObservationThrow Unit) := do
  match config with
  | none => return .ok ()
  | some config =>
    let found ← findUser userId
    match found with
    | none => return .ok ()
    | some user =>
      let outcome ← applyLowBalanceObservation
        { userId := userId
          balanceBeforeToman := balanceBeforeToman
          balanceAfterToman := balanceAfterToman
          thresholdToman := config.thresholdToman
          rearmBoundaryToman := config.rearmBoundaryToman
          configVersion := config.configVersion
          eligible := evaluateEligibility user
          buildNotification := draftFor config balanceAfterToman .event }
      match outcome with
      | .ok _ => return .ok ()
      | .error e => return .error e

def User.move (delta : ℤ) (user : User) : User :=
  { user with balanceToman := user.balanceToman + delta }

/-- A wallet mutation with its observer: the balance moves under the lock of the user's row, and the
    balances before and after are read back. -/
def walletMutation (config : AlertChoice → Option FrozenConfig) (userId : ℕ) (delta : ℤ) :
    Alerts (Except ObservationThrow Unit) := transaction do
  let moved ← update (.user userId) (onRow (fun _ => true) (User.move delta))
  if moved ≠ 1 then
    return .error .userGone
  let user ← findUser userId
  let config ← ask config
  match user with
  | none => return .error .userGone
  | some u => observeWalletBalance config userId (some (u.balanceToman - delta)) u.balanceToman

/-- One unit of the reconciliation sweep. -/
def processOne (config : FrozenConfig) (userId : ℕ) :
    Alerts (Except ObservationThrow (Option LowBalanceObservationOutcome)) := transaction do
  let live ← findUser userId
  match live with
  | none => return .ok none
  | some live =>
    if live.status ≠ .ACTIVE then
      return .ok none
    let outcome ← applyLowBalanceObservation
      { userId := userId
        balanceBeforeToman := none
        balanceAfterToman := live.balanceToman
        thresholdToman := config.thresholdToman
        rearmBoundaryToman := config.rearmBoundaryToman
        configVersion := config.configVersion
        eligible := evaluateEligibility live
        buildNotification := draftFor config live.balanceToman .reconcile }
    match outcome with
    | .ok outcome => return .ok (some outcome)
    | .error e => return .error e

/-- The forced observation of a backfill unit. -/
def backfillInput (config : FrozenConfig) (userId : ℕ) (balance : ℤ) :
    LowBalanceObservationInput where
  userId := userId
  balanceBeforeToman := none
  balanceAfterToman := balance
  thresholdToman := config.thresholdToman
  rearmBoundaryToman := config.rearmBoundaryToman
  configVersion := config.configVersion
  eligible := true
  forceAlert := true
  authorizeForceAlert lockedCycle v :=
    lockedCycle = 0 ∨ ¬ hasNotificationForCycle userId lockedCycle v
  buildNotification := draftFor config balance .backfill

end ZedBot.LowBalance
