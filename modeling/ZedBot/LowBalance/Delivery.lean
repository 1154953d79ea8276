import ZedBot.LowBalance.Backfill
import ZedBot.LowBalance.Settings

/-! The delivery of a low-balance notification: what is checked again before it is sent. -/

namespace ZedBot.LowBalance
open ReadCommitted JsNumber

/-- What a queued notification carries for its check. -/
structure LowBalanceMeta where
  alertCycle : Option ℤ
  rearmBoundaryToman : Option ℤ

def readNumber (value : Option ℤ) (fallback : Number) : Number :=
  (value.map ofInt).getD fallback

/-- The meta of a notification in the present format. -/
def AutomatedNotification.lowBalanceMeta (notification : AutomatedNotification) : LowBalanceMeta where
  alertCycle := some notification.payloadSnapshot.alertCycle
  rearmBoundaryToman := some notification.payloadSnapshot.rearmBoundaryToman

/-- Why a notification is not sent; `none` proceeds with the delivery. -/
inductive LowBalanceDecision
  | cancel (reason : String)
  deriving DecidableEq, Repr

/-- The state after a delivery found its user recovered. -/
def recovered (balance : ℤ) (now : ℕ) (st : LowBalanceAlertState) : LowBalanceAlertState :=
  { st with
    state := .ARMED
    lastObservedBalanceToman := balance
    rearmedAt := some now }

/-- `SELECT … FOR UPDATE` on the state of the user; the history notes the balance of this moment. -/
def lockStateForDelivery (notification : AutomatedNotification) :
    Alerts (Option LowBalanceAlertState) := sql fun v =>
  let row := v.rows (.alertState notification.userId)
  { result := row
    writes := if row.isSome then [⟨.alertState notification.userId, row⟩] else []
    entries := [.revalidation
      { notification := notification
        balanceToman := (v.rows (.user notification.userId)).map (·.balanceToman) }] }

/-- The transaction of a check: the user, the lock of the state and the decision. -/
def judgeForDelivery (fallbackBoundary : Number) (notification : AutomatedNotification)
    (data : LowBalanceMeta) : Alerts (Except ObservationThrow (Option LowBalanceDecision)) :=
  transaction do
    let notificationCycle := readNumber data.alertCycle (ofInt (-1))
    let user ← findUser notification.userId
    match user with
    | none => return .ok (some (.cancel "user-gone"))
    | some user =>
      if user.status ≠ .ACTIVE then
        return .ok (some (.cancel "user-inactive"))
      if ¬ user.lowBalanceNotificationsEnabled then
        return .ok (some (.cancel "low-balance-opted-out"))
      let locked ← lockStateForDelivery notification
      match locked with
      | none => return .ok (some (.cancel "state-missing"))
      | some state =>
        if ofInt state.alertCycle ≠ notificationCycle then
          return .ok (some (.cancel "cycle-superseded"))
        if state.state ≠ .ALERTED then
          return .ok (some (.cancel "cycle-closed"))
        let boundary := readNumber data.rearmBoundaryToman fallbackBoundary
        if isAbove user.balanceToman boundary then
          let now ← ask (·.now)
          let _ ← updateState notification.userId (recovered user.balanceToman now)
          return .ok (some (.cancel "balance-recovered"))
        else
          return .ok none

/-- Checks one queued notification again; `settings` is the table of settings at each of its reads. -/
def revalidateLowBalanceForDelivery (settings : AlertChoice → SettingTable)
    (notification : AutomatedNotification) (data : LowBalanceMeta) :
    Alerts (Except ObservationThrow (Option LowBalanceDecision)) := do
  let enabled ← ask fun c => isFeatureEnabled (settings c)
  if ¬ enabled then
    return .ok (some (.cancel "low-balance-disabled"))
  let fallbackBoundary ← ask fun c => liveRearmBoundary (settings c)
  judgeForDelivery fallbackBoundary notification data

/-- What moves balances, observes them and delivers the notifications. -/
inductive DeliveringProcess
  | mutate (config : AlertChoice → Option FrozenConfig) (userId : ℕ) (delta : ℤ)
  | sweep (config : FrozenConfig) (userId : ℕ)
  | deliver (settings : AlertChoice → SettingTable) (userId cycle : ℕ)
  | register (id : ℕ) (row : User)
  | edit (id : ℕ) (status : UserStatus) (lowBalance payment : Bool)

def DeliveringProcess.program : DeliveringProcess → Alerts Unit
  | .mutate config userId delta => do let _ ← walletMutation config userId delta; return ()
  | .sweep config userId => do let _ ← processOne config userId; return ()
  | .deliver settings userId cycle => do
    let queued ← select fun v => v.rows (.notification userId cycle)
    match queued with
    | none => return ()
    | some notification =>
      let _ ← revalidateLowBalanceForDelivery settings notification notification.lowBalanceMeta
      return ()
  | .register id row => do let _ ← createUser id row; return ()
  | .edit id status lowBalance payment => editUser id status lowBalance payment

end ZedBot.LowBalance
