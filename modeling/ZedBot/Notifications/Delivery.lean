import ZedBot.ReadCommitted.Statements

/-! The delivery of the automated notifications.

    A run of a delivery job checks its notification again, claims it, sends it and records the result;
    the maintenance rearms claims that are too old and deletes old rows. The outside world is the list
    of the messages that Telegram accepted, each with the run that sent it. -/

namespace ZedBot.Notifications
open ReadCommitted

/-! ### Rows -/

inductive AutomatedNotificationType
  | SERVICE_EXPIRY | SERVICE_TRAFFIC | SERVICE_EXPIRED | SERVICE_LIMITED | TRIAL_NEAR_EXPIRY
  | TRIAL_EXPIRED | ABANDONED_CHECKOUT | PAYMENT_RETRY | CUSTOMER_WINBACK
  | STARS_SUBSCRIPTION_ACTIVATED | STARS_SUBSCRIPTION_RENEWED | STARS_SUBSCRIPTION_CANCELLED
  | STARS_SUBSCRIPTION_PAST_DUE | STARS_SUBSCRIPTION_REQUIRES_ACTION | STARS_SUBSCRIPTION_REFUNDED
  | STARS_SUBSCRIPTION_PRICE_VERSION_CHANGED | AUTO_RENEWAL_UPCOMING | WALLET_LOW_BALANCE
  deriving DecidableEq, Repr

inductive AutomatedNotificationStatus
  | SCHEDULED | READY | SENDING | SENT | FAILED | DEAD_LETTER | CANCELLED | SUPPRESSED | EXPIRED
  deriving DecidableEq, Repr

structure AutomatedNotification where
  type : AutomatedNotificationType := .SERVICE_EXPIRY
  status : AutomatedNotificationStatus := .SCHEDULED
  serviceId : Option ℕ := none
  scheduledFor : ℕ := 0
  availableUntil : Option ℕ := none
  attempts : ℕ := 0
  safeErrorCode : Option String := none
  telegramMessageId : Option ℕ := none
  sentAt : Option ℕ := none
  failedAt : Option ℕ := none
  cancelledAt : Option ℕ := none
  suppressedAt : Option ℕ := none
  claimedAt : Option ℕ := none
  updatedAt : ℕ := 0
  deriving DecidableEq, Repr

inductive NoticeKey
  | notification (id : ℕ)
  deriving DecidableEq

/-- The row type of a key. -/
@[reducible] def NoticeRow : NoticeKey → Type
  | .notification _ => Option AutomatedNotification

/-- A message that Telegram accepted, and the run that sent it. -/
structure Sent where
  notificationId : ℕ
  run : ℕ
  deriving DecidableEq, Repr

/-- Terminal statuses: a delivery job for one of these is a no-op. -/
def TERMINAL : List AutomatedNotificationStatus :=
  [.SENT, .DEAD_LETTER, .CANCELLED, .SUPPRESSED, .EXPIRED]

inductive Terminal
  | cancel (reason : String)
  | suppress (reason : String)
  | expire (reason : String)
  deriving DecidableEq, Repr

/-- What a check says: end the notification, or put it off. -/
inductive Gate
  | terminal (decision : Terminal)
  | deferTo (reason : String) (later : ℕ)
  deriving DecidableEq, Repr

inductive SendResult
  | ok (messageId : ℕ)
  | failed (safeErrorCode : String) (retryable : Bool)
  deriving DecidableEq, Repr

/-- What the live service says of a service notification. -/
structure ServiceCheck where
  gateOpen : Bool := true
  sourceValid : Bool := true
  deriving DecidableEq, Repr

/-- What the oracle answers: the clock, the reads of other tables and settings, and Telegram. -/
structure NoticeChoice where
  now : ℕ := 0
  systemEnabled : Bool := true
  userGateOpen : Bool := true
  service : Option ServiceCheck := some {}
  checkout : Option Terminal := none
  winback : Option Gate := none
  starsRecovered : Bool := false
  autoRenewalEnabled : Bool := true
  autoRenewal : Option Terminal := none
  lowBalance : Option Terminal := none
  quietUntil : Option ℕ := none
  cappedUntil : Option ℕ := none
  hasToken : Bool := true
  hasChat : Bool := true
  send : SendResult := .ok 1
  historyCutoff : ℕ := 0
  failedCutoff : ℕ := 0
  deadLetterCutoff : ℕ := 0

abbrev Notices := Prog NoticeRow Unit (List Sent) NoticeChoice

abbrev NoticeStore := Store NoticeRow Unit (List Sent)
abbrev NoticeTx := Tx NoticeRow Unit
abbrev NoticeView := View NoticeRow Unit
abbrev NoticeConfig := Config NoticeRow Unit (List Sent) NoticeChoice

/-! ### Statements -/

/-- The update of a row that exists. -/
def onRow (cond : AutomatedNotification → Bool)
    (data : AutomatedNotification → AutomatedNotification) :
    Option AutomatedNotification → Option (Option AutomatedNotification)
  | some n => if cond n then some (some (data n)) else none
  | none => none

/-- `updateMany` by id. -/
def updateMany (id : ℕ) (cond : AutomatedNotification → Bool)
    (data : AutomatedNotification → AutomatedNotification) : Notices ℕ :=
  update (.notification id) (onRow cond data)

def isOpen (n : AutomatedNotification) : Bool := n.status ∉ TERMINAL

/-- The row after a terminal decision. -/
def ended (now : ℕ) (decision : Terminal) (n : AutomatedNotification) : AutomatedNotification :=
  match decision with
  | .cancel reason =>
    { n with status := .CANCELLED, safeErrorCode := some reason, cancelledAt := some now,
             updatedAt := now }
  | .suppress reason =>
    { n with status := .SUPPRESSED, safeErrorCode := some reason, suppressedAt := some now,
             updatedAt := now }
  | .expire reason =>
    { n with status := .EXPIRED, safeErrorCode := some reason, updatedAt := now }

def markTerminal (id : ℕ) (decision : Terminal) : Notices ℕ := do
  let now ← ask (·.now)
  updateMany id isOpen (ended now decision)

/-- Re-schedules a not-yet-due notification for later. -/
def deferTo (id later : ℕ) : Notices ℕ := do
  let now ← ask (·.now)
  updateMany id isOpen fun n =>
    { n with status := .SCHEDULED, scheduledFor := later, updatedAt := now }

def isClaimable (n : AutomatedNotification) : Bool :=
  n.status ∈ [.SCHEDULED, .READY, .SENDING, .FAILED]

/-- SCHEDULED / READY / SENDING / FAILED → SENDING. -/
def claim (id now : ℕ) : Notices ℕ := updateMany id isClaimable fun n =>
  { n with status := .SENDING, claimedAt := some now, updatedAt := now }

/-- `update` by id, whatever the status. -/
def record (id : ℕ) (data : AutomatedNotification → AutomatedNotification) : Notices ℕ :=
  updateMany id (fun _ => true) data

/-! ### Checks -/

/-- The first check that objects decides. -/
def firstGate : List (Notices (Option Gate)) → Notices (Option Gate)
  | [] => return none
  | check :: rest => do
    let gate ← check
    match gate with
    | some gate => return some gate
    | none => firstGate rest

def cancelUnless (ok : Bool) (reason : String) : Option Gate :=
  if ok then none else some (.terminal (.cancel reason))

def windowGate (now : ℕ) (n : AutomatedNotification) : Notices (Option Gate) :=
  return if n.availableUntil.any (· ≤ now) then some (.terminal (.expire "window-passed")) else none

def systemGate : Notices (Option Gate) := do
  let enabled ← ask (·.systemEnabled)
  return cancelUnless enabled "system-disabled"

def userGate : Notices (Option Gate) := do
  let gateOpen ← ask (·.userGateOpen)
  return cancelUnless gateOpen "user-opted-out"

/-- The advance notice of an auto-renewal names a service but is not a service alert. -/
def serviceGate (n : AutomatedNotification) : Notices (Option Gate) := do
  if n.serviceId ≠ none ∧ n.type ≠ .AUTO_RENEWAL_UPCOMING then
    let service ← ask (·.service)
    match service with
    | none => return some (.terminal (.cancel "service-gone"))
    | some service =>
      if ¬ service.gateOpen then
        return some (.terminal (.cancel "service-opted-out"))
      return cancelUnless service.sourceValid "source-stale"
  else
    return none

def checkoutGate (n : AutomatedNotification) : Notices (Option Gate) := do
  if n.type = .ABANDONED_CHECKOUT ∨ n.type = .PAYMENT_RETRY then
    let decision ← ask (·.checkout)
    return decision.map .terminal
  else
    return none

def winbackGate (n : AutomatedNotification) : Notices (Option Gate) :=
  if n.type = .CUSTOMER_WINBACK then ask (·.winback) else return none

def starsGate (n : AutomatedNotification) : Notices (Option Gate) := do
  if n.type = .STARS_SUBSCRIPTION_PAST_DUE ∨ n.type = .STARS_SUBSCRIPTION_REQUIRES_ACTION then
    let recovered ← ask (·.starsRecovered)
    return cancelUnless (¬ recovered) "stars-subscription-recovered"
  else
    return none

def autoRenewalGate (n : AutomatedNotification) : Notices (Option Gate) := do
  if n.type = .AUTO_RENEWAL_UPCOMING then
    let enabled ← ask (·.autoRenewalEnabled)
    if ¬ enabled then
      return some (.terminal (.cancel "auto-renewal-disabled"))
    let decision ← ask (·.autoRenewal)
    return decision.map .terminal
  else
    return none

def lowBalanceGate (n : AutomatedNotification) : Notices (Option Gate) := do
  if n.type = .WALLET_LOW_BALANCE then
    let decision ← ask (·.lowBalance)
    return decision.map .terminal
  else
    return none

/-- A notification that has to wait: dropped where it would come too late. -/
def putOff (n : AutomatedNotification) (later : ℕ) (late reason : String) : Gate :=
  if n.availableUntil.any (· ≤ later) then .terminal (.suppress late) else .deferTo reason later

def quietGate (n : AutomatedNotification) : Notices (Option Gate) := do
  let quietUntil ← ask (·.quietUntil)
  return quietUntil.map fun t => putOff n t "quiet-hours-window" "quiet-hours"

def capGate (n : AutomatedNotification) : Notices (Option Gate) := do
  let cappedUntil ← ask (·.cappedUntil)
  return cappedUntil.map fun t => putOff n t "daily-limit" "daily-limit"

/-- Everything that is checked again at send time. -/
def revalidate (now : ℕ) (n : AutomatedNotification) : Notices (Option Gate) :=
  firstGate [windowGate now n, systemGate, userGate, serviceGate n, checkoutGate n, winbackGate n,
    starsGate n, autoRenewalGate n, lowBalanceGate n, quietGate n, capGate n]

/-! ### A run of a delivery job -/

/-- The message of a run is sent. -/
def sendTelegramMessage (id run : ℕ) : Notices SendResult := ext fun c sent =>
  match c.send with
  | .ok messageId => (.ok messageId, ⟨id, run⟩ :: sent)
  | .failed code retryable => (.failed code retryable, sent)

/-- The row after the result of a send. -/
def recorded (now : ℕ) (finalAttempt : Bool) (read : AutomatedNotification) (result : SendResult)
    (n : AutomatedNotification) : AutomatedNotification :=
  match result with
  | .ok messageId =>
    { n with status := .SENT, telegramMessageId := some messageId, sentAt := some now,
             attempts := read.attempts + 1, safeErrorCode := none, updatedAt := now }
  | .failed code retryable =>
    if code = "rate-limited" ∧ ¬ finalAttempt then
      { n with status := .SCHEDULED, safeErrorCode := some "rate-limited", updatedAt := now }
    else if ¬ retryable ∨ finalAttempt then
      { n with status := .DEAD_LETTER, attempts := read.attempts + 1, safeErrorCode := some code,
               failedAt := some now, updatedAt := now }
    else
      { n with status := .FAILED, attempts := read.attempts + 1, safeErrorCode := some code,
               failedAt := some now, updatedAt := now }

/-- After the claim: the destination, the send and its result. -/
def sendClaimed (run id : ℕ) (finalAttempt : Bool) (n : AutomatedNotification) : Notices Unit := do
  let hasToken ← ask (·.hasToken)
  if ¬ hasToken then
    let now ← ask (·.now)
    let _ ← record id fun n =>
      { n with status := .SCHEDULED, safeErrorCode := some "bot-token-missing", updatedAt := now }
    return ()
  let hasChat ← ask (·.hasChat)
  if ¬ hasChat then
    let _ ← markTerminal id (.cancel "no-telegram-id")
    return ()
  let result ← sendTelegramMessage id run
  let now ← ask (·.now)
  let _ ← record id (recorded now finalAttempt n result)
  return ()

def deliver (run id : ℕ) (finalAttempt : Bool) : Notices Unit := do
  let now ← ask (·.now)
  let notification ← select fun v => v.rows (.notification id)
  match notification with
  | none => return ()
  | some n =>
    if n.status ∈ TERMINAL then
      return ()
    let gate ← revalidate now n
    match gate with
    | some (.terminal decision) =>
      let _ ← markTerminal id decision
      return ()
    | some (.deferTo _ later) =>
      let _ ← deferTo id later
      return ()
    | none =>
      let claimed ← claim id now
      if claimed = 0 then
        return ()
      sendClaimed run id finalAttempt n

/-! ### Maintenance -/

/-- A SENDING row whose claim is older than this is treated as crash-orphaned. -/
def SENDING_ORPHAN_MS : ℕ := 10 * 60000

/-- A statement over the rows of a table. -/
def overRows (ids : List ℕ) (f : AutomatedNotification → Option (Option AutomatedNotification)) :
    Notices Unit := sql fun v =>
  { result := ()
    writes := ids.filterMap fun id => (v.rows (.notification id)).bind fun n =>
      (f n).map fun row => ⟨.notification id, row⟩ }

/-- Claims that are too old go back to SCHEDULED. -/
def reconcile (ids : List ℕ) : Notices Unit := do
  let now ← ask (·.now)
  overRows ids fun n =>
    if n.status = .SENDING ∧ n.claimedAt.any (· + SENDING_ORPHAN_MS < now) then
      some (some { n with status := .SCHEDULED, safeErrorCode := some "sending-orphan-recovered",
                          updatedAt := now })
    else none

/-- Terminal and failed rows past their retention are deleted. -/
def cleanup (ids : List ℕ) : Notices Unit := do
  let historyCutoff ← ask (·.historyCutoff)
  let failedCutoff ← ask (·.failedCutoff)
  let deadLetterCutoff ← ask (·.deadLetterCutoff)
  overRows ids fun n =>
    if n.status ∈ [.SENT, .CANCELLED, .SUPPRESSED, .EXPIRED] ∧ n.updatedAt < historyCutoff then
      some none else none
  overRows ids fun n => if n.status = .FAILED ∧ n.updatedAt < failedCutoff then some none else none
  overRows ids fun n =>
    if n.status = .DEAD_LETTER ∧ n.updatedAt < deadLetterCutoff then some none else none

/-- What runs against the notifications. -/
inductive NoticeProcess
  | deliver (id : ℕ) (finalAttempt : Bool)
  | reconcile (ids : List ℕ)
  | cleanup (ids : List ℕ)

def NoticeProcess.program (run : ℕ) : NoticeProcess → Notices Unit
  | .deliver id finalAttempt => Notifications.deliver run id finalAttempt
  | .reconcile ids => Notifications.reconcile ids
  | .cleanup ids => Notifications.cleanup ids

end ZedBot.Notifications
