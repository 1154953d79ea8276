import ZedBot.Rows
import ZedBot.Runs
import Mathlib.Algebra.Group.Nat.Defs
import Mathlib.Data.List.Sort

/-! # The outbox of support notifications

    Each event has an intent, and each administrator who is to hear of it an obligation. A worker
    claims the intent, freezes who is to be told, claims the obligations that are due, sends, and
    settles the intent from the obligations.

        intent:     PENDING ⇄ SENDING ──▶ SENT, FAILED
        obligation: PENDING ⇄ SENDING ──▶ SENT, FAILED;  PENDING ──▶ SKIPPED -/

namespace ZedBot.Support.Outbox

open Rows

/-- Instants and durations in milliseconds. -/
abbrev Instant := ℕ

def NOTIFICATION_STALE_CLAIM_MS : ℕ := 5 * 60 * 1000
def NOTIFICATION_MAX_ATTEMPTS : ℕ := 6

def SUPPORT_NOTIFICATION_KINDS : List String := ["support.ticket_created", "support.user_replied"]

/-- The backoff after an attempt. -/
def notificationRetryDelayMs (attempts : ℕ) : ℕ :=
  min (15 * 60 * 1000) (10000 * 2 ^ (max 1 attempts - 1))

inductive SupportNotificationStatus
  | PENDING | SENDING | SENT | FAILED
  deriving DecidableEq

inductive SupportRecipientStatus
  | PENDING | SENDING | SENT | FAILED | SKIPPED
  deriving DecidableEq

def SupportRecipientStatus.isTerminal : SupportRecipientStatus → Bool
  | .PENDING | .SENDING => false
  | .SENT | .FAILED | .SKIPPED => true

structure SupportNotificationIntent where
  id : ℕ
  ticketId : ℕ
  messageId : ℕ
  kind : String
  status : SupportNotificationStatus := .PENDING
  attempts : ℕ := 0
  deliveredCount : ℕ := 0
  safeErrorCode : Option String := none
  nextAttemptAt : Option Instant := none
  claimedAt : Option Instant := none
  sentAt : Option Instant := none
  recipientsExpandedAt : Option Instant := none
  deriving DecidableEq

structure SupportNotificationRecipient where
  intentId : ℕ
  adminId : ℕ
  status : SupportRecipientStatus := .PENDING
  attempts : ℕ := 0
  safeErrorCode : Option String := none
  nextAttemptAt : Option Instant := none
  claimedAt : Option Instant := none
  sentAt : Option Instant := none
  deriving DecidableEq

structure Admin where
  id : ℕ
  isActive : Bool
  deriving DecidableEq

/-- The tables, each in the order of creation. -/
structure Db where
  intents : List SupportNotificationIntent := []
  recipients : List SupportNotificationRecipient := []
  admins : List Admin := []
  deriving DecidableEq

structure DeliverableIntent where
  id : ℕ
  kind : String
  attempts : ℕ
  ticketId : ℕ
  messageId : ℕ
  deriving DecidableEq

/-- An obligation that is claimed; `claim` is the number of its claims so far. -/
structure DeliverableRecipient where
  intentId : ℕ
  adminId : ℕ
  attempts : ℕ
  claim : ℕ
  deriving DecidableEq

/-- An obligation that was due when the worker read it. -/
structure Candidate where
  adminId : ℕ
  attempts : ℕ
  isActive : Bool
  deriving DecidableEq

/-! ### Statements -/

def isDue (now : Instant) (nextAttemptAt : Option Instant) : Bool := nextAttemptAt.all (· ≤ now)

def SupportNotificationIntent.deliverable (i : SupportNotificationIntent) : DeliverableIntent where
  id := i.id
  kind := i.kind
  attempts := i.attempts
  ticketId := i.ticketId
  messageId := i.messageId

/-- The candidates of `claimDueIntents`. -/
def dueIntents (limit : ℕ) (now : Instant) (db : Db) : List DeliverableIntent :=
  ((db.intents.filter fun i => i.status = .PENDING ∧ isDue now i.nextAttemptAt).take limit).map
    SupportNotificationIntent.deliverable

/-- The candidate of `claimIntentForTicket`: the newest. -/
def intentForTicket (ticketId : ℕ) (kind : String) (db : Db) : List DeliverableIntent :=
  ((db.intents.filter fun i => i.ticketId = ticketId ∧ i.kind = kind ∧
    i.status = .PENDING).getLast?.map SupportNotificationIntent.deliverable).toList

def claimable (id : ℕ) (i : SupportNotificationIntent) : Bool := i.id = id ∧ i.status = .PENDING

def claimIntent (id : ℕ) (now : Instant) (db : Db) : Db :=
  { db with intents := updateWhere (claimable id) (fun i =>
      { i with status := .SENDING, claimedAt := some now, attempts := i.attempts + 1 }) db.intents }

/-- The intent with an id, held by a worker. -/
def held (id : ℕ) (i : SupportNotificationIntent) : Bool := i.id = id ∧ i.status = .SENDING

def abandonIntent (id : ℕ) (safeErrorCode : String) (now : Instant) (db : Db) : Db :=
  { db with intents := updateWhere (held id) (fun i =>
      { i with
        status := .FAILED
        claimedAt := none
        nextAttemptAt := none
        safeErrorCode := some safeErrorCode
        sentAt := some now }) db.intents }

def eligibleAdminIds (db : Db) : List ℕ :=
  ((db.admins.filter (·.isActive)).map Admin.id).insertionSort (· ≤ ·)

def unexpanded (id : ℕ) (i : SupportNotificationIntent) : Bool :=
  i.id = id ∧ i.recipientsExpandedAt = none

/-- The obligations that are not there yet. -/
def newRecipients (intentId : ℕ) (adminIds : List ℕ) (db : Db) :
    List SupportNotificationRecipient :=
  (adminIds.filter fun a =>
    db.recipients.all fun r => ¬ (r.intentId = intentId ∧ r.adminId = a)).map
      fun adminId => { intentId, adminId }

/-- The stamp and the obligations, if no one has stamped the intent. -/
def freeze (intentId : ℕ) (adminIds : List ℕ) (now : Instant) (db : Db) : Db :=
  if db.intents.countP (unexpanded intentId) = 0 then db
  else
    { db with
      intents := updateWhere (unexpanded intentId)
        (fun i => { i with recipientsExpandedAt := some now }) db.intents
      recipients := db.recipients ++ newRecipients intentId adminIds db }

def isActive (db : Db) (adminId : ℕ) : Bool := db.admins.any fun a => a.id = adminId ∧ a.isActive

/-- The candidates of `claimDueRecipients`. -/
def dueRecipients (intentId : ℕ) (now : Instant) (db : Db) : List Candidate :=
  (db.recipients.filter fun r => r.intentId = intentId ∧ r.status = .PENDING ∧
    isDue now r.nextAttemptAt).map fun r =>
      { adminId := r.adminId, attempts := r.attempts, isActive := isActive db r.adminId }

def isRecipient (intentId adminId : ℕ) (status : SupportRecipientStatus)
    (r : SupportNotificationRecipient) : Bool :=
  r.intentId = intentId ∧ r.adminId = adminId ∧ r.status = status

def updateRecipient (intentId adminId : ℕ) (status : SupportRecipientStatus)
    (data : SupportNotificationRecipient → SupportNotificationRecipient) (db : Db) : Db :=
  { db with recipients := updateWhere (isRecipient intentId adminId status) data db.recipients }

def skipRecipient (intentId adminId : ℕ) : Db → Db :=
  updateRecipient intentId adminId .PENDING fun r =>
    { r with status := .SKIPPED, claimedAt := none, safeErrorCode := some "admin-inactive" }

def claimRecipient (intentId adminId : ℕ) (now : Instant) : Db → Db :=
  updateRecipient intentId adminId .PENDING fun r =>
    { r with status := .SENDING, claimedAt := some now, attempts := r.attempts + 1 }

def markRecipientSent (intentId adminId : ℕ) (now : Instant) : Db → Db :=
  updateRecipient intentId adminId .SENDING fun r =>
    { r with status := .SENT, sentAt := some now, claimedAt := none, safeErrorCode := none }

def markRecipientFailed (intentId adminId attempts : ℕ) (safeErrorCode : String) (now : Instant) :
    Db → Db :=
  let exhausted : Bool := NOTIFICATION_MAX_ATTEMPTS ≤ attempts
  updateRecipient intentId adminId .SENDING fun r =>
    { r with
      status := if exhausted then .FAILED else .PENDING
      claimedAt := none
      safeErrorCode := some safeErrorCode
      nextAttemptAt := if exhausted then none else some (now + notificationRetryDelayMs attempts) }

/-- What `settleIntent` counts. -/
structure Counts where
  sent : ℕ
  failed : ℕ
  skipped : ℕ
  pending : ℕ
  deriving DecidableEq

def countStatus (intentId : ℕ) (status : SupportRecipientStatus) (db : Db) : ℕ :=
  db.recipients.countP fun r => r.intentId = intentId ∧ r.status = status

def countRecipients (intentId : ℕ) (db : Db) : Counts where
  sent := countStatus intentId .SENT db
  failed := countStatus intentId .FAILED db
  skipped := countStatus intentId .SKIPPED db
  pending := countStatus intentId .PENDING db + countStatus intentId .SENDING db

def settleIntent (intentId intentAttempts : ℕ) (counts : Counts) (now : Instant) (db : Db) : Db :=
  if counts.pending ≠ 0 then
    let attempts :=
      if NOTIFICATION_MAX_ATTEMPTS ≤ intentAttempts then NOTIFICATION_MAX_ATTEMPTS
      else intentAttempts
    { db with intents := updateWhere (held intentId) (fun i =>
        { i with
          status := .PENDING
          claimedAt := none
          nextAttemptAt := some (now + notificationRetryDelayMs attempts) }) db.intents }
  else
    let reachedSomeone : Bool :=
      0 < counts.sent ∨ counts.sent + counts.failed + counts.skipped = 0
    { db with intents := updateWhere (held intentId) (fun i =>
        { i with
          status := if reachedSomeone then .SENT else .FAILED
          sentAt := some now
          claimedAt := none
          nextAttemptAt := none
          deliveredCount := counts.sent }) db.intents }

/-- A claim from before the cutoff. -/
def isStale (now : Instant) (claimedAt : Option Instant) : Bool :=
  claimedAt.any fun at' => at' + NOTIFICATION_STALE_CLAIM_MS < now

def inScope (ticketIds : Option (List ℕ)) (ticketId : ℕ) : Bool := ticketIds.all (ticketId ∈ ·)

def staleRecipient (ticketIds : Option (List ℕ)) (now : Instant) (db : Db)
    (r : SupportNotificationRecipient) : Bool :=
  r.status = .SENDING ∧ isStale now r.claimedAt ∧
    db.intents.any fun i => i.id = r.intentId ∧ inScope ticketIds i.ticketId

/-- The first statement of `recoverStaleClaims`. -/
def recoverRecipients (ticketIds : Option (List ℕ)) (now : Instant) (db : Db) : Db :=
  { db with recipients := updateWhere (staleRecipient ticketIds now db) (fun r =>
      { r with status := .PENDING, claimedAt := none, nextAttemptAt := some now }) db.recipients }

/-- The second statement of `recoverStaleClaims`. -/
def recoverIntents (ticketIds : Option (List ℕ)) (now : Instant) (db : Db) : Db :=
  { db with intents := updateWhere (fun i => i.status = .SENDING ∧ isStale now i.claimedAt ∧
      inScope ticketIds i.ticketId) (fun i =>
      { i with status := .PENDING, claimedAt := none, nextAttemptAt := some now }) db.intents }

end ZedBot.Support.Outbox
