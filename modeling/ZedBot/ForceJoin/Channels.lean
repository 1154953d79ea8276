import Mathlib.Data.List.Sort
import Mathlib.Data.String.Basic

/-! # The required channels: table, switch and writers

    Membership in the active channels is required while the switch is on. Every change of the
    configuration is a transaction that first takes one advisory lock; it reads the tables,
    plans its writes and commits them together. Only the two validation stamps write without
    the lock, and they touch nothing but the health of a row.

        lock ──▶ read ──▶ plan: outcome and writes ──▶ commit  (or nothing at all)
                     ▲ validation stamps may come in between -/

namespace ZedBot.ForceJoin

def MAX_ACTIVE_FORCE_JOIN_CHANNELS : ℕ := 10
def FORCE_JOIN_HEALTH_FAILURE_THRESHOLD : ℕ := 5
def FORCE_JOIN_HEALTH_MIN_WINDOW_MS : ℤ := 10 * 60000
def FORCE_JOIN_HEALTH_RESET_MS : ℤ := 60 * 60000
def FORCE_JOIN_HEALTH_COUNT_DEBOUNCE_MS : ℤ := 5000

/-! ### Tables -/

/-- Who a channel is, and whether and where it is listed. -/
structure ChannelConfig where
  id : String
  chatId : ℤ
  title : String
  joinUrl : String
  normalizedLink : String
  isPrivate : Bool
  publicUsername : Option String
  isActive : Bool
  sortOrder : ℤ
  createdAt : ℤ
  createdByAdminId : Option String
  deriving DecidableEq

/-- How verifying a channel went lately. -/
structure ChannelHealth where
  healthFailureCount : ℕ
  healthFailureFirstAt : Option ℤ
  healthFailureLastAt : Option ℤ
  unhealthyAt : Option ℤ
  lastValidatedAt : Option ℤ
  lastValidationErrorCode : Option String
  deriving DecidableEq

/-- A row of the channel table. -/
structure ForceJoinChannel extends ChannelConfig, ChannelHealth
  deriving DecidableEq

inductive OpsEvent
  | channelRetired (channelId : String) (isPrivate : Bool) (errorClass : String)
      (forceJoinDisabled : Bool)
  | autoDisabled (channelId : String)
  deriving DecidableEq

/-- The channels, the value of the setting `force_join_enabled`, and the outbox. -/
structure Db where
  channels : List ForceJoinChannel
  setting : Option String
  opsEvents : List OpsEvent
  deriving DecidableEq

def Db.configs (db : Db) : List ChannelConfig := db.channels.map ForceJoinChannel.toChannelConfig

def isTruthySettingValue : Option String → Bool
  | none => false
  | some value =>
    ["true", "1", "yes"].any fun word => value.toList.map Char.toLower == word.toList

def activeCount (configs : List ChannelConfig) : ℕ := configs.countP ChannelConfig.isActive

/-- The active channels other than this one. -/
def activeOthers (id : String) (configs : List ChannelConfig) : ℕ :=
  configs.countP fun c => c.isActive && c.id != id

/-- `CHANNEL_ORDER_BY`: place, then creation, then id. -/
def listedBefore (a b : ChannelConfig) : Prop :=
  a.sortOrder < b.sortOrder ∨ a.sortOrder = b.sortOrder ∧
    (a.createdAt < b.createdAt ∨ a.createdAt = b.createdAt ∧ a.id ≤ b.id)

instance : DecidableRel listedBefore := fun _ _ => inferInstanceAs (Decidable (_ ∨ _))

def listed (configs : List ChannelConfig) : List ChannelConfig :=
  configs.insertionSort listedBefore

/-! ### Writes -/

inductive Write
  | create (row : ForceJoinChannel)
  | update (id : String) (config : ChannelConfig → ChannelConfig)
      (health : ForceJoinChannel → ChannelHealth)
  | delete (id : String)
  | upsertSetting (value : String)
  | opsEvent (event : OpsEvent)

def Write.apply (db : Db) : Write → Db
  | .create row => { db with channels := db.channels ++ [row] }
  | .update id config health =>
    { db with channels := db.channels.map fun row =>
        if row.id = id then
          { toChannelConfig := config row.toChannelConfig, toChannelHealth := health row }
        else row }
  | .delete id => { db with channels := db.channels.filter fun row => row.id != id }
  | .upsertSetting value => { db with setting := some value }
  | .opsEvent event => { db with opsEvents := db.opsEvents ++ [event] }

/-- The primary key and the two unique columns. -/
def UniqueKeys (configs : List ChannelConfig) : Prop :=
  (configs.map ChannelConfig.id).Nodup ∧ (configs.map ChannelConfig.chatId).Nodup ∧
    (configs.map ChannelConfig.normalizedLink).Nodup

instance (configs : List ChannelConfig) : Decidable (UniqueKeys configs) :=
  inferInstanceAs (Decidable (_ ∧ _ ∧ _))

inductive Code
  | NOT_FOUND
  | LINK_CONFLICT
  | DUPLICATE_CHANNEL
  | ACTIVE_LIMIT
  | LAST_ACTIVE_WHILE_ENABLED
  | NO_MOVE
  | NO_ACTIVE
  deriving DecidableEq

/-- What an operation answers. -/
inductive Outcome
  | ok
  | upserted (created activated : Bool)
  | failed (code : Code)
  | counted (count : ℕ)
  | retired (forceJoinDisabled : Bool)
  | noop
  deriving DecidableEq

def Outcome.isFailure : Outcome → Bool
  | .failed _ => true
  | _ => false

structure Plan where
  outcome : Outcome
  writes : List Write

def Plan.nothing (outcome : Outcome) : Plan where
  outcome := outcome
  writes := []

/-! ### The operations -/

/-- The identity of a channel, freshly validated. -/
structure ChannelIdentity where
  chatId : ℤ
  title : String
  joinUrl : String
  normalizedLink : String
  isPrivate : Bool
  publicUsername : Option String

structure ChannelUpsertInput extends ChannelIdentity where
  createdByAdminId : Option String

def ChannelIdentity.written (identity : ChannelIdentity) (c : ChannelConfig) : ChannelConfig :=
  { c with
    chatId := identity.chatId
    title := identity.title
    joinUrl := identity.joinUrl
    normalizedLink := identity.normalizedLink
    isPrivate := identity.isPrivate
    publicUsername := identity.publicUsername }

/-- A fresh validation: no failure window, and the stamp of now. -/
def validated (now : ℤ) (_row : ForceJoinChannel) : ChannelHealth where
  healthFailureCount := 0
  healthFailureFirstAt := none
  healthFailureLastAt := none
  unhealthyAt := none
  lastValidatedAt := some now
  lastValidationErrorCode := none

def findUnique (db : Db) (id : String) : Option ForceJoinChannel :=
  db.channels.find? fun row => row.id == id

def updateConfig (id : String) (config : ChannelConfig → ChannelConfig) : Write :=
  .update id config ForceJoinChannel.toChannelHealth

def setActive (active : Bool) (c : ChannelConfig) : ChannelConfig := { c with isActive := active }

/-- A new row: active while there is room, behind all others. Its id is the database's. -/
def newChannel (input : ChannelUpsertInput) (id : String) (now : ℤ) (db : Db) :
    ForceJoinChannel where
  id := id
  chatId := input.chatId
  title := input.title
  joinUrl := input.joinUrl
  normalizedLink := input.normalizedLink
  isPrivate := input.isPrivate
  publicUsername := input.publicUsername
  isActive := decide (activeCount db.configs < MAX_ACTIVE_FORCE_JOIN_CHANNELS)
  sortOrder := (db.channels.map fun row => row.sortOrder).max?.getD (-1) + 1
  createdAt := now
  createdByAdminId := input.createdByAdminId
  healthFailureCount := 0
  healthFailureFirstAt := none
  healthFailureLastAt := none
  unhealthyAt := none
  lastValidatedAt := some now
  lastValidationErrorCode := none

def createOrRebindChannel (input : ChannelUpsertInput) (id : String) (now : ℤ) (db : Db) : Plan :=
  match db.channels.find? fun row => row.chatId == input.chatId with
  | some existing =>
    { outcome := .upserted false existing.isActive
      writes := [.update existing.id input.toChannelIdentity.written (validated now)] }
  | none =>
    { outcome := .upserted true (newChannel input id now db).isActive
      writes := [.create (newChannel input id now db)] }

def rebindChannelIdentity (id : String) (identity : ChannelIdentity) (now : ℤ) (db : Db) : Plan :=
  match findUnique db id with
  | none => .nothing (.failed .NOT_FOUND)
  | some _ =>
    if (db.channels.find? fun row => row.chatId == identity.chatId).any fun other =>
        other.id != id then
      .nothing (.failed .DUPLICATE_CHANNEL)
    else if (db.channels.find? fun row => row.normalizedLink == identity.normalizedLink).any
        fun linkOwner => linkOwner.id != id then
      .nothing (.failed .LINK_CONFLICT)
    else
      { outcome := .ok, writes := [.update id identity.written (validated now)] }

def setChannelActive (id : String) (active : Bool) (db : Db) : Plan :=
  match findUnique db id with
  | none => .nothing (.failed .NOT_FOUND)
  | some row =>
    if row.isActive = active then .nothing .ok
    else if active then
      if MAX_ACTIVE_FORCE_JOIN_CHANNELS ≤ activeCount db.configs then
        .nothing (.failed .ACTIVE_LIMIT)
      else
        { outcome := .ok, writes := [updateConfig id (setActive active)] }
    else if isTruthySettingValue db.setting ∧ activeCount db.configs ≤ 1 then
      .nothing (.failed .LAST_ACTIVE_WHILE_ENABLED)
    else
      { outcome := .ok, writes := [updateConfig id (setActive active)] }

inductive Direction
  | up
  | down
  deriving DecidableEq

/-- The place to swap with, where there is one. -/
def swapWith (direction : Direction) (idx length : ℕ) : Option ℕ :=
  match direction with
  | .up => if idx = 0 then none else some (idx - 1)
  | .down => if idx + 1 < length then some (idx + 1) else none

def swapAt {α : Type} (l : List α) (i j : ℕ) : List α :=
  match l[i]?, l[j]? with
  | some a, some b => (l.set i b).set j a
  | _, _ => l

def setSortOrder (place : ℤ) (c : ChannelConfig) : ChannelConfig := { c with sortOrder := place }

/-- One update for each row that is not in its place. -/
def renumber (reordered : List ChannelConfig) : List Write :=
  (reordered.zipIdx.filter fun p => p.1.sortOrder ≠ p.2).map fun p =>
    updateConfig p.1.id (setSortOrder p.2)

def reorderChannel (id : String) (direction : Direction) (db : Db) : Plan :=
  let ordered := listed db.configs
  match ordered.findIdx? fun c => c.id == id with
  | none => .nothing (.failed .NOT_FOUND)
  | some idx =>
    match swapWith direction idx ordered.length with
    | none => .nothing (.failed .NO_MOVE)
    | some other => { outcome := .ok, writes := renumber (swapAt ordered idx other) }

def deleteChannel (id : String) (db : Db) : Plan :=
  match findUnique db id with
  | none => .nothing (.failed .NOT_FOUND)
  | some row =>
    if row.isActive ∧ isTruthySettingValue db.setting ∧ activeCount db.configs ≤ 1 then
      .nothing (.failed .LAST_ACTIVE_WHILE_ENABLED)
    else
      { outcome := .ok, writes := [.delete id] }

def enableForceJoin (db : Db) : Plan :=
  if activeCount db.configs = 0 then .nothing (.failed .NO_ACTIVE)
  else { outcome := .ok, writes := [.upsertSetting "true"] }

def disableForceJoin : Plan where
  outcome := .ok
  writes := [.upsertSetting "false"]

def disableForceJoinAndDeactivate (id : String) (db : Db) : Plan :=
  match findUnique db id with
  | none => .nothing (.failed .NOT_FOUND)
  | some _ =>
    { outcome := .ok
      writes := [.upsertSetting "false", updateConfig id (setActive false)] }

def disableForceJoinAndDelete (id : String) (db : Db) : Plan :=
  match findUnique db id with
  | none => .nothing (.failed .NOT_FOUND)
  | some _ => { outcome := .ok, writes := [.upsertSetting "false", .delete id] }

/-! ### Health -/

/-- Whether the failure comes too soon after the last counted one. -/
def isDebounced (lastAt : Option ℤ) (now : ℤ) : Bool :=
  lastAt.any fun t => now - t < FORCE_JOIN_HEALTH_COUNT_DEBOUNCE_MS

/-- Whether the failure starts a fresh window. -/
def isStaleWindow (lastAt : Option ℤ) (now : ℤ) : Bool :=
  lastAt.all fun t => FORCE_JOIN_HEALTH_RESET_MS < now - t

def nextCount (row : ChannelHealth) (now : ℤ) : ℕ :=
  if isStaleWindow row.healthFailureLastAt now then 1 else row.healthFailureCount + 1

def nextFirstAt (row : ChannelHealth) (now : ℤ) : ℤ :=
  if isStaleWindow row.healthFailureLastAt now then now else row.healthFailureFirstAt.getD now

/-- Numerous and sustained. -/
def isRetired (row : ChannelHealth) (now : ℤ) : Bool :=
  decide (FORCE_JOIN_HEALTH_FAILURE_THRESHOLD ≤ nextCount row now) &&
    decide (FORCE_JOIN_HEALTH_MIN_WINDOW_MS ≤ now - nextFirstAt row now)

/-- The health columns after a counted failure, computed from the row that was read. -/
def countedHealth (row : ChannelHealth) (errorClass : String) (now : ℤ)
    (unhealthyAt : Option ℤ) : ChannelHealth where
  healthFailureCount := nextCount row now
  healthFailureFirstAt := some (nextFirstAt row now)
  healthFailureLastAt := some now
  unhealthyAt := unhealthyAt
  lastValidatedAt := some now
  lastValidationErrorCode := some errorClass

/-- Deactivates the channel, with its event; the switch goes with the last active one. -/
def retire (row : ForceJoinChannel) (errorClass : String) (now : ℤ) (db : Db) : Plan :=
  let remainingActive := activeOthers row.id db.configs
  let forceJoinDisabled := isTruthySettingValue db.setting && remainingActive == 0
  { outcome := .retired forceJoinDisabled
    writes :=
      (if forceJoinDisabled then [.upsertSetting "false"] else []) ++
      [.update row.id (setActive false) fun _ =>
          countedHealth row.toChannelHealth errorClass now (some now),
        .opsEvent (.channelRetired row.id row.isPrivate errorClass forceJoinDisabled)] ++
      (if forceJoinDisabled then [.opsEvent (.autoDisabled row.id)] else []) }

def recordChannelHealthFailure (id errorClass : String) (now : ℤ) (db : Db) : Plan :=
  match findUnique db id with
  | none => .nothing .noop
  | some row =>
    if row.isActive = false then .nothing .noop
    else if isDebounced row.healthFailureLastAt now then
      .nothing (.counted row.healthFailureCount)
    else if isRetired row.toChannelHealth now then retire row errorClass now db
    else
      { outcome := .counted (nextCount row.toChannelHealth now)
        writes := [.update row.id (fun c => c) fun current =>
          countedHealth row.toChannelHealth errorClass now current.unhealthyAt] }

/-- One guarded update: only an active row with a failure window is cleared. -/
def recordChannelHealthSuccess (id : String) : Plan where
  outcome := .ok
  writes := [.update id (fun c => c) fun current =>
    if current.isActive ∧ 0 < current.healthFailureCount then
      { current.toChannelHealth with
        healthFailureCount := 0
        healthFailureFirstAt := none
        healthFailureLastAt := none
        unhealthyAt := none }
    else current.toChannelHealth]

/-- The stamp of a successful validation, written without the lock. -/
def recordValidationSuccess (id : String) (now : ℤ) : Write :=
  .update id (fun c => c) (validated now)

/-- The stamp of a failed validation, written without the lock. -/
def recordValidationError (id code : String) (now : ℤ) : Write :=
  .update id (fun c => c) fun current =>
    { current.toChannelHealth with
      lastValidatedAt := some now
      lastValidationErrorCode := some code }

/-! ### Transactions -/

inductive Operation
  | createOrRebindChannel (input : ChannelUpsertInput) (id : String) (now : ℤ)
  | rebindChannelIdentity (id : String) (identity : ChannelIdentity) (now : ℤ)
  | setChannelActive (id : String) (active : Bool)
  | reorderChannel (id : String) (direction : Direction)
  | deleteChannel (id : String)
  | enableForceJoin
  | disableForceJoin
  | disableForceJoinAndDeactivate (id : String)
  | disableForceJoinAndDelete (id : String)
  | recordChannelHealthFailure (id errorClass : String) (now : ℤ)
  | recordChannelHealthSuccess (id : String)

def plan (db : Db) : Operation → Plan
  | .createOrRebindChannel input id now => createOrRebindChannel input id now db
  | .rebindChannelIdentity id identity now => rebindChannelIdentity id identity now db
  | .setChannelActive id active => setChannelActive id active db
  | .reorderChannel id direction => reorderChannel id direction db
  | .deleteChannel id => deleteChannel id db
  | .enableForceJoin => enableForceJoin db
  | .disableForceJoin => disableForceJoin
  | .disableForceJoinAndDeactivate id => disableForceJoinAndDeactivate id db
  | .disableForceJoinAndDelete id => disableForceJoinAndDelete id db
  | .recordChannelHealthFailure id errorClass now =>
    recordChannelHealthFailure id errorClass now db
  | .recordChannelHealthSuccess id => recordChannelHealthSuccess id

/-- The end of a transaction that read `seen`: its writes go together on the tables as they are
    now, unless a unique column refuses them. -/
def finish (op : Operation) (seen now : Db) : Outcome × Db :=
  let after := (plan seen op).writes.foldl Write.apply now
  if UniqueKeys after.configs then ((plan seen op).outcome, after)
  else (.failed .LINK_CONFLICT, now)

end ZedBot.ForceJoin
