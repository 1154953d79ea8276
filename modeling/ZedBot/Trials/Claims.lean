import Mathlib.Data.List.Sort
import ZedBot.ReadCommitted.Statements

/-! The free trials.

    A claim is inserted with one unit of its user's allowance, passes the capacity of its panel, creates
    an account there and is then ACTIVE; what is known not to exist gives its unit back. The outside
    world is the clock, the accounts of the panels with the calls that are under way, and the
    provisioning locks. The journal lists the inserted rows, and what was decided on capacity. -/

namespace ZedBot.Trials
open ReadCommitted

/-! ### Rows -/

inductive FreeTrialClaimStatus
  | CLAIMED | PROVISIONING | ACTIVE | FAILED | EXPIRED | CANCELLED | MANUAL_REVIEW
  deriving DecidableEq, Repr

structure FreeTrialClaim where
  userId : ℕ
  panelId : ℕ
  serviceUsername : Option String := none
  status : FreeTrialClaimStatus := .CLAIMED
  entitlementId : Option ℕ := none
  allowanceReleasedAt : Option ℕ := none
  usernameSnapshot : Option String := none
  durationMinutes : ℕ := 0
  provisionedAt : Option ℕ := none
  expiresAt : Option ℕ := none
  failureReasonCode : Option String := none
  attemptCount : ℕ := 0
  createdAt : ℕ := 0
  updatedAt : ℕ := 0
  deriving DecidableEq, Repr

inductive FreeTrialEntitlementStatus
  | ACTIVE | CONSUMED | EXPIRED | REVOKED
  deriving DecidableEq, Repr

inductive FreeTrialEntitlementSource
  | DEFAULT_POLICY | ADMIN_GRANT | ADMIN_RESET | CAMPAIGN_RESET | COMPENSATION | MIGRATION
  deriving DecidableEq, Repr

inductive FreeTrialEntitlementScope
  | GLOBAL | PANEL
  deriving DecidableEq, Repr

/-- An explicit permission for trial claims. -/
structure FreeTrialEntitlement where
  userId : ℕ
  allowance : ℤ
  consumed : ℤ := 0
  scope : FreeTrialEntitlementScope := .GLOBAL
  panelId : Option ℕ := none
  source : FreeTrialEntitlementSource := .ADMIN_GRANT
  status : FreeTrialEntitlementStatus := .ACTIVE
  startsAt : Option ℕ := none
  expiresAt : Option ℕ := none
  revokedAt : Option ℕ := none
  createdAt : ℕ := 0
  deriving DecidableEq, Repr

/-- What a claim reads of its user. -/
structure TrialUser where
  isActive : Bool := true
  freeTrialRevokedAt : Option ℕ := none
  freeTrialDeniedUntil : Option ℕ := none
  freeTrialCooldownUntil : Option ℕ := none
  freeTrialCooldownClearedAt : Option ℕ := none
  freeTrialDefaultAllowanceOverride : Option ℤ := none
  paidOrdersCount : ℕ := 0
  forceJoinBypass : Bool := false
  testAccountsCreatedCount : ℕ := 0
  deriving DecidableEq, Repr

/-- The service of a trial, by its unique username. -/
structure TrialService where
  userId : ℕ
  panelId : ℕ
  isLive : Bool := true
  expiresAt : Option ℕ := none
  convertedToPaidAt : Option ℕ := none
  deriving DecidableEq, Repr

/-- What a claim reads of its panel. -/
structure TrialPanel where
  id : ℕ
  testDurationMinutes : ℕ := 60
  testMaxConcurrentAccounts : Option ℕ := none
  deriving DecidableEq, Repr

inductive TrialKey
  | claim (id : ℕ)
  | entitlement (id : ℕ)
  | user (id : ℕ)
  | service (username : String)
  | userLock (userId : ℕ)
  | panelLock (panelId : ℕ)
  deriving DecidableEq

/-- The row type of a key; an advisory lock counts its holders. -/
@[reducible] def TrialRow : TrialKey → Type
  | .claim _ => Option FreeTrialClaim
  | .entitlement _ => Option FreeTrialEntitlement
  | .user _ => Option TrialUser
  | .service _ => Option TrialService
  | .userLock _ | .panelLock _ => ℕ

/-- The capacity decision of a claim, with the others that it counted. -/
structure Decision where
  claimId : ℕ
  panelId : ℕ
  now : ℕ
  others : ℕ
  lost : Bool
  deriving DecidableEq, Repr

inductive TrialEntry
  | claim (id : ℕ)
  | entitlement (id : ℕ)
  | decision (d : Decision)
  deriving DecidableEq, Repr

/-- An account of a panel. -/
structure Remote where
  panelId : ℕ
  username : String
  deriving DecidableEq, Repr

/-- The outside world: `pending` are the create calls that may still land. -/
structure TrialWorld where
  now : ℕ := 0
  accounts : List Remote := []
  pending : List Remote := []
  held : List Remote := []
  deriving DecidableEq, Repr

inductive CreateAnswer
  | ok | uncertain | rejected
  deriving DecidableEq, Repr

/-- What the oracle answers: the lock backend, the panel, the naming and the settings. -/
structure TrialChoice where
  ticks : ℕ := 0
  lockBackend : Bool := true
  create : CreateAnswer := .ok
  readable : Bool := true
  reportsExpiry : Option ℕ := none
  resolvedUsername : Option String := some "trial"
  defaultAllowance : Option ℕ := some 1
  deriving DecidableEq, Repr

abbrev Trials := Prog TrialRow TrialEntry TrialWorld TrialChoice

abbrev TrialStore := Store TrialRow TrialEntry TrialWorld
abbrev TrialTx := Tx TrialRow TrialEntry
abbrev TrialView := View TrialRow TrialEntry
abbrev TrialConfig := Config TrialRow TrialEntry TrialWorld TrialChoice

/-! ### Statements -/

/-- The update of a row that exists. -/
def onSome {α : Type} (cond : α → Bool) (data : α → α) : Option α → Option (Option α)
  | some x => if cond x then some (some (data x)) else none
  | none => none

def clock : Trials ℕ := ext fun _ w => (w.now, w)

/-- `updateMany` of a claim; every update stamps `updatedAt`. -/
def updateClaim (id : ℕ) (cond : FreeTrialClaim → Bool) (data : FreeTrialClaim → FreeTrialClaim) :
    Trials ℕ := do
  let now ← clock
  update (.claim id) (onSome cond fun c => { data c with updatedAt := now })

def updateEntitlement (id : ℕ) (cond : FreeTrialEntitlement → Bool)
    (data : FreeTrialEntitlement → FreeTrialEntitlement) : Trials ℕ :=
  update (.entitlement id) (onSome cond data)

def updateUser (id : ℕ) (data : TrialUser → TrialUser) : Trials ℕ :=
  update (.user id) (onSome (fun _ => true) data)

def findClaim (id : ℕ) : Trials (Option FreeTrialClaim) := select fun v => v.rows (.claim id)

def findUser (id : ℕ) : Trials (Option TrialUser) := select fun v => v.rows (.user id)

/-- `pg_advisory_xact_lock`. -/
def lockUser (userId : ℕ) : Trials Unit := sql fun v =>
  { result := (), writes := [⟨.userLock userId, (v.rows (.userLock userId) + 1 : ℕ)⟩] }

def lockPanel (panelId : ℕ) : Trials Unit := sql fun v =>
  { result := (), writes := [⟨.panelLock panelId, (v.rows (.panelLock panelId) + 1 : ℕ)⟩] }

def claimIds (journal : List TrialEntry) : List ℕ :=
  journal.filterMap fun
    | .claim id => some id
    | _ => none

def entitlementIds (journal : List TrialEntry) : List ℕ :=
  journal.filterMap fun
    | .entitlement id => some id
    | _ => none

/-- The claims whose rows a condition selects. -/
def claimsWhere (cond : FreeTrialClaim → Bool) (v : TrialView) : List ℕ :=
  (claimIds v.journal).filter fun id => (v.rows (.claim id)).any cond

/-- Statuses that occupy a user's single live-claim slot and the capacity of a panel. -/
def LIVE_CLAIM_STATUSES : List FreeTrialClaimStatus := [.CLAIMED, .PROVISIONING, .MANUAL_REVIEW]

/-- Claim statuses that consume an allowance unit. -/
def CONSUMING_CLAIM_STATUSES : List FreeTrialClaimStatus :=
  [.CLAIMED, .PROVISIONING, .ACTIVE, .MANUAL_REVIEW, .EXPIRED]

/-- The statuses of the partial unique index `FreeTrialClaim_userId_live_key`. -/
def USER_LIVE_STATUSES : List FreeTrialClaimStatus := [.CLAIMED, .PROVISIONING, .ACTIVE, .MANUAL_REVIEW]

/-- The insert of a claim; `false` is the partial unique index on the live claim of a user. -/
def createClaim (id : ℕ) (row : FreeTrialClaim) : Trials Bool := sql fun v =>
  let live := claimsWhere (fun c => c.userId = row.userId ∧ c.status ∈ USER_LIVE_STATUSES) v
  match v.rows (.claim id) with
  | none =>
    if live = [] then
      { result := true, writes := [⟨.claim id, some row⟩], entries := [.claim id] }
    else { result := false }
  | some _ => { result := false }

/-! ### Allowance -/

/-- ACTIVE, within its window and for the panel, when one is targeted. -/
def isUsable (userId now : ℕ) (panelId : Option ℕ) (e : FreeTrialEntitlement) : Bool :=
  e.userId = userId ∧ e.status = .ACTIVE ∧ e.startsAt.all (· ≤ now) ∧ e.expiresAt.all (now < ·) ∧
    panelId.all fun id => e.scope = .GLOBAL ∨ e.scope = .PANEL ∧ e.panelId = some id

/-- The panel's own grants, other grants, campaigns. -/
def consumptionBucket (panelId : Option ℕ) (e : FreeTrialEntitlement) : ℕ :=
  if e.scope = .PANEL ∧ panelId ≠ none ∧ e.panelId = panelId then 0
  else if e.source = .CAMPAIGN_RESET then 2 else 1

/-- By bucket, by expiry in each, then by creation and id. -/
def consumedBefore (panelId : Option ℕ) (a b : ℕ × FreeTrialEntitlement) : Bool :=
  let tie := a.2.createdAt < b.2.createdAt ∨ a.2.createdAt = b.2.createdAt ∧ a.1 ≤ b.1
  if consumptionBucket panelId a.2 ≠ consumptionBucket panelId b.2 then
    consumptionBucket panelId a.2 < consumptionBucket panelId b.2
  else
    match a.2.expiresAt, b.2.expiresAt with
    | some x, some y => x < y ∨ x = y ∧ tie
    | some _, none => true
    | none, some _ => false
    | none, none => tie

def orderEntitlementsForConsumption (panelId : Option ℕ) (rows : List (ℕ × FreeTrialEntitlement)) :
    List (ℕ × FreeTrialEntitlement) := rows.mergeSort (consumedBefore panelId)

def usableEntitlements (userId now : ℕ) (panelId : Option ℕ) (v : TrialView) :
    List (ℕ × FreeTrialEntitlement) :=
  orderEntitlementsForConsumption panelId ((entitlementIds v.journal).filterMap fun id =>
    ((v.rows (.entitlement id)).filter fun e => isUsable userId now panelId e ∧
      e.consumed < e.allowance).map fun e => (id, e))

/-- The claims that count against the default allowance, but for the one that is being funded. -/
def countDefaultConsumed (userId : ℕ) (excluded : Option ℕ) (v : TrialView) : ℕ :=
  (claimsWhere (fun c => c.userId = userId ∧ c.entitlementId = none ∧
    c.status ∈ CONSUMING_CLAIM_STATUSES) v).countP (some · ≠ excluded)

/-- The default allowance of a user: the own one, or that of the settings; `none` is unlimited. -/
def effectiveDefaultAllowance (setting : Option ℕ) (user : TrialUser) : Option ℕ :=
  (user.freeTrialDefaultAllowanceOverride.map Int.toNat).or setting

/-- One more unit is consumed. -/
def FreeTrialEntitlement.taken (e : FreeTrialEntitlement) : FreeTrialEntitlement :=
  { e with
    consumed := e.consumed + 1
    status := if e.consumed + 1 ≥ e.allowance then .CONSUMED else e.status }

/-- One unit is given back; a fully consumed row reopens. -/
def FreeTrialEntitlement.givenBack (e : FreeTrialEntitlement) : FreeTrialEntitlement :=
  { e with
    consumed := e.consumed - 1
    status := if e.status = .CONSUMED then .ACTIVE else e.status }

/-- The conditional increment. -/
def takeUnit (id now : ℕ) : Trials ℕ :=
  updateEntitlement id (fun e => e.status = .ACTIVE ∧ e.consumed < e.allowance ∧
    e.startsAt.all (· ≤ now) ∧ e.expiresAt.all (now < ·)) .taken

def takeFirst (now : ℕ) : List (ℕ × FreeTrialEntitlement) → Trials (Option ℕ)
  | [] => return none
  | (id, _) :: rest => do
    let updated ← takeUnit id now
    if updated = 1 then
      return some id
    takeFirst now rest

inductive TrialReservation
  | ok (entitlementId : Option ℕ)
  | noAllowance
  deriving DecidableEq, Repr

/-- Reserves one allowance unit inside the caller's transaction. -/
def reserveTrialAllowance (user : TrialUser) (userId panelId excluded : ℕ) :
    Trials TrialReservation := do
  let now ← clock
  lockUser userId
  let rows ← select (usableEntitlements userId now (some panelId))
  let entitlement ← takeFirst now rows
  match entitlement with
  | some id => return .ok (some id)
  | none =>
    let setting ← ask (·.defaultAllowance)
    match effectiveDefaultAllowance setting user with
    | none => return .ok none
    | some defaultAllowance =>
      let defaultConsumed ← select (countDefaultConsumed userId (some excluded))
      return if defaultConsumed < defaultAllowance then .ok none else .noAllowance

def isReleasable (c : FreeTrialClaim) : Bool :=
  c.allowanceReleasedAt = none ∧ (c.status = .FAILED ∨ c.status = .CANCELLED)

/-- Returns the allowance unit of a claim exactly once. -/
def releaseClaimAllowance (claimId : ℕ) : Trials (Except Unit Bool) := transaction do
  let now ← clock
  let stamped ← updateClaim claimId isReleasable fun c => { c with allowanceReleasedAt := some now }
  if stamped ≠ 1 then
    return .ok false
  let claim ← findClaim claimId
  match claim.bind (·.entitlementId) with
  | none => return .ok true
  | some entitlementId =>
    let _ ← updateEntitlement entitlementId (fun e => 0 < e.consumed) .givenBack
    return .ok true

/-- A statement over the entitlements that a condition selects. -/
def endEntitlements (cond : FreeTrialEntitlement → Bool)
    (data : FreeTrialEntitlement → FreeTrialEntitlement) : Trials Unit := sql fun v =>
  { result := ()
    writes := (entitlementIds v.journal).filterMap fun id =>
      ((v.rows (.entitlement id)).filter cond).map fun e => ⟨.entitlement id, some (data e)⟩ }

/-- ACTIVE rows past their `expiresAt` become EXPIRED. -/
def expireTrialEntitlements : Trials Unit := do
  let now ← clock
  endEntitlements (fun e => e.status = .ACTIVE ∧ e.expiresAt.any (· ≤ now)) fun e =>
    { e with status := .EXPIRED }

def createEntitlement (id : ℕ) (row : FreeTrialEntitlement) : Trials Bool := sql fun v =>
  match v.rows (.entitlement id) with
  | none =>
    { result := true, writes := [⟨.entitlement id, some row⟩], entries := [.entitlement id] }
  | some _ => { result := false }

/-- Hard cap for one admin grant operation. -/
def TRIAL_GRANT_MAX_PER_OPERATION : ℤ := 100

def grantTrialAllowance (id userId : ℕ) (count : ℤ) (panelId expiresAt : Option ℕ)
    (source : FreeTrialEntitlementSource) : Trials Unit := do
  if count < 1 ∨ TRIAL_GRANT_MAX_PER_OPERATION < count then
    return ()
  let now ← clock
  let _ ← createEntitlement id
    { userId
      allowance := count
      scope := if panelId = none then .GLOBAL else .PANEL
      panelId
      source
      expiresAt
      createdAt := now }
  return ()

/-- The remaining allowance of a user is made exactly `desired`. -/
def setEffectiveRemaining (id userId : ℕ) (desired : ℤ) : Trials Unit := do
  if desired < 0 ∨ TRIAL_GRANT_MAX_PER_OPERATION < desired then
    return ()
  let now ← clock
  let _ ← (transaction do
    lockUser userId
    endEntitlements (fun e => e.userId = userId ∧ e.status = .ACTIVE) fun e =>
      { e with status := .REVOKED, revokedAt := some now }
    let defaultConsumed ← select (countDefaultConsumed userId none)
    let _ ← updateUser userId fun u =>
      { u with freeTrialDefaultAllowanceOverride := some defaultConsumed }
    if 0 < desired then
      let created ← createEntitlement id
        { userId, allowance := desired, source := .ADMIN_RESET, createdAt := now }
      return if created then .ok () else .error ()
    else
      return .ok () : Trials (Except Unit Unit))
  return ()

/-! ### Claims -/

/-- Unexpired ACTIVE and in-flight claims, counted against the capacity of their panel. -/
def isCounted (panelId now : ℕ) (c : FreeTrialClaim) : Bool :=
  c.panelId = panelId ∧ (c.status ∈ LIVE_CLAIM_STATUSES ∨
    c.status = .ACTIVE ∧ c.expiresAt.all (now < ·))

def countOthers (claimId panelId now : ℕ) (v : TrialView) : ℕ :=
  (claimsWhere (isCounted panelId now) v).countP (· ≠ claimId)

/-- The transaction that inserts a claim with its unit; an error denies the claim. -/
def insertWithUnit (claimId userId : ℕ) (panel : TrialPanel) (now : ℕ) :
    Trials (Except String FreeTrialClaim) := transaction do
  let row : FreeTrialClaim :=
    { userId, panelId := panel.id, durationMinutes := panel.testDurationMinutes, createdAt := now,
      updatedAt := now }
  let created ← createClaim claimId row
  if ¬ created then
    return .error "claim-in-progress"
  let freshUser ← findUser userId
  match freshUser with
  | none => return .error "claim-error"
  | some user =>
    if ¬ user.isActive then
      return .error "user-not-active"
    if user.freeTrialRevokedAt ≠ none ∨ user.freeTrialDeniedUntil.any (now < ·) then
      return .error "admin-denied"
    if user.freeTrialCooldownUntil.any (now < ·) then
      return .error "cooldown"
    let reservation ← reserveTrialAllowance user userId panel.id claimId
    match reservation with
    | .noAllowance => return .error "no-allowance"
    | .ok none => return .ok row
    | .ok (some entitlementId) =>
      let _ ← updateClaim claimId (fun _ => true) fun c =>
        { c with entitlementId := some entitlementId }
      return .ok { row with entitlementId := some entitlementId }

def noteDecision (d : Decision) : Trials Unit := append (.decision d)

/-- The capacity decision: the claim cancels itself where the others fill the limit. -/
def decideCapacity (claimId panelId limit now : ℕ) : Trials (Except Unit Bool) := transaction do
  lockPanel panelId
  let others ← select (countOthers claimId panelId now)
  if others < limit then
    noteDecision ⟨claimId, panelId, now, others, false⟩
    return .ok false
  noteDecision ⟨claimId, panelId, now, others, true⟩
  let _ ← updateClaim claimId (fun c => c.status = .CLAIMED) fun c =>
    { c with status := .CANCELLED, failureReasonCode := some "capacity-full" }
  return .ok true

def insertClaim (claimId userId : ℕ) (panel : TrialPanel) :
    Trials (Except String FreeTrialClaim) := do
  let now ← clock
  let inserted ← insertWithUnit claimId userId panel now
  match inserted with
  | .error code => return .error code
  | .ok claim =>
    match panel.testMaxConcurrentAccounts with
    | none => return .ok claim
    | some limit =>
      let lost ← decideCapacity claimId panel.id limit now
      match lost with
      | .ok true =>
        let _ ← releaseClaimAllowance claimId
        return .error "capacity-full"
      | .ok false => return .ok claim
      | .error _ => return .error "claim-error"

/-- CAS release used when nothing remote can have happened yet. -/
def cancelClaimSafely (claimId : ℕ) (reason : String) : Trials Unit := do
  let cancelled ← updateClaim claimId
    (fun c => c.status = .CLAIMED ∨ c.status = .PROVISIONING) fun c =>
      { c with status := .CANCELLED, failureReasonCode := some reason }
  if cancelled = 1 then
    let _ ← releaseClaimAllowance claimId
    return ()
  else
    return ()

/-! ### The panel -/

inductive LockResult
  | ok | contended | unavailable
  deriving DecidableEq, Repr

def acquireLock (r : Remote) : Trials LockResult := ext fun c w =>
  if ¬ c.lockBackend then (.unavailable, w)
  else if r ∈ w.held then (.contended, w)
  else (.ok, { w with held := r :: w.held })

def releaseLock (r : Remote) : Trials Unit := ext fun _ w => ((), { w with held := w.held.erase r })

/-- A create call is sent. -/
def sendCreate (r : Remote) : Trials Unit := ext fun _ w =>
  ((), { w with pending := r :: w.pending })

/-- A pending create call lands. -/
def TrialWorld.land (w : TrialWorld) (r : Remote) : TrialWorld :=
  if r ∈ w.pending then { w with pending := w.pending.erase r, accounts := r :: w.accounts } else w

/-- The answer of a create call: created, unknown, or refused. -/
def answerCreate (r : Remote) : Trials CreateAnswer := ext fun c w =>
  match c.create with
  | .ok => (.ok, w.land r)
  | .uncertain => (.uncertain, w)
  | .rejected =>
    if r ∈ w.pending then (.rejected, { w with pending := w.pending.erase r }) else (.uncertain, w)

/-- The account as the panel shows it; `none` is a failed read. -/
def readAccount (r : Remote) : Trials (Option Bool) := ext fun c w =>
  (if c.readable then some (r ∈ w.accounts) else none, w)

/-! ### Provisioning -/

/-- The service is stored; a username that is taken is fine where the same user has it. -/
def createService (username : String) (row : TrialService) : Trials Bool := sql fun v =>
  match v.rows (.service username) with
  | none => { result := true, writes := [⟨.service username, some row⟩] }
  | some existing => { result := existing.userId = row.userId }

/-- One transaction: the service, the claim ACTIVE and the trial counters. -/
def persistTrialService (claimId : ℕ) (claim : FreeTrialClaim) (username : String)
    (expiresAt : ℕ) : Trials (Except Unit Unit) := do
  let now ← clock
  transaction do
    let created ← createService username
      { userId := claim.userId, panelId := claim.panelId, expiresAt := some expiresAt }
    if ¬ created then
      return .error ()
    let activated ← updateClaim claimId
      (fun c => c.status = .PROVISIONING ∨ c.status = .MANUAL_REVIEW) fun c =>
        { c with
          status := .ACTIVE
          serviceUsername := some username
          provisionedAt := some now
          expiresAt := some expiresAt
          failureReasonCode := none }
    if activated = 1 then
      let _ ← updateUser claim.userId fun u =>
        { u with testAccountsCreatedCount := u.testAccountsCreatedCount + 1 }
      return .ok ()
    else
      return .ok ()

/-- The frozen identity of a claim; `none` where the naming fails. -/
def freezeIdentity (claimId : ℕ) (claim : FreeTrialClaim) : Trials (Option String) := do
  match claim.usernameSnapshot with
  | some username => return some username
  | none =>
    let resolved ← ask (·.resolvedUsername)
    match resolved with
    | none =>
      cancelClaimSafely claimId "naming-failed"
      return none
    | some username =>
      let frozen ← updateClaim claimId (fun c => c.usernameSnapshot = none) fun c =>
        { c with usernameSnapshot := some username }
      if frozen = 0 then
        let fresh ← findClaim claimId
        return some ((fresh.bind (·.usernameSnapshot)).getD username)
      return some username

/-- After the create call was answered. -/
def finishCreate (claimId : ℕ) (claim : FreeTrialClaim) (r : Remote) (expiresAt : ℕ)
    (answer : CreateAnswer) : Trials Unit := do
  match answer with
  | .uncertain => return ()
  | .rejected =>
    let failed ← updateClaim claimId (fun c => c.status = .PROVISIONING) fun c =>
      { c with status := .FAILED, failureReasonCode := some "remote-create-failed" }
    if failed = 1 then
      let _ ← releaseClaimAllowance claimId
      return ()
    else
      return ()
  | .ok =>
    let _ ← persistTrialService claimId claim r.username expiresAt
    return ()

/-- Freeze the identity, create the account under its lock, persist the service. -/
def provisionTrialClaim (claimId : ℕ) (claim : FreeTrialClaim) : Trials Unit := do
  let username ← freezeIdentity claimId claim
  match username with
  | none => return ()
  | some username =>
    let _ ← updateClaim claimId (fun c => c.status = .CLAIMED ∨ c.status = .PROVISIONING) fun c =>
      { c with status := .PROVISIONING, attemptCount := c.attemptCount + 1 }
    let r : Remote := ⟨claim.panelId, username⟩
    let lock ← acquireLock r
    if lock ≠ .ok then
      if claim.attemptCount = 0 ∧ lock = .unavailable then
        cancelClaimSafely claimId "lock-unavailable"
      else
        return ()
    else
      let now ← clock
      sendCreate r
      let answer ← answerCreate r
      finishCreate claimId claim r (now + claim.durationMinutes * 60000) answer
      releaseLock r

/-- Claims and provisions one free trial. -/
def claimFreeTrial (claimId userId : ℕ) (panel : TrialPanel) : Trials Unit := do
  let inserted ← insertClaim claimId userId panel
  match inserted with
  | .error _ => return ()
  | .ok claim => provisionTrialClaim claimId claim

/-! ### Reconciliation and sweep -/

inductive TrialReconcileOutcome
  | APPLIED | NOT_APPLIED | UNKNOWN
  deriving DecidableEq, Repr

def isUnsettled (c : FreeTrialClaim) : Bool := c.status = .PROVISIONING ∨ c.status = .MANUAL_REVIEW

/-- Re-checks a claim against its panel using the exact frozen username. -/
def reconcileTrialClaim (claimId : ℕ) : Trials TrialReconcileOutcome := do
  let claim ← findClaim claimId
  match claim.filter isUnsettled, claim.bind (·.usernameSnapshot) with
  | some claim, some username =>
    let remote ← readAccount ⟨claim.panelId, username⟩
    match remote with
    | some true =>
      let reported ← ask (·.reportsExpiry)
      let persisted ← persistTrialService claimId claim username
        (reported.getD (claim.createdAt + claim.durationMinutes * 60000))
      match persisted with
      | .ok _ => return .APPLIED
      | .error _ => return .UNKNOWN
    | some false =>
      let failed ← updateClaim claimId isUnsettled fun c =>
        { c with status := .FAILED, failureReasonCode := some "reconciled-not-applied" }
      if failed = 1 then
        let _ ← releaseClaimAllowance claimId
        return .NOT_APPLIED
      return .NOT_APPLIED
    | none => return .UNKNOWN
  | _, _ => return .UNKNOWN

def STALE_CLAIM_MS : ℕ := 15 * 60000
def TRIAL_MAX_PROVISION_ATTEMPTS : ℕ := 3
def MANUAL_REVIEW_ALERT_MS : ℕ := 60 * 60000
def SWEEP_BATCH : ℕ := 20

/-- The expiry of one ACTIVE claim and of its service. -/
def expireClaim (now claimId : ℕ) : Trials Unit := do
  let claim ← findClaim claimId
  let service ← select fun v => (claim.bind (·.serviceUsername)).bind fun u =>
    (v.rows (.service u)).map fun s => (u, s)
  let _ ← updateClaim claimId (fun c => c.status = .ACTIVE) fun c => { c with status := .EXPIRED }
  match service with
  | some (username, s) =>
    if s.convertedToPaidAt = none ∧ ¬ s.expiresAt.any (now < ·) then
      let _ ← update (.service username) (onSome (fun s : TrialService => s.isLive ∧
        s.convertedToPaidAt = none) fun s => { s with isLive := false })
      return ()
    else
      return ()
  | none => return ()

/-- One PROVISIONING claim of the sweep: reconciled, or escalated. -/
def sweepProvisioning (now : ℕ) (claim : ℕ × FreeTrialClaim) : Trials Unit := do
  let outcome ← reconcileTrialClaim claim.1
  if outcome = .UNKNOWN ∧ (TRIAL_MAX_PROVISION_ATTEMPTS ≤ claim.2.attemptCount ∨
      claim.2.updatedAt + MANUAL_REVIEW_ALERT_MS ≤ now) then
    let _ ← updateClaim claim.1 (fun c => c.status = .PROVISIONING) fun c =>
      { c with status := .MANUAL_REVIEW }
    return ()
  else
    return ()

def runFreeTrialSweep : Trials Unit := do
  let now ← clock
  expireTrialEntitlements
  let expiring ← select fun v => (claimsWhere (fun c => c.status = .ACTIVE ∧
    c.expiresAt.any (· < now)) v).take SWEEP_BATCH
  forEach (expireClaim now) expiring
  let stale ← select fun v => (claimsWhere (fun c => c.status = .CLAIMED ∧
    c.createdAt + STALE_CLAIM_MS < now) v).take SWEEP_BATCH
  forEach (fun id => cancelClaimSafely id "stale-claim") stale
  let provisioning ← select fun v => ((claimsWhere (fun c => c.status = .PROVISIONING ∧
    c.updatedAt + 60000 < now) v).take SWEEP_BATCH).filterMap fun id =>
      (v.rows (.claim id)).map fun c => (id, c)
  forEach (sweepProvisioning now) provisioning

/-- The owner forces that the account was not created. -/
def forceClaimNotCreated (claimId : ℕ) : Trials Unit := do
  let claim ← findClaim claimId
  if claim.any isUnsettled then
    let cancelled ← updateClaim claimId isUnsettled fun c =>
      { c with status := .CANCELLED, failureReasonCode := some "forced-not-created" }
    if cancelled = 1 then
      let _ ← releaseClaimAllowance claimId
      return ()
    else
      return ()
  else
    return ()

/-! ### Processes -/

/-- What runs against the trials. `tick`, `land` and `drop` stand for the time that passes and for the
    panel, which may still carry out a call whose answer nobody waits for. -/
inductive TrialProcess
  | claimFreeTrial (claimId userId : ℕ) (panel : TrialPanel)
  | provision (claimId : ℕ)
  | reconcile (claimId : ℕ)
  | sweep
  | release (claimId : ℕ)
  | forceNotCreated (claimId : ℕ)
  | expire
  | grant (id userId : ℕ) (count : ℤ) (panelId expiresAt : Option ℕ)
    (source : FreeTrialEntitlementSource)
  | setRemaining (id userId : ℕ) (desired : ℤ)
  | editUser (id : ℕ) (row : TrialUser)
  | tick
  | land (r : Remote)
  | drop (r : Remote)

def TrialProcess.program : TrialProcess → Trials Unit
  | .claimFreeTrial claimId userId panel => Trials.claimFreeTrial claimId userId panel
  | .provision claimId => do
    let claim ← findClaim claimId
    match claim with
    | none => return ()
    | some claim => provisionTrialClaim claimId claim
  | .reconcile claimId => do let _ ← reconcileTrialClaim claimId; return ()
  | .sweep => runFreeTrialSweep
  | .release claimId => do let _ ← releaseClaimAllowance claimId; return ()
  | .forceNotCreated claimId => forceClaimNotCreated claimId
  | .expire => expireTrialEntitlements
  | .grant id userId count panelId expiresAt source =>
    grantTrialAllowance id userId count panelId expiresAt source
  | .setRemaining id userId desired => setEffectiveRemaining id userId desired
  | .editUser id row => sql fun _ => { result := (), writes := [⟨.user id, some row⟩] }
  | .tick => ext fun c w => ((), { w with now := w.now + c.ticks })
  | .land r => ext fun _ w => ((), w.land r)
  | .drop r => ext fun _ w => ((), { w with pending := w.pending.erase r })

end ZedBot.Trials
