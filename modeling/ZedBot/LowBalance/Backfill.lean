import ZedBot.LowBalance.Alerts
import Mathlib.Data.List.Dedup
import Mathlib.Data.List.Sort

/-! The backfill of low-balance messages: one administrator starts a run, any number of workers tick.

    A tick claims the oldest active run with a fresh owner token and a lease, and processes pages of
    users in id order; every unit locks the run, judges the claim and commits its progress together
    with the observation it made. A statement of the guarded block may throw (`throws`). -/

namespace ZedBot.LowBalance
open ReadCommitted

def LOW_BALANCE_BACKFILL_BATCH : ℕ := 200
def BATCHES_PER_TICK : ℕ := 10
def CLAIM_DURATION_MS : ℕ := 5 * 60000

/-! ### The run -/

namespace LowBalanceBackfillRun

/-- `status: { in: [PENDING, RUNNING] }` -/
def isActive (run : LowBalanceBackfillRun) : Bool :=
  run.status = .PENDING ∨ run.status = .RUNNING

/-- RUNNING under the token of this worker. -/
def ownedBy (ownerToken : ℕ) (run : LowBalanceBackfillRun) : Bool :=
  run.status = .RUNNING ∧ run.ownerToken = some ownerToken

/-- Active, and nobody holds it: no token, no lease, or an expired one. -/
def isClaimable (now : ℕ) (run : LowBalanceBackfillRun) : Bool :=
  run.isActive ∧ (run.ownerToken = none ∨ run.leaseExpiresAt.all (· < now))

/-- Owned under a lease that is still valid. -/
def holdsLease (ownerToken now : ℕ) (run : LowBalanceBackfillRun) : Bool :=
  run.ownedBy ownerToken ∧ run.leaseExpiresAt.any (now < ·)

def claim (ownerToken now : ℕ) (run : LowBalanceBackfillRun) : LowBalanceBackfillRun :=
  { run with
    status := .RUNNING
    ownerToken := some ownerToken
    leaseExpiresAt := some (now + CLAIM_DURATION_MS)
    startedAt := some now }

def renew (now : ℕ) (run : LowBalanceBackfillRun) : LowBalanceBackfillRun :=
  { run with leaseExpiresAt := some (now + CLAIM_DURATION_MS) }

def complete (now : ℕ) (run : LowBalanceBackfillRun) : LowBalanceBackfillRun :=
  { run with
    status := .COMPLETED
    completedAt := some now
    ownerToken := none
    leaseExpiresAt := none }

def release (run : LowBalanceBackfillRun) : LowBalanceBackfillRun :=
  { run with ownerToken := none, leaseExpiresAt := none }

def cancel (now : ℕ) (run : LowBalanceBackfillRun) : LowBalanceBackfillRun :=
  { run with status := .CANCELLED, cancelledAt := some now }

def batchFailed (run : LowBalanceBackfillRun) : LowBalanceBackfillRun :=
  { run with failedCount := run.failedCount + 1, safeErrorCode := some "batch-failed" }

/-- The durable progress of a unit. -/
def record (userId : ℕ) (result : UnitResult) (run : LowBalanceBackfillRun) :
    LowBalanceBackfillRun :=
  let run := { run with cursorUserId := some userId, processedCount := run.processedCount + 1 }
  match result with
  | .queued => { run with queuedCount := run.queuedCount + 1 }
  | .skipped => { run with skippedCount := run.skippedCount + 1 }
  | .failed =>
    { run with
      skippedCount := run.skippedCount + 1
      failedCount := run.failedCount + 1
      safeErrorCode := some "unit-failed" }

def frozenConfig (run : LowBalanceBackfillRun) : FrozenConfig where
  thresholdToman := run.thresholdToman
  rearmBoundaryToman := run.rearmBoundaryToman
  configVersion := run.configVersion

end LowBalanceBackfillRun

/-! ### Statements -/

def findRun (id : ℕ) : Alerts (Option LowBalanceBackfillRun) :=
  select fun v => v.rows (.backfillRun id)

def updateRun (id : ℕ) (cond : LowBalanceBackfillRun → Bool)
    (data : LowBalanceBackfillRun → LowBalanceBackfillRun) : Alerts ℕ :=
  update (.backfillRun id) (onRow cond data)

/-- `SELECT … FOR UPDATE` on the run. -/
def lockRun (id : ℕ) : Alerts (Option LowBalanceBackfillRun) :=
  selectForUpdate (AlertKey.backfillRun id) (Option.isSome : Option LowBalanceBackfillRun → Bool)

/-- An `UPDATE` of the run that is a unit's progress: the history lists the unit where it matches. -/
def recordUnit (runId ownerToken userId : ℕ) (result : UnitResult)
    (cond : LowBalanceBackfillRun → Bool) : Alerts ℕ :=
  sql fun v => match onRow cond (·.record userId result) (v.rows (.backfillRun runId)) with
    | none => { result := 0 }
    | some row =>
      { result := 1
        writes := [⟨.backfillRun runId, row⟩]
        entries := [.unit runId ownerToken userId result] }

/-- The runs that were inserted, in order. -/
def runIds (js : List AlertEntry) : List ℕ :=
  js.filterMap fun
    | .backfillRun id => some id
    | _ => none

/-- The active runs. -/
def activeRuns (v : AlertView) : List ℕ :=
  (runIds v.journal).filter fun id => (v.rows (.backfillRun id)).any (·.isActive)

/-- The users that were inserted. -/
def userIds (js : List AlertEntry) : List ℕ :=
  js.filterMap fun
    | .user id => some id
    | _ => none

/-- ACTIVE and at or below the threshold. -/
def isCandidate (thresholdToman : ℤ) (user : User) : Bool :=
  user.status = .ACTIVE ∧ user.balanceToman ≤ thresholdToman

/-- The candidates in id order. -/
def candidates (thresholdToman : ℤ) (v : AlertView) : List ℕ :=
  ((userIds v.journal).dedup.filter fun id =>
    (v.rows (.user id)).any (isCandidate thresholdToman)).insertionSort (· ≤ ·)

/-- `cursor: { id }, skip: 1, take`: the rows from the cursor's id on, without the first of them. -/
def pageAfter (cursor : Option ℕ) (take : ℕ) (ids : List ℕ) : List ℕ :=
  match cursor with
  | none => ids.take take
  | some c => ((ids.filter (c ≤ ·)).drop 1).take take

/-- The read of one page. -/
def findPage (runId ownerToken : ℕ) (cursor : Option ℕ) (config : FrozenConfig) :
    Alerts (List ℕ) :=
  sql fun v =>
    let ids := pageAfter cursor LOW_BALANCE_BACKFILL_BATCH (candidates config.thresholdToman v)
    { result := ids, entries := [.page runId ownerToken cursor ids] }

/-! ### Units -/

inductive UnitOutcome
  | queued | skipped | lostClaim
  deriving DecidableEq, Repr

def recordProgress (runId ownerToken userId : ℕ) (outcome : UnitResult) : Alerts Unit := do
  let _ ← recordUnit runId ownerToken userId outcome fun _ => true
  return ()

/-- Whether the live user gets an observation at all. -/
def receivesUnit (config : FrozenConfig) (user : User) : Bool :=
  isCandidate config.thresholdToman user ∧ evaluateEligibility user

/-- The transaction of a unit. A throw rolls everything back, so it may as well come first. -/
def unitTransaction (runId ownerToken userId : ℕ) (config : FrozenConfig) :
    Alerts (Except ObservationThrow UnitOutcome) := transaction do
  let throws ← ask (·.throws)
  if throws then
    return .error .failed
  let claim ← lockRun runId
  let now ← ask (·.now)
  if ¬ claim.any (·.holdsLease ownerToken now) then
    return .ok .lostClaim
  let user ← findUser userId
  match user.filter (receivesUnit config) with
  | none =>
    recordProgress runId ownerToken userId .skipped
    return .ok .skipped
  | some user =>
    let outcome ← applyLowBalanceObservation (backfillInput config userId user.balanceToman)
    match outcome with
    | .error e => return .error e
    | .ok outcome =>
      let result : UnitResult := match outcome with
        | .alerted _ (some _) => .queued
        | _ => .skipped
      recordProgress runId ownerToken userId result
      return .ok (if result = .queued then .queued else .skipped)

/-- One user, one transaction; a unit that failed is marked as attempted, where the claim still
    stands. -/
def processOneUser (runId ownerToken userId : ℕ) (config : FrozenConfig) :
    Alerts (Except Unit UnitOutcome) := do
  let unit ← unitTransaction runId ownerToken userId config
  match unit with
  | .ok outcome => return .ok outcome
  | .error _ =>
    let throws ← ask (·.throws)
    if throws then
      return .error ()
    let _ ← recordUnit runId ownerToken userId .failed (·.ownedBy ownerToken)
    return .ok .skipped

/-! ### Batches -/

structure BatchCounts where
  processed : ℕ := 0
  queued : ℕ := 0
  skipped : ℕ := 0
  deriving DecidableEq, Repr

def BatchCounts.add (a b : BatchCounts) : BatchCounts where
  processed := a.processed + b.processed
  queued := a.queued + b.queued
  skipped := a.skipped + b.skipped

structure BatchResult where
  counts : BatchCounts
  cursor : Option ℕ := none
  isDone : Bool
  lostClaim : Bool
  deriving DecidableEq, Repr

/-- The units of a page, up to one that finds the claim gone. -/
def processPage (runId ownerToken : ℕ) (config : FrozenConfig) :
    List ℕ → BatchCounts → Alerts (Except Unit (BatchCounts × Bool))
  | [], counts => return .ok (counts, false)
  | id :: ids, counts => do
    let result ← processOneUser runId ownerToken id config
    match result with
    | .error e => return .error e
    | .ok .lostClaim => return .ok (counts, true)
    | .ok .queued =>
      processPage runId ownerToken config ids (counts.add { processed := 1, queued := 1 })
    | .ok .skipped =>
      processPage runId ownerToken config ids (counts.add { processed := 1, skipped := 1 })

def advanceOneBatch (runId ownerToken : ℕ) (cursor : Option ℕ) (config : FrozenConfig) :
    Alerts (Except Unit BatchResult) := do
  let throws ← ask (·.throws)
  if throws then
    return .error ()
  let users ← findPage runId ownerToken cursor config
  if users.length = 0 then
    return .ok { counts := {}, isDone := true, lostClaim := false }
  let page ← processPage runId ownerToken config users {}
  match page with
  | .error e => return .error e
  | .ok (counts, lostClaim) =>
    if lostClaim then
      return .ok { counts := counts, cursor := cursor, isDone := false, lostClaim := true }
    return .ok
      { counts := counts
        cursor := users.getLast?
        isDone := users.length < LOW_BALANCE_BACKFILL_BATCH
        lostClaim := false }

inductive TickStatus
  | idle | locked | cancelled | lostClaim | completed | advanced
  deriving DecidableEq, Repr

structure BackfillTickResult where
  status : TickStatus
  runId : Option ℕ := none
  counts : BatchCounts := {}
  deriving DecidableEq, Repr

/-- The guarded block of a tick: at most so many batches from `cursor`. -/
def runBatches (runId ownerToken : ℕ) (config : FrozenConfig) :
    ℕ → Option ℕ → BatchCounts → Alerts (Except Unit BackfillTickResult)
  | 0, _, counts => return .ok { status := .advanced, runId := some runId, counts := counts }
  | n + 1, cursor, counts => do
    let throws ← ask (·.throws)
    if throws then
      return .error ()
    let live ← findRun runId
    if ¬ live.any (·.ownedBy ownerToken) then
      return .ok { status := .cancelled, runId := some runId, counts := counts }
    let page ← advanceOneBatch runId ownerToken cursor config
    match page with
    | .error e => return .error e
    | .ok page =>
      let counts := counts.add page.counts
      if page.lostClaim then
        return .ok { status := .lostClaim, runId := some runId, counts := counts }
      let throws ← ask (·.throws)
      if throws then
        return .error ()
      let now ← ask (·.now)
      if page.isDone then
        let _ ← updateRun runId (·.ownedBy ownerToken) (·.complete now)
        return .ok { status := .completed, runId := some runId, counts := counts }
      let renewed ← updateRun runId (·.holdsLease ownerToken now) (·.renew now)
      if renewed ≠ 1 then
        return .ok { status := .lostClaim, runId := some runId, counts := counts }
      runBatches runId ownerToken config n page.cursor counts

/-- One tick of a worker under a fresh token. -/
def runLowBalanceBackfillTick (ownerToken : ℕ) : Alerts BackfillTickResult := do
  let now ← ask (·.now)
  let candidate ← select fun v =>
    (activeRuns v).minOn? fun id => ((v.rows (.backfillRun id)).map (·.createdAt)).getD 0
  match candidate with
  | none => return { status := .idle }
  | some runId =>
    let claimed ← updateRun runId (·.isClaimable now) (·.claim ownerToken now)
    if claimed ≠ 1 then
      return { status := .locked, runId := some runId }
    let run ← findRun runId
    match run.filter fun run => run.ownerToken = some ownerToken with
    | none => return { status := .locked, runId := some runId }
    | some run =>
      let result ← runBatches runId ownerToken run.frozenConfig BATCHES_PER_TICK run.cursorUserId {}
      match result with
      | .ok result =>
        let _ ← updateRun runId (·.ownedBy ownerToken) (·.release)
        return result
      | .error _ =>
        let throws ← ask (·.throws)
        if ¬ throws then
          let _ ← updateRun runId (·.ownerToken = some ownerToken) (·.batchFailed)
        let _ ← updateRun runId (·.ownedBy ownerToken) (·.release)
        return { status := .advanced, runId := some runId }

/-! ### The administrator and the population -/

/-- Inserts a run, unless one is active. -/
def createRun (id : ℕ) (row : LowBalanceBackfillRun) : Alerts Bool := sql fun v =>
  match v.rows (.backfillRun id), activeRuns v with
  | none, [] =>
    { result := true
      writes := [⟨.backfillRun id, some row⟩]
      entries := [.backfillRun id] }
  | _, _ => { result := false }

/-- What ends the start of a backfill. -/
inductive StartThrow
  | alreadyRunning
  deriving DecidableEq, Repr

/-- `none` where the feature is disabled. -/
def startLowBalanceBackfill (config : AlertChoice → Option FrozenConfig) :
    Alerts (Except StartThrow (Option ℕ)) := transaction do
  let config ← ask config
  match config with
  | none => return .ok none
  | some config =>
    let now ← ask (·.now)
    let id ← ask (·.id)
    let created ← createRun id
      { thresholdToman := config.thresholdToman
        rearmBoundaryToman := config.rearmBoundaryToman
        configVersion := config.configVersion
        createdAt := now }
    if created then
      return .ok (some id)
    return .error .alreadyRunning

/-- Stops the active run; messages already queued are not recalled. -/
def cancelLowBalanceBackfill : Alerts Bool := do
  let now ← ask (·.now)
  let count ← sql fun v =>
    { result := (activeRuns v).length
      writes := (activeRuns v).map fun id =>
        ⟨.backfillRun id, (v.rows (.backfillRun id)).map (·.cancel now)⟩ }
  return 0 < count

/-- A user registers. -/
def createUser (id : ℕ) (row : User) : Alerts Bool := sql fun v =>
  match v.rows (.user id) with
  | some _ => { result := false }
  | none => { result := true, writes := [⟨.user id, some row⟩], entries := [.user id] }

/-- The status or the notification preferences of a user change. -/
def editUser (id : ℕ) (status : UserStatus) (lowBalance payment : Bool) : Alerts Unit := do
  let _ ← update (.user id) (onRow (fun _ => true) fun u : User =>
    { u with
      status := status
      lowBalanceNotificationsEnabled := lowBalance
      paymentNotificationsEnabled := payment })
  return ()

/-- What a process of the system does. -/
inductive BackfillProcess
  | tick
  | start (config : AlertChoice → Option FrozenConfig)
  | cancel
  | mutate (config : AlertChoice → Option FrozenConfig) (userId : ℕ) (delta : ℤ)
  | sweep (config : FrozenConfig) (userId : ℕ)
  | register (id : ℕ) (row : User)
  | edit (id : ℕ) (status : UserStatus) (lowBalance payment : Bool)

/-- The program of process `p`: a worker's token is the number of its process. -/
def BackfillProcess.program (p : ℕ) : BackfillProcess → Alerts Unit
  | .tick => do let _ ← runLowBalanceBackfillTick p; return ()
  | .start config => do let _ ← startLowBalanceBackfill config; return ()
  | .cancel => do let _ ← cancelLowBalanceBackfill; return ()
  | .mutate config userId delta => do let _ ← walletMutation config userId delta; return ()
  | .sweep config userId => do let _ ← processOne config userId; return ()
  | .register id row => do let _ ← createUser id row; return ()
  | .edit id status lowBalance payment => editUser id status lowBalance payment

end ZedBot.LowBalance
