import ZedBot.KeysetSweep
import ZedBot.LowBalance.Alerts
import ZedBot.LowBalance.Backfill
import ZedBot.ReadCommitted.Solo

/-! The reconciliation sweep: one bounded pass after another, under a durable lease.

    A pass first creates missing state rows in pages from the start of the users, then walks the state
    rows by pages behind a durable cursor. It runs alone here: what the rest of the world decides for it
    (the clock, the settings, which units and queries fail) is its oracle. The ids of the state rows are
    given by `rowId`, one for each user. -/

namespace ZedBot.LowBalance
open ReadCommitted

def LOW_BALANCE_RECONCILE_BATCH : ℕ := 500
def LOW_BALANCE_RECONCILE_MAX_BATCHES : ℕ := 20
def LEASE_DURATION_MS : ℕ := 5 * 60000

/-- The singleton control row. -/
structure LowBalanceReconciliationState where
  ownerToken : Option ℕ := none
  leaseExpiresAt : Option ℕ := none
  initCursorUserId : Option ℕ := none
  repairCursorId : Option ℕ := none
  lastSweepStartedAt : Option ℕ := none
  lastSweepCompletedAt : Option ℕ := none
  completedSweepCount : ℕ := 0
  deriving DecidableEq, Repr

/-- The database of a pass: the control row, and everything else. -/
structure SweepDb where
  control : Option LowBalanceReconciliationState := none
  alerts : AlertStore

/-- What a pass cannot decide: its token, the clock at each of its steps, the settings, and which
    units and queries fail. -/
structure PassOracle where
  ownerToken : ℕ := 0
  config : Option FrozenConfig := none
  acquiredAt : ℕ := 0
  initRenewedAt : ℕ → ℕ := fun _ => 0
  repairRenewedAt : ℕ → ℕ := fun _ => 0
  releasedAt : ℕ := 0
  unitAt : ℕ → ℕ := fun _ => 0
  initFails : ℕ → Bool := fun _ => false
  repairFails : ℕ → Bool := fun _ => false
  initThrows : ℕ → Bool := fun _ => false
  repairThrows : ℕ → Bool := fun _ => false

/-! ### The lease -/

structure ReconciliationLease where
  ownerToken : ℕ
  initCursorUserId : Option ℕ
  repairCursorId : Option ℕ

/-- `createMany … skipDuplicates` of the control row. -/
def ensureRow (db : SweepDb) : SweepDb := { db with control := some (db.control.getD {}) }

/-- An `UPDATE` of the control row: whether it matched. -/
def updateControl (cond : LowBalanceReconciliationState → Bool)
    (data : LowBalanceReconciliationState → LowBalanceReconciliationState) (db : SweepDb) :
    Bool × SweepDb :=
  match db.control with
  | some row => if cond row then (true, { db with control := some (data row) }) else (false, db)
  | none => (false, db)

/-- Unheld, or expired. -/
def LowBalanceReconciliationState.isFree (now : ℕ) (row : LowBalanceReconciliationState) : Bool :=
  row.ownerToken = none ∨ row.leaseExpiresAt.all (· < now)

/-- Takes the lease; the row is read again after the claim. -/
def acquireLease (ownerToken now : ℕ) (db : SweepDb) : Option ReconciliationLease × SweepDb :=
  let (claimed, db) := updateControl (·.isFree now)
    (fun row =>
      { row with
        ownerToken := some ownerToken
        leaseExpiresAt := some (now + LEASE_DURATION_MS)
        lastSweepStartedAt := some now }) (ensureRow db)
  if ¬ claimed then
    (none, db)
  else
    match db.control with
    | none => (none, db)
    | some row =>
      if row.ownerToken ≠ some ownerToken then
        (none, db)
      else
        (some ⟨ownerToken, row.initCursorUserId, row.repairCursorId⟩, db)

/-- Persists the repair cursor, while the lease is held. -/
def saveProgress (ownerToken cursor : ℕ) : SweepDb → Bool × SweepDb :=
  updateControl (·.ownerToken = some ownerToken) fun row => { row with repairCursorId := some cursor }

/-- Extends a lease that is still valid. -/
def renewLease (ownerToken now : ℕ) : SweepDb → Bool × SweepDb :=
  updateControl (fun row => row.ownerToken = some ownerToken ∧ row.leaseExpiresAt.any (now < ·))
    fun row => { row with leaseExpiresAt := some (now + LEASE_DURATION_MS) }

/-- Releases the lease; a completed sweep wraps the cursors. -/
def releaseLease (ownerToken now : ℕ) (completed : Bool) (db : SweepDb) : SweepDb :=
  (updateControl (·.ownerToken = some ownerToken) (fun row =>
    if completed then
      { row with
        ownerToken := none
        leaseExpiresAt := none
        initCursorUserId := none
        repairCursorId := none
        lastSweepCompletedAt := some now
        completedSweepCount := row.completedSweepCount + 1 }
    else
      { row with ownerToken := none, leaseExpiresAt := none }) db).2

/-! ### Units -/

/-- One user, one transaction; a unit that fails leaves nothing. -/
def runUnit (config : FrozenConfig) (now : ℕ) (fails : Bool) (userId : ℕ) (db : SweepDb) :
    Option LowBalanceObservationOutcome × SweepDb :=
  if fails then
    (none, db)
  else
    let (outcome, σ) := (processOne config userId).solo 0 (fun _ => { now := now })
      { store := db.alerts }
    match outcome with
    | .ok outcome => (outcome, { db with alerts := σ.store })
    | .error _ => (none, { db with alerts := σ.store })

/-- The counts of a pass. -/
structure SweepCounts where
  initialised : ℕ := 0
  examined : ℕ := 0
  alerted : ℕ := 0
  rearmed : ℕ := 0
  enqueued : ℕ := 0
  deriving DecidableEq, Repr

/-- How a phase ends: at the end of its rows, short of it, without the lease, or by a query that
    throws. -/
inductive PhaseEnd
  | done | stopped | lostLease | threw
  deriving DecidableEq, Repr

/-! ### The initialisation -/

/-- The users in id order. -/
def usersById (v : AlertView) : List ℕ := (userIds v.journal).dedup.insertionSort (· ≤ ·)

/-- ACTIVE and without a state row. -/
def isMissing (v : AlertView) (userId : ℕ) : Bool :=
  ((v.rows (.user userId)).any fun u => u.status = .ACTIVE) && (v.rows (.alertState userId)).isNone

def missingUsers (v : AlertView) : List ℕ := (usersById v).filter (isMissing v)

/-- What an initialised user counts. -/
def SweepCounts.initialise (outcome : LowBalanceObservationOutcome) (counts : SweepCounts) :
    SweepCounts :=
  { counts with
    initialised := counts.initialised + 1
    enqueued := counts.enqueued + match outcome with
      | .alerted _ (some _) => 1
      | _ => 0 }

/-- The units of a batch, and how many of them made progress. -/
def initialiseUsers (o : PassOracle) (config : FrozenConfig) :
    List ℕ → ℕ → SweepCounts → SweepDb → ℕ × SweepCounts × SweepDb
  | [], progressed, counts, db => (progressed, counts, db)
  | id :: ids, progressed, counts, db =>
    match runUnit config (o.unitAt id) (o.initFails id) id db with
    | (none, db) => initialiseUsers o config ids progressed counts db
    | (some outcome, db) =>
      initialiseUsers o config ids (progressed + 1) (counts.initialise outcome) db

/-- At most so many batches; `batch` is the number of the next one. -/
def initialiseBatches (o : PassOracle) (config : FrozenConfig) :
    ℕ → ℕ → SweepCounts → SweepDb → PhaseEnd × SweepCounts × SweepDb
  | 0, _, counts, db => (.stopped, counts, db)
  | n + 1, batch, counts, db =>
    if o.initThrows batch then
      (.threw, counts, db)
    else
      let users := (missingUsers (db.alerts.view {})).take LOW_BALANCE_RECONCILE_BATCH
      if users.length = 0 then
        (.done, counts, db)
      else
        let (progressed, counts, db) := initialiseUsers o config users 0 counts db
        -- retrying the identical page would spin
        if progressed = 0 then
          (.stopped, counts, db)
        else
          let (renewed, db) := renewLease o.ownerToken (o.initRenewedAt batch) db
          if ¬ renewed then
            (.lostLease, counts, db)
          else if users.length < LOW_BALANCE_RECONCILE_BATCH then
            (.done, counts, db)
          else
            initialiseBatches o config n (batch + 1) counts db

/-- Creates missing state rows for ACTIVE users, in bounded pages. -/
def initialiseMissingStates (o : PassOracle) (config : FrozenConfig) (db : SweepDb) :
    PhaseEnd × SweepCounts × SweepDb :=
  initialiseBatches o config LOW_BALANCE_RECONCILE_MAX_BATCHES 0 {} db

/-! ### The repair -/

/-- A state row with the balance of its user, as a page reads it. -/
structure RepairRow where
  id : ℕ
  userId : ℕ
  state : LowBalanceAlertStateValue
  balanceToman : ℤ
  deriving DecidableEq, Repr

section Rows

variable (rowId : ℕ → ℕ)

/-- The state row of a user, as a page reads it; it goes with its user. -/
def repairRow (v : AlertView) (userId : ℕ) : Option RepairRow :=
  match v.rows (.alertState userId), v.rows (.user userId) with
  | some st, some user => some ⟨rowId userId, userId, st.state, user.balanceToman⟩
  | _, _ => none

/-- The users with a state row, in the order of their rows' ids. -/
def stateUsers (v : AlertView) : List ℕ :=
  ((userIds v.journal).dedup.insertionSort fun a b => rowId a ≤ rowId b).filter fun id =>
    (repairRow rowId v id).isSome

/-- The ids of the state rows, in order. -/
def stateRowIds (v : AlertView) : List ℕ := (stateUsers rowId v).map rowId

/-- `orderBy: id, take`, from the row at the cursor on and without it; a cursor whose row is missing
    finds nothing. -/
def findRepairPage (cursor : Option ℕ) (v : AlertView) : List RepairRow :=
  let users := match cursor with
    | none => stateUsers rowId v
    | some c =>
      if c ∈ stateRowIds rowId v then
        ((stateUsers rowId v).filter fun id => c ≤ rowId id).drop 1
      else []
  (users.take LOW_BALANCE_RECONCILE_BATCH).filterMap (repairRow rowId v)

/-- Nothing to repair: the state agrees with the balance. -/
def RepairRow.agrees (config : FrozenConfig) (row : RepairRow) : Bool :=
  row.state = .ALERTED ∧ ¬ config.rearmBoundaryToman < row.balanceToman ∨
    row.state = .ARMED ∧ ¬ row.balanceToman ≤ config.thresholdToman

/-- What a repaired row counts. -/
def SweepCounts.repair (outcome : LowBalanceObservationOutcome) (counts : SweepCounts) : SweepCounts :=
  match outcome with
  | .rearmed _ => { counts with rearmed := counts.rearmed + 1 }
  | .alerted _ notification =>
    { counts with
      alerted := counts.alerted + 1
      enqueued := counts.enqueued + if notification.isSome then 1 else 0 }
  | _ => counts

/-- The units of a page. -/
def repairUsers (o : PassOracle) (config : FrozenConfig) :
    List RepairRow → SweepCounts → SweepDb → SweepCounts × SweepDb
  | [], counts, db => (counts, db)
  | row :: rows, counts, db =>
    if row.agrees config then
      repairUsers o config rows counts db
    else
      match runUnit config (o.unitAt row.userId) (o.repairFails row.userId) row.userId db with
      | (none, db) => repairUsers o config rows counts db
      | (some outcome, db) => repairUsers o config rows (counts.repair outcome) db

/-- What a repair phase did: how it ended, the ids of the rows it examined, its counts, and the
    database it leaves. -/
structure RepairResult where
  ending : PhaseEnd
  examined : List ℕ
  counts : SweepCounts
  db : SweepDb

/-- At most so many batches behind the cursor; `batch` is the number of the next one. -/
def repairBatches (o : PassOracle) (config : FrozenConfig) :
    ℕ → ℕ → Option ℕ → List ℕ → SweepCounts → SweepDb → RepairResult
  | 0, _, _, examined, counts, db => ⟨.stopped, examined, counts, db⟩
  | n + 1, batch, cursor, examined, counts, db =>
    if o.repairThrows batch then
      ⟨.threw, examined, counts, db⟩
    else
      let rows := findRepairPage rowId cursor (db.alerts.view {})
      match rows.getLast? with
      | none => ⟨.done, examined, counts, db⟩
      | some last =>
        let examined := examined ++ rows.map (·.id)
        let counts := { counts with examined := counts.examined + rows.length }
        let (counts, db) := repairUsers o config rows counts db
        let (saved, db) := saveProgress o.ownerToken last.id db
        if ¬ saved then
          ⟨.lostLease, examined, counts, db⟩
        else
          let (renewed, db) := renewLease o.ownerToken (o.repairRenewedAt batch) db
          if ¬ renewed then
            ⟨.lostLease, examined, counts, db⟩
          else if rows.length < LOW_BALANCE_RECONCILE_BATCH then
            ⟨.done, examined, counts, db⟩
          else
            repairBatches o config n (batch + 1) (some last.id) examined counts db

/-- Repairs state rows whose recorded state disagrees with the live balance. -/
def repairInconsistentStates (o : PassOracle) (config : FrozenConfig) (startCursor : Option ℕ)
    (counts : SweepCounts) (db : SweepDb) : RepairResult :=
  repairBatches rowId o config LOW_BALANCE_RECONCILE_MAX_BATCHES 0 startCursor [] counts db

/-! ### The pass -/

/-- What a pass answers: `completed` when both phases reached the end and the cursors wrapped. -/
structure ReconcileStats where
  counts : SweepCounts := {}
  completed : Bool := false
  skipped : Option String := none
  deriving DecidableEq, Repr

/-- A pass: its answer, how its phases ended where it had the lease, the rows it examined, and the
    database it leaves. -/
structure PassResult where
  stats : ReconcileStats
  phases : Option (PhaseEnd × PhaseEnd) := none
  examined : List ℕ := []
  db : SweepDb

/-- The two phases under the lease; a query that throws ends the pass, and what it has counted is not
    reported. -/
def runPhases (o : PassOracle) (config : FrozenConfig) (lease : ReconciliationLease)
    (db : SweepDb) : PassResult :=
  match initialiseMissingStates o config db with
  | (.threw, _, db) => { stats := {}, phases := some (.threw, .threw), db := db }
  | (init, counts, db) =>
    let repaired := repairInconsistentStates rowId o config lease.repairCursorId counts db
    match repaired.ending with
    | .threw =>
      { stats := { counts := counts }
        phases := some (init, .threw)
        examined := repaired.examined
        db := repaired.db }
    | ending =>
      { stats := { counts := repaired.counts, completed := init = .done ∧ ending = .done }
        phases := some (init, ending)
        examined := repaired.examined
        db := repaired.db }

/-- One bounded reconciliation pass. -/
def runLowBalanceReconciliation (o : PassOracle) (db : SweepDb) : PassResult :=
  match o.config with
  | none => { stats := { skipped := some "disabled" }, db := db }
  | some config =>
    match acquireLease o.ownerToken o.acquiredAt db with
    | (none, db) => { stats := { skipped := some "locked" }, db := db }
    | (some lease, db) =>
      let pass := runPhases rowId o config lease db
      { pass with db := releaseLease o.ownerToken o.releasedAt pass.stats.completed pass.db }

end Rows

end ZedBot.LowBalance
