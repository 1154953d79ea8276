import ZedBot.JsNumber
import ZedBot.ReadCommitted.RowLocks
import ZedBot.ReadCommitted.Statements
import ZedBot.Schema

/-! The reservations of service usernames.

    A reservation is held for a draft, bound to a checkout and consumed by a service, or it is given up.
    The unique index on `activeUsernameKey` is a family of rows of its own, written together with the
    reservation, and the advisory lock of a draft is a row that counts its holders. The journal lists
    the inserted reservations, payments and orders, and remembers as a history which reservations were
    released for a failed order. -/

namespace ZedBot.Reservations
open ReadCommitted JsNumber

/-! ### Rows -/

inductive ServiceUsernameMode
  | CUSTOM | RANDOM
  deriving DecidableEq, Repr

inductive ServiceUsernameReservationStatus
  | HELD | BOUND | CONSUMED | RELEASED | EXPIRED
  deriving DecidableEq, Repr

structure ServiceUsernameReservation where
  panelId : ℕ
  userId : ℕ
  normalizedUsername : String
  activeUsernameKey : Option String
  mode : ServiceUsernameMode
  status : ServiceUsernameReservationStatus := .HELD
  draftNonce : Option String
  checkoutSessionId : Option ℕ := none
  orderId : Option ℕ := none
  serviceId : Option ℕ := none
  expiresAt : Option ℕ := none
  boundAt : Option ℕ := none
  consumedAt : Option ℕ := none
  releasedAt : Option ℕ := none
  deriving DecidableEq, Repr

inductive ReservationKey
  | reservation (id : ℕ)
  | activeUsername (name : String)
  | draftLock (userId : ℕ) (nonce : String)
  | checkout (id : ℕ)
  | payment (id : ℕ)
  | order (id : ℕ)
  deriving DecidableEq

/-- The row type of a key. -/
@[reducible] def ReservationRow : ReservationKey → Type
  | .reservation _ => Option ServiceUsernameReservation
  | .activeUsername _ => Option ℕ
  | .draftLock _ _ => ℕ
  | .checkout _ => Option CheckoutSession
  | .payment _ => Option Payment
  | .order _ => Option Order

inductive ReservationEntry
  | reservation (id : ℕ)
  | payment (id : ℕ)
  | order (id : ℕ)
  | failedRelease (orderId : ℕ) (checkoutSessionId : Option ℕ) (reservationId : ℕ)
  deriving DecidableEq, Repr

/-- What the panel answers to the read-only probe of a username. -/
inductive RemoteProbe
  | found | notFound | failed
  deriving DecidableEq, Repr

/-- What the oracle answers: the clock, a fresh id, whether a statement throws; whether the panel exists
    and is ACTIVE, whether a service has the username, the probe; the rows another sweep holds locked. -/
structure ReservationChoice where
  now : ℕ := 0
  id : ℕ := 0
  throws : Bool := false
  panelActive : Bool := true
  serviceExists : Bool := false
  probe : RemoteProbe := .notFound
  locked : List ℕ := []
  deriving DecidableEq, Repr

abbrev Reserving := Prog ReservationRow ReservationEntry Unit ReservationChoice

abbrev ReservationStore := Store ReservationRow ReservationEntry Unit
abbrev ReservationTx := Tx ReservationRow ReservationEntry
abbrev ReservationView := View ReservationRow ReservationEntry
abbrev ReservationLocal := Local ReservationRow ReservationEntry Unit
abbrev ReservationConfig := Config ReservationRow ReservationEntry Unit ReservationChoice

namespace ServiceUsernameReservationStatus

/-- Still owns the username. -/
def isActive : ServiceUsernameReservationStatus → Bool
  | HELD | BOUND | CONSUMED => true
  | RELEASED | EXPIRED => false

/-- Holds the username and may be given up. -/
def isRebindable : ServiceUsernameReservationStatus → Bool
  | HELD | BOUND => true
  | CONSUMED | RELEASED | EXPIRED => false

end ServiceUsernameReservationStatus

namespace ServiceUsernameReservation

def RESERVATION_HELD_TTL_MS : ℕ := 30 * 60000

/-- The hold of a draft, with its lifetime renewed. -/
def refreshed (now : ℕ) (r : ServiceUsernameReservation) : ServiceUsernameReservation :=
  { r with expiresAt := some (now + RESERVATION_HELD_TTL_MS) }

def released (now : ℕ) (r : ServiceUsernameReservation) : ServiceUsernameReservation :=
  { r with status := .RELEASED, activeUsernameKey := none, releasedAt := some now }

def expired (now : ℕ) (r : ServiceUsernameReservation) : ServiceUsernameReservation :=
  { r with status := .EXPIRED, activeUsernameKey := none, releasedAt := some now }

def boundTo (checkoutSessionId now : ℕ) (r : ServiceUsernameReservation) :
    ServiceUsernameReservation :=
  { r with
    status := .BOUND
    checkoutSessionId := some checkoutSessionId
    boundAt := some now
    expiresAt := none }

def attachedTo (orderId now : ℕ) (r : ServiceUsernameReservation) : ServiceUsernameReservation :=
  { r with status := .BOUND, orderId := some orderId, boundAt := some now, expiresAt := none }

def consumedBy (serviceId now : ℕ) (r : ServiceUsernameReservation) : ServiceUsernameReservation :=
  { r with status := .CONSUMED, serviceId := some serviceId, consumedAt := some now }

end ServiceUsernameReservation

/-! ### Statements -/

/-- The rows of the table that a statement sees. -/
def reservationsOf (v : ReservationView) : List (ℕ × ServiceUsernameReservation) :=
  v.journal.filterMap fun
    | .reservation id => (v.rows (.reservation id)).map (id, ·)
    | _ => none

def findReservations (cond : ServiceUsernameReservation → Bool) :
    Reserving (List (ℕ × ServiceUsernameReservation)) :=
  select fun v => (reservationsOf v).filter fun r => cond r.2

/-- The row of an update, and the entry of the unique index that it gives up. -/
def rowWrites (data : ServiceUsernameReservation → ServiceUsernameReservation)
    (r : ℕ × ServiceUsernameReservation) : List (Write ReservationRow) :=
  ⟨.reservation r.1, some (data r.2)⟩ ::
    match r.2.activeUsernameKey, (data r.2).activeUsernameKey with
    | some name, none => [⟨.activeUsername name, none⟩]
    | _, _ => []

/-- `UPDATE` of the rows that `pick` selects, with what the history notes of each. -/
def updatePicked (pick : ReservationView → List (ℕ × ServiceUsernameReservation))
    (data : ServiceUsernameReservation → ServiceUsernameReservation)
    (note : ℕ → List ReservationEntry := fun _ => []) : Reserving ℕ := sql fun v =>
  let hits := pick v
  { result := hits.length
    writes := hits.flatMap (rowWrites data)
    entries := hits.flatMap fun r => note r.1 }

/-- `updateMany`. -/
def updateReservations (cond : ℕ → ServiceUsernameReservation → Bool)
    (data : ServiceUsernameReservation → ServiceUsernameReservation)
    (note : ℕ → List ReservationEntry := fun _ => []) : Reserving ℕ :=
  updatePicked (fun v => (reservationsOf v).filter fun r => cond r.1 r.2) data note

/-- `create`; `false` is the violation of a unique index. -/
def createReservation (id : ℕ) (row : ServiceUsernameReservation) : Reserving Bool := sql fun v =>
  match v.rows (.reservation id), v.rows (.activeUsername row.normalizedUsername) with
  | none, none =>
    { result := true
      writes := [⟨.reservation id, some row⟩, ⟨.activeUsername row.normalizedUsername, some id⟩]
      entries := [.reservation id] }
  | _, _ => { result := false }

/-- `pg_advisory_xact_lock` on the key of a draft. -/
def lockDraft (userId : ℕ) (draftNonce : Option String) : Reserving ℕ :=
  update (.draftLock userId (draftNonce.getD "")) fun n : ℕ => some (n + 1)

/-! ### Usernames -/

def SERVICE_USERNAME_MIN_LENGTH : ℕ := 8
def SERVICE_USERNAME_MAX_LENGTH : ℕ := 16

inductive ServiceUsernameRejectReason
  | EMPTY | TOO_SHORT | TOO_LONG | BAD_FIRST_CHAR | BAD_CHARS
  deriving DecidableEq, Repr

def normalizeServiceUsername (raw : String) : String := (jsTrim raw).toLower

/-- The number of UTF-16 units of a text. -/
def jsLength (s : String) : ℕ := (s.toList.map fun c => if c.val ≤ 0xFFFF then 1 else 2).sum

def isLowercaseLetter (c : Char) : Bool := 'a' ≤ c ∧ c ≤ 'z'

/-- A character after the first. -/
def isUsernameChar (c : Char) : Bool := isLowercaseLetter c ∨ ('0' ≤ c ∧ c ≤ '9') ∨ c = '_'

def validateServiceUsername (raw : String) : Except ServiceUsernameRejectReason String :=
  let normalized := normalizeServiceUsername raw
  let chars := normalized.toList
  if jsLength normalized = 0 then .error .EMPTY
  else if jsLength normalized < SERVICE_USERNAME_MIN_LENGTH then .error .TOO_SHORT
  else if SERVICE_USERNAME_MAX_LENGTH < jsLength normalized then .error .TOO_LONG
  else if ¬ chars.head?.any isLowercaseLetter then .error .BAD_FIRST_CHAR
  else if ¬ chars.tail.all isUsernameChar then .error .BAD_CHARS
  else .ok normalized

/-- The text is a valid username in its normal form. -/
def isValidServiceUsername (value : String) : Bool :=
  match validateServiceUsername value with
  | .ok normalized => normalized = value
  | .error _ => false

inductive ServiceUsernameAvailabilityOutcome
  | AVAILABLE | TAKEN_LOCAL | TAKEN_REMOTE | RESERVED | PANEL_UNAVAILABLE | UNVERIFIABLE | INVALID
  deriving DecidableEq, Repr

/-- `NOT (userId = … AND draftNonce = …)` of a row; a null nonce makes the comparison unknown. -/
def isForeignTo (userId : ℕ) (draftNonce : Option String) (r : ServiceUsernameReservation) : Bool :=
  r.userId ≠ userId || match draftNonce, r.draftNonce with
    | some nonce, some other => other ≠ nonce
    | some _, none => false
    | none, other => other.isSome

/-- Availability of a username on a panel, beside the caller's own reservation. -/
def checkServiceUsernameAvailability (panelActive : Bool) (normalizedUsername : String) (userId : ℕ)
    (draftNonce : Option String) : Reserving ServiceUsernameAvailabilityOutcome := do
  if ¬ isValidServiceUsername normalizedUsername then
    return .INVALID
  if ¬ panelActive then
    return .PANEL_UNAVAILABLE
  let serviceExists ← ask (·.serviceExists)
  if serviceExists then
    return .TAKEN_LOCAL
  let heldByOther ← findReservations fun r => r.normalizedUsername = normalizedUsername ∧
    r.status.isActive ∧ isForeignTo userId draftNonce r
  if heldByOther ≠ [] then
    return .RESERVED
  let probe ← ask (·.probe)
  match probe with
  | .found => return .TAKEN_REMOTE
  | .notFound => return .AVAILABLE
  | .failed => return .UNVERIFIABLE

/-! ### Reserve -/

inductive ReservationThrow
  | uniqueViolation | failed | notClaimable | invariant (reason : String)
  deriving DecidableEq, Repr

inductive ReserveServiceUsernameResult
  | available (reservationId : ℕ) (normalizedUsername : String) (mode : ServiceUsernameMode)
  | refused (outcome : ServiceUsernameAvailabilityOutcome)
  deriving DecidableEq, Repr

structure ReserveArgs where
  userId : ℕ
  panelId : ℕ
  mode : ServiceUsernameMode
  normalizedUsername : String
  draftNonce : Option String
  deriving DecidableEq, Repr

/-- A reservation of the same draft on the same panel. -/
def ReserveArgs.owns (args : ReserveArgs) (r : ServiceUsernameReservation) : Bool :=
  r.userId = args.userId ∧ r.draftNonce = args.draftNonce ∧ r.panelId = args.panelId

/-- The holds of the draft that may be given up. -/
def ReserveArgs.findActive (args : ReserveArgs) :
    Reserving (List (ℕ × ServiceUsernameReservation)) :=
  findReservations fun r => args.owns r ∧ r.status.isRebindable

/-- The new hold. -/
def ReserveArgs.hold (args : ReserveArgs) (now : ℕ) : ServiceUsernameReservation where
  panelId := args.panelId
  userId := args.userId
  normalizedUsername := args.normalizedUsername
  activeUsernameKey := some args.normalizedUsername
  mode := args.mode
  status := .HELD
  draftNonce := args.draftNonce
  expiresAt := some (now + ServiceUsernameReservation.RESERVATION_HELD_TTL_MS)

/-- Renew a hold that is still HELD. -/
def refreshHold (id : ℕ) : Reserving ℕ := do
  let now ← ask (·.now)
  updateReservations (fun id' r => id' = id ∧ r.status = .HELD) (.refreshed now)

/-- The replacement of the holds of a draft: under the lock of the draft they are read again, the new
    hold is obtained and only then are the others released. -/
def replaceHolds (args : ReserveArgs) : Reserving (Except ReservationThrow ℕ) := transaction do
  let _ ← lockDraft args.userId args.draftNonce
  let currentActive ← args.findActive
  match currentActive.find? fun r =>
      r.2.normalizedUsername = args.normalizedUsername ∧ r.2.status = .HELD with
  | some existingSame =>
    let _ ← refreshHold existingSame.1
    return .ok existingSame.1
  | none =>
    let id ← ask (·.id)
    let now ← ask (·.now)
    let created ← createReservation id (args.hold now)
    if ¬ created then
      return .error .uniqueViolation
    let toRelease := currentActive.map (·.1)
    let now ← ask (·.now)
    let _ ← updateReservations (fun id r => id ∈ toRelease ∧ r.status.isRebindable) (.released now)
    let throws ← ask (·.throws)
    if throws then
      return .error .failed
    else
      return .ok id

/-- Reserve one username for a draft. -/
def reserveServiceUsername (args : ReserveArgs) : Reserving ReserveServiceUsernameResult := do
  if ¬ isValidServiceUsername args.normalizedUsername then
    return .refused .INVALID
  let panelActive ← ask (·.panelActive)
  if ¬ panelActive then
    return .refused .PANEL_UNAVAILABLE
  let priorActive ← args.findActive
  match priorActive.find? fun r => r.2.normalizedUsername = args.normalizedUsername with
  | some sameUsernameHold =>
    if sameUsernameHold.2.status ≠ .HELD then
      return .refused .RESERVED
    let _ ← refreshHold sameUsernameHold.1
    return .available sameUsernameHold.1 args.normalizedUsername args.mode
  | none =>
    let availability ← checkServiceUsernameAvailability panelActive args.normalizedUsername
      args.userId args.draftNonce
    if availability ≠ .AVAILABLE then
      return .refused availability
    let created ← replaceHolds args
    match created with
    | .ok id => return .available id args.normalizedUsername args.mode
    | .error .uniqueViolation => return .refused .RESERVED
    | .error _ => return .refused .UNVERIFIABLE

def RANDOM_USERNAME_MAX_ATTEMPTS : ℕ := 10

/-- Reserve the first candidate that is free; a panel that is down ends the search. -/
def reserveCandidates (userId panelId : ℕ) (draftNonce : Option String) :
    List String → ServiceUsernameAvailabilityOutcome → Reserving ReserveServiceUsernameResult
  | [], lastBlocking => return .refused lastBlocking
  | candidate :: candidates, _ => do
    let result ← reserveServiceUsername ⟨userId, panelId, .RANDOM, candidate, draftNonce⟩
    match result with
    | .available .. | .refused .PANEL_UNAVAILABLE | .refused .INVALID => return result
    | .refused outcome => reserveCandidates userId panelId draftNonce candidates outcome

/-- Reserve a username of the generator, which draws these `candidates`. -/
def reserveRandomServiceUsername (userId panelId : ℕ) (draftNonce : Option String)
    (candidates : List String) : Reserving ReserveServiceUsernameResult :=
  reserveCandidates userId panelId draftNonce (candidates.take RANDOM_USERNAME_MAX_ATTEMPTS)
    .UNVERIFIABLE

/-! ### Transitions -/

structure ReservationClaimArgs where
  reservationId : ℕ
  userId : ℕ
  draftNonce : Option String
  normalizedUsername : String
  mode : ServiceUsernameMode
  panelId : ℕ
  deriving DecidableEq, Repr

/-- The row that a claim accepts. -/
def ReservationClaimArgs.matches (args : ReservationClaimArgs) (now id : ℕ)
    (r : ServiceUsernameReservation) : Bool :=
  id = args.reservationId ∧ r.userId = args.userId ∧ r.draftNonce = args.draftNonce ∧
    r.normalizedUsername = args.normalizedUsername ∧
    r.activeUsernameKey = some args.normalizedUsername ∧ r.mode = args.mode ∧
    r.panelId = args.panelId ∧ r.status = .HELD ∧ r.expiresAt.any (now < ·) ∧
    r.checkoutSessionId = none ∧ r.orderId = none ∧ r.serviceId = none

/-- Bind a hold to a checkout; `false` is NOT_CLAIMABLE. -/
def claimReservationForCheckout (args : ReservationClaimArgs) (checkoutSessionId : ℕ) :
    Reserving Bool := do
  let now ← ask (·.now)
  let count ← updateReservations (args.matches now) (.boundTo checkoutSessionId now)
  return count = 1

structure ReservationOrderBindArgs where
  reservationId : ℕ
  userId : ℕ
  checkoutSessionId : ℕ
  panelId : ℕ
  normalizedUsername : String
  orderId : ℕ
  deriving DecidableEq, Repr

/-- The identity of the reservation that an order is recorded on. -/
def ReservationOrderBindArgs.names (args : ReservationOrderBindArgs) (id : ℕ)
    (r : ServiceUsernameReservation) : Bool :=
  id = args.reservationId ∧ r.userId = args.userId ∧
    r.checkoutSessionId = some args.checkoutSessionId ∧ r.panelId = args.panelId ∧
    r.normalizedUsername = args.normalizedUsername

/-- Record the settled order on the reservation bound to its checkout. -/
def attachReservationToOrder (args : ReservationOrderBindArgs) :
    Reserving (Except ReservationThrow Unit) := do
  let now ← ask (·.now)
  let count ← updateReservations (fun id r => args.names id r ∧ r.status = .BOUND ∧
    r.serviceId = none ∧ (r.orderId = none ∨ r.orderId = some args.orderId))
    (.attachedTo args.orderId now)
  if count = 1 then
    return .ok ()
  let already ← select fun v => (reservationsOf v).find? fun r => args.names r.1 r.2 ∧
    r.2.orderId = some args.orderId ∧ (r.2.status = .BOUND ∨ r.2.status = .CONSUMED)
  match already with
  | some _ => return .ok ()
  | none => return .error (.invariant "ORDER_BIND_NO_MATCH")

/-- The binding of an external settlement: a mismatch is reported, not thrown. -/
def bindSettledReservation (args : ReservationOrderBindArgs) :
    Reserving (Except ReservationThrow Bool) := do
  let attached ← attachReservationToOrder args
  match attached with
  | .ok _ => return .ok true
  | .error (.invariant _) => return .ok false
  | .error e => return .error e

def consumeReservationForOrder (orderId serviceId : ℕ) (normalizedUsername : String) :
    Reserving Unit := do
  let now ← ask (·.now)
  let _ ← updateReservations (fun _ r => r.orderId = some orderId ∧
    r.normalizedUsername = normalizedUsername ∧ (r.status.isRebindable ∨ r.status = .CONSUMED))
    (.consumedBy serviceId now)
  return ()

def lockReservationForSettlement (reservationId : ℕ) : Reserving Unit := do
  let _ ← selectForUpdate (ReservationKey.reservation reservationId)
    (Option.isSome : Option ServiceUsernameReservation → Bool)
  return ()

def releaseHeldReservationForDraft (userId : ℕ) (draftNonce : Option String) (reservationId : ℕ) :
    Reserving Unit := do
  let now ← ask (·.now)
  let _ ← updateReservations (fun id r => id = reservationId ∧ r.userId = userId ∧
    r.draftNonce = draftNonce ∧ r.status = .HELD) (.released now)
  return ()

def releaseReservation (reservationId : ℕ) : Reserving Unit := do
  let now ← ask (·.now)
  let _ ← updateReservations (fun id r => id = reservationId ∧ r.status.isRebindable) (.released now)
  return ()

def releaseReservationForFailedOrder (orderId : ℕ) (checkoutSessionId : Option ℕ) :
    Reserving Unit := do
  let now ← ask (·.now)
  let _ ← updateReservations (fun _ r => r.status.isRebindable ∧ (r.orderId = some orderId ∨
    checkoutSessionId.any fun c => r.checkoutSessionId = some c)) (.released now)
    fun id => [.failedRelease orderId checkoutSessionId id]
  return ()

def releaseHeldReservationsForDraft (userId : ℕ) (draftNonce : String) : Reserving Unit := do
  let now ← ask (·.now)
  let _ ← updateReservations (fun _ r => r.userId = userId ∧ r.draftNonce = some draftNonce ∧
    r.status = .HELD) (.released now)
  return ()

/-! ### Cleanup -/

/-- A payment of a checkout that can still settle. -/
def isSettleable (checkoutSessionId : ℕ) (p : Payment) : Bool :=
  p.checkoutSessionId = some checkoutSessionId ∧
    (p.status ∈ [.PENDING, .PENDING_REVIEW, .PROCESSING, .APPROVED] ∨
      (p.providerStatus = some .SUCCESS ∧ p.settlementStatus ≠ .SETTLED) ∨
      p.settlementStatus = .DUPLICATE_SUCCESS_REVIEW)

def isLive (o : Order) : Bool := o.status ∈ [.PAID, .PROVISIONING, .COMPLETED]

def hasSettleablePayment (checkoutSessionId : ℕ) (v : ReservationView) : Bool :=
  v.journal.any fun
    | .payment id => (v.rows (.payment id)).any (isSettleable checkoutSessionId)
    | _ => false

def hasLiveOrder (checkoutSessionId : ℕ) (v : ReservationView) : Bool :=
  v.journal.any fun
    | .order id => (v.rows (.order id)).any fun o =>
      o.checkoutSessionId = some checkoutSessionId ∧ isLive o
    | _ => false

def isDead (now : ℕ) (c : CheckoutSession) : Bool :=
  c.status ∈ [.EXPIRED, .CANCELLED, .FAILED_REFUNDED] ∨ (c.status = .PENDING ∧ c.expiresAt ≤ now)

/-- A bound reservation that no payment, order or service keeps. -/
def isDeadBound (now : ℕ) (v : ReservationView) (r : ServiceUsernameReservation) : Bool :=
  r.status = .BOUND ∧ r.serviceId = none ∧ r.checkoutSessionId.any fun c =>
    (v.rows (.checkout c)).any (isDead now) ∧ ¬ hasSettleablePayment c v ∧ ¬ hasLiveOrder c v ∧
      ¬ r.orderId.any fun o => (v.rows (.order o)).any isLive

def SCAN_BATCH : ℕ := 500
def MAX_BATCHES : ℕ := 20

/-- One conditional update of a sweep: it skips the `locked` rows. -/
def expireBatch (cond : ReservationView → ServiceUsernameReservation → Bool) (now : ℕ) :
    Reserving ℕ := do
  let locked ← ask (·.locked)
  updatePicked (fun v => ((reservationsOf v).filter fun r => cond v r.2 ∧ r.1 ∉ locked).take SCAN_BATCH)
    (.expired now)

/-- Batches until one is not full. -/
def expireBatches (cond : ReservationView → ServiceUsernameReservation → Bool) (now : ℕ) :
    ℕ → Reserving ℕ
  | 0 => return 0
  | n + 1 => do
    let affected ← expireBatch cond now
    if affected < SCAN_BATCH then
      return affected
    let rest ← expireBatches cond now n
    return affected + rest

def expireStaleHeld (now : ℕ) : Reserving ℕ :=
  expireBatches (fun _ r => r.status = .HELD ∧ r.expiresAt.any (· < now)) now MAX_BATCHES

def expireDeadBound (now : ℕ) : Reserving ℕ := expireBatches (isDeadBound now) now MAX_BATCHES

structure ReservationCleanupResult where
  expiredHeld : ℕ
  expiredBound : ℕ
  deriving DecidableEq, Repr

def runReservationCleanup (now : ℕ) : Reserving ReservationCleanupResult := do
  let expiredHeld ← expireStaleHeld now
  let expiredBound ← expireDeadBound now
  return { expiredHeld, expiredBound }

/-! ### Processes -/

/-- What a transaction of a checkout, a settlement or a provisioning does to the reservations, between
    writes of its own to the other tables. -/
inductive ReservationStatement
  | claim (args : ReservationClaimArgs) (checkoutSessionId : ℕ)
  | attach (args : ReservationOrderBindArgs)
  | bindSettled (args : ReservationOrderBindArgs)
  | consume (orderId serviceId : ℕ) (normalizedUsername : String)
  | lock (reservationId : ℕ)
  | releaseForFailedOrder (orderId : ℕ) (checkoutSessionId : Option ℕ)
  | checkout (id : ℕ) (row : CheckoutSession)
  | payment (id : ℕ) (row : Payment)
  | order (id : ℕ) (row : Order)

/-- Insert or replace a payment. -/
def writePayment (id : ℕ) (row : Payment) : Reserving Unit := sql fun v =>
  { result := (), writes := [⟨.payment id, some row⟩]
    entries := if (v.rows (.payment id)).isNone then [.payment id] else [] }

/-- Insert or replace an order. -/
def writeOrder (id : ℕ) (row : Order) : Reserving Unit := sql fun v =>
  { result := (), writes := [⟨.order id, some row⟩]
    entries := if (v.rows (.order id)).isNone then [.order id] else [] }

/-- Insert or replace a checkout. -/
def writeCheckout (id : ℕ) (row : CheckoutSession) : Reserving Unit := sql fun _ =>
  { result := (), writes := [⟨.checkout id, some row⟩] }

def ReservationStatement.run : ReservationStatement → Reserving (Except ReservationThrow Unit)
  | .claim args checkoutSessionId => do
    let claimed ← claimReservationForCheckout args checkoutSessionId
    return if claimed then .ok () else .error .notClaimable
  | .attach args => attachReservationToOrder args
  | .bindSettled args => do
    let bound ← bindSettledReservation args
    return bound.map fun _ => ()
  | .consume orderId serviceId name => do
    consumeReservationForOrder orderId serviceId name
    return .ok ()
  | .lock id => do
    lockReservationForSettlement id
    return .ok ()
  | .releaseForFailedOrder orderId checkoutSessionId => do
    releaseReservationForFailedOrder orderId checkoutSessionId
    return .ok ()
  | .checkout id row => do
    writeCheckout id row
    return .ok ()
  | .payment id row => do
    writePayment id row
    return .ok ()
  | .order id row => do
    writeOrder id row
    return .ok ()

/-- The statements of a transaction in order, up to one that throws. -/
def runStatements : List ReservationStatement → Reserving (Except ReservationThrow Unit)
  | [] => return .ok ()
  | x :: xs => do
    let result ← x.run
    match result with
    | .ok _ => runStatements xs
    | .error e => return .error e

inductive ReservationProcess
  | reserve (args : ReserveArgs)
  | transaction (statements : List ReservationStatement)
  | releaseHeld (userId : ℕ) (draftNonce : Option String) (reservationId : ℕ)
  | releaseDraft (userId : ℕ) (draftNonce : String)
  | release (reservationId : ℕ)
  | cleanup (now : ℕ)

def ReservationProcess.program : ReservationProcess → Reserving Unit
  | .reserve args => do let _ ← reserveServiceUsername args; return ()
  | .transaction statements => do
    let _ ← ReadCommitted.transaction (runStatements statements)
    return ()
  | .releaseHeld userId draftNonce id => releaseHeldReservationForDraft userId draftNonce id
  | .releaseDraft userId draftNonce => releaseHeldReservationsForDraft userId draftNonce
  | .release id => releaseReservation id
  | .cleanup now => do let _ ← runReservationCleanup now; return ()

end ZedBot.Reservations
