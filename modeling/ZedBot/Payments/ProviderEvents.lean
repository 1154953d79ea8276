import ZedBot.Schema

/-! Provider events: what the callback routes, the bot and the sweep record on a payment row.

    The never-downgrade rule of the recorder is a read before the transaction (`findUnique`), an
    unconditional `UPDATE` of `providerStatus` and a compare-and-set of the local status, each a
    statement of its own. -/

namespace ZedBot
open ReadCommitted

/-- `Payment.status` a recorded provider event moves a PENDING/PROCESSING row to. -/
def STATUS_TRANSITIONS : NormalizedPaymentStatus → Option PaymentStatus
  | .PENDING => none
  | .PROCESSING => some .PROCESSING
  | .SUCCESS => none
  | .FAILED => some .FAILED
  | .EXPIRED => some .EXPIRED
  | .CANCELLED => some .CANCELLED

/-- The lookup of the recorder: by id, or by the unique authority. -/
structure OutcomeLookup where
  paymentId : Option ℕ := none
  authority : Option String := none
  provider : PaymentGatewayType

structure ProviderOutcomeEvent where
  status : NormalizedPaymentStatus
  transactionId : Option String := none
  externalReference : Option String := none

/-- `threw` stands for an exception that leaves the function. -/
inductive RecordOutcome
  | recorded | ignored | notFound | threw
  deriving DecidableEq, Repr

/-- PENDING or PROCESSING: the local statuses that a compare-and-set may still move. -/
def isOpen (p : Payment) : Bool := p.status = .PENDING ∨ p.status = .PROCESSING

/-- `payment.findUnique` by id or by authority. -/
def findPaymentBy (lookup : OutcomeLookup) : App (Option (ℕ × Payment)) := select fun v =>
  match lookup.paymentId, lookup.authority with
  | some id, _ => (v.rows (.payment id)).map fun p => (id, p)
  | none, some a =>
    match v.rows (.paymentOfAuthority a) with
    | some id => (v.rows (.payment id)).map fun p => (id, p)
    | none => none
  | none, none => none

/-- The result of an unconditional `payment.update` under the unique index on
    (provider, externalTransactionId). -/
inductive UpdateResult
  | updated
  | uniqueViolation
  | recordNotFound
  deriving DecidableEq, Repr

/-- `payment.update` with a change of the external transaction id: refused when another row holds
    the id for the same provider. -/
def updatePaymentCharge (id : ℕ) (transactionId : Option String) (data : Payment → Payment) :
    App UpdateResult := sql fun v =>
  match v.rows (.payment id) with
  | none => { result := .recordNotFound }
  | some p =>
    match transactionId with
    | none => { result := .updated, writes := [⟨.payment id, some (data p)⟩] }
    | some x =>
      match v.rows (.paymentOfCharge p.provider x) with
      | none =>
        { result := .updated,
          writes := [⟨.payment id, some { data p with externalTransactionId := some x }⟩,
            ⟨.paymentOfCharge p.provider x, some id⟩] }
      | some other =>
        if other = id then
          { result := .updated,
            writes := [⟨.payment id, some { data p with externalTransactionId := some x }⟩] }
        else { result := .uniqueViolation }

/-- The data of the recorder's unconditional update, given its own earlier read `seen`: the provider
    status is overwritten, `verifiedAt` is set on the first SUCCESS, the payload is replaced. -/
def outcomeData (seen : Payment) (event : ProviderOutcomeEvent) (now : ℕ) (p : Payment) : Payment :=
  { p with
    providerStatus := some event.status
    payloadFingerprint := none
    verifiedAt := if event.status = .SUCCESS ∧ seen.verifiedAt = none then some now else p.verifiedAt
    externalReference :=
      if seen.externalReference = none ∧ event.externalReference ≠ none then event.externalReference
      else p.externalReference }

/-- `expiresAt` has passed. -/
def isExpired (p : Payment) (now : ℕ) : Bool :=
  match p.expiresAt with
  | some e => e < now
  | none => false

/-- Records one verified provider event on its payment row. -/
def recordProviderOutcome (lookup : OutcomeLookup) (event : ProviderOutcomeEvent) :
    App RecordOutcome := do
  let some (id, payment) ← findPaymentBy lookup | return .notFound
  if payment.provider ≠ some lookup.provider then
    return .notFound
  if payment.providerStatus = some .SUCCESS ∧ event.status ≠ .SUCCESS then
    return .ignored
  let now ← now
  let result ← updatePaymentCharge id event.transactionId (outcomeData payment event now)
  if result = .uniqueViolation then
    return .ignored
  if result = .recordNotFound then
    return .threw
  match STATUS_TRANSITIONS event.status with
  | none => return .recorded
  | some next =>
    if isExpired payment now then
      return .recorded
    let _ ← updatePayment id isOpen fun p => { p with status := next }
    return .recorded

/-- The data of the bot's unconditional update: the payload is merged over the one it read. -/
def successData (seen : Payment) (now : ℕ) (p : Payment) : Payment :=
  { p with
    providerStatus := some .SUCCESS
    payloadFingerprint := seen.payloadFingerprint
    verifiedAt := if seen.verifiedAt = none then some now else p.verifiedAt }

/-- Records a provider SUCCESS observed by the bot. -/
def recordProviderSuccessFromBot (paymentId : ℕ) (transactionId : Option String) : App Unit := do
  let some payment ← findPayment paymentId | return ()
  let now ← now
  let charge := transactionId.filter (· ≠ "")
  let result ← updatePaymentCharge paymentId charge (successData payment now)
  if result ≠ .updated then
    return ()
  if isExpired payment now then
    return ()
  let _ ← updatePayment paymentId isOpen fun p => { p with status := .PROCESSING }
  return ()

/-! ### The sweep's expiry -/

/-- The online providers (`ONLINE_PROVIDER_TYPES`). -/
def isOnlineProvider : Option PaymentGatewayType → Bool
  | some .ZARINPAL | some .NOWPAYMENTS | some .TELEGRAM_STARS => true
  | _ => false

/-- `STALE_PENDING_GRACE_MS`. -/
def STALE_PENDING_GRACE_MS : ℕ := 30 * 60000

/-- A pending gateway payment without a provider event, past its expiry and the grace. -/
def isStalePending (p : Payment) (now : ℕ) : Bool :=
  isOnlineProvider p.provider ∧ p.status = .PENDING ∧ p.providerStatus = none ∧
    isExpired p (now - STALE_PENDING_GRACE_MS)

/-- The sweep's expiry: one `UPDATE` over all payments; `ids` are the rows the scan visits. -/
def expireStalePayments (ids : List ℕ) : App ℕ := do
  let now ← now
  sql fun v =>
    let hit := ids.filterMap fun id =>
      match v.rows (.payment id) with
      | some p => if isStalePending p now then some (id, p) else none
      | none => none
    { result := hit.length
      writes := hit.map fun x => ⟨.payment x.1, some { x.2 with status := .EXPIRED }⟩ }

end ZedBot
