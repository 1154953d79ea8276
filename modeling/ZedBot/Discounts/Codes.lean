import ZedBot.ReadCommitted.RowLocks
import ZedBot.Schema

/-! Discount codes and their consumption in payment transactions.

    A usage row is appended when a payment consumes a code; the unique `checkoutSessionId` of a usage
    is an index entry. The statements of a payment before and after the claim touch other tables:
    they end the transaction or let it go on. -/

namespace ZedBot.Discounts
open ReadCommitted

structure DiscountCode where
  isActive : Bool := true
  startsAt : Option ℕ := none
  expiresAt : Option ℕ := none
  totalUsageLimit : Option ℕ := none
  totalUsedCount : ℕ := 0
  perUserUsageLimit : Option ℕ := none
  deriving DecidableEq, Repr

structure DiscountCodeUsage where
  discountCodeId : ℕ
  userId : ℕ
  orderId : ℕ
  checkoutSessionId : ℕ
  amountToman : ℤ
  deriving DecidableEq, Repr

inductive DiscountKey
  | code (id : ℕ)
  | usageOfCheckout (checkoutSessionId : ℕ)
  deriving DecidableEq

/-- The row type of a key. -/
@[reducible] def DiscountRow : DiscountKey → Type
  | .code _ => Option DiscountCode
  | .usageOfCheckout _ => Option DiscountCodeUsage

/-- What the oracle answers: the clock, a fresh id, and how the statements around a claim end. -/
structure DiscountChoice where
  now : ℕ := 0
  id : ℕ := 0
  flag : Bool := true
  deriving DecidableEq, Repr

/-- A program of the payments, seen from the discount tables; the journal is the usage table. -/
abbrev Payments := Prog DiscountRow DiscountCodeUsage Unit DiscountChoice

abbrev DiscountStore := Store DiscountRow DiscountCodeUsage Unit
abbrev DiscountTx := Tx DiscountRow DiscountCodeUsage
abbrev DiscountConfig := Config DiscountRow DiscountCodeUsage Unit DiscountChoice

/-- The usages of a code. -/
def usagesOf (codeId : ℕ) (usages : List DiscountCodeUsage) : ℕ :=
  usages.countP fun u => u.discountCodeId = codeId

/-- The usages of a code by one user. -/
def usagesBy (codeId userId : ℕ) (usages : List DiscountCodeUsage) : ℕ :=
  usages.countP fun u => u.discountCodeId = codeId ∧ u.userId = userId

/-! ### The claim -/

structure DiscountClaimArgs where
  discountCodeId : ℕ
  userId : ℕ
  orderId : ℕ
  checkoutSessionId : ℕ
  amountToman : ℤ
  deriving DecidableEq, Repr

inductive DiscountClaimOutcome
  | ok (alreadyClaimed : Bool)
  | claimFailed
  deriving DecidableEq, Repr

/-- What ends a payment transaction. -/
inductive PaymentThrow
  | abort
  | p2002
  deriving DecidableEq, Repr

/-- The usage row of a claim. -/
def DiscountClaimArgs.usage (args : DiscountClaimArgs) : DiscountCodeUsage where
  discountCodeId := args.discountCodeId
  userId := args.userId
  orderId := args.orderId
  checkoutSessionId := args.checkoutSessionId
  amountToman := args.amountToman

/-- The code may be consumed now: active, inside its window, below its total limit. -/
def isClaimable (now : ℕ) (code : DiscountCode) : Bool :=
  code.isActive ∧ (∀ t ∈ code.startsAt, t ≤ now) ∧ (∀ t ∈ code.expiresAt, now < t) ∧
    ∀ limit ∈ code.totalUsageLimit, code.totalUsedCount < limit

def findUsageOfCheckout (checkoutSessionId : ℕ) : Payments (Option DiscountCodeUsage) :=
  select fun v => v.rows (.usageOfCheckout checkoutSessionId)

/-- `SELECT … FOR NO KEY UPDATE` on the code. -/
def lockCode (id : ℕ) : Payments (Option DiscountCode) :=
  selectForUpdate (DiscountKey.code id) (Option.isSome : Option DiscountCode → Bool)

/-- `discountCodeUsage.create`; `false` is P2002 on the unique checkout. -/
def createUsage (u : DiscountCodeUsage) : Payments Bool := sql fun v =>
  match v.rows (.usageOfCheckout u.checkoutSessionId) with
  | some _ => { result := false }
  | none =>
    { result := true
      writes := [⟨.usageOfCheckout u.checkoutSessionId, some u⟩]
      entries := [u] }

/-- The usage row and the guarded increment. -/
def consumeCode (args : DiscountClaimArgs) : Payments (Except PaymentThrow DiscountClaimOutcome) := do
  let created ← createUsage args.usage
  if ¬ created then
    return .error .p2002
  let bumped ← update (.code args.discountCodeId) (onRow (·.isActive) fun c : DiscountCode =>
    { c with totalUsedCount := c.totalUsedCount + 1 })
  if bumped ≠ 1 then
    return .ok .claimFailed
  return .ok (.ok false)

/-- Claims one discount usage inside the caller's payment transaction. -/
def claimDiscountUsage (args : DiscountClaimArgs) :
    Payments (Except PaymentThrow DiscountClaimOutcome) := do
  let existing ← findUsageOfCheckout args.checkoutSessionId
  if existing ≠ none then
    return .ok (.ok true)
  let locked ← lockCode args.discountCodeId
  let now ← ask (·.now)
  match locked with
  | none => return .ok .claimFailed
  | some code =>
    if ¬ isClaimable now code then
      return .ok .claimFailed
    match code.perUserUsageLimit with
    | none => consumeCode args
    | some limit =>
      let used ← select fun v => usagesBy args.discountCodeId args.userId v.journal
      if limit ≤ used then
        return .ok .claimFailed
      consumeCode args

/-! ### The payments -/

/-- A settled checkout, as far as its discount goes. -/
structure DiscountedCheckout where
  id : ℕ
  userId : ℕ
  discountCodeId : Option ℕ
  discountAmountToman : ℤ
  deriving DecidableEq, Repr

/-- The three settlements that claim a discount. -/
inductive PaymentPath
  | wallet | receipt | gateway
  deriving DecidableEq, Repr

/-- A failed claim aborts a wallet payment and a receipt approval; a gateway settlement keeps the
    money that was paid outside and flags the order. -/
def PaymentPath.abortsOnFailedClaim : PaymentPath → Bool
  | .wallet | .receipt => true
  | .gateway => false

/-- The claim of a settlement, where its checkout has a discount. -/
def finalizeDiscount (path : PaymentPath) (checkout : DiscountedCheckout) (orderId : ℕ) :
    Payments (Except PaymentThrow Unit) :=
  match checkout.discountCodeId with
  | none => return .ok ()
  | some codeId =>
    if checkout.discountAmountToman ≤ 0 then
      return .ok ()
    else do
      let claim ← claimDiscountUsage
        { discountCodeId := codeId
          userId := checkout.userId
          orderId := orderId
          checkoutSessionId := checkout.id
          amountToman := checkout.discountAmountToman }
      match claim with
      | .error e => return .error e
      | .ok .claimFailed => if path.abortsOnFailedClaim then return .error .abort else return .ok ()
      | .ok (.ok _) => return .ok ()

/-- One payment transaction. -/
def paymentTransaction (path : PaymentPath) (checkout : DiscountedCheckout) :
    Payments (Except PaymentThrow Unit) := transaction do
  let proceeds ← ask (·.flag)
  if ¬ proceeds then
    return .error .abort
  let orderId ← ask (·.id)
  let finalized ← finalizeDiscount path checkout orderId
  if let .error e := finalized then
    return .error e
  let proceeds ← ask (·.flag)
  if ¬ proceeds then
    return .error .abort
  return .ok ()

/-- Any number of payments, one after the other; retries are further payments. -/
def payments (calls : List (PaymentPath × DiscountedCheckout)) : Payments Unit :=
  forEach (fun c => do
    let _ ← paymentTransaction c.1 c.2
    return ()) calls

end ZedBot.Discounts
