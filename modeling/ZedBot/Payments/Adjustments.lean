import ZedBot.Payments.WalletOrders

/-! The other writers of a wallet balance: manual adjustments by an admin, referral commissions and
    their clawback. -/

namespace ZedBot
open ReadCommitted

/-! ### Manual adjustments -/

def MAX_MANUAL_ADJUST_TOMAN : ℤ := 100000000
def REASON_MIN_LENGTH : ℕ := 3
def REASON_MAX_LENGTH : ℕ := 500

def TARGET_NOT_FOUND_TEXT := "کاربر یافت نشد."
def INSUFFICIENT_USER_BALANCE_TEXT := "موجودی کاربر نمی‌تواند منفی شود."
def ADJUST_FAILED_TEXT := "ثبت تغییر موجودی با خطا مواجه شد. لطفاً دوباره تلاش کنید."
def INVALID_AMOUNT_TEXT := "مبلغ نامعتبر است."
def INVALID_REASON_TEXT := "دلیل باید بین 3 تا 500 کاراکتر باشد."

inductive WalletAdjustAction
  | INCREASE | DECREASE
  deriving DecidableEq, Repr

structure AdjustUserWalletArgs where
  targetUserId : ℕ
  adminId : ℕ
  action : WalletAdjustAction
  amountToman : ℤ
  reason : String

inductive AdjustUserWalletOutcome
  | ok (user : User) (walletTransaction : WalletTransaction)
  | fail (safeMessage : String)
  deriving DecidableEq, Repr

/-- Amount must be a positive safe integer within the manual-adjust cap. -/
def isValidAdjustAmount (amountToman : ℤ) : Bool :=
  isSafeInteger amountToman ∧ 0 < amountToman ∧ amountToman ≤ MAX_MANUAL_ADJUST_TOMAN

/-- Reason is mandatory: trimmed free text, 3..500 characters. -/
def normalizeAdjustReason (raw : String) : Option String :=
  let reason := jsTrim raw
  if REASON_MIN_LENGTH ≤ jsLength reason ∧ jsLength reason ≤ REASON_MAX_LENGTH then some reason
  else none

/-- The balance change of an adjustment: an increment, or a decrement conditional on the balance. -/
def applyAdjustment (args : AdjustUserWalletArgs) : App (Except String User) := do
  match args.action with
  | .INCREASE =>
    let applied ← updateUser args.targetUserId (fun _ => true) fun u =>
      { u with
        balanceToman := u.balanceToman + args.amountToman
        totalManualAddedToman := u.totalManualAddedToman + args.amountToman }
    if applied ≠ 1 then
      return .error TARGET_NOT_FOUND_TEXT
    let updated ← findUser args.targetUserId
    match updated with
    | some u => return .ok u
    | none => return .error ADJUST_FAILED_TEXT
  | .DECREASE =>
    let applied ← updateUser args.targetUserId (fun u => args.amountToman ≤ u.balanceToman) fun u =>
      { u with
        balanceToman := u.balanceToman - args.amountToman
        totalManualDeductedToman := u.totalManualDeductedToman + args.amountToman }
    if applied ≠ 1 then
      let exists? ← findUser args.targetUserId
      return .error (if exists? = none then TARGET_NOT_FOUND_TEXT
        else INSUFFICIENT_USER_BALANCE_TEXT)
    let updated ← findUser args.targetUserId
    match updated with
    | some u => return .ok u
    | none => return .error ADJUST_FAILED_TEXT

/-- The ledger row of an adjustment that left balance `balanceAfter`. -/
def adjustmentRow (args : AdjustUserWalletArgs) (reason : String) (balanceAfter : ℤ) :
    WalletTransaction where
  userId := args.targetUserId
  amountToman := args.amountToman
  type := if args.action = .INCREASE then .MANUAL_ADD else .MANUAL_DEDUCT
  source := .ADMIN
  reason := .text reason
  adminId := some args.adminId
  balanceBeforeToman :=
    if args.action = .INCREASE then balanceAfter - args.amountToman
    else balanceAfter + args.amountToman
  balanceAfterToman := balanceAfter

/-- Applies one manual adjustment atomically. -/
def adjustUserWallet (args : AdjustUserWalletArgs) : App AdjustUserWalletOutcome := do
  if ¬ isValidAdjustAmount args.amountToman then
    return .fail INVALID_AMOUNT_TEXT
  let some reason := normalizeAdjustReason args.reason | return .fail INVALID_REASON_TEXT
  let result ← transaction do
    let applied ← applyAdjustment args
    match applied with
    | .error e => return .error e
    | .ok updated =>
      let row := adjustmentRow args reason updated.balanceToman
      createWalletTransaction row
      return .ok (updated, row)
  match result with
  | .ok (user, row) => return .ok user row
  | .error e => return .fail e

/-! ### Referral commissions -/

structure ReferralCommissionDecision where
  eligible : Bool
  commissionToman : ℤ
  percent : ℤ

/-- Resolves the referral commission for one qualifying order; the amount is floored. -/
def resolveReferralCommission (orderAmountToman : ℤ) (config : ReferralConfig) :
    ReferralCommissionDecision :=
  let percent := config.commissionPercent
  if orderAmountToman ≤ 0 then ⟨false, 0, percent⟩
  else if orderAmountToman < config.minPurchaseToman then ⟨false, 0, percent⟩
  else if percent ≤ 0 then ⟨false, 0, percent⟩
  else
    let commissionToman := orderAmountToman * percent / 100
    if commissionToman ≤ 0 then ⟨false, 0, percent⟩
    else ⟨true, commissionToman, percent⟩

/-- An eligible commission is positive. -/
theorem commission_pos {amount : ℤ} {config : ReferralConfig}
    (h : (resolveReferralCommission amount config).eligible = true) :
    0 < (resolveReferralCommission amount config).commissionToman := by
  unfold resolveReferralCommission at h ⊢
  simp only at h ⊢
  split at h
  · cases h
  split at h
  · cases h
  split at h
  · cases h
  split at h
  · cases h
  rename_i h1 h2 h3 h4
  simp only [if_neg h1, if_neg h2, if_neg h3, if_neg h4]
  omega

inductive ReferralCreditResult
  | credited (commissionToman : ℤ)
  | alreadyCredited
  | disabled | beforeHorizon | orderMissing | notCompleted | noReferrer | notEligible | selfReferral
  | representativeExcluded
  | threw
  deriving DecidableEq, Repr

/-- Commission statuses that consume a referral's "first purchase" slot. -/
def consumesFirstPurchase : ReferralCommissionStatus → Bool
  | .PENDING | .PAID | .REVERSAL_PENDING | .REVERSED => true
  | .CANCELLED => false

/-- The ids of the inserted commissions. -/
def commissionIds (journal : List Entry) : List ℕ :=
  journal.filterMap fun
    | .commission orderId => some orderId
    | .wallet _ | .draft _ | .openPayment _ => none

/-- `referralCommission.create`; the unique `orderId` is its key, `false` is P2002. -/
def createCommission (orderId : ℕ) (c : ReferralCommission) : App Bool := sql fun v =>
  match v.rows (.commission orderId) with
  | some _ => { result := false }
  | none =>
    { result := true
      writes := [⟨.commission orderId, some c⟩]
      entries := [.commission orderId] }

/-- The commissions of a referral for other orders that consume its first purchase, counted. -/
def priorCommissions (v : AppView) (referredUserId orderId : ℕ) : ℕ :=
  (commissionIds v.journal).countP fun id =>
    match v.rows (.commission id) with
    | some c => id ≠ orderId ∧ c.referredUserId = referredUserId ∧ consumesFirstPurchase c.status
    | none => false

/-- Records a terminal CANCELLED commission that claims the order's unique id; P2002 is ignored. -/
def recordNoCommissionMarker (orderId : ℕ) (referral : Referral) (referredUserId : ℕ)
    (percent : ℤ) : App Unit := do
  let _ ← createCommission orderId
    { referredUserId := referredUserId
      referrerUserId := referral.referrerUserId
      amountToman := 0
      percent := percent
      status := .CANCELLED }
  return ()

/-- `SELECT … FOR UPDATE` on one row. -/
def lockReferral (referredUserId : ℕ) : App ℕ :=
  update (.referral referredUserId) (onRow (fun _ => true) id)

/-- What the credit transaction throws. -/
inductive CreditThrow
  | p2002 | crash
  deriving DecidableEq, Repr

/-- Credit the referrer and write the ledger row from the balance the increment left. -/
def creditReferrer (orderId referrerUserId : ℕ) (commissionToman finalPriceToman : ℤ) :
    App (Except CreditThrow Unit) := do
  let credited ← updateUser referrerUserId (fun _ => true) fun u =>
    { u with
      balanceToman := u.balanceToman + commissionToman
      totalReferralCommissionToman := u.totalReferralCommissionToman + commissionToman
      totalReferralPurchaseCount := u.totalReferralPurchaseCount + 1
      totalReferralPurchaseAmountToman := u.totalReferralPurchaseAmountToman + finalPriceToman }
  if credited = 0 then
    return .error .crash
  let balance ← balanceOf referrerUserId
  match balance with
  | none => return .error .crash
  | some balanceAfter =>
    createWalletTransaction
      { userId := referrerUserId
        amountToman := commissionToman
        type := .COMMISSION
        source := .REFERRAL
        reason := .text "پاداش زیرمجموعه‌گیری"
        relatedOrderId := some orderId
        balanceBeforeToman := balanceAfter - commissionToman
        balanceAfterToman := balanceAfter }
    return .ok ()

/-- A later purchase is marked, claiming the order's unique id. -/
def markNotFirst (orderId : ℕ) (order : Order) (referral : Referral) (percent : ℤ) :
    App (Except CreditThrow ReferralCreditResult) := do
  let marked ← createCommission orderId
    { referredUserId := order.userId
      referrerUserId := referral.referrerUserId
      amountToman := 0
      percent := percent
      status := .CANCELLED }
  if ¬ marked then
    return .error .p2002
  return .ok .notEligible

/-- The commission of an order, before any money moves. -/
def paidCommission (order : Order) (referral : Referral) (decision : ReferralCommissionDecision)
    (now : ℕ) : ReferralCommission where
  referredUserId := order.userId
  referrerUserId := referral.referrerUserId
  amountToman := decision.commissionToman
  percent := decision.percent
  status := .PAID
  paidAt := some now

/-- The counters of a referral after a credit. -/
def countCredit (orderId : ℕ) (order : Order) (referral : Referral)
    (decision : ReferralCommissionDecision) (now : ℕ) (r : Referral) : Referral :=
  { r with
    totalPurchaseAmountToman := r.totalPurchaseAmountToman + order.finalPriceToman
    totalCommissionAmountToman := r.totalCommissionAmountToman + decision.commissionToman
    firstPurchaseAt := referral.firstPurchaseAt.getD now
    firstPurchaseOrderId := referral.firstPurchaseOrderId.getD orderId }

/-- The commission, the credit of the referrer and the counters of the referral. -/
def payCommission (orderId : ℕ) (order : Order) (referral : Referral)
    (decision : ReferralCommissionDecision) (now : ℕ) :
    App (Except CreditThrow ReferralCreditResult) := do
  let created ← createCommission orderId (paidCommission order referral decision now)
  if ¬ created then
    return .error .p2002
  let credited ← creditReferrer orderId referral.referrerUserId decision.commissionToman
    order.finalPriceToman
  if let .error e := credited then
    return .error e
  let counted ← update (.referral order.userId)
    (onRow (fun _ => true) (countCredit orderId order referral decision now))
  if counted = 0 then
    return .error .crash
  return .ok (.credited decision.commissionToman)

/-- The credit transaction, under the lock of the referral row. -/
def creditTransaction (orderId : ℕ) (order : Order) (referral : Referral)
    (decision : ReferralCommissionDecision) (firstPurchaseOnly : Bool) (now : ℕ) :
    App (Except CreditThrow ReferralCreditResult) := transaction do
  let _ ← lockReferral order.userId
  if firstPurchaseOnly then
    let prior ← select fun v => priorCommissions v order.userId orderId
    if 0 < prior then
      markNotFirst orderId order referral decision.percent
    else
      payCommission orderId order referral decision now
  else
    payCommission orderId order referral decision now

/-- Credits the referrer of an order's buyer when the order is completed, enabled and inside a
    payout window; `settings`, `isEnabled` and `isWithin` are what the settings table answers. -/
def creditReferralCommissionForOrder (orderId : ℕ)
    (settings : Choice → ReferralConfig := (·.referralConfig)) (isEnabled : Choice → Bool := (·.flag))
    (isWithin : Option ℕ → Choice → Bool := fun _ => (·.flag)) : App ReferralCreditResult := do
  let enabled ← ask isEnabled
  if ¬ enabled then
    return .disabled
  let some order ← findOrder orderId | return .orderMissing
  if order.status ≠ .COMPLETED ∨ order.completedAt = none then
    return .notCompleted
  let within ← ask (isWithin order.completedAt)
  if ¬ within then
    return .beforeHorizon
  let found ← select fun v => v.rows (.referral order.userId)
  let some referral := found | return .noReferrer
  if referral.referrerUserId = order.userId then
    recordNoCommissionMarker orderId referral order.userId 0
    return .selfReferral
  let representative ← external
  if representative then
    recordNoCommissionMarker orderId referral order.userId 0
    return .representativeExcluded
  let config ← ask settings
  let decision := resolveReferralCommission order.finalPriceToman config
  if ¬ decision.eligible then
    recordNoCommissionMarker orderId referral order.userId decision.percent
    return .notEligible
  let now ← now
  let result ← creditTransaction orderId order referral decision config.firstPurchaseOnly now
  match result with
  | .ok outcome => return outcome
  | .error .p2002 => return .alreadyCredited
  | .error .crash => return .threw

/-! ### Clawback -/

structure ReferralClawbackPlan where
  recoverNow : ℤ
  remainingOutstanding : ℤ
  fullyRecovered : Bool

/-- Decides how much of an outstanding referral debt to claw back without driving the wallet below
    zero, unless the user is allowed a negative balance. -/
def planReferralClawback (outstandingToman currentBalanceToman : ℤ) (allowNegativeBalance : Bool) :
    ReferralClawbackPlan :=
  let outstanding := max 0 outstandingToman
  let recoverNow :=
    if allowNegativeBalance then outstanding else min outstanding (max 0 currentBalanceToman)
  let remainingOutstanding := outstanding - recoverNow
  { recoverNow := recoverNow
    remainingOutstanding := remainingOutstanding
    fullyRecovered := remainingOutstanding = 0 }

/-- The plan never takes more than the debt, nor more than the balance of a user who may not be
    overdrawn. -/
theorem planReferralClawback_affordable {outstanding balance : ℤ} {neg : Bool}
    (hneg : neg = false) (hb : 0 ≤ balance) :
    (planReferralClawback outstanding balance neg).recoverNow ≤ balance := by
  subst hneg
  simp only [planReferralClawback, Bool.false_eq_true, if_false]
  omega

inductive ClawbackStatus
  | reversed | reversalPending | noOp
  deriving DecidableEq, Repr

structure ClawbackOutcome where
  status : ClawbackStatus
  recoveredToman : ℤ
  outstandingToman : ℤ
  deriving DecidableEq, Repr

/-- The debt of an actionable commission. -/
def outstandingOf (c : ReferralCommission) : Option ℤ :=
  match c.status with
  | .PAID => some c.amountToman
  | .REVERSAL_PENDING => some c.recoveryOutstandingToman
  | _ => none

/-- Debit the referrer by the planned amount and write the ledger row. -/
def debitReferrer (orderId referrerUserId : ℕ) (recoverNow : ℤ) : App (Except CreditThrow Unit) := do
  let debited ← updateUser referrerUserId (fun _ => true) fun u =>
    { u with
      balanceToman := u.balanceToman - recoverNow
      totalReferralCommissionToman := u.totalReferralCommissionToman - recoverNow }
  if debited = 0 then
    return .error .crash
  let balance ← balanceOf referrerUserId
  match balance with
  | none => return .error .crash
  | some balanceAfter =>
    createWalletTransaction
      { userId := referrerUserId
        amountToman := recoverNow
        type := .SYSTEM_ADJUSTMENT
        source := .REFERRAL
        reason := .text "بازگردانی پاداش زیرمجموعه‌گیری"
        relatedOrderId := some orderId
        balanceBeforeToman := balanceAfter + recoverNow
        balanceAfterToman := balanceAfter }
    return .ok ()

/-- The debit of a positive plan, with the counters of the referral and the commission. -/
def recoverDebt (orderId : ℕ) (commission : ReferralCommission) (plan : ReferralClawbackPlan)
    (now : ℕ) : App (Except CreditThrow Unit) := do
  let debited ← debitReferrer orderId commission.referrerUserId plan.recoverNow
  if let .error e := debited then
    return .error e
  let counted ← update (.referral commission.referredUserId)
    (onRow (fun _ => true) fun r : Referral =>
      { r with totalCommissionAmountToman := r.totalCommissionAmountToman - plan.recoverNow })
  if counted = 0 then
    return .error .crash
  let updated ← update (.commission orderId) (onRow (fun _ => true) fun c : ReferralCommission =>
    { c with
      recoveredToman := c.recoveredToman + plan.recoverNow
      recoveryOutstandingToman := plan.remainingOutstanding
      status := if plan.fullyRecovered then .REVERSED else .REVERSAL_PENDING
      reversedAt := if plan.fullyRecovered then some now else commission.reversedAt
      reversalRequestedAt := commission.reversalRequestedAt.getD now })
  if updated = 0 then
    return .error .crash
  return .ok ()

/-- Nothing recoverable right now: record the debt without a wallet debit. -/
def recordDebt (orderId : ℕ) (commission : ReferralCommission) (outstanding : ℤ) (now : ℕ) :
    App (Except CreditThrow Unit) := do
  let updated ← update (.commission orderId) (onRow (fun _ => true) fun c : ReferralCommission =>
    { c with
      recoveryOutstandingToman := outstanding
      status := .REVERSAL_PENDING
      reversalRequestedAt := commission.reversalRequestedAt.getD now })
  if updated = 0 then
    return .error .crash
  return .ok ()

/-- Nothing to do. -/
def noOpOutcome : ClawbackOutcome := ⟨.noOp, 0, 0⟩

/-- One row-locked clawback step on the commission of an order. -/
def runClawbackStep (orderId now : ℕ) : App (Except CreditThrow ClawbackOutcome) := transaction do
  let _ ← update (.commission orderId)
    (onRow (fun _ => true) (id : ReferralCommission → ReferralCommission))
  let found ← select fun v => v.rows (.commission orderId)
  let some commission := found | return .ok noOpOutcome
  let _ ← lockReferral commission.referredUserId
  let some outstanding := outstandingOf commission | return .ok noOpOutcome
  let _ ← updateUser commission.referrerUserId (fun _ => true) id
  let locked ← findUser commission.referrerUserId
  let plan := planReferralClawback outstanding ((locked.map (·.balanceToman)).getD 0)
    ((locked.map (·.allowNegativeBalance)).getD false)
  let done ← if 0 < plan.recoverNow then recoverDebt orderId commission plan now
    else recordDebt orderId commission outstanding now
  match done with
  | .error e => return .error e
  | .ok () =>
    return .ok ⟨if plan.fullyRecovered then .reversed else .reversalPending, plan.recoverNow,
      plan.remainingOutstanding⟩

inductive ReferralReverseResult
  | reversed (commissionToman : ℤ)
  | reversalPending (recoveredToman outstandingToman : ℤ)
  | alreadyReversed | notPaid | noCommission | noOp
  | threw
  deriving DecidableEq, Repr

def findCommission (orderId : ℕ) : App (Option ReferralCommission) :=
  select fun v => v.rows (.commission orderId)

/-- Reverses the commission of a refunded or cancelled order. -/
def reverseReferralCommissionForOrder (orderId : ℕ) : App ReferralReverseResult := do
  let now ← now
  let some commission ← findCommission orderId | return .noCommission
  if commission.status = .REVERSED then
    return .alreadyReversed
  if commission.status ≠ .PAID ∧ commission.status ≠ .REVERSAL_PENDING then
    return .notPaid
  let step ← runClawbackStep orderId now
  match step with
  | .error _ => return .threw
  | .ok step =>
    if step.status = .noOp then
      let fresh ← findCommission orderId
      return if fresh.map (·.status) = some .REVERSED then .alreadyReversed else .noOp
    if step.status = .reversed then
      return .reversed step.recoveredToman
    return .reversalPending step.recoveredToman step.outstandingToman

inductive ReferralRecoverResult
  | reversed (recoveredToman : ℤ)
  | reversalPending (recoveredToman outstandingToman : ℤ)
  | noCommission | notPending | noOp
  | threw
  deriving DecidableEq, Repr

/-- Retries the recovery of one outstanding debt. -/
def recoverReferralCommissionDebt (orderId : ℕ) : App ReferralRecoverResult := do
  let now ← now
  let some commission ← findCommission orderId | return .noCommission
  if commission.status ≠ .REVERSAL_PENDING then
    return .notPending
  let step ← runClawbackStep orderId now
  match step with
  | .error _ => return .threw
  | .ok step =>
    if step.status = .noOp then
      return .noOp
    if step.status = .reversed then
      return .reversed step.recoveredToman
    return .reversalPending step.recoveredToman step.outstandingToman

end ZedBot
