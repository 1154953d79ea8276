import ZedBot.Payments.CheckoutProcesses

/-! The calls of the payment operations, as the processes of one system. -/

namespace ZedBot
open ReadCommitted

/-- One call of a payment operation. -/
inductive PaymentCall
  | settleGatewayPayment (paymentId : ℕ)
  | approveReceiptPayment (paymentId adminId : ℕ)
  | rejectReceiptPayment (paymentId adminId : ℕ) (reason : String)
  | settleWalletOrder (args : WalletSettlementArgs)
  | materializePendingOtherProductCheckout (args : MaterializeArgs)
  | recordProviderOutcome (lookup : OutcomeLookup) (event : ProviderOutcomeEvent)
  | recordProviderSuccessFromBot (paymentId : ℕ) (transactionId : Option String)
  | recordDuplicateSuccess (input : DuplicateSuccessInput)
  | runGatewaySettlementSweep
  | adjustUserWallet (args : AdjustUserWalletArgs)
  | creditReferralCommissionForOrder (orderId : ℕ)
  | runClawbackStep (orderId now : ℕ)

/-- Run a program for its effect. -/
def discard {α : Type} (m : App α) : App Unit := do
  let _ ← m
  return ()

/-- The program of a call. -/
def PaymentCall.prog : PaymentCall → App Unit
  | settleGatewayPayment id => discard (ZedBot.settleGatewayPayment id)
  | approveReceiptPayment id adminId => discard (ZedBot.approveReceiptPayment id adminId)
  | rejectReceiptPayment id adminId reason =>
    discard (ZedBot.rejectReceiptPayment id adminId reason)
  | settleWalletOrder args => discard (ZedBot.settleWalletOrder args)
  | materializePendingOtherProductCheckout args =>
    discard (ZedBot.materializePendingOtherProductCheckout args)
  | recordProviderOutcome lookup event => discard (ZedBot.recordProviderOutcome lookup event)
  | recordProviderSuccessFromBot id charge => ZedBot.recordProviderSuccessFromBot id charge
  | recordDuplicateSuccess input => discard (ZedBot.recordDuplicateSuccess input)
  | runGatewaySettlementSweep => ZedBot.runGatewaySettlementSweep
  | adjustUserWallet args => discard (ZedBot.adjustUserWallet args)
  | creditReferralCommissionForOrder orderId =>
    discard (ZedBot.creditReferralCommissionForOrder orderId)
  | runClawbackStep orderId now => discard (ZedBot.runClawbackStep orderId now)

/-- The calls that write a checkout's status by its id alone. -/
def PaymentCall.demotes : PaymentCall → Bool
  | rejectReceiptPayment .. | materializePendingOtherProductCheckout .. => true
  | _ => false

/-- Any number of calls, each a process of its own. -/
def pool (calls : ℕ → Option PaymentCall) (p : ℕ) : App Unit :=
  match calls p with
  | some c => c.prog
  | none => return ()

/-- The processes of a pool that demote checkouts. -/
def demoters (calls : ℕ → Option PaymentCall) (p : ℕ) : Bool := (calls p).any (·.demotes)

theorem accepts_discard {D : Discipline Row Entry World} {p : ℕ} {α : Type} {m : App α}
    (h : Accepts D p m) : Accepts D p (discard m) := .bind h fun _ => .pure _

/-- A pool whose calls are all accepted starts well. -/
theorem good_pool {D : Discipline Row Entry World} {calls : ℕ → Option PaymentCall} {s : AppStore}
    (hi : D.Inv s) (h : ∀ p c, calls p = some c → Accepts D p c.prog) :
    Good D (Config.start s (pool calls)) := by
  refine good_start hi fun p => ?_
  unfold pool
  cases hc : calls p with
  | none => trivial
  | some c => exact wp_mono _ (fun _ _ _ _ => trivial) ((h p c hc).run [] s hi)

/-- The payment discipline accepts every call. -/
theorem money_accepts {dm : ℕ → Bool} {p : ℕ} (c : PaymentCall) (hd : c.demotes = true → dm p = true) :
    Accepts (money dm) p c.prog := by
  have P := moneyStatements dm p
  have R := cleanRules dm p
  cases c <;> simp only [PaymentCall.prog]
  case settleGatewayPayment id => exact accepts_discard (accepts_settleGatewayPayment id)
  case approveReceiptPayment id adminId => exact accepts_discard (accepts_approveReceiptPayment id adminId)
  case rejectReceiptPayment id adminId reason =>
    refine accepts_discard (accepts_rejectReceiptPayment id adminId reason fun checkout text now => ?_)
    exact accepts_rejectTransaction (hd rfl) id adminId checkout text now
  case settleWalletOrder args =>
    refine accepts_discard (accepts_settleWalletOrder args fun hvalid minutes now => ?_)
    exact accepts_walletTransactionBody hvalid minutes now
  case materializePendingOtherProductCheckout args =>
    exact accepts_discard (accepts_materialize (hd rfl) args)
  case recordProviderOutcome lookup event => exact accepts_discard (P.accepts_recordProviderOutcome lookup event)
  case recordProviderSuccessFromBot id charge => exact P.accepts_recordProviderSuccessFromBot id charge
  case recordDuplicateSuccess input => exact accepts_discard (P.file input)
  case runGatewaySettlementSweep =>
    exact accepts_runGatewaySettlementSweep accepts_settleGatewayPayment accepts_expireStalePayments
  case adjustUserWallet args => exact accepts_discard (R.accepts_adjustUserWallet args)
  case creditReferralCommissionForOrder orderId => exact accepts_discard (R.accepts_creditReferral orderId _)
  case runClawbackStep orderId now => exact accepts_discard (R.accepts_runClawbackStep orderId now)

theorem money_good {calls : ℕ → Option PaymentCall} {s : AppStore} (hi : MoneyInv s) :
    Good (money (demoters calls)) (Config.start s (pool calls)) :=
  good_pool hi fun p c hc => money_accepts c fun hd => by simp [demoters, hc, hd]

end ZedBot
