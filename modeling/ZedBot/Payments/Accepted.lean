import ZedBot.Payments.Rules

/-! Programs that compose others: any discipline that accepts the statements on payments outside
    transactions, and the transactions, accepts the programs built from them. -/

namespace ZedBot
open ReadCommitted

variable {D : Discipline Row Entry World} {p : ℕ}

/-! ### Programs that only read -/

theorem accepts_alreadyOutcome (payment : Payment) :
    Accepts D p (alreadyOutcome payment) := by
  unfold alreadyOutcome
  split
  · exact .pure _
  split
  · exact .bind (.select _) fun _ => .pure _
  · exact .bind (.select _) fun _ => .pure _
  · exact .pure _

theorem accepts_loadExistingSettlement (key : IdempotencyKey) :
    Accepts D p (loadExistingSettlement key) := by
  refine .bind (.select _) fun found => ?_
  split
  case h_2 => exact .pure _
  split
  case h_2 => exact .pure _
  split
  case h_2 => exact .pure _
  refine .bind (.select _) fun _ => .bind (.select _) fun _ => .bind (.select _) fun _ => ?_
  split <;> exact .pure _

/-! ### Programs that write payments outside a transaction -/

/-- `D` accepts the statements on payments that stand outside a transaction, and the filing of
    duplicate successes. -/
structure PaymentStatements (D : Discipline Row Entry World) (p : ℕ) : Prop where
  charge : ∀ {id charge} {data : Payment → Payment}, (∀ o : Payment, o.SameState (data o)) →
    Accepts D p (updatePaymentCharge id charge data)
  move : ∀ {id next}, next = .PROCESSING ∨ next = .FAILED ∨ next = .EXPIRED ∨ next = .CANCELLED →
    Accepts D p (updatePayment id isOpen fun o => { o with status := next })
  file : ∀ input, Accepts D p (recordDuplicateSuccess input)

/-- A recorded event moves an open payment at most to PROCESSING, FAILED, EXPIRED or CANCELLED. -/
theorem STATUS_TRANSITIONS_closed {st : NormalizedPaymentStatus} {next : PaymentStatus}
    (h : STATUS_TRANSITIONS st = some next) :
    next = .PROCESSING ∨ next = .FAILED ∨ next = .EXPIRED ∨ next = .CANCELLED := by
  cases st <;> cases h <;> simp

namespace PaymentStatements

variable (P : PaymentStatements D p)
include P

theorem accepts_recordProviderOutcome (lookup : OutcomeLookup) (event : ProviderOutcomeEvent) :
    Accepts D p (recordProviderOutcome lookup event) := by
  refine .bind (.select _) fun found => ?_
  split
  case h_2 => exact .pure _
  split
  · exact .pure _
  split
  · exact .pure _
  refine .bind (.ask _) fun now => ?_
  refine .bind (P.charge fun o => ⟨rfl, rfl, rfl⟩) fun result => ?_
  split
  · exact .pure _
  split
  · exact .pure _
  split
  · exact .pure _
  rename_i next hnext
  split
  · exact .pure _
  exact .bind (P.move (STATUS_TRANSITIONS_closed hnext)) fun _ => .pure _

theorem accepts_recordProviderSuccessFromBot (id : ℕ) (charge : Option String) :
    Accepts D p (recordProviderSuccessFromBot id charge) := by
  refine .bind (.select _) fun found => ?_
  split
  case h_2 => exact .pure _
  refine .bind (.ask _) fun now => ?_
  refine .bind (P.charge fun o => ⟨rfl, rfl, rfl⟩) fun result => ?_
  split
  · exact .pure _
  split
  · exact .pure _
  exact .bind (P.move (.inl rfl)) fun _ => .pure _

theorem accepts_duplicateOutcome (cid pid : ℕ) (payment : Payment) (primary : Option ℕ)
    (reason : String) : Accepts D p (duplicateOutcome cid pid payment primary reason) := by
  refine .bind (P.file _) fun record => ?_
  split
  · exact .pure _
  · exact .bind (.select _) fun _ => .pure _

theorem accepts_verifyOnDemand (pid : ℕ) (payment : Payment) :
    Accepts D p (verifyOnDemand pid payment) := by
  unfold verifyOnDemand
  split
  · exact .pure _
  split
  · exact .pure _
  refine .bind (.ask _) fun configured => ?_
  split
  · exact .pure _
  refine .bind (.ask _) fun verification => ?_
  split
  · exact .bind (P.accepts_recordProviderSuccessFromBot _ _) fun _ => .pure _
  · exact .bind (P.move (.inr (.inl rfl))) fun _ => .pure _
  · exact .pure _

theorem accepts_settleResult (cid pid : ℕ) (payment : Payment)
    (result : Except SettleThrow (Option (ℕ × Order))) :
    Accepts D p (settleResult cid pid payment result) := by
  cases result with
  | ok order => exact .bind (.select _) fun _ => .pure _
  | error e =>
    cases e with
    | duplicateSuccess owner status => exact P.accepts_duplicateOutcome _ _ _ _ _
    | settleAbort reason => exact .pure _
    | crash => exact .pure _
    | abortToAlready =>
      refine .bind (.select _) fun fresh => ?_
      split
      · exact .pure _
      split
      · exact accepts_alreadyOutcome _
      split <;> exact .pure _

end PaymentStatements

/-- The sweep: settlements, then the expiry. -/
theorem accepts_runGatewaySettlementSweep (hsettle : ∀ id, Accepts D p (settleGatewayPayment id))
    (hexpire : ∀ ids, Accepts D p (expireStalePayments ids)) :
    Accepts D p runGatewaySettlementSweep := by
  refine .bind (.ask _) fun scanned => .bind (.select _) fun ready => ?_
  refine .bind (.forEach (fun id => ?_) _) fun _ => ?_
  · exact .bind (hsettle id) fun _ => .pure _
  · exact .bind (.ask _) fun stale => .bind (hexpire _) fun _ => .pure _

/-! ### Programs around one transaction -/

theorem accepts_settleWalletOrder (args : WalletSettlementArgs)
    (hbody : hasValidFinancialInvariant args = true → ∀ minutes now,
      Accepts D p (walletTransactionBody args minutes now)) :
    Accepts D p (settleWalletOrder args) := by
  unfold settleWalletOrder
  split
  · exact .pure _
  rename_i hvalid
  refine .bind (accepts_loadExistingSettlement _) fun existing => ?_
  split
  · exact .pure _
  refine .bind (.ask _) fun enabled => ?_
  split
  · exact .pure _
  refine .bind (.ask _) fun settleable => ?_
  split
  · exact .pure _
  refine .bind (.ask _) fun minutes => .bind (.ask _) fun now => ?_
  refine .bind (hbody (by simpa using hvalid) _ _) fun result => ?_
  split
  · exact .pure _
  · exact .pure _
  · refine .bind (accepts_loadExistingSettlement _) fun settled => ?_
    split <;> exact .pure _
  · exact .pure _

/-- Reading a review writes nothing. -/
theorem accepts_loadReviewPayment (pid : ℕ) : Accepts D p (loadReviewPayment pid) := by
  refine .bind (.select _) fun payment => ?_
  split
  case h_2 => exact .pure _
  refine .bind (.select _) fun checkout => .bind (.select _) fun receipts => ?_
  split <;> exact .pure _

theorem accepts_rejectReceiptPayment (pid adminId : ℕ) (reason : String)
    (hreject : ∀ checkout reason now,
      Accepts D p (rejectTransaction pid adminId checkout reason now)) :
    Accepts D p (rejectReceiptPayment pid adminId reason) := by
  unfold rejectReceiptPayment
  simp only
  split
  · exact .pure _
  refine .bind (accepts_loadReviewPayment _) fun found => ?_
  split
  case h_2 => exact .pure _
  split
  · exact .pure _
  refine .bind (.ask _) fun now => .bind (hreject _ _ _) fun x => ?_
  rcases x with (_ | _) | _ <;> exact .pure _

end ZedBot
