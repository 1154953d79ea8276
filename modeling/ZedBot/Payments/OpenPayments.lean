import ZedBot.Payments.Calls
import ZedBot.Payments.PaymentCreation
import ZedBot.ReadCommitted.Statements

/-! The listing of the open payments: whatever makes a payment open lists it, in every program of the
    payment services, so that a scan of the listing misses no payment. -/

namespace ZedBot
open ReadCommitted

/-- Every open payment is listed. -/
def Listed (s : AppStore) : Prop :=
  ∀ pid q, s.rows (.payment pid) = some q → awaitsSettlement q → .openPayment pid ∈ s.journal

theorem mem_openPaymentIds {journal : List Entry} {id : ℕ} :
    id ∈ openPaymentIds journal ↔ .openPayment id ∈ journal := by
  simp only [openPaymentIds, List.mem_filterMap]
  constructor
  · rintro ⟨e, he, hid⟩
    cases e with
    | wallet w | draft i | commission i => cases hid
    | openPayment i => cases hid; exact he
  · exact fun h => ⟨_, h, rfl⟩

/-- A statement that makes a payment open lists it. -/
def ListsOpen : StmtCond Row Entry := fun v writes entries =>
  ∀ pid q, ⟨.payment pid, some q⟩ ∈ writes → awaitsSettlement q →
    (∃ o, v.rows (.payment pid) = some o ∧ awaitsSettlement o) ∨ .openPayment pid ∈ entries

theorem ListsOpen.free {v : AppView} {writes : List (Write Row)} {entries : List Entry}
    (h : ∀ pid q, ⟨.payment pid, some q⟩ ∉ writes) : ListsOpen v writes entries :=
  fun pid q hmem => absurd hmem (h pid q)

theorem ListsOpen.nil (v : AppView) (entries : List Entry) : ListsOpen v [] entries :=
  .free fun _ _ h => by cases h

/-- One payment written where it was open before, or no longer open. -/
theorem ListsOpen.one {v : AppView} {pid : ℕ} {q : Payment} {others : List (Write Row)}
    (h : awaitsSettlement q → ∃ o, v.rows (.payment pid) = some o ∧ awaitsSettlement o)
    (ho : ∀ pid q, ⟨.payment pid, some q⟩ ∉ others) :
    ListsOpen v (⟨.payment pid, some q⟩ :: others) [] := by
  intro pid' q' hmem haw
  rcases List.mem_cons.mp hmem with heq | hmem
  · simp only [Sigma.mk.injEq, Key.payment.injEq] at heq
    obtain ⟨rfl, heq⟩ := heq
    cases heq
    exact .inl (h haw)
  · exact absurd hmem (ho pid' q')

/-! ### Statements -/

theorem each_updateFree {k : Key} {f : Row k → Option (Row k)} (hk : ∀ pid, k ≠ .payment pid) :
    (update k f : App ℕ).Each ListsOpen := by
  refine .update (fun v => .nil v []) fun v n _ => .free fun pid q hmem => ?_
  have heq := congrArg Sigma.fst (List.mem_singleton.mp hmem)
  exact hk pid heq.symm

theorem each_updateUser (id : ℕ) (cond : User → Bool) (data : User → User) :
    (updateUser id cond data).Each ListsOpen := each_updateFree fun _ => by simp

theorem each_updateCheckout (id : ℕ) (cond : CheckoutSession → Bool)
    (data : CheckoutSession → CheckoutSession) : (updateCheckout id cond data).Each ListsOpen :=
  each_updateFree fun _ => by simp

theorem each_updateOrder (id : ℕ) (cond : Order → Bool) (data : Order → Order) :
    (updateOrder id cond data).Each ListsOpen := each_updateFree fun _ => by simp

/-- A payment updated so that it is open only where it was. -/
theorem each_updatePayment {id : ℕ} {cond : Payment → Bool} {data : Payment → Payment}
    (h : ∀ o, cond o → awaitsSettlement (data o) → awaitsSettlement o) :
    (updatePayment id cond data).Each ListsOpen := by
  refine .update (fun v => .nil v []) fun v n hn => ?_
  obtain ⟨o, ho, hc, rfl⟩ := onRow_eq_some.mp hn
  exact .one (fun haw => ⟨o, ho, h o hc haw⟩) fun _ _ hmem => by cases hmem

theorem each_append (w : WalletTransaction) : (createWalletTransaction w).Each ListsOpen :=
  .sql fun v => .nil v _

theorem each_createOrder (id : ℕ) (o : Order) : (createOrder id o).Each ListsOpen := by
  refine .sql fun v => ?_
  split
  · exact .nil v _
  · exact .free fun _ _ hmem => by simp at hmem
  · split
    · exact .nil v _
    · exact .free fun _ _ hmem => by simp at hmem

theorem each_updatePaymentCharge {id : ℕ} {charge : Option String} {data : Payment → Payment}
    (h : ∀ o, (data o).status = o.status) :
    (updatePaymentCharge id charge data).Each ListsOpen := by
  refine .sql fun v => ?_
  split
  · exact .nil v _
  rename_i o ho
  have hopen : ∀ x : Payment, x.status = (data o).status → awaitsSettlement x →
      ∃ o, v.rows (.payment id) = some o ∧ awaitsSettlement o := by
    intro x hx haw
    refine ⟨o, ho, ?_⟩
    simpa only [awaitsSettlement, hx, h] using haw
  split
  · exact .one (hopen _ rfl) fun _ _ hmem => by cases hmem
  · split
    · exact .one (hopen _ rfl) fun _ _ hmem => by simp at hmem
    · split
      · exact .one (hopen _ rfl) fun _ _ hmem => by cases hmem
      · exact .nil v _

theorem each_expireStalePayments (ids : List ℕ) : (expireStalePayments ids).Each ListsOpen := by
  refine .bind (.ask _) fun now => .sql fun v pid q hmem haw => ?_
  obtain ⟨x, -, hx⟩ := List.mem_map.mp hmem
  cases hx
  simp [awaitsSettlement] at haw

theorem each_flipReceipts (id : ℕ) (status : PaymentStatus) :
    (flipReceipts id status).Each ListsOpen := by
  refine .sql fun v => ?_
  simp only
  split
  · exact .nil v _
  · exact .free fun _ _ hmem => by simp at hmem

theorem not_awaits_of_settled (now : ℕ) (p : Payment) : ¬ awaitsSettlement (settledPayment now p) := by
  simp [awaitsSettlement, settledPayment]

theorem each_discard {Φ : StmtCond Row Entry} {α : Type} {m : App α} (h : m.Each Φ) :
    (discard m).Each Φ := .bind h fun _ => .pure _

/-! ### Provider events -/

/-- A payment that is open at the update may get any status. -/
theorem awaits_of_isOpen {o : Payment} (h : isOpen o) : awaitsSettlement o := by
  simp only [isOpen, awaitsSettlement, decide_eq_true_eq] at h ⊢
  tauto

theorem each_recordProviderOutcome (lookup : OutcomeLookup) (event : ProviderOutcomeEvent) :
    (recordProviderOutcome lookup event).Each ListsOpen := by
  refine .bind (.select _) fun found => ?_
  split
  · rename_i id payment
    split
    · exact .pure _
    split
    · exact .pure _
    refine .bind (.ask _) fun now => .bind (each_updatePaymentCharge fun o => rfl) fun result => ?_
    split
    · exact .pure _
    split
    · exact .pure _
    split
    · exact .pure _
    · split
      · exact .pure _
      · exact .bind (each_updatePayment fun o h _ => awaits_of_isOpen h) fun _ => .pure _
  · exact .pure _

theorem each_recordProviderSuccessFromBot (id : ℕ) (charge : Option String) :
    (recordProviderSuccessFromBot id charge).Each ListsOpen := by
  refine .bind (.select _) fun found => ?_
  split
  · refine .bind (.ask _) fun now => .bind (each_updatePaymentCharge fun o => rfl) fun result => ?_
    split
    · exact .pure _
    split
    · exact .pure _
    exact .bind (each_updatePayment fun o h _ => awaits_of_isOpen h) fun _ => .pure _
  · exact .pure _

/-! ### Settlement -/

theorem each_findOrCreateCase (id : ℕ) (c : FinancialReconciliationCase) :
    (findOrCreateCase id c).Each ListsOpen := by
  refine .bind (.select _) fun existing => ?_
  split
  · exact .pure _
  refine .bind (each_updateFree fun _ => by simp) fun created => ?_
  split
  · exact .pure _
  refine .bind (.select _) fun winner => ?_
  split <;> exact .pure _

theorem each_recordDuplicateSuccess (input : DuplicateSuccessInput) :
    (recordDuplicateSuccess input).Each ListsOpen :=
  .transaction (.bind (each_updatePayment fun _ _ h => h) fun _ => each_findOrCreateCase _ _)

theorem each_alreadyOutcome (payment : Payment) : (alreadyOutcome payment).Each ListsOpen := by
  unfold alreadyOutcome
  split
  · exact .pure _
  split
  · exact .bind (.select _) fun _ => .pure _
  · exact .bind (.select _) fun _ => .pure _
  · exact .pure _

theorem each_claimCheckout (cid pid now : ℕ) : (claimCheckout cid pid now).Each ListsOpen := by
  refine .bind (each_updateCheckout _ _ _) fun claimed => ?_
  split
  · exact .pure _
  refine .bind (.select _) fun fresh => ?_
  split
  · exact .pure _
  · split <;> exact .pure _

theorem each_creditTopup (pid userId : ℕ) (amount : ℤ) :
    (creditTopup pid userId amount).Each ListsOpen := by
  refine .bind (each_updateUser _ _ _) fun credited => ?_
  split
  · exact .pure _
  refine .bind (.select _) fun balance => ?_
  split
  · exact .pure _
  · exact .bind (each_append _) fun _ => .pure _

theorem each_reuseOrCreate (existing : Option (ℕ × Order)) (cid userId orderId : ℕ) (data : Order) :
    (reuseOrCreate existing cid userId orderId data).Each ListsOpen := by
  unfold reuseOrCreate
  split
  · exact .pure _
  refine .bind (each_createOrder _ _) fun created => ?_
  split
  · exact .pure _
  refine .bind (.select _) fun winner => ?_
  split
  · split <;> exact .pure _
  · exact .pure _

theorem each_linkCreatedOrder (cid pid orderId : ℕ) (c : CheckoutSession) :
    (linkCreatedOrder cid pid orderId c).Each ListsOpen := by
  refine .bind (.ask _) fun bound => ?_
  have hlink : (do
      let linked ← updatePayment pid (fun _ => true) fun p => { p with orderId := some orderId }
      if linked = 0 then
        return .error .crash
      let counted ← updateUser c.userId (fun _ => true) (countOrder c.finalPriceToman)
      if counted = 0 then
        return .error .crash
      return .ok () : App (Except SettleThrow Unit)).Each ListsOpen := by
    refine .bind (each_updatePayment fun _ _ h => h) fun linked => ?_
    split
    · exact .pure _
    refine .bind (each_updateUser _ _ _) fun counted => ?_
    split <;> exact .pure _
  split
  · refine .bind (each_findOrCreateCase _ _) fun filed => ?_
    split
    · exact .pure _
    · exact hlink
  · exact hlink

theorem each_settleOrder (cid pid now : ℕ) (c : CheckoutSession) (payment : Payment) :
    (settleOrder cid pid c payment now).Each ListsOpen := by
  refine .bind (.select _) fun existing => .bind (.ask _) fun orderId => ?_
  refine .bind (each_reuseOrCreate _ _ _ _ _) fun result => ?_
  split
  · exact .pure _
  · refine .bind (each_linkCreatedOrder _ _ _ _) fun linked => ?_
    split <;> exact .pure _
  · split
    · exact .pure _
    refine .bind (each_updatePayment fun _ _ h => h) fun linked => ?_
    split <;> exact .pure _

theorem each_finalizeGatewayDiscount (c : CheckoutSession) (orderId : ℕ) :
    (finalizeGatewayDiscount c orderId).Each ListsOpen := by
  unfold finalizeGatewayDiscount
  split
  · exact .pure _
  refine .bind (.ask _) fun claimed => ?_
  split
  · exact .pure _
  refine .bind (each_updateOrder _ _ _) fun flagged => ?_
  split <;> exact .pure _

theorem each_settleTransaction (cid pid now : ℕ) (c : CheckoutSession) (payment : Payment) :
    (settleTransaction cid pid c payment now).Each ListsOpen := by
  refine .transaction (.bind (each_claimCheckout _ _ _) fun claimed => ?_)
  split
  · exact .pure _
  refine .bind (each_updatePayment fun _ _ h => (not_awaits_of_settled _ _ h).elim) fun flipped => ?_
  split
  · exact .pure _
  split
  · refine .bind (.select _) fun existing => ?_
    split
    · exact .pure _
    refine .bind (each_creditTopup _ _ _) fun credited => ?_
    split <;> exact .pure _
  · refine .bind (each_settleOrder _ _ _ _ _) fun settled => ?_
    split
    · exact .pure _
    refine .bind (each_finalizeGatewayDiscount _ _) fun finalized => ?_
    split <;> exact .pure _

theorem each_duplicateOutcome (cid pid : ℕ) (payment : Payment) (primary : Option ℕ)
    (reason : String) : (duplicateOutcome cid pid payment primary reason).Each ListsOpen := by
  refine .bind (each_recordDuplicateSuccess _) fun record => ?_
  split
  · exact .pure _
  · exact .bind (.select _) fun _ => .pure _

theorem each_settleResult (cid pid : ℕ) (payment : Payment)
    (result : Except SettleThrow (Option (ℕ × Order))) :
    (settleResult cid pid payment result).Each ListsOpen := by
  unfold settleResult
  split
  · exact .bind (.select _) fun _ => .pure _
  · refine .bind (.select _) fun fresh => ?_
    split
    · exact .pure _
    split
    · exact each_alreadyOutcome _
    · split <;> exact .pure _
  · exact each_duplicateOutcome _ _ _ _ _
  · exact .pure _
  · exact .pure _

theorem each_settleVerified (cid pid : ℕ) (c : CheckoutSession) (payment : Payment) :
    (settleVerified cid pid c payment).Each ListsOpen := by
  unfold settleVerified
  split
  · exact .pure _
  refine .bind (.ask _) fun infoMissing => ?_
  split
  · exact .pure _
  refine .bind (.ask _) fun now => .bind (each_settleTransaction _ _ _ _ _) fun result => ?_
  exact each_settleResult _ _ _ _

theorem each_verifyOnDemand (pid : ℕ) (payment : Payment) :
    (verifyOnDemand pid payment).Each ListsOpen := by
  unfold verifyOnDemand
  split
  · exact .pure _
  split
  · exact .pure _
  refine .bind (.ask _) fun configured => ?_
  split
  · exact .pure _
  refine .bind (.ask _) fun verification => ?_
  split
  · exact .bind (each_recordProviderSuccessFromBot _ _) fun _ => .pure _
  · exact .bind (each_updatePayment fun o h _ => awaits_of_isOpen h) fun _ => .pure _
  · exact .pure _

theorem each_settleGatewayPayment (pid : ℕ) : (settleGatewayPayment pid).Each ListsOpen := by
  refine .bind (.select _) fun found => ?_
  split
  · refine .bind (.select _) fun checkout => ?_
    split
    · exact .pure _
    split
    · exact .pure _
    split
    · split
      · exact each_alreadyOutcome _
      split
      · exact .pure _
      split
      · exact .pure _
      split
      · refine .bind (.select _) fun existingCase => ?_
        split
        · exact .pure _
        · exact each_duplicateOutcome _ _ _ _ _
      · refine .bind (each_verifyOnDemand _ _) fun verified => ?_
        split
        · exact .pure _
        · exact each_settleVerified _ _ _ _
    · exact .pure _
  · exact .pure _

theorem each_runGatewaySettlementSweep : runGatewaySettlementSweep.Each ListsOpen := by
  refine .bind (.ask _) fun scanned => .bind (.select _) fun ready => .bind (.forEach ?_ _) ?_
  · exact fun id => .bind (each_settleGatewayPayment id) fun _ => .pure _
  · exact fun _ => .bind (.ask _) fun stale => .bind (each_expireStalePayments _) fun _ => .pure _

/-! ### Receipts -/

theorem each_approvePayment (pid adminId now : ℕ) (guard : Payment → Bool) :
    (approvePayment pid adminId now guard).Each ListsOpen := by
  refine .bind (each_updatePayment fun o _ h => (not_awaits_of_settled now o h).elim) fun flipped => ?_
  split
  · exact .pure _
  refine .bind (each_flipReceipts _ _) fun receiptsFlipped => ?_
  split <;> exact .pure _

theorem each_payCheckout (cid pid now : ℕ) : (payCheckout cid pid now).Each ListsOpen := by
  refine .bind (each_updateCheckout _ _ _) fun flipped => ?_
  split <;> exact .pure _

theorem each_approveOrder (cid pid now : ℕ) (c : CheckoutSession) :
    (approveOrder cid pid c now).Each ListsOpen := by
  refine .bind (.select _) fun existing => ?_
  split
  · exact .pure _
  refine .bind (.ask _) fun orderId => .bind (each_createOrder _ _) fun created => ?_
  split
  · exact .pure _
  refine .bind (.ask _) fun bound => ?_
  split
  · exact .pure _
  refine .bind (each_updatePayment fun _ _ h => h) fun linked => ?_
  split
  · exact .pure _
  refine .bind (each_updateUser _ _ _) fun counted => ?_
  split <;> exact .pure _

theorem each_approveTransaction (pid cid adminId now : ℕ) (c : CheckoutSession) :
    (approveTransaction pid cid adminId c now).Each ListsOpen := by
  refine .transaction (.bind (each_approvePayment _ _ _ _) fun approved => ?_)
  split
  · exact .pure _
  refine .bind (each_payCheckout _ _ _) fun paid => ?_
  split
  · exact .pure _
  refine .bind (each_approveOrder _ _ _ _) fun result => ?_
  split
  · exact .pure _
  split
  · exact .pure _
  refine .bind (.ask _) fun claimed => ?_
  split <;> exact .pure _

theorem each_topupTransaction (pid cid adminId now : ℕ) (payment : Payment) :
    (topupTransaction pid cid adminId payment now).Each ListsOpen := by
  refine .transaction (.bind (each_approvePayment _ _ _ _) fun approved => ?_)
  split
  · exact .pure _
  refine .bind (each_payCheckout _ _ _) fun paid => ?_
  split
  · exact .pure _
  refine .bind (.select _) fun existing => ?_
  split
  · exact .pure _
  refine .bind (each_creditTopup _ _ _) fun credited => ?_
  split <;> exact .pure _

theorem each_loadReviewPayment (pid : ℕ) : (loadReviewPayment pid).Each ListsOpen := by
  refine .bind (.select _) fun found => ?_
  split
  · refine .bind (.select _) fun checkout => .bind (.select _) fun receipts => ?_
    split <;> exact .pure _
  · exact .pure _

theorem each_approveReceiptPayment (pid adminId : ℕ) :
    (approveReceiptPayment pid adminId).Each ListsOpen := by
  refine .bind (each_loadReviewPayment _) fun found => ?_
  split
  · simp only
    split
    · exact .pure _
    split
    · split
      · exact .pure _
      split
      · exact .pure _
      split
      · exact .pure _
      split
      · exact .pure _
      refine .bind (.ask _) fun now => ?_
      split
      · refine .bind (each_topupTransaction _ _ _ _ _) fun result => ?_
        split <;> exact .pure _
      · refine .bind (.ask _) fun infoMissing => ?_
        split
        · exact .pure _
        refine .bind (each_approveTransaction _ _ _ _ _) fun result => ?_
        split <;> exact .pure _
    · exact .pure _
  · exact .pure _

theorem each_rejectTransaction (pid adminId now : ℕ) (checkout : Option (ℕ × CheckoutSession))
    (reason : String) : (rejectTransaction pid adminId checkout reason now).Each ListsOpen := by
  refine .transaction (.bind (each_updatePayment fun o _ h => ?_) fun flipped => ?_)
  · simp [awaitsSettlement] at h
  split
  · exact .pure _
  refine .bind (each_flipReceipts _ _) fun _ => ?_
  split
  · exact .pure _
  split
  · refine .bind (each_updateCheckout _ _ _) fun expired => ?_
    split <;> exact .pure _
  · exact .pure _

theorem each_rejectReceiptPayment (pid adminId : ℕ) (reason : String) :
    (rejectReceiptPayment pid adminId reason).Each ListsOpen := by
  unfold rejectReceiptPayment
  refine .ite (fun _ => .pure _) fun _ => .bind (each_loadReviewPayment _) fun found => ?_
  split
  · split
    · exact .pure _
    refine .bind (.ask _) fun now => .bind (each_rejectTransaction _ _ _ _ _) fun result => ?_
    split <;> exact .pure _
  · exact .pure _

/-! ### Orders paid from the wallet -/

theorem each_loadExistingSettlement (key : IdempotencyKey) :
    (loadExistingSettlement key).Each ListsOpen := by
  refine .bind (.select _) fun found => ?_
  split
  · split
    · split
      · refine .bind (.select _) fun order => .bind (.select _) fun checkout => ?_
        refine .bind (.select _) fun spend => ?_
        split <;> exact .pure _
      · exact .pure _
    · exact .pure _
  · exact .pure _

/-- The wallet's payments are never open. -/
theorem each_createKeyedPayment {id : ℕ} {key : IdempotencyKey} {p : Payment}
    (h : ¬ awaitsSettlement p) : (createKeyedPayment id key p).Each ListsOpen := by
  refine .sql fun v => ?_
  split
  · exact .one (fun haw => absurd haw h) fun _ _ hmem => by simp at hmem
  · exact .nil v _

theorem each_settlementCheckout (args : WalletSettlementArgs) (minutes now : ℕ) :
    (settlementCheckout args minutes now).Each ListsOpen := by
  unfold settlementCheckout
  split
  · refine .bind (each_updateCheckout _ _ _) fun flipped => ?_
    split
    · exact .pure _
    refine .bind (.select _) fun checkout => ?_
    split <;> exact .pure _
  · refine .bind (.ask _) fun id => .bind (each_updateFree fun _ => by simp) fun created => ?_
    split <;> exact .pure _

theorem each_checkPayer (args : WalletSettlementArgs) : (checkPayer args).Each ListsOpen := by
  refine .bind (.select _) fun payer => ?_
  split
  · exact .pure _
  split
  · exact .pure _
  split
  · refine .bind (.ask _) fun claimed => ?_
    split <;> exact .pure _
  · exact .pure _

theorem each_deductBalance (args : WalletSettlementArgs) (orderId paymentId : ℕ) :
    (deductBalance args orderId paymentId).Each ListsOpen := by
  refine .bind (each_updateUser _ _ _) fun deducted => ?_
  split
  · exact .pure _
  refine .bind (.select _) fun balance => ?_
  split
  · exact .pure _
  · exact .bind (each_append _) fun _ => .pure _

theorem each_walletTransactionBody (args : WalletSettlementArgs) (minutes now : ℕ) :
    (walletTransactionBody args minutes now).Each ListsOpen := by
  refine .transaction (.bind (each_settlementCheckout _ _ _) fun checkout => ?_)
  split
  · exact .pure _
  refine .bind (.ask _) fun paymentId => ?_
  refine .bind (each_createKeyedPayment (by simp [walletPayment, awaitsSettlement])) fun paid => ?_
  split
  · exact .pure _
  refine .bind (each_updateCheckout _ _ _) fun owned => ?_
  split
  · exact .pure _
  refine .bind (.ask _) fun orderId => .bind (each_createOrder _ _) fun ordered => ?_
  split
  · exact .pure _
  refine .bind (each_checkPayer _) fun payer => ?_
  split
  · exact .pure _
  refine .bind (each_updatePayment fun _ _ h => h) fun linked => ?_
  split
  · exact .pure _
  refine .bind (each_deductBalance _ _ _) fun deducted => ?_
  split
  · exact .pure _
  simp only
  split
  · exact .pure _
  refine .bind (.ask _) fun claimed => ?_
  split <;> exact .pure _

theorem each_settleWalletOrder (args : WalletSettlementArgs) :
    (settleWalletOrder args).Each ListsOpen := by
  refine .ite (fun _ => .pure _) fun _ => .bind (each_loadExistingSettlement _) fun existing => ?_
  split
  · exact .pure _
  refine .bind (.ask _) fun enabled => ?_
  split
  · exact .pure _
  refine .bind (.ask _) fun settleable => ?_
  split
  · exact .pure _
  refine .bind (.ask _) fun minutes => .bind (.ask _) fun now => ?_
  refine .bind (each_walletTransactionBody _ _ _) fun result => ?_
  split
  · exact .pure _
  · exact .pure _
  · refine .bind (each_loadExistingSettlement _) fun settled => ?_
    split <;> exact .pure _
  · exact .pure _

theorem each_materialize (args : MaterializeArgs) :
    (materializePendingOtherProductCheckout args).Each ListsOpen := by
  refine .bind (.ask _) fun minutes => .bind (.ask _) fun now => .transaction ?_
  refine .bind (.ask _) fun checkoutIds => .bind (.select _) fun superseded => .bind ?_ fun _ => ?_
  · refine .sql fun v => .free fun pid q hmem => ?_
    obtain ⟨x, -, hx⟩ := List.mem_map.mp hmem
    cases hx
  · refine .bind (.ask _) fun id => .bind (each_updateFree fun _ => by simp) fun created => ?_
    split <;> exact .pure _

/-! ### Adjustments, commissions and their clawback -/

theorem each_applyAdjustment (args : AdjustUserWalletArgs) :
    (applyAdjustment args).Each ListsOpen := by
  unfold applyAdjustment
  split
  · refine .bind (each_updateUser _ _ _) fun applied => ?_
    split
    · exact .pure _
    refine .bind (.select _) fun updated => ?_
    split <;> exact .pure _
  · refine .bind (each_updateUser _ _ _) fun applied => ?_
    split
    · exact .bind (.select _) fun _ => .pure _
    refine .bind (.select _) fun updated => ?_
    split <;> exact .pure _

theorem each_adjustUserWallet (args : AdjustUserWalletArgs) :
    (adjustUserWallet args).Each ListsOpen := by
  unfold adjustUserWallet
  refine .ite (fun _ => .pure _) fun _ => ?_
  split
  · refine .bind (.transaction (.bind (each_applyAdjustment _) fun applied => ?_)) fun result => ?_
    · split
      · exact .pure _
      · exact .bind (each_append _) fun _ => .pure _
    · split <;> exact .pure _
  · exact .pure _

theorem each_createCommission (orderId : ℕ) (c : ReferralCommission) :
    (createCommission orderId c).Each ListsOpen := by
  refine .sql fun v => ?_
  cases v.rows (.commission orderId) with
  | some _ => exact .nil v _
  | none => exact .free (by simp)

theorem each_recordNoCommissionMarker (orderId userId : ℕ) (referral : Referral) (percent : ℤ) :
    (recordNoCommissionMarker orderId referral userId percent).Each ListsOpen :=
  .bind (each_createCommission _ _) fun _ => .pure _

theorem each_creditReferrer (orderId userId : ℕ) (amount price : ℤ) :
    (creditReferrer orderId userId amount price).Each ListsOpen := by
  refine .bind (each_updateUser _ _ _) fun credited => ?_
  split
  · exact .pure _
  refine .bind (.select _) fun balance => ?_
  split
  · exact .pure _
  · exact .bind (each_append _) fun _ => .pure _

theorem each_markNotFirst (orderId : ℕ) (order : Order) (referral : Referral) (percent : ℤ) :
    (markNotFirst orderId order referral percent).Each ListsOpen := by
  refine .bind (each_createCommission _ _) fun marked => ?_
  split <;> exact .pure _

theorem each_payCommission (orderId now : ℕ) (order : Order) (referral : Referral)
    (decision : ReferralCommissionDecision) :
    (payCommission orderId order referral decision now).Each ListsOpen := by
  refine .bind (each_createCommission _ _) fun created => ?_
  split
  · exact .pure _
  refine .bind (each_creditReferrer _ _ _ _) fun credited => ?_
  split
  · exact .pure _
  refine .bind (each_updateFree fun _ => by simp) fun counted => ?_
  split <;> exact .pure _

theorem each_creditTransaction (orderId now : ℕ) (order : Order) (referral : Referral)
    (decision : ReferralCommissionDecision) (firstPurchaseOnly : Bool) :
    (creditTransaction orderId order referral decision firstPurchaseOnly now).Each ListsOpen := by
  refine .transaction (.bind (each_updateFree fun _ => by simp) fun _ => ?_)
  split
  · refine .bind (.select _) fun prior => ?_
    split
    · exact each_markNotFirst _ _ _ _
    · exact each_payCommission _ _ _ _ _
  · exact each_payCommission _ _ _ _ _

theorem each_creditReferralCommissionForOrder (orderId : ℕ) :
    (creditReferralCommissionForOrder orderId).Each ListsOpen := by
  refine .bind (.ask _) fun enabled => ?_
  split
  · exact .pure _
  refine .bind (.select _) fun order => ?_
  split
  · split
    · exact .pure _
    refine .bind (.ask _) fun within => ?_
    split
    · exact .pure _
    refine .bind (.select _) fun found => ?_
    split
    · split
      · exact .bind (each_recordNoCommissionMarker _ _ _ _) fun _ => .pure _
      refine .bind (.ask _) fun representative => ?_
      split
      · exact .bind (each_recordNoCommissionMarker _ _ _ _) fun _ => .pure _
      refine .bind (.ask _) fun config => ?_
      simp only
      split
      · exact .bind (each_recordNoCommissionMarker _ _ _ _) fun _ => .pure _
      refine .bind (.ask _) fun now => .bind (each_creditTransaction _ _ _ _ _ _) fun result => ?_
      split <;> exact .pure _
    · exact .pure _
  · exact .pure _

theorem each_debitReferrer (orderId userId : ℕ) (recoverNow : ℤ) :
    (debitReferrer orderId userId recoverNow).Each ListsOpen := by
  refine .bind (each_updateUser _ _ _) fun debited => ?_
  split
  · exact .pure _
  refine .bind (.select _) fun balance => ?_
  split
  · exact .pure _
  · exact .bind (each_append _) fun _ => .pure _

theorem each_recoverDebt (orderId now : ℕ) (commission : ReferralCommission)
    (plan : ReferralClawbackPlan) : (recoverDebt orderId commission plan now).Each ListsOpen := by
  refine .bind (each_debitReferrer _ _ _) fun debited => ?_
  split
  · exact .pure _
  refine .bind (each_updateFree fun _ => by simp) fun counted => ?_
  split
  · exact .pure _
  refine .bind (each_updateFree fun _ => by simp) fun updated => ?_
  split <;> exact .pure _

theorem each_recordDebt (orderId now : ℕ) (commission : ReferralCommission) (outstanding : ℤ) :
    (recordDebt orderId commission outstanding now).Each ListsOpen := by
  refine .bind (each_updateFree fun _ => by simp) fun updated => ?_
  split <;> exact .pure _

theorem each_runClawbackStep (orderId now : ℕ) : (runClawbackStep orderId now).Each ListsOpen := by
  refine .transaction (.bind (each_updateFree fun _ => by simp) fun _ => ?_)
  refine .bind (.select _) fun found => ?_
  split
  · refine .bind (each_updateFree fun _ => by simp) fun _ => ?_
    split
    · refine .bind (each_updateUser _ _ _) fun _ => .bind (.select _) fun locked => ?_
      simp only
      split
      · refine .bind (each_recoverDebt _ _ _ _) fun done => ?_
        split <;> exact .pure _
      · refine .bind (each_recordDebt _ _ _ _) fun done => ?_
        split <;> exact .pure _
    · exact .pure _
  · exact .pure _

/-- The payment services list what they open. -/
theorem each_paymentCall (c : PaymentCall) : c.prog.Each ListsOpen := by
  cases c with
  | settleGatewayPayment id => exact each_discard (each_settleGatewayPayment id)
  | approveReceiptPayment id adminId => exact each_discard (each_approveReceiptPayment id adminId)
  | rejectReceiptPayment id adminId reason =>
    exact each_discard (each_rejectReceiptPayment id adminId reason)
  | settleWalletOrder args => exact each_discard (each_settleWalletOrder args)
  | materializePendingOtherProductCheckout args => exact each_discard (each_materialize args)
  | recordProviderOutcome lookup event =>
    exact each_discard (each_recordProviderOutcome lookup event)
  | recordProviderSuccessFromBot id charge => exact each_recordProviderSuccessFromBot id charge
  | recordDuplicateSuccess input => exact each_discard (each_recordDuplicateSuccess input)
  | runGatewaySettlementSweep => exact each_runGatewaySettlementSweep
  | adjustUserWallet args => exact each_discard (each_adjustUserWallet args)
  | creditReferralCommissionForOrder orderId =>
    exact each_discard (each_creditReferralCommissionForOrder orderId)
  | runClawbackStep orderId now => exact each_discard (each_runClawbackStep orderId now)

/-! ### How payments come into being -/

theorem each_createOpenPayment (id : ℕ) (key : IdempotencyKey) (p : Payment) :
    (createOpenPayment id key p).Each ListsOpen := by
  refine .sql fun v => ?_
  split
  · intro pid q hmem _
    simp only [List.mem_cons, Sigma.mk.injEq, Key.payment.injEq, reduceCtorEq, false_and,
      List.not_mem_nil, or_false] at hmem
    exact .inr (by simp [hmem.1])
  · exact .nil v _

theorem each_revivePayment (id expiresAt : ℕ) : (revivePayment id expiresAt).Each ListsOpen := by
  refine .sql fun v => ?_
  split
  · split
    · intro pid q hmem _
      rcases List.mem_cons.mp hmem with heq | hmem
      · simp only [Sigma.mk.injEq, Key.payment.injEq] at heq
        exact .inr (by simp [heq.1])
      · simp [clearedHandles] at hmem
    · exact .nil v _
  · exact .nil v _

theorem each_loadOrCreatePaymentRow (userId cid : ℕ) (c : CheckoutSession)
    (gateway : PaymentGateway) : (loadOrCreatePaymentRow userId cid c gateway).Each ListsOpen := by
  refine .bind (.ask _) fun id => .bind (.ask _) fun now => ?_
  refine .bind (each_createOpenPayment _ _ _) fun created => ?_
  split
  · exact .pure _
  refine .bind (.select _) fun found => ?_
  split
  · split
    · exact .pure _
    refine .bind (each_revivePayment _ _) fun revived => ?_
    split
    · exact .pure _
    exact .bind (.select _) fun _ => .pure _
  · exact .pure _

theorem each_updateAuthority (id : ℕ) (authority : String) :
    (updateAuthority id authority).Each ListsOpen := by
  refine .sql fun v => ?_
  split
  · exact .nil v _
  · exact .nil v _
  · rename_i o ho _
    exact .one (fun haw => ⟨o, ho, haw⟩) fun _ _ hmem => by simp at hmem

theorem each_getOrCreateGatewayPayment (userId cid : ℕ) (c : CheckoutSession)
    (gateway : PaymentGateway) :
    (getOrCreateGatewayPayment userId cid c gateway).Each ListsOpen := by
  unfold getOrCreateGatewayPayment
  split
  · exact .pure _
  refine .bind (.ask _) fun available => ?_
  split
  · exact .pure _
  refine .bind (.select _) fun existing => .bind (.ask _) fun reusable => .bind (.ask _) fun now => ?_
  split
  on_goal 1 => split
  · exact .pure _
  all_goals
    refine .bind (each_loadOrCreatePaymentRow _ _ _ _) fun payment => ?_
    split
    · split
      · exact .pure _
      · refine .bind (.bind (.ask _) fun created => .bind (.ask _) fun authority => ?_)
          fun created => ?_
        · split <;> exact .pure _
        · split
          · refine .bind (each_updatePayment fun o _ h => ?_) fun _ => .pure _
            simp [awaitsSettlement] at h
          · exact .bind (each_updateAuthority _ _) fun _ => .pure _
    · exact .pure _

theorem each_submitReceipt (userId cid : ℕ) (c : CheckoutSession) :
    (submitReceipt userId cid c).Each ListsOpen := by
  refine .bind (.select _) fun existing => ?_
  split
  · exact .pure _
  refine .bind (.ask _) fun now => .transaction (.bind (.ask _) fun id => ?_)
  refine .bind (.sql fun v => ?_) fun created => ?_
  · split
    · exact .nil v _
    · intro pid q hmem _
      simp only [List.mem_cons, Sigma.mk.injEq, Key.payment.injEq, reduceCtorEq, false_and,
        List.not_mem_nil, or_false] at hmem
      exact .inr (by simp [hmem.1])
  · split <;> exact .pure _

end ZedBot
