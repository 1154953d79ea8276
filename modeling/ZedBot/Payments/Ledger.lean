import ZedBot.Payments.Calls

/-! The wallet ledger over whole runs.

    A discipline of its own, with less to keep than the settlement's: a transaction writes ledger rows
    only for users whose row it has locked, and they lead from the balance it found to the one it
    leaves. It needs of the database only that payment amounts are not negative, and it gives the
    soundness of the ledger in every run. -/

namespace ZedBot
open ReadCommitted RunningBalance

/-! ### The discipline -/

/-- A written payment keeps its amount or has a non-negative one. -/
def AmountStep (o n : Option Payment) : Prop :=
  ∀ q, n = some q → 0 ≤ q.amountToman ∨ ∃ o', o = some o' ∧ o'.amountToman = q.amountToman

/-- What a transaction may do to balances, the ledger and payment amounts. -/
structure LedgerTx (t : AppTx) : Prop extends LedgerRows t where
  amount : ∀ id o n, t.chg (.payment id) = some (o, n) → AmountStep o n

/-- No payment of a negative amount. -/
def AmountsNonneg (s : AppStore) : Prop :=
  ∀ pid q, s.rows (.payment pid) = some q → 0 ≤ q.amountToman

variable {t : AppTx} {rows : ∀ k, Row k} {s s' : AppStore} {p : ℕ} {r : List AppStore}

theorem LedgerTx.empty : LedgerTx {} :=
  ⟨⟨(by intro _ _ _ h; cases h), fun _ _ => rfl⟩, by intro _ _ _ h; cases h⟩

theorem AmountsNonneg.commit (hi : AmountsNonneg s) (hh : t.Held s.rows) (h : LedgerTx t) :
    AmountsNonneg (s.commit p t) := by
  intro pid q hq
  rcases s.commit_rows p hh (.payment pid) with ⟨he, _⟩ | hc
  · exact hi pid q (by rw [← he, hq])
  · rcases h.amount pid _ _ hc q hq with h0 | ⟨o', ho', ha⟩
    · exact h0
    · rw [← ha]; exact hi pid o' ho'

/-- The ledger discipline. -/
def ledger : Discipline Row Entry World where
  Inv := AmountsNonneg
  Commits _ _ _ t := LedgerTx t
  Acts _ _ _ _ := False
  commits_empty _ := .empty
  inv_commit hi hh h := hi.commit hh h
  inv_act _ h := h.elim

/-! ### Its rules -/

/-- The tables that the ledger discipline looks at. -/
def Key.balanced : Key → Bool
  | .user _ | .payment _ => true
  | _ => false

theorem LedgerTx.other (h : LedgerTx t) {k : Key} (hk : k.balanced = false) (n : Row k) :
    LedgerTx (t.write rows ⟨k, n⟩) := by
  have hne : ∀ k' : Key, k'.balanced = true → k' ≠ k := by
    rintro k' hk' rfl; rw [hk] at hk'; cases hk'
  refine ⟨h.toLedgerRows.congr (fun u => Tx.chg_write_ne n (hne _ rfl)) rfl, fun id o m hc => ?_⟩
  exact h.amount id o m (by rwa [Tx.chg_write_ne n (hne _ rfl)] at hc)

theorem LedgerTx.writePayment (h : LedgerTx t) {pid : ℕ} {n : Payment}
    (ha : 0 ≤ n.amountToman ∨
      ∃ q, t.row rows (.payment pid) = some q ∧ q.amountToman = n.amountToman) :
    LedgerTx (t.write rows ⟨.payment pid, some n⟩) := by
  refine ⟨h.toLedgerRows.congr (by simp) rfl, fun id o m hc => ?_⟩
  by_cases hne : id = pid
  · subst hne
    simp only [Tx.chg_write_self, Option.some.injEq, Prod.mk.injEq] at hc
    obtain ⟨rfl, rfl⟩ := hc
    rintro _ ⟨⟩
    rcases ha with h0 | ⟨q, hq, he⟩
    · exact .inl h0
    · rcases Tx.chg_of_row hq with ⟨_, hb⟩ | hb
      · exact .inr ⟨q, hb, he⟩
      · rw [← he]; exact h.amount id _ _ hb q rfl
  · exact h.amount id o m (by simpa [hne] using hc)

theorem LedgerTx.count (h : LedgerTx t) {u : ℕ} {q n : User}
    (hq : t.row rows (.user u) = some q) (hb : n.balanceToman = q.balanceToman)
    (hneg : n.allowNegativeBalance = q.allowNegativeBalance) :
    LedgerTx (t.write rows ⟨.user u, some n⟩) :=
  ⟨h.toLedgerRows.countUser hq hb hneg, fun id o m hc => h.amount id o m (by simpa using hc)⟩

theorem ledger_user_absent {q u : ℕ} (hst : ledger.Step q r s s')
    (hn : s.rows (.user u) = none) : s'.rows (.user u) = none := by
  cases hst with
  | act w h => exact h.elim
  | commit t hh h =>
    rcases s.commit_rows q hh (.user u) with ⟨he, _⟩ | hc
    · rw [he, hn]
    · rw [hn] at hc; exact (h.user u _ _ hc).elim

theorem ledgerRules (p : ℕ) : Rules ledger p LedgerTx fun _ _ _ _ => True where
  empty := .empty
  commits h := h
  free n h hk := h.other (by revert hk; cases ‹Key› <;> simp [Key.ruled, Key.balanced]) n
  list h := ⟨h.toLedgerRows.listCommission _, h.amount⟩
  link h hq hs := h.writePayment (.inr ⟨_, hq, (congrArg (·.2.2.2.1) hs.1).symm⟩)
  newOrder h _ _ _ := (h.other rfl _).other rfl _
  noteOrder h _ _ := h.other rfl _
  newCase h _ := h.other rfl _
  count h := h.count
  move h hq hu hb ha hm hn hp _ :=
    ⟨h.toLedgerRows.moveBalance hq hu hb ha hm hn hp, fun id o m hc =>
      h.amount id o m (by simpa using hc)⟩
  user_fresh h hh hr := h.toLedgerRows.user_fresh hh hr
  user_absent := ledger_user_absent

/-! ### The processes -/

section Accepted

variable {ε α β : Type}

/-- A statement outside a transaction that touches no balance. -/
theorem ledger_accepts_sql {f : AppView → Effect Row Entry α}
    (h : ∀ s : AppStore, AmountsNonneg s → LedgerTx (Tx.add {} s.rows (f (s.view {})))) :
    Accepts ledger p (sql f : App α) := Accepts.sql fun _ s hi => h s hi

/-- A payment is updated without a change of its amount. -/
theorem ledger_accepts_updatePayment {id : ℕ} {cond : Payment → Bool} {data : Payment → Payment}
    (h : ∀ o, (data o).amountToman = o.amountToman) :
    Accepts ledger p (updatePayment id cond data) :=
  Accepts.update fun _ s n _ hn => by
    obtain ⟨q, hq, _, rfl⟩ := onRow_eq_some.mp hn
    exact LedgerTx.empty.writePayment (.inr ⟨q, hq, (h q).symm⟩)

/-- The same inside a transaction. -/
theorem amount_keeps (hc : LedgerTx t) {id : ℕ} {cond : Payment → Bool} {data : Payment → Payment}
    (h : ∀ o, (data o).amountToman = o.amountToman) (rows : ∀ k, Row k) (n : Option Payment)
    (hn : onRow cond data (t.row rows (.payment id)) = some n) :
    LedgerTx (t.write rows ⟨.payment id, n⟩) := by
  obtain ⟨q, hq, _, rfl⟩ := onRow_eq_some.mp hn
  exact hc.writePayment (.inr ⟨q, hq, (h q).symm⟩)

/-- An update of a table the discipline does not look at. -/
theorem ledger_other {k : Key} {f : Row k → Option (Row k)} {g : ℕ → App β}
    {Q : β → Local Row Entry World → AppStore → Prop} (hc : LedgerTx t) (hk : k.balanced = false)
    (h : ∀ n t' r s', LedgerTx t' → wp ledger p (g n) Q ⟨some t', r⟩ s') :
    wp ledger p (update k f >>= g) Q ⟨some t, r⟩ s :=
  wp_keeps hc (fun _ n _ => hc.other hk n) h

theorem ledger_accepts_updatePaymentCharge {id : ℕ} {charge : Option String}
    {data : Payment → Payment} (h : ∀ o : Payment, o.SameState (data o)) :
    Accepts ledger p (updatePaymentCharge id charge data) := by
  have hpay : ∀ (s : AppStore) (q n : Payment), s.rows (.payment id) = some q → q.SameState n →
      LedgerTx (Tx.write {} s.rows ⟨.payment id, some n⟩) := fun s q n hq hs =>
    LedgerTx.empty.writePayment (.inr ⟨q, hq, (congrArg (·.2.2.2.1) hs.1).symm⟩)
  refine ledger_accepts_sql fun s _ => ?_
  split
  · exact .empty
  rename_i q hq
  split
  · exact hpay s q _ hq (h q)
  rename_i x
  have hx : q.SameState { data q with externalTransactionId := some x } := h q
  split
  · exact (hpay s q _ hq hx).other rfl _
  · split
    · exact hpay s q _ hq hx
    · exact .empty

theorem ledger_accepts_recordDuplicateSuccess (input : DuplicateSuccessInput) :
    Accepts ledger p (recordDuplicateSuccess input) :=
  (ledgerRules p).accepts_transaction fun _ _ _ =>
    wp_keeps .empty (amount_keeps .empty fun _ => rfl) fun _ _ _ _ h =>
      (ledgerRules p).wp_findOrCreateCase h

theorem ledgerStatements (p : ℕ) : PaymentStatements ledger p where
  charge := ledger_accepts_updatePaymentCharge
  move _ := ledger_accepts_updatePayment fun _ => rfl
  file := ledger_accepts_recordDuplicateSuccess

/-- A list of writes to payments that keep their amounts. -/
theorem LedgerTx.writePayments (ws : List (ℕ × Payment)) (data : Payment → Payment)
    (hd : ∀ o, (data o).amountToman = o.amountToman)
    (hws : ∀ x ∈ ws, 0 ≤ x.2.amountToman) (h : LedgerTx t) :
    LedgerTx ((ws.map fun x => (⟨.payment x.1, some (data x.2)⟩ : Write Row)).foldl
      (fun t w => t.write rows w) t) := by
  induction ws generalizing t with
  | nil => exact h
  | cons x xs ih =>
    refine ih (fun y hy => hws y (.tail _ hy)) (h.writePayment (.inl ?_))
    rw [hd]; exact hws x (.head _)

theorem ledger_accepts_expireStalePayments (ids : List ℕ) :
    Accepts ledger p (expireStalePayments ids) := by
  refine .bind (.ask _) fun now => ledger_accepts_sql fun s hi => ?_
  simp only [Tx.add, Tx.append_nil]
  refine LedgerTx.writePayments _ (fun o => { o with status := .EXPIRED }) (fun _ => rfl)
    (fun x hx => ?_) .empty
  obtain ⟨id, _, hid⟩ := List.mem_filterMap.mp hx
  split at hid
  · rename_i q hq
    split at hid
    · cases hid; exact hi id q hq
    · cases hid
  · cases hid

theorem ledger_wp_claimCheckout {cid pid now : ℕ} (hc : LedgerTx t) :
    wp ledger p (claimCheckout cid pid now) (Returns fun _ t' _ => LedgerTx t')
      ⟨some t, r⟩ s := by
  refine ledger_other hc rfl fun n t₁ _ _ h₁ => ?_
  split
  · exact ⟨t₁, rfl, h₁⟩
  refine (wp_seq _ _).mpr (wp_select _ fun s₂ _ _ => ?_)
  split
  · trivial
  · split
    · exact ⟨t₁, rfl, h₁⟩
    · trivial

theorem ledger_accepts_settleTransaction {cid pid now : ℕ} {c : CheckoutSession}
    {payment : Payment} (ha : 0 ≤ payment.amountToman) :
    Accepts ledger p (settleTransaction cid pid c payment now) := by
  have R := ledgerRules p
  refine R.accepts_transaction fun r s _ => ?_
  refine wp_call (ledger_wp_claimCheckout .empty) (fun _ _ _ => trivial) fun _ t₁ _ _ h₁ => ?_
  refine wp_keeps h₁ (amount_keeps h₁ fun _ => rfl) fun _ t₂ _ _ h₂ => ?_
  split
  · trivial
  split
  · refine (wp_seq _ _).mpr (wp_select _ fun s₃ _ _ => ?_)
    split
    · exact ⟨t₂, rfl, h₂⟩
    · exact wp_call (R.wp_creditTopup h₂ ha trivial) (fun _ _ _ => trivial)
        fun _ t _ _ h => ⟨t, rfl, h⟩
  · refine wp_call (R.wp_settleOrder h₂) (fun _ _ _ => trivial) fun order t₃ _ _ h₃ => ?_
    exact wp_call (R.wp_finalizeGatewayDiscount h₃) (fun _ _ _ => trivial)
      fun _ t _ _ h => ⟨t, rfl, h⟩

theorem ledger_accepts_settleVerified {cid pid : ℕ} {c : CheckoutSession} {payment : Payment}
    (ha : 0 ≤ payment.amountToman) : Accepts ledger p (settleVerified cid pid c payment) := by
  unfold settleVerified
  split
  · exact .pure _
  refine .bind (.ask _) fun infoMissing => ?_
  split
  · exact .pure _
  refine .bind (.ask _) fun now => .bind (ledger_accepts_settleTransaction ha) fun x => ?_
  exact (ledgerStatements p).accepts_settleResult cid pid payment x

theorem ledger_accepts_settleGatewayPayment (pid : ℕ) :
    Accepts ledger p (settleGatewayPayment pid) := by
  have P := ledgerStatements p
  refine ⟨fun r s hi => (wp_seq _ _).mpr (wp_select _ fun s₁ _ hi₁ => ?_)⟩
  split
  case h_2 => exact ⟨rfl, hi₁⟩
  rename_i payment hpay
  -- the amount that is credited later is the one read here
  have ha : 0 ≤ payment.amountToman := hi₁ pid payment hpay
  refine (Accepts.bind (.select _) fun checkout => ?_).run _ _ hi₁
  split
  · exact .pure _
  split
  · exact .pure _
  split
  case h_2 => exact .pure _
  split
  · exact accepts_alreadyOutcome _
  split
  · exact .pure _
  split
  · exact .pure _
  split
  · refine .bind (.select _) fun found => ?_
    split
    · exact .pure _
    · exact P.accepts_duplicateOutcome _ _ _ _ _
  · refine .bind (P.accepts_verifyOnDemand pid payment) fun verified => ?_
    split
    · exact .pure _
    · exact ledger_accepts_settleVerified ha

theorem LedgerTx.flipped (h : LedgerTx t) {t' : AppTx} {pid : ℕ}
    (ht : t' = t ∨ ∃ rows x, t' = t.write rows ⟨.receipts pid, x⟩) : LedgerTx t' := by
  rcases ht with rfl | ⟨rows, x, rfl⟩
  · exact h
  · exact h.other rfl x

theorem ledger_wp_approvePayment {pid adminId now : ℕ} {guard : Payment → Bool}
    (hc : LedgerTx t) :
    wp ledger p (approvePayment pid adminId now guard) (Returns fun _ t' _ => LedgerTx t')
      ⟨some t, r⟩ s := by
  refine wp_keeps hc (amount_keeps hc fun _ => rfl) fun _ t₁ _ s₁ h₁ => ?_
  split
  · trivial
  refine (wp_seq _ _).mpr (wp_flipReceipts fun n t₂ s₂ ht₂ _ _ _ => ?_)
  split
  · trivial
  · exact ⟨t₂, rfl, h₁.flipped ht₂⟩

theorem ledger_wp_payCheckout {cid pid now : ℕ} (hc : LedgerTx t) :
    wp ledger p (payCheckout cid pid now) (Returns fun _ t' _ => LedgerTx t') ⟨some t, r⟩ s := by
  refine ledger_other hc rfl fun _ t₁ _ _ h₁ => ?_
  split
  · trivial
  · exact ⟨t₁, rfl, h₁⟩

/-- The flips of an approval, then its rest. -/
theorem ledger_accepts_approve {pid adminId cid now : ℕ} {guard : Payment → Bool}
    {g : App (Except ReviewThrow α)}
    (hg : ∀ t r s, LedgerTx t → wp ledger p g (Returns fun _ t' _ => LedgerTx t') ⟨some t, r⟩ s) :
    Accepts ledger p (transaction do
      let approved ← approvePayment pid adminId now guard
      if let .error e := approved then
        return .error e
      let paid ← payCheckout cid pid now
      if let .error e := paid then
        return .error e
      g) := by
  refine (ledgerRules p).accepts_transaction fun r s _ => ?_
  refine wp_call (ledger_wp_approvePayment .empty) (fun _ _ _ => trivial) fun _ t₁ _ _ h₁ => ?_
  exact wp_call (ledger_wp_payCheckout h₁) (fun _ _ _ => trivial) fun _ t₂ _ _ h₂ => hg t₂ _ _ h₂

theorem ledger_accepts_approveTransaction (pid cid adminId : ℕ) (c : CheckoutSession) (now : ℕ) :
    Accepts ledger p (approveTransaction pid cid adminId c now) := by
  refine ledger_accepts_approve fun t r s hc => ?_
  refine wp_call ((ledgerRules p).wp_approveOrder hc) (fun _ _ _ => trivial)
    fun order t₁ _ _ h₁ => ?_
  simp only
  split
  · exact ⟨t₁, rfl, h₁⟩
  refine (wp_seq _ _).mpr (wp_ask _ fun claimed => ?_)
  split
  · trivial
  · exact ⟨t₁, rfl, h₁⟩

theorem ledger_accepts_topupTransaction {payment : Payment} (ha : 0 ≤ payment.amountToman)
    (pid cid adminId now : ℕ) :
    Accepts ledger p (topupTransaction pid cid adminId payment now) := by
  refine ledger_accepts_approve fun t r s hc => ?_
  refine (wp_seq _ _).mpr (wp_select _ fun s₁ _ _ => ?_)
  split
  · exact ⟨t, rfl, hc⟩
  · exact wp_call ((ledgerRules p).wp_creditTopup hc ha trivial) (fun _ _ _ => trivial)
      fun _ t _ _ h => ⟨t, rfl, h⟩

theorem ledger_wp_loadReviewPayment {pid : ℕ} :
    wp ledger p (loadReviewPayment pid) (fun x l s => l.tx = none ∧ AmountsNonneg s ∧
      ∀ review, x = some review → 0 ≤ review.payment.amountToman) ⟨none, r⟩ s := by
  refine (wp_seq _ _).mpr (wp_select _ fun s₁ _ hi₁ => ?_)
  split
  case h_2 => exact ⟨rfl, hi₁, by rintro _ ⟨⟩⟩
  rename_i payment hpay
  refine (wp_seq _ _).mpr (wp_select _ fun s₂ _ _ => ?_)
  refine (wp_seq _ _).mpr (wp_select _ fun s₃ _ hi₃ => ?_)
  split
  · exact ⟨rfl, hi₃, by rintro _ ⟨⟩⟩
  · refine ⟨rfl, hi₃, ?_⟩
    rintro review ⟨⟩
    exact hi₁ pid payment hpay

theorem ledger_accepts_approveReceiptPayment (pid adminId : ℕ) :
    Accepts ledger p (approveReceiptPayment pid adminId) := by
  refine ⟨fun r s _ => (wp_seq _ _).mpr (wp_mono _ (fun x l s hx => ?_) ledger_wp_loadReviewPayment)⟩
  obtain ⟨tx, reads⟩ := l
  obtain ⟨rfl, hi, hx⟩ := hx
  cases x with
  | none => exact ⟨rfl, hi⟩
  | some review =>
  have ha := hx review rfl
  simp only
  split
  · exact ⟨rfl, hi⟩
  split
  case h_2 => exact ⟨rfl, hi⟩
  rename_i cid c _
  split
  · exact ⟨rfl, hi⟩
  split
  · exact ⟨rfl, hi⟩
  split
  · exact ⟨rfl, hi⟩
  split
  · exact ⟨rfl, hi⟩
  refine (Accepts.bind (.ask _) fun now => ?_).run _ _ hi
  split
  · refine .bind (ledger_accepts_topupTransaction ha pid cid adminId now) fun x => ?_
    rcases x with (_ | _) | _ <;> exact .pure _
  · refine .bind (.ask _) fun infoMissing => ?_
    split
    · exact .pure _
    refine .bind (ledger_accepts_approveTransaction pid cid adminId c now) fun x => ?_
    rcases x with (_ | _) | _ <;> exact .pure _

theorem ledger_accepts_rejectTransaction (pid adminId : ℕ)
    (checkout : Option (ℕ × CheckoutSession)) (reason : String) (now : ℕ) :
    Accepts ledger p (rejectTransaction pid adminId checkout reason now) := by
  refine (ledgerRules p).accepts_transaction fun r s _ => ?_
  refine wp_keeps .empty (amount_keeps .empty fun _ => rfl) fun _ t₁ _ s₁ h₁ => ?_
  split
  · trivial
  refine (wp_seq _ _).mpr (wp_flipReceipts fun n t₂ s₂ ht₂ _ _ _ => ?_)
  have h₂ := h₁.flipped ht₂
  split
  · exact ⟨t₂, rfl, h₂⟩
  split
  · refine ledger_other h₂ rfl fun _ t₃ _ _ h₃ => ?_
    split
    · trivial
    · exact ⟨t₃, rfl, h₃⟩
  · exact ⟨t₂, rfl, h₂⟩

theorem ledger_wp_settlementCheckout {args : WalletSettlementArgs} {minutes now : ℕ}
    (hc : LedgerTx t) :
    wp ledger p (settlementCheckout args minutes now) (Returns fun _ t' _ => LedgerTx t')
      ⟨some t, r⟩ s := by
  unfold settlementCheckout
  split
  · refine ledger_other hc rfl fun _ t₁ _ _ h₁ => ?_
    split
    · trivial
    refine (wp_seq _ _).mpr (wp_select _ fun s₂ _ _ => ?_)
    split
    · exact ⟨t₁, rfl, h₁⟩
    · trivial
  · refine (wp_seq _ _).mpr (wp_ask _ fun id => ledger_other hc rfl fun _ t₁ _ _ h₁ => ?_)
    split
    · trivial
    · exact ⟨t₁, rfl, h₁⟩

theorem ledger_accepts_walletTransactionBody {args : WalletSettlementArgs}
    (hvalid : hasValidFinancialInvariant args = true) (minutes now : ℕ) :
    Accepts ledger p (walletTransactionBody args minutes now) := by
  have hpos : 0 < args.finalPriceToman := by
    simp only [hasValidFinancialInvariant, decide_eq_true_eq] at hvalid
    exact hvalid.2.2.2.2.2.1
  have R := ledgerRules p
  refine R.accepts_transaction fun r s _ => ?_
  refine wp_call (ledger_wp_settlementCheckout .empty) (fun _ _ _ => trivial)
    fun x t₁ _ s₁ h₁ => ?_
  obtain ⟨cid, c⟩ := x
  refine (wp_seq _ _).mpr (wp_ask _ fun paymentId => ?_)
  refine (wp_seq _ _).mpr (wp_sql_tx fun s₂ _ _ _ => ?_)
  split
  case h_2 => trivial
  rw [Tx.add, Tx.append_nil]
  refine ledger_other ((h₁.writePayment (.inl (Int.le_of_lt hpos))).other rfl _) rfl
    fun _ t₃ _ _ h₃ => ?_
  split
  · trivial
  refine (wp_seq _ _).mpr (wp_ask _ fun orderId => ?_)
  refine (wp_seq _ _).mpr (wp_mono _ (fun created l s₄ hl => ?_) (R.wp_createOrder h₃ rfl))
  obtain ⟨tx, reads⟩ := l
  obtain ⟨t₄, rfl, h₄⟩ := hl
  split
  · trivial
  refine R.wp_walletTail h₄ fun w t₅ _ _ h₅ => ?_
  split
  · exact ⟨t₅, rfl, h₅⟩
  refine (wp_seq _ _).mpr (wp_ask _ fun claimed => ?_)
  split
  · trivial
  · exact ⟨t₅, rfl, h₅⟩

theorem LedgerTx.writeCheckouts (h : LedgerTx t) (rows : ∀ k, Row k) (ws : List (ℕ × CheckoutSession))
    (data : CheckoutSession → CheckoutSession) :
    LedgerTx ((ws.map fun x => (⟨.checkout x.1, some (data x.2)⟩ : Write Row)).foldl
      (fun t w => t.write rows w) t) := by
  induction ws generalizing t with
  | nil => exact h
  | cons x xs ih => exact ih (h.other rfl _)

theorem ledger_accepts_materialize (args : MaterializeArgs) :
    Accepts ledger p (materializePendingOtherProductCheckout args) := by
  refine .bind (.ask _) fun minutes => .bind (.ask _) fun now => ?_
  refine (ledgerRules p).accepts_transaction fun r s _ => ?_
  refine (wp_seq _ _).mpr (wp_ask _ fun checkoutIds => ?_)
  refine (wp_seq _ _).mpr (wp_select _ fun s₁ _ _ => ?_)
  refine (wp_seq _ _).mpr (wp_sql_tx fun s₂ _ _ _ => ?_)
  rw [Tx.add, Tx.append_nil]
  generalize List.filter _ checkoutIds.ids = ids
  have h₂ := LedgerTx.empty.writeCheckouts s₂.rows
    (ids.filterMap fun id => (s₂.rows (.checkout id)).map fun c => (id, c))
    fun c => { c with status := .CANCELLED }
  refine (wp_seq _ _).mpr (wp_ask _ fun id => ?_)
  refine ledger_other h₂ rfl fun _ t₃ _ _ h₃ => ?_
  split
  · trivial
  · exact ⟨t₃, rfl, h₃⟩

end Accepted

/-- The ledger discipline accepts every call. -/
theorem ledger_accepts (c : PaymentCall) : Accepts ledger p c.prog := by
  have P := ledgerStatements p
  have R := ledgerRules p
  cases c <;> simp only [PaymentCall.prog]
  case settleGatewayPayment id => exact accepts_discard (ledger_accepts_settleGatewayPayment id)
  case approveReceiptPayment id adminId =>
    exact accepts_discard (ledger_accepts_approveReceiptPayment id adminId)
  case rejectReceiptPayment id adminId reason =>
    refine accepts_discard (accepts_rejectReceiptPayment id adminId reason fun checkout text now => ?_)
    exact ledger_accepts_rejectTransaction id adminId checkout text now
  case settleWalletOrder args =>
    refine accepts_discard (accepts_settleWalletOrder args fun hvalid minutes now => ?_)
    exact ledger_accepts_walletTransactionBody hvalid minutes now
  case materializePendingOtherProductCheckout args =>
    exact accepts_discard (ledger_accepts_materialize args)
  case recordProviderOutcome lookup event =>
    exact accepts_discard (P.accepts_recordProviderOutcome lookup event)
  case recordProviderSuccessFromBot id charge => exact P.accepts_recordProviderSuccessFromBot id charge
  case recordDuplicateSuccess input => exact accepts_discard (P.file input)
  case runGatewaySettlementSweep =>
    exact accepts_runGatewaySettlementSweep ledger_accepts_settleGatewayPayment
      ledger_accepts_expireStalePayments
  case adjustUserWallet args => exact accepts_discard (R.accepts_adjustUserWallet args)
  case creditReferralCommissionForOrder orderId =>
    exact accepts_discard (R.accepts_creditReferral orderId _)
  case runClawbackStep orderId now => exact accepts_discard (R.accepts_runClawbackStep orderId now)

theorem ledger_good {calls : ℕ → Option PaymentCall} {s : AppStore} (hi : AmountsNonneg s) :
    Good ledger (Config.start s (pool calls)) :=
  good_pool hi fun _ c _ => ledger_accepts c

end ZedBot
