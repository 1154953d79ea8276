import ZedBot.Payments.Steps

/-! What the functions of the payment services do inside a transaction, for any discipline and class of
    transactions that is kept by their statements: one lemma for each function of the source, each
    using those of the functions it calls. -/

namespace ZedBot
open ReadCommitted RunningBalance

/-- A program inside a transaction returns with changes satisfying `P`, or throws. -/
def Returns {ε α : Type} (P : α → AppTx → AppStore → Prop) (x : Except ε α)
    (l : Local Row Entry World) (s : AppStore) : Prop :=
  match x with
  | .ok y => ∃ t, l.tx = some t ∧ P y t s
  | .error _ => True

/-- The rules by which a class `C` of transactions, all of which `D` lets process `p` commit, is kept
    by single statements. `Top t pid u a` allows the top-up of user `u` by `a` for payment `pid`. -/
structure Rules (D : Discipline Row Entry World) (p : ℕ) (C : AppTx → Prop)
    (Top : AppTx → ℕ → ℕ → ℤ → Prop) : Prop where
  empty : C {}
  commits : ∀ {r s t}, C t → D.Commits p r s t
  /-- A write to a table that no rule looks at. -/
  free : ∀ {t rows} {k : Key} (n : Row k), C t → k.ruled = false → C (t.write rows ⟨k, n⟩)
  /-- A commission is listed. -/
  list : ∀ {t orderId}, C t → C (t.append [.commission orderId])
  /-- A payment is written again in the same state. -/
  link : ∀ {t rows pid} {q n : Payment}, C t → t.row rows (.payment pid) = some q →
    q.SameState n → C (t.write rows ⟨.payment pid, some n⟩)
  /-- The order of a checkout is created with its entry in the unique index. -/
  newOrder : ∀ {t rows id c} {row : Order}, C t → t.row rows (.order id) = none →
    t.row rows (.orderOfCheckout c) = none → row.checkoutSessionId = some c →
    C ((t.write rows ⟨.order id, some row⟩).write rows ⟨.orderOfCheckout c, some id⟩)
  /-- An order is written again with the same checkout. -/
  noteOrder : ∀ {t rows id} {q n : Order}, C t → t.row rows (.order id) = some q →
    n.checkoutSessionId = q.checkoutSessionId → C (t.write rows ⟨.order id, some n⟩)
  /-- A case is created where none is seen. -/
  newCase : ∀ {t rows id} {row : FinancialReconciliationCase}, C t →
    t.row rows (.reconciliation id) = none → C (t.write rows ⟨.reconciliation id, some row⟩)
  /-- The counters of a user move, the balance stays. -/
  count : ∀ {t rows u} {q n : User}, C t → t.row rows (.user u) = some q →
    n.balanceToman = q.balanceToman → n.allowNegativeBalance = q.allowNegativeBalance →
    C (t.write rows ⟨.user u, some n⟩)
  /-- A balance moves with the one ledger row that records it. -/
  move : ∀ {t rows u} {q n : User} {w : WalletTransaction}, C t →
    t.row rows (.user u) = some q → w.userId = u → w.balanceBeforeToman = q.balanceToman →
    w.balanceAfterToman = n.balanceToman →
    n.balanceToman = q.balanceToman + w.type.sign * w.amountToman →
    n.allowNegativeBalance = q.allowNegativeBalance →
    (q.allowNegativeBalance = false → 0 ≤ q.balanceToman → 0 ≤ n.balanceToman) →
    (w.reason = .WALLET_TOPUP_CARD_TO_CARD → ∀ pid, w.relatedPaymentId = some pid →
      Top t pid w.userId w.amountToman) →
    C ((t.write rows ⟨.user u, some n⟩).append [.wallet w])
  /-- No transaction creates a user. -/
  user_fresh : ∀ {t u} {rows : ∀ k, Row k}, C t → t.Held rows → t.row rows (.user u) = none →
    rows (.user u) = none
  user_absent : ∀ {q r s s' u}, D.Step q r s s' → s.rows (.user u) = none →
    s'.rows (.user u) = none

variable {D : Discipline Row Entry World} {C : AppTx → Prop} {Top : AppTx → ℕ → ℕ → ℤ → Prop}
  {p : ℕ} {t : AppTx} {r : List AppStore} {s : AppStore} {ε α : Type}

/-- A transaction whose body leaves changes of the class is accepted. -/
theorem Rules.wp_transaction (R : Rules D p C Top) {body : App (Except ε α)} (hi : D.Inv s)
    (h : wp D p body (Returns fun _ t _ => C t) ⟨some {}, r⟩ s) :
    wp D p (transaction body) (fun _ l s => l.tx = none ∧ D.Inv s) ⟨none, r⟩ s := by
  refine Accepts.transaction_from hi (wp_mono body (fun x l s hx => ?_) h)
  cases x with
  | error e => trivial
  | ok x =>
    obtain ⟨t, ht, hc⟩ := hx
    exact ⟨t, ht, fun _ _ _ => R.commits hc⟩

theorem Rules.accepts_transaction (R : Rules D p C Top) {body : App (Except ε α)}
    (h : ∀ r s, D.Inv s → wp D p body (Returns fun _ t _ => C t) ⟨some {}, r⟩ s) :
    Accepts D p (transaction body) := ⟨fun r s hi => R.wp_transaction hi (h r s hi)⟩

/-- A call inside a transaction: it throws and the caller throws, or the caller goes on with what it
    left. -/
theorem wp_call {β : Type} {m : App (Except ε α)} {g : Except ε α → App β}
    {P : α → AppTx → AppStore → Prop} {Q : β → Local Row Entry World → AppStore → Prop}
    (hm : wp D p m (Returns P) ⟨some t, r⟩ s)
    (herr : ∀ e l s, wp D p (g (.error e)) Q l s)
    (hok : ∀ x t r s, P x t s → wp D p (g (.ok x)) Q ⟨some t, r⟩ s) :
    wp D p (m >>= g) Q ⟨some t, r⟩ s := by
  refine (wp_seq _ _).mpr (wp_mono _ (fun x l s hx => ?_) hm)
  cases x with
  | error e => exact herr e l s
  | ok x =>
    obtain ⟨tx, reads⟩ := l
    obtain ⟨t', rfl, hP⟩ := hx
    exact hok x t' reads s hP

/-- An update inside a transaction that keeps it in the class whenever its row matches. -/
theorem wp_keeps {k : Key} {f : Row k → Option (Row k)} {β : Type} {g : ℕ → App β}
    {Q : β → Local Row Entry World → AppStore → Prop} (hc : C t)
    (hf : ∀ rows n, f (t.row rows k) = some n → C (t.write rows ⟨k, n⟩))
    (h : ∀ n t' r s', C t' → wp D p (g n) Q ⟨some t', r⟩ s') :
    wp D p (update k f >>= g) Q ⟨some t, r⟩ s :=
  (wp_seq _ _).mpr (wp_update_tx fun s₁ _ _ _ =>
    ⟨fun _ => h 0 t r s₁ hc, fun n hn => h 1 _ r s₁ (hf s₁.rows n hn)⟩)

/-- The receipts flipped, or left when none is in review. -/
theorem wp_flipReceipts {pid : ℕ} {st : PaymentStatus}
    {Q : ℕ → Local Row Entry World → AppStore → Prop}
    (h : ∀ n t' s', (t' = t ∨ ∃ rows x, t' = t.write rows ⟨.receipts pid, x⟩) →
      D.Later p t.Holds s s' → D.Inv s' → t.Held s'.rows → Q n ⟨some t', r⟩ s') :
    wp D p (flipReceipts pid st) Q ⟨some t, r⟩ s := by
  refine wp_sql_tx fun s' hl hi hh => ?_
  simp only
  split
  · refine h 0 _ s' (.inl ?_) hl hi hh
    simp [Tx.add]
  · exact h _ _ s' (.inr ⟨s'.rows, _, Tx.append_nil ..⟩) hl hi hh

namespace Rules

variable (R : Rules D p C Top)
include R

/-! ### Balance movements -/

theorem wp_creditTopup {paymentId userId : ℕ} {amount : ℤ} (hc : C t) (ha : 0 ≤ amount)
    (htop : Top t paymentId userId amount) :
    wp D p (creditTopup paymentId userId amount) (Returns fun _ t' _ => C t') ⟨some t, r⟩ s := by
  refine (wp_seq _ _).mpr (wp_update_tx fun s₁ _ _ _ => ⟨fun _ => trivial, fun n hn => ?_⟩)
  obtain ⟨q, hq, _, rfl⟩ := onRow_eq_some.mp hn
  refine (wp_seq _ _).mpr (wp_select _ fun s₂ _ _ => ?_)
  simp only [Local.pending, Store.view, Option.getD_some, Tx.row_write_self, Option.map_some]
  refine (wp_seq _ _).mpr (wp_append_tx fun s₃ _ _ => ?_)
  refine ⟨_, rfl, R.move hc hq rfl ?_ rfl ?_ rfl ?_ ?_⟩
  · simp
  · simp [WalletTransactionType.sign]
  · intro _ hb; simp only; omega
  · rintro _ pid ⟨⟩; exact htop

theorem wp_deductBalance {args : WalletSettlementArgs} {orderId paymentId : ℕ}
    (hc : C t) :
    wp D p (deductBalance args orderId paymentId) (Returns fun _ t' _ => C t') ⟨some t, r⟩ s := by
  refine (wp_seq _ _).mpr (wp_update_tx fun s₁ _ _ _ => ⟨fun _ => trivial, fun n hn => ?_⟩)
  obtain ⟨q, hq, hle, rfl⟩ := onRow_eq_some.mp hn
  refine (wp_seq _ _).mpr (wp_select _ fun s₂ _ _ => ?_)
  simp only [Local.pending, Store.view, Option.getD_some, Tx.row_write_self, Option.map_some]
  refine (wp_seq _ _).mpr (wp_append_tx fun s₃ _ _ => ?_)
  refine ⟨_, rfl, R.move hc hq rfl ?_ rfl ?_ rfl ?_ ?_⟩
  · simp [deductOrder]
  · simp [deductOrder, WalletTransactionType.sign]; omega
  · intro _ _; simp only [decide_eq_true_eq] at hle; simp only [deductOrder]; omega
  · intro h; cases h

theorem accepts_adjustUserWallet (args : AdjustUserWalletArgs) :
    Accepts D p (adjustUserWallet args) := by
  unfold adjustUserWallet
  split
  · exact .pure _
  rename_i hvalid
  split
  · rename_i reason _
    refine .bind (R.accepts_transaction fun r s _ => ?_) fun x => ?_
    · have ha : 0 < args.amountToman := by
        simp only [isValidAdjustAmount, decide_eq_true_eq, not_not] at hvalid
        exact hvalid.2.1
      refine (wp_seq _ _).mpr ?_
      unfold applyAdjustment
      cases hact : args.action with
      | INCREASE =>
        refine (wp_seq _ _).mpr (wp_update_tx fun s₁ _ _ _ => ⟨fun _ => trivial, fun n hn => ?_⟩)
        obtain ⟨q, hq, _, rfl⟩ := onRow_eq_some.mp hn
        refine (wp_seq _ _).mpr (wp_select _ fun s₂ _ _ => ?_)
        simp only [Local.pending, Store.view, Option.getD_some, Tx.row_write_self]
        refine (wp_seq _ _).mpr (wp_append_tx fun s₃ _ _ => ?_)
        refine ⟨_, rfl, R.move R.empty hq rfl ?_ rfl ?_ rfl ?_ ?_⟩
        · simp [adjustmentRow, hact]
        · simp [adjustmentRow, hact, WalletTransactionType.sign]
        · intro _ hb; simp only; omega
        · intro h; cases h
      | DECREASE =>
        refine (wp_seq _ _).mpr (wp_update_tx fun s₁ _ _ _ => ⟨fun _ => ?_, fun n hn => ?_⟩)
        · exact (wp_seq _ _).mpr (wp_select _ fun _ _ _ => trivial)
        obtain ⟨q, hq, hle, rfl⟩ := onRow_eq_some.mp hn
        refine (wp_seq _ _).mpr (wp_select _ fun s₂ _ _ => ?_)
        simp only [Local.pending, Store.view, Option.getD_some, Tx.row_write_self]
        refine (wp_seq _ _).mpr (wp_append_tx fun s₃ _ _ => ?_)
        refine ⟨_, rfl, R.move R.empty hq rfl ?_ rfl ?_ rfl ?_ ?_⟩
        · simp [adjustmentRow, hact]
        · simp [adjustmentRow, hact, WalletTransactionType.sign]; omega
        · intro _ _; simp only [decide_eq_true_eq] at hle; simp only; omega
        · intro h; cases h
    · cases x <;> exact .pure _
  · exact .pure _

theorem wp_creditReferrer {orderId userId : ℕ} {amount price : ℤ} (hc : C t)
    (ha : 0 ≤ amount) :
    wp D p (creditReferrer orderId userId amount price) (Returns fun _ t' _ => C t')
      ⟨some t, r⟩ s := by
  refine (wp_seq _ _).mpr (wp_update_tx fun s₁ _ _ _ => ⟨fun _ => trivial, fun n hn => ?_⟩)
  obtain ⟨q, hq, _, rfl⟩ := onRow_eq_some.mp hn
  refine (wp_seq _ _).mpr (wp_select _ fun s₂ _ _ => ?_)
  simp only [Local.pending, Store.view, Option.getD_some, Tx.row_write_self, Option.map_some]
  refine (wp_seq _ _).mpr (wp_append_tx fun s₃ _ _ => ?_)
  refine ⟨_, rfl, R.move hc hq rfl ?_ rfl ?_ rfl ?_ ?_⟩
  · simp
  · simp [WalletTransactionType.sign]
  · intro _ hb; simp only; omega
  · intro h; cases h

theorem wp_debitReferrer {orderId userId : ℕ} {amount : ℤ} (hc : C t)
    (hle : ∀ q, t.row s.rows (.user userId) = some q → q.allowNegativeBalance = false →
      0 ≤ q.balanceToman → amount ≤ q.balanceToman)
    (hk : t.Holds (.user userId)) :
    wp D p (debitReferrer orderId userId amount) (Returns fun _ t' _ => C t')
      ⟨some t, r⟩ s := by
  refine (wp_seq _ _).mpr (wp_update_tx fun s₁ hl _ _ => ⟨fun _ => trivial, fun n hn => ?_⟩)
  obtain ⟨q, hq, _, rfl⟩ := onRow_eq_some.mp hn
  have hrow : t.row s.rows (.user userId) = some q := by
    rw [← hq, Tx.row, Tx.row, hl.rows_eq hk]
  refine (wp_seq _ _).mpr (wp_select _ fun s₂ _ _ => ?_)
  simp only [Local.pending, Store.view, Option.getD_some, Tx.row_write_self, Option.map_some]
  refine (wp_seq _ _).mpr (wp_append_tx fun s₃ _ _ => ?_)
  refine ⟨_, rfl, R.move hc hq rfl ?_ rfl ?_ rfl ?_ ?_⟩
  · simp
  · simp [WalletTransactionType.sign]; omega
  · intro hneg hb; have := hle q hrow hneg hb; simp only; omega
  · intro h; cases h

/-! ### Referral commissions -/

/-- An update of a table that no rule looks at, inside a transaction. -/
theorem wp_free {k : Key} {f : Row k → Option (Row k)} {β : Type} {g : ℕ → App β}
    {Q : β → Local Row Entry World → AppStore → Prop} (hc : C t) (hk : k.ruled = false)
    (h : ∀ n t' s', C t' → wp D p (g n) Q ⟨some t', r⟩ s') :
    wp D p (update k f >>= g) Q ⟨some t, r⟩ s :=
  (wp_seq _ _).mpr (wp_update_tx fun _ _ _ _ =>
    ⟨fun _ => h 0 t _ hc, fun n _ => h 1 _ _ (R.free n hc hk)⟩)

/-- Outside a transaction too. -/
theorem accepts_free {k : Key} {f : Row k → Option (Row k)} (hk : k.ruled = false) :
    Accepts D p (update k f : App ℕ) :=
  Accepts.update fun _ _ n _ _ => R.commits (R.free n R.empty hk)

theorem wp_createCommission {orderId : ℕ} {c : ReferralCommission} {β : Type} {g : Bool → App β}
    {Q : β → Local Row Entry World → AppStore → Prop} (hc : C t)
    (h : ∀ b t' s', C t' → wp D p (g b) Q ⟨some t', r⟩ s') :
    wp D p (createCommission orderId c >>= g) Q ⟨some t, r⟩ s := by
  refine (wp_seq _ _).mpr (wp_sql_tx fun s' _ _ _ => ?_)
  simp only [Store.view]
  cases hfree : t.row s'.rows (.commission orderId) with
  | some _ => simpa [Tx.add] using h false t s' hc
  | none =>
    have hnew : C (t.write s'.rows ⟨.commission orderId, some c⟩) := R.free _ hc rfl
    simpa [Tx.add] using h true _ s' (R.list hnew)

theorem accepts_createCommission (orderId : ℕ) (c : ReferralCommission) :
    Accepts D p (createCommission orderId c) := by
  refine .sql fun r s _ => R.commits ?_
  simp only [Store.view, Tx.row_empty]
  cases hfree : s.rows (.commission orderId) with
  | some _ => simpa [Tx.add] using R.empty
  | none =>
    have hnew : C (Tx.write {} s.rows ⟨.commission orderId, some c⟩) := R.free _ R.empty rfl
    simpa [Tx.add] using R.list hnew

theorem wp_markNotFirst {orderId : ℕ} {order : Order} {referral : Referral} {percent : ℤ}
    (hc : C t) :
    wp D p (markNotFirst orderId order referral percent) (Returns fun _ t' _ => C t')
      ⟨some t, r⟩ s := by
  refine R.wp_createCommission hc fun marked t₁ s₁ h₁ => ?_
  split
  · trivial
  · exact ⟨t₁, rfl, h₁⟩

theorem wp_payCommission {orderId : ℕ} {order : Order} {referral : Referral}
    {decision : ReferralCommissionDecision} {now : ℕ} (hc : C t)
    (hd : 0 < decision.commissionToman) :
    wp D p (payCommission orderId order referral decision now) (Returns fun _ t' _ => C t')
      ⟨some t, r⟩ s := by
  refine R.wp_createCommission hc fun created t₁ s₁ h₁ => ?_
  split
  · trivial
  refine wp_call (R.wp_creditReferrer h₁ (Int.le_of_lt hd)) (fun _ _ _ => trivial)
    fun _ t₂ _ _ h₂ => ?_
  refine R.wp_free h₂ rfl fun n t₃ s₃ h₃ => ?_
  split
  · trivial
  · exact ⟨t₃, rfl, h₃⟩

theorem accepts_creditTransaction {orderId : ℕ} {order : Order} {referral : Referral}
    {decision : ReferralCommissionDecision} {first : Bool} {now : ℕ}
    (hd : 0 < decision.commissionToman) :
    Accepts D p (creditTransaction orderId order referral decision first now) := by
  refine R.accepts_transaction fun r s _ => ?_
  refine R.wp_free R.empty rfl fun _ t₁ s₁ h₁ => ?_
  split
  · refine (wp_seq _ _).mpr (wp_select _ fun s₂ _ _ => ?_)
    split
    · exact R.wp_markNotFirst h₁
    · exact R.wp_payCommission h₁ hd
  · exact R.wp_payCommission h₁ hd

theorem accepts_recordNoCommissionMarker (orderId : ℕ) (referral : Referral) (userId : ℕ)
    (percent : ℤ) :
    Accepts D p (recordNoCommissionMarker orderId referral userId percent) :=
  .bind (R.accepts_createCommission _ _) fun _ => .pure _

theorem accepts_creditReferral (orderId : ℕ) (settings : Choice → ReferralConfig) :
    Accepts D p (creditReferralCommissionForOrder orderId settings) := by
  refine .bind (.ask _) fun enabled => ?_
  split
  · exact .pure _
  refine .bind (.select _) fun order => ?_
  cases order with
  | none => exact .pure _
  | some order =>
  simp only
  split
  · exact .pure _
  refine .bind (.ask _) fun within => ?_
  split
  · exact .pure _
  refine .bind (.select _) fun referral => ?_
  cases referral with
  | none => exact .pure _
  | some referral =>
  simp only
  split
  · exact .bind (R.accepts_recordNoCommissionMarker _ _ _ _) fun _ => .pure _
  refine .bind (.ask _) fun representative => ?_
  split
  · exact .bind (R.accepts_recordNoCommissionMarker _ _ _ _) fun _ => .pure _
  refine .bind (.ask _) fun config => ?_
  split
  · exact .bind (R.accepts_recordNoCommissionMarker _ _ _ _) fun _ => .pure _
  rename_i heligible
  refine .bind (.ask _) fun now => ?_
  refine .bind (R.accepts_creditTransaction (commission_pos (by simpa using heligible))) fun x => ?_
  split <;> exact .pure _

/-! ### Clawback -/

theorem wp_recoverDebt {orderId : ℕ} {c : ReferralCommission} {plan : ReferralClawbackPlan}
    {now : ℕ} (hc : C t)
    (hle : ∀ q, t.row s.rows (.user c.referrerUserId) = some q → q.allowNegativeBalance = false →
      0 ≤ q.balanceToman → plan.recoverNow ≤ q.balanceToman)
    (hk : t.Holds (.user c.referrerUserId)) :
    wp D p (recoverDebt orderId c plan now) (Returns fun _ t' _ => C t') ⟨some t, r⟩ s := by
  refine wp_call (R.wp_debitReferrer hc hle hk) (fun _ _ _ => trivial) fun _ t₁ _ _ h₁ => ?_
  refine R.wp_free h₁ rfl fun n t₂ s₂ h₂ => ?_
  split
  · trivial
  refine R.wp_free h₂ rfl fun n t₃ s₃ h₃ => ?_
  split
  · trivial
  · exact ⟨t₃, rfl, h₃⟩

theorem wp_recordDebt {orderId : ℕ} {c : ReferralCommission} {outstanding : ℤ} {now : ℕ}
    (hc : C t) :
    wp D p (recordDebt orderId c outstanding now) (Returns fun _ t' _ => C t') ⟨some t, r⟩ s := by
  refine R.wp_free hc rfl fun n t₁ s₁ h₁ => ?_
  split
  · trivial
  · exact ⟨t₁, rfl, h₁⟩

theorem user_absent_later {ks : Key → Prop} {u : ℕ} {s' : AppStore}
    (hs : s.rows (.user u) = none) (hi : D.Inv s) (hl : D.Later p ks s s') :
    s'.rows (.user u) = none :=
  hl.stable (P := fun s => s.rows (.user u) = none) (fun _ _ => R.user_absent) hi hs

theorem accepts_runClawbackStep (orderId now : ℕ) :
    Accepts D p (runClawbackStep orderId now) := by
  refine R.accepts_transaction fun r s _ => ?_
  refine R.wp_free R.empty rfl fun _ t₁ s₁ h₁ => ?_
  refine (wp_seq _ _).mpr (wp_select _ fun s₂ _ _ => ?_)
  split
  case h_2 => exact ⟨t₁, rfl, h₁⟩
  rename_i c _
  refine R.wp_free h₁ rfl fun _ t₂ s₃ h₂ => ?_
  split
  case h_2 => exact ⟨t₂, rfl, h₂⟩
  rename_i outstanding _
  -- the balance is read under the lock of the user's row
  refine (wp_seq _ _).mpr (wp_update_tx fun s₄ _ i₄ hh₄ => ⟨fun hnone => ?_, fun n hn => ?_⟩)
  · refine (wp_seq _ _).mpr (wp_select _ fun s₅ hl hi => ?_)
    have hfree : t₂.row s₄.rows (.user c.referrerUserId) = none := by
      cases hrow : t₂.row s₄.rows (.user c.referrerUserId) with
      | none => rfl
      | some q => rw [hrow] at hnone; cases onRow_eq_none.mp hnone q rfl
    have hgone := R.user_absent_later (R.user_fresh h₂ hh₄ hfree) i₄ hl
    have hfree' : t₂.row s₅.rows (.user c.referrerUserId) = none := by
      rcases Tx.chg_of_row hfree with ⟨h1, _⟩ | h1
      · rw [Tx.row_of_chg h1, hgone]
      · rw [Tx.row, h1]
    simp only [Local.pending, Store.view, Option.getD_some, hfree', Option.map_none,
      Option.getD_none]
    have hzero : ¬ 0 < (planReferralClawback outstanding 0 false).recoverNow := by
      simp only [planReferralClawback, Bool.false_eq_true, if_false]; omega
    rw [if_neg hzero]
    exact wp_call (R.wp_recordDebt h₂) (fun _ _ _ => trivial) fun _ t _ _ h => ⟨t, rfl, h⟩
  · obtain ⟨q, hq, _, rfl⟩ := onRow_eq_some.mp hn
    have h₃ := R.count (n := q) h₂ hq rfl rfl
    refine (wp_seq _ _).mpr (wp_select _ fun s₅ _ _ => ?_)
    simp only [Local.pending, Store.view, Option.getD_some, Tx.row_write_self, Option.map_some, id]
    split
    · refine wp_call (R.wp_recoverDebt h₃ ?_ ?_) (fun _ _ _ => trivial)
        fun _ t _ _ h => ⟨t, rfl, h⟩
      · intro q' hq' hneg hpos
        simp only [Tx.row_write_self, Option.some.injEq] at hq'
        subst hq'
        exact planReferralClawback_affordable hneg hpos
      · simp [Tx.Holds]
    · exact wp_call (R.wp_recordDebt h₃) (fun _ _ _ => trivial) fun _ t _ _ h => ⟨t, rfl, h⟩

/-! ### Orders -/

theorem wp_findOrCreateCase {id : ℕ} {row : FinancialReconciliationCase} (hc : C t) :
    wp D p (findOrCreateCase id row) (Returns fun _ t' _ => C t')
      ⟨some t, r⟩ s := by
  refine (wp_seq _ _).mpr (wp_select _ fun s₁ _ _ => ?_)
  split
  · exact ⟨t, rfl, hc⟩
  refine (wp_seq _ _).mpr (wp_update_tx fun s₂ _ _ _ => ⟨fun _ => ?_, fun n hn => ?_⟩)
  · refine (wp_seq _ _).mpr (wp_select _ fun s₃ _ _ => ?_)
    split
    · exact ⟨t, rfl, hc⟩
    · trivial
  · obtain ⟨hnone, rfl⟩ := onFree_eq_some.mp hn
    exact ⟨_, rfl, R.newCase hc hnone⟩

theorem wp_createOrder {id cid : ℕ} {row : Order} (hc : C t)
    (hrow : row.checkoutSessionId = some cid) :
    wp D p (createOrder id row) (fun _ l _ => ∃ t', l.tx = some t' ∧ C t')
      ⟨some t, r⟩ s := by
  intro s₁ _ _ _
  simp only [Store.view, Local.pending, Option.getD_some, hrow]
  split
  · exact ⟨_, rfl, by simpa [Tx.add] using hc⟩
  · rename_i h; cases h
  · rename_i x hx heq
    cases heq
    split
    · exact ⟨_, rfl, by simpa [Tx.add] using hc⟩
    · rename_i hi
      exact ⟨_, rfl, by simpa [Tx.add] using R.newOrder hc hx hi hrow⟩

/-- The link from a payment to its order. -/
theorem link_keeps (hc : C t) {pid orderId : ℕ} (rows : ∀ k, Row k) (n : Option Payment)
    (hn : onRow (fun _ => true) (fun p : Payment => { p with orderId := some orderId })
      (t.row rows (.payment pid)) = some n) : C (t.write rows ⟨.payment pid, n⟩) := by
  obtain ⟨q, hq, _, rfl⟩ := onRow_eq_some.mp hn
  exact R.link hc hq ⟨rfl, rfl, rfl⟩

/-- The counters of a paid order. -/
theorem count_keeps (hc : C t) {u : ℕ} {price : ℤ} (rows : ∀ k, Row k) (n : Option User)
    (hn : onRow (fun _ => true) (countOrder price) (t.row rows (.user u)) = some n) :
    C (t.write rows ⟨.user u, n⟩) := by
  obtain ⟨q, hq, _, rfl⟩ := onRow_eq_some.mp hn
  exact R.count hc hq rfl rfl

/-- The note on an order whose discount could not be claimed. -/
theorem note_keeps (hc : C t) {id : ℕ} {note : String} (rows : ∀ k, Row k)
    (n : Option Order)
    (hn : onRow (fun _ => true) (fun o : Order => { o with adminNote := some note })
      (t.row rows (.order id)) = some n) : C (t.write rows ⟨.order id, n⟩) := by
  obtain ⟨q, hq, _, rfl⟩ := onRow_eq_some.mp hn
  exact R.noteOrder hc hq rfl

theorem wp_linkCreatedOrder {cid pid orderId : ℕ} {c : CheckoutSession} (hc : C t) :
    wp D p (linkCreatedOrder cid pid orderId c) (Returns fun _ t' _ => C t')
      ⟨some t, r⟩ s := by
  have link : ∀ {t : AppTx} {r s}, C t →
      wp D p (do
        let linked ← updatePayment pid (fun _ => true) fun p => { p with orderId := some orderId }
        if linked = 0 then
          return .error SettleThrow.crash
        let counted ← updateUser c.userId (fun _ => true) (countOrder c.finalPriceToman)
        if counted = 0 then
          return .error .crash
        return .ok ()) (Returns fun _ t' _ => C t') ⟨some t, r⟩ s := by
    intro t r s hc
    refine wp_keeps hc (R.link_keeps hc) fun _ t₁ _ _ h₁ => ?_
    split
    · trivial
    refine wp_keeps h₁ (R.count_keeps h₁) fun _ t₂ _ _ h₂ => ?_
    split
    · trivial
    · exact ⟨t₂, rfl, h₂⟩
  refine (wp_seq _ _).mpr (wp_ask _ fun bound => ?_)
  split
  · refine wp_call (R.wp_findOrCreateCase hc) (fun _ _ _ => trivial) fun _ t₁ _ _ h₁ => ?_
    exact link h₁
  · exact link hc

theorem wp_createOrderIdempotent {cid userId orderId : ℕ} {data : Order} (hc : C t)
    (hrow : data.checkoutSessionId = some cid) :
    wp D p (createOrderIdempotent cid userId orderId data)
      (Returns fun _ t' _ => C t') ⟨some t, r⟩ s := by
  refine (wp_seq _ _).mpr (wp_mono _ (fun created l s₁ hl => ?_) (R.wp_createOrder hc hrow))
  obtain ⟨tx, reads⟩ := l
  obtain ⟨t₁, rfl, h₁⟩ := hl
  split
  · exact ⟨t₁, rfl, h₁⟩
  refine (wp_seq _ _).mpr (wp_select _ fun s₂ _ _ => ?_)
  split
  · split
    · exact ⟨t₁, rfl, h₁⟩
    · trivial
  · trivial

theorem wp_reuseOrCreate {existing : Option (ℕ × Order)} {cid userId orderId : ℕ} {data : Order}
    (hc : C t) (hrow : data.checkoutSessionId = some cid) :
    wp D p (reuseOrCreate existing cid userId orderId data)
      (Returns fun _ t' _ => C t') ⟨some t, r⟩ s := by
  cases existing with
  | some o => exact ⟨t, rfl, hc⟩
  | none => exact R.wp_createOrderIdempotent hc hrow

theorem wp_settleOrder {cid pid now : ℕ} {c : CheckoutSession} {payment : Payment}
    (hc : C t) :
    wp D p (settleOrder cid pid c payment now) (Returns fun _ t' _ => C t')
      ⟨some t, r⟩ s := by
  refine (wp_seq _ _).mpr (wp_select _ fun s₁ _ _ => ?_)
  refine (wp_seq _ _).mpr (wp_ask _ fun orderId => ?_)
  refine wp_call (R.wp_reuseOrCreate hc (orderOfSettledCheckout_checkout ..)) (fun _ _ _ => trivial)
    fun x t₂ _ s₂ h₂ => ?_
  obtain ⟨order, created⟩ := x
  cases created with
  | true => exact wp_call (R.wp_linkCreatedOrder h₂) (fun _ _ _ => trivial) fun _ t₃ _ _ h₃ =>
      ⟨t₃, rfl, h₃⟩
  | false =>
    simp only
    split
    · exact ⟨t₂, rfl, h₂⟩
    refine wp_keeps h₂ (R.link_keeps h₂) fun _ t₃ _ _ h₃ => ?_
    split
    · trivial
    · exact ⟨t₃, rfl, h₃⟩

theorem wp_finalizeGatewayDiscount {c : CheckoutSession} {orderId : ℕ} (hc : C t) :
    wp D p (finalizeGatewayDiscount c orderId) (Returns fun _ t' _ => C t')
      ⟨some t, r⟩ s := by
  unfold finalizeGatewayDiscount
  split
  · exact ⟨t, rfl, hc⟩
  refine (wp_seq _ _).mpr (wp_ask _ fun claimed => ?_)
  split
  · exact ⟨t, rfl, hc⟩
  refine wp_keeps hc (R.note_keeps hc) fun _ t₁ _ _ h₁ => ?_
  split
  · trivial
  · exact ⟨t₁, rfl, h₁⟩

/-! ### Receipts and wallet orders -/

theorem wp_approveOrder {cid pid now : ℕ} {c : CheckoutSession} (hc : C t) :
    wp D p (approveOrder cid pid c now) (Returns fun _ t' _ => C t')
      ⟨some t, r⟩ s := by
  refine (wp_seq _ _).mpr (wp_select _ fun s₁ _ _ => ?_)
  split
  · exact ⟨t, rfl, hc⟩
  refine (wp_seq _ _).mpr (wp_ask _ fun orderId => ?_)
  refine (wp_seq _ _).mpr (wp_mono _ (fun created l s₂ hl => ?_)
    (R.wp_createOrder hc (orderOfSettledCheckout_checkout ..)))
  obtain ⟨tx, reads⟩ := l
  obtain ⟨t₁, rfl, h₁⟩ := hl
  split
  · trivial
  refine (wp_seq _ _).mpr (wp_ask _ fun bound => ?_)
  split
  · trivial
  refine wp_keeps h₁ (R.link_keeps h₁) fun _ t₂ _ _ h₂ => ?_
  split
  · trivial
  refine wp_keeps h₂ (R.count_keeps h₂) fun _ t₃ _ _ h₃ => ?_
  split
  · trivial
  · exact ⟨t₃, rfl, h₃⟩

omit R in
theorem wp_checkPayer {args : WalletSettlementArgs} (hc : C t) :
    wp D p (checkPayer args) (Returns fun _ t' _ => C t') ⟨some t, r⟩ s := by
  refine (wp_seq _ _).mpr (wp_select _ fun s₁ _ _ => ?_)
  split
  · trivial
  split
  · trivial
  split
  · refine (wp_seq _ _).mpr (wp_ask _ fun claimed => ?_)
    split
    · trivial
    · exact ⟨t, rfl, hc⟩
  · exact ⟨t, rfl, hc⟩

/-- The end of the settlement: the buyer is checked, the payment linked and the balance deducted. -/
theorem wp_walletTail {args : WalletSettlementArgs} {pid orderId : ℕ} {α : Type}
    {g : WalletTransaction → App (Except SettlementThrow α)} (hc : C t)
    (hg : ∀ w t r s, C t →
      wp D p (g w) (Returns fun _ t' _ => C t') ⟨some t, r⟩ s) :
    wp D p (do
      let payer ← checkPayer args
      if let .error e := payer then
        return .error e
      let linked ← updatePayment pid (fun _ => true) fun p => { p with orderId := some orderId }
      if linked = 0 then
        return .error .crash
      let deducted ← deductBalance args orderId pid
      match deducted with
      | .error e => return .error e
      | .ok w => g w) (Returns fun _ t' _ => C t') ⟨some t, r⟩ s := by
  refine wp_call (wp_checkPayer hc) (fun _ _ _ => trivial) fun _ t₁ _ _ h₁ => ?_
  refine wp_keeps h₁ (R.link_keeps h₁) fun _ t₂ _ _ h₂ => ?_
  split
  · trivial
  exact wp_call (R.wp_deductBalance h₂) (fun _ _ _ => trivial) fun w t₃ _ _ h₃ => hg w t₃ _ _ h₃

end Rules

end ZedBot
