import ZedBot.Payments.CheckoutProcesses

/-! The one transaction of a wallet settlement, row by row.

    Whatever the other processes do, a settlement that succeeds commits exactly these changes: its
    checkout PAID and owned, one approved payment under its key, one order, the deduction and its
    ledger row. -/

namespace ZedBot
open ReadCommitted

variable {D : Discipline Row Entry World} {p : ℕ} {s s' : AppStore} {t : AppTx} {r : List AppStore}
  {args : WalletSettlementArgs} {minutes now : ℕ}

/-- The checkout `cid` is made PAID: the existing one, PENDING and unowned, or a new one. -/
structure PaidCheckout (args : WalletSettlementArgs) (cid : ℕ) (o : Option CheckoutSession)
    (k : CheckoutSession) : Prop where
  existing : ∀ id, args.existingCheckoutId = some id → cid = id ∧ o ≠ none
  before : ∀ x, o = some x → x.SameTerms k ∧ x.status = .PENDING ∧ x.settledByPaymentId = none
  user : k.userId = args.userId
  price : k.finalPriceToman = args.finalPriceToman
  paid : k.status = .PAID
  unowned : k.settledByPaymentId = none

/-- The ledger row of a settlement that finds the balance `before`. -/
def spendRow (args : WalletSettlementArgs) (orderId paymentId : ℕ) (before : ℤ) :
    WalletTransaction where
  userId := args.userId
  amountToman := args.finalPriceToman
  type := .SPEND
  source := .ORDER
  reason := .WALLET_ORDER_PAYMENT
  relatedOrderId := some orderId
  relatedPaymentId := some paymentId
  balanceBeforeToman := before
  balanceAfterToman := before - args.finalPriceToman

/-- The payment of a settlement, linked to its order. -/
def linkedPayment (args : WalletSettlementArgs) (checkoutId orderId now : ℕ) : Payment :=
  { walletPayment args checkoutId now with
    idempotencyKey := some args.idempotencyKey
    orderId := some orderId }

/-- The tables that a settlement writes. -/
def Settles (args : WalletSettlementArgs) (cid pid oid : ℕ) (k : Key) : Prop :=
  k = .checkout cid ∨ k = .payment pid ∨ k = .paymentOfKey args.idempotencyKey ∨ k = .order oid ∨
    k = .orderOfCheckout cid ∨ k = .user args.userId

/-- The changes of a settlement of `args` with checkout `cid`, payment `pid` and order `oid`. -/
structure SettlementTx (args : WalletSettlementArgs) (cid pid oid : ℕ) (t : AppTx) : Prop where
  checkout : ∃ o k, PaidCheckout args cid o k ∧
    t.chg (.checkout cid) = some (o, some { k with settledByPaymentId := some pid })
  payment : ∃ now, t.chg (.payment pid) = some (none, some (linkedPayment args cid oid now))
  keyed : t.chg (.paymentOfKey args.idempotencyKey) = some (none, some pid)
  order : ∃ now, t.chg (.order oid) = some (none, some (walletOrder args cid pid now))
  indexed : t.chg (.orderOfCheckout cid) = some (none, some oid)
  user : ∃ u, args.finalPriceToman ≤ u.balanceToman ∧
    t.chg (.user args.userId) = some (some u, some (deductOrder args u)) ∧
    t.entries = [.wallet (spendRow args oid pid u.balanceToman)]
  others : ∀ k, ¬ Settles args cid pid oid k → t.chg k = none

/-- What a settlement returns names the rows that it committed. -/
def SettledBy (args : WalletSettlementArgs) (y : WalletSettlementSuccess) (t : AppTx) : Prop :=
  SettlementTx args y.checkout.1 y.payment.1 y.order.1 t ∧
    t.entries = [.wallet y.walletTransaction] ∧
    y.newBalanceToman = y.walletTransaction.balanceAfterToman

/-! ### The body, statement by statement -/

/-- After the checkout was made PAID. -/
structure AfterCheckout (args : WalletSettlementArgs) (cid : ℕ) (t : AppTx) : Prop where
  checkout : ∃ o k, PaidCheckout args cid o k ∧ t.chg (.checkout cid) = some (o, some k)
  others : ∀ k, k ≠ .checkout cid → t.chg k = none
  entries : t.entries = []

theorem wp_paidCheckout : wp D p (settlementCheckout args minutes now) (Returns fun x t' _ =>
    AfterCheckout args x.1 t') ⟨some {}, r⟩ s := by
  unfold settlementCheckout
  split
  · rename_i id hid
    refine (wp_seq _ _).mpr (wp_update_tx fun s₁ _ _ _ => ⟨fun _ => trivial, fun n hn => ?_⟩)
    obtain ⟨o, ho, hcond, rfl⟩ := onRow_eq_some.mp hn
    have hrow : s₁.rows (.checkout id) = some o := ho
    simp only [decide_eq_true_eq] at hcond
    obtain ⟨huser, _, _, _, hprice, hpend, hnone, _⟩ := hcond
    refine (wp_seq _ _).mpr (wp_select _ fun s₂ _ _ => ?_)
    simp only [Local.pending, Store.view, Option.getD_some, Tx.row_write_self]
    refine ⟨_, rfl, ⟨some o, paidCheckout now o, ?_, ?_⟩, fun k hk => by simp [hk], rfl⟩
    · refine ⟨fun i hi => ?_, ?_, huser, hprice, rfl, hnone⟩
      · rw [hid] at hi
        exact ⟨Option.some.inj hi, by simp⟩
      · rintro _ ⟨⟩
        exact ⟨by cases o; rfl, hpend, hnone⟩
    · simp [hrow]
  · rename_i hid
    refine (wp_seq _ _).mpr (wp_ask _ fun id => ?_)
    refine (wp_seq _ _).mpr (wp_update_tx fun s₁ _ _ _ => ⟨fun _ => trivial, fun n hn => ?_⟩)
    obtain ⟨hnone, rfl⟩ := onFree_eq_some.mp hn
    have hrow : s₁.rows (.checkout id.id) = none := hnone
    refine ⟨_, rfl, ⟨none, walletCheckout args minutes now, ?_, by simp [hrow]⟩,
      fun k hk => by simp [hk], rfl⟩
    refine ⟨fun i hi => ?_, by rintro _ ⟨⟩, rfl, rfl, rfl, rfl⟩
    rw [hid] at hi
    cases hi

/-- After the payment was created under its key and given the checkout. -/
structure AfterPayment (args : WalletSettlementArgs) (cid pid : ℕ) (q : Payment) (t : AppTx) :
    Prop where
  checkout : ∃ o k, PaidCheckout args cid o k ∧
    t.chg (.checkout cid) = some (o, some { k with settledByPaymentId := some pid })
  payment : t.chg (.payment pid) = some (none, some q)
  keyed : t.chg (.paymentOfKey args.idempotencyKey) = some (none, some pid)
  others : ∀ k, k ≠ .checkout cid → k ≠ .payment pid → k ≠ .paymentOfKey args.idempotencyKey →
    t.chg k = none
  entries : t.entries = []

theorem AfterCheckout.payment {cid pid : ℕ} {q : Payment} {rows : ∀ k, Row k}
    {k : CheckoutSession} (h : AfterCheckout args cid t) (hpay : t.row rows (.payment pid) = none)
    (hkey : t.row rows (.paymentOfKey args.idempotencyKey) = none) (rows' : ∀ k, Row k)
    (hk : ((t.write rows ⟨.payment pid, some q⟩).write rows
      ⟨.paymentOfKey args.idempotencyKey, some pid⟩).row rows' (.checkout cid) = some k) :
    AfterPayment args cid pid q (((t.write rows ⟨.payment pid, some q⟩).write rows
      ⟨.paymentOfKey args.idempotencyKey, some pid⟩).write rows'
        ⟨.checkout cid, some { k with settledByPaymentId := some pid }⟩) := by
  obtain ⟨o, k', hpaid, hchg⟩ := h.checkout
  have hpay' : rows (.payment pid) = none := by rwa [Tx.row_of_chg (h.others _ (by simp))] at hpay
  have hkey' : rows (.paymentOfKey args.idempotencyKey) = none := by
    rwa [Tx.row_of_chg (h.others _ (by simp))] at hkey
  obtain rfl : k' = k := by simpa [Tx.row, hchg] using hk
  refine ⟨⟨o, k', hpaid, ?_⟩, ?_, ?_, fun k₁ h₁ h₂ h₃ => ?_, h.entries⟩
  · simp [Tx.base, hchg]
  · simp [Tx.base, h.others, hpay']
  · simp [Tx.base, h.others, hkey']
  · simp [h₁, h₂, h₃, h.others k₁ h₁]

/-- After the order was created in the unique index of its checkout. -/
structure AfterOrder (args : WalletSettlementArgs) (cid pid oid : ℕ) (q : Payment) (o : Order)
    (t : AppTx) : Prop where
  checkout : ∃ o k, PaidCheckout args cid o k ∧
    t.chg (.checkout cid) = some (o, some { k with settledByPaymentId := some pid })
  payment : t.chg (.payment pid) = some (none, some q)
  keyed : t.chg (.paymentOfKey args.idempotencyKey) = some (none, some pid)
  order : t.chg (.order oid) = some (none, some o)
  indexed : t.chg (.orderOfCheckout cid) = some (none, some oid)
  others : ∀ k, ¬ Settles args cid pid oid k → t.chg k = none
  user : t.chg (.user args.userId) = none
  entries : t.entries = []

theorem AfterPayment.order {cid pid oid : ℕ} {q : Payment} {o : Order} {rows : ∀ k, Row k}
    (h : AfterPayment args cid pid q t) (hord : t.row rows (.order oid) = none)
    (hidx : t.row rows (.orderOfCheckout cid) = none) :
    AfterOrder args cid pid oid q o ((t.write rows ⟨.order oid, some o⟩).write rows
      ⟨.orderOfCheckout cid, some oid⟩) := by
  have hord' : rows (.order oid) = none := by
    rwa [Tx.row_of_chg (h.others _ (by simp) (by simp) (by simp))] at hord
  have hidx' : rows (.orderOfCheckout cid) = none := by
    rwa [Tx.row_of_chg (h.others _ (by simp) (by simp) (by simp))] at hidx
  refine ⟨?_, ?_, ?_, ?_, ?_, fun k hk => ?_, ?_, h.entries⟩
  · simpa using h.checkout
  · simpa using h.payment
  · simpa using h.keyed
  · simp [Tx.base, h.others, hord']
  · simp [Tx.base, h.others, hidx']
  · simp only [Settles, not_or] at hk
    simp [hk, h.others k]
  · simp [h.others]

theorem AfterOrder.link {cid pid oid : ℕ} {q : Payment} {o : Order}
    (h : AfterOrder args cid pid oid q o t) (rows : ∀ k, Row k) (q' : Payment) :
    AfterOrder args cid pid oid q' o (t.write rows ⟨.payment pid, some q'⟩) := by
  refine ⟨by simpa using h.checkout, ?_, by simpa using h.keyed, by simpa using h.order,
    by simpa using h.indexed, fun k hk => ?_, by simpa using h.user, h.entries⟩
  · simp [Tx.base, h.payment]
  · have hne : k ≠ .payment pid := fun he => hk (.inr (.inl he))
    simp [hne, h.others k hk]

theorem AfterOrder.deduct {cid pid oid now now' : ℕ} {u : User} {rows : ∀ k, Row k}
    (h : AfterOrder args cid pid oid (linkedPayment args cid oid now)
      (walletOrder args cid pid now') t)
    (hu : rows (.user args.userId) = some u) (hle : args.finalPriceToman ≤ u.balanceToman) :
    SettlementTx args cid pid oid ((t.write rows ⟨.user args.userId, some (deductOrder args u)⟩).append
      [.wallet (spendRow args oid pid u.balanceToman)]) := by
  refine ⟨by simpa using h.checkout, ⟨now, by simpa using h.payment⟩, by simpa using h.keyed,
    ⟨now', by simpa using h.order⟩, by simpa using h.indexed, ⟨u, hle, ?_, ?_⟩, fun k hk => ?_⟩
  · simp [Tx.base, h.user, hu]
  · simp [h.entries]
  · have hne : k ≠ .user args.userId := fun he => hk (by simp [Settles, he])
    simp [hne, h.others k hk]

theorem wp_createOrder_free {id c : ℕ} {o : Order} {Q : Bool → Local Row Entry World → AppStore → Prop}
    (hc : o.checkoutSessionId = some c) (hfalse : ∀ s', Q false ⟨some t, r⟩ s')
    (htrue : ∀ s', t.row s'.rows (.order id) = none → t.row s'.rows (.orderOfCheckout c) = none →
      Q true ⟨some ((t.write s'.rows ⟨.order id, some o⟩).write s'.rows
        ⟨.orderOfCheckout c, some id⟩), r⟩ s') :
    wp D p (createOrder id o) Q ⟨some t, r⟩ s := by
  refine wp_sql_tx fun s' _ _ _ => ?_
  simp only [Store.view, hc]
  cases hord : t.row s'.rows (.order id) with
  | some _ => simpa [Tx.add] using hfalse s'
  | none =>
    cases hidx : t.row s'.rows (.orderOfCheckout c) with
    | some _ => simpa [Tx.add, hidx] using hfalse s'
    | none => simpa [Tx.add, hidx] using htrue s' hord hidx

theorem wp_deductBalance {cid pid oid now now' : ℕ}
    (h : AfterOrder args cid pid oid (linkedPayment args cid oid now)
      (walletOrder args cid pid now') t) :
    wp D p (deductBalance args oid pid) (Returns fun w t' _ =>
      SettlementTx args cid pid oid t' ∧ t'.entries = [.wallet w]) ⟨some t, r⟩ s := by
  refine (wp_seq _ _).mpr (wp_update_tx fun s₁ _ _ _ => ⟨fun _ => trivial, fun n hn => ?_⟩)
  obtain ⟨u, hu, hle, rfl⟩ := onRow_eq_some.mp hn
  have hle : args.finalPriceToman ≤ u.balanceToman := by simpa using hle
  have hrow : s₁.rows (.user args.userId) = some u := by
    rwa [Tx.row_of_chg h.user] at hu
  have hdone := h.deduct hrow hle
  refine (wp_seq _ _).mpr (wp_select _ fun s₂ _ _ => ?_)
  simp only [Local.pending, Local.read, Store.view, Option.getD_some, Tx.row_write_self,
    Option.map_some, deductOrder]
  refine (wp_seq _ _).mpr (wp_append_tx fun s₃ _ _ => ?_)
  have hw : spendRow args oid pid u.balanceToman =
      { userId := args.userId
        amountToman := args.finalPriceToman
        type := .SPEND
        source := .ORDER
        reason := .WALLET_ORDER_PAYMENT
        relatedOrderId := some oid
        relatedPaymentId := some pid
        balanceBeforeToman := u.balanceToman - args.finalPriceToman + args.finalPriceToman
        balanceAfterToman := u.balanceToman - args.finalPriceToman } := by
    simp [spendRow]
  rw [hw] at hdone
  exact ⟨_, rfl, hdone, by simp [h.entries]⟩

/-- The body of the settlement returns with the changes of a settlement. -/
theorem wp_settlementBody {Q : Except SettlementThrow WalletSettlementSuccess →
      Local Row Entry World → AppStore → Prop} {K : AppStore → Prop}
    (hK : ∀ {q r s s'}, D.Inv s → D.Step q r s s' → K s → K s') (hi : D.Inv s) (hk : K s)
    (hcommit : ∀ y t r s', SettledBy args y t → D.Inv s' → K s' → t.Held s'.rows →
      D.Commits p r s' t)
    (hQ : ∀ x r s', D.Inv s' → K s' → (∀ y, x = .ok y → ∃ t s₁, SettledBy args y t ∧
      t.Held s₁.rows ∧ D.Inv s₁ ∧ K s₁ ∧ s' = s₁.commit p t) → Q x ⟨none, r⟩ s') :
    wp D p (walletTransactionBody args minutes now) Q ⟨none, r⟩ s := by
  refine wp_mono _ (fun x l s' hx => ?_) (wp_transaction_of hK hi hk ?_ hcommit)
  · obtain ⟨tx, reads⟩ := l
    obtain ⟨rfl, hi', hk', hx⟩ := hx
    exact hQ x reads s' hi' hk' hx
  refine wp_call wp_paidCheckout (fun _ _ _ => trivial) fun x t₁ _ s₁ h₁ => ?_
  obtain ⟨cid, c⟩ := x
  refine (wp_seq _ _).mpr (wp_ask _ fun pid => ?_)
  refine (wp_seq _ _).mpr (wp_sql_tx fun s₂ _ _ _ => ?_)
  split
  case h_2 => trivial
  rename_i hpay hkey
  simp only [Tx.add, List.foldl_cons, List.foldl_nil, Tx.append_nil]
  refine (wp_seq _ _).mpr (wp_update_tx fun s₃ _ _ _ => ⟨fun _ => trivial, fun n hn => ?_⟩)
  obtain ⟨k, hrow, _, rfl⟩ := onRow_eq_some.mp hn
  have h₃ := h₁.payment (q := { walletPayment args cid now with
    idempotencyKey := some args.idempotencyKey }) hpay hkey s₃.rows hrow
  refine (wp_seq _ _).mpr (wp_ask _ fun oid => ?_)
  refine (wp_seq _ _).mpr (wp_createOrder_free (c := cid) rfl (fun _ => trivial)
    fun s₄ hord hidx => ?_)
  have h₄ := h₃.order (o := walletOrder args cid pid.id now) hord hidx
  refine wp_call (Rules.wp_checkPayer (C := fun t => AfterOrder args cid pid.id oid.id _ _ t) h₄)
    (fun _ _ _ => trivial) fun _ t₅ _ s₅ h₅ => ?_
  refine (wp_seq _ _).mpr (wp_update_tx fun s₆ _ _ _ => ⟨fun _ => trivial, fun n hn => ?_⟩)
  obtain ⟨q, hq, _, rfl⟩ := onRow_eq_some.mp hn
  rw [Tx.row, h₅.payment] at hq
  cases hq
  have h₆ := h₅.link s₆.rows (linkedPayment args cid oid.id now)
  refine wp_call (wp_deductBalance h₆) (fun _ _ _ => trivial) fun w t₇ _ s₇ h₇ => ?_
  obtain ⟨h₇, hentries⟩ := h₇
  have hdone : SettledBy args
      { order := (oid.id, walletOrder args cid pid.id now)
        payment := (pid.id, linkedPayment args cid oid.id now)
        checkout := (cid, c)
        walletTransaction := w
        newBalanceToman := w.balanceAfterToman
        alreadyPaid := false } t₇ := ⟨h₇, hentries, rfl⟩
  dsimp only
  split
  · exact ⟨t₇, rfl, hdone⟩
  · refine (wp_seq _ _).mpr (wp_ask _ fun claimed => ?_)
    split
    · trivial
    · exact ⟨t₇, rfl, hdone⟩

/-! ### The settlement function -/

theorem findSpend_append {journal entries : List Entry} {pid : ℕ} {w : WalletTransaction}
    (h : findSpend journal pid = some w) : findSpend (journal ++ entries) pid = some w := by
  simp only [findSpend] at h ⊢
  rw [List.findSome?_append, h, Option.some_or]

/-- The ledger row of a payment stays the first one. -/
theorem findSpend_step {pid : ℕ} {w : WalletTransaction} (hst : D.Step p r s s')
    (h : findSpend s.journal pid = some w) : findSpend s'.journal pid = some w := by
  cases hst with
  | commit t hh _ => rw [Store.journal_commit]; exact findSpend_append h
  | act w _ => exact h

/-- What a loaded settlement was read from. -/
structure Loaded (journal : List Entry) (e : WalletSettlementSuccess × Option Fingerprint) :
    Prop where
  order : e.1.payment.2.orderId = some e.1.order.1
  checkout : e.1.payment.2.checkoutSessionId = some e.1.checkout.1
  spend : findSpend journal e.1.payment.1 = some e.1.walletTransaction
  balance : e.1.newBalanceToman = e.1.walletTransaction.balanceAfterToman
  fingerprint : e.2 = e.1.payment.2.payloadFingerprint

/-- The payment that a key indexes. -/
def KeyedPayment (key : IdempotencyKey) (s : AppStore) (pid : ℕ) (q : Payment) : Prop :=
  s.rows (.paymentOfKey key) = some pid ∧ s.rows (.payment pid) = some q

theorem wp_loadExistingSettlement {key : IdempotencyKey} {M : ℕ → Payment → AppStore → Prop}
    (hM : ∀ {pid q u r s s'}, D.Inv s → D.Step u r s s' → M pid q s → M pid q s')
    (hread : ∀ {pid q s}, D.Inv s → KeyedPayment key s pid q → M pid q s) :
    wp D p (loadExistingSettlement key) (fun x l s' => l.tx = none ∧ D.Inv s' ∧ ∀ e, x = some e →
      M e.1.payment.1 e.1.payment.2 s' ∧ Loaded s'.journal e) ⟨none, r⟩ s := by
  refine (wp_seq _ _).mpr (wp_select _ fun s₁ _ hi₁ => ?_)
  simp only [Local.pending, Local.read, Option.getD_none, Store.view, Tx.row_empty]
  split
  case h_2 => exact ⟨rfl, hi₁, by simp⟩
  rename_i pid q hfound
  have hkeyed : KeyedPayment key s₁ pid q := by
    obtain ⟨pid', hkey, hq⟩ := Option.bind_eq_some_iff.mp hfound
    obtain ⟨q', hq', heq⟩ := Option.map_eq_some_iff.mp hq
    cases heq
    exact ⟨hkey, hq'⟩
  have hm₁ := hread hi₁ hkeyed
  split
  case h_2 => exact ⟨rfl, hi₁, by simp⟩
  rename_i oid hoid
  split
  case h_2 => exact ⟨rfl, hi₁, by simp⟩
  rename_i cid hcid
  refine (wp_seq _ _).mpr (wp_select _ fun s₂ hl₂ hi₂ => ?_)
  refine (wp_seq _ _).mpr (wp_select _ fun s₃ hl₃ hi₃ => ?_)
  refine (wp_seq _ _).mpr (wp_select _ fun s₄ hl₄ hi₄ => ?_)
  have hm₄ := hl₄.stable (fun _ => hM) hi₃ (hl₃.stable (fun _ => hM) hi₂
    (hl₂.stable (fun _ => hM) hi₁ hm₁))
  split
  case h_2 => exact ⟨rfl, hi₄, by simp⟩
  rename_i o c w _ _ hspend
  refine ⟨rfl, hi₄, fun e he => ?_⟩
  cases he
  refine ⟨hm₄, hoid, hcid, ?_, rfl, rfl⟩
  simpa [Local.pending, Local.read, Store.view, Store.journal] using hspend

theorem replayResult_ok {f : Fingerprint} {e : WalletSettlementSuccess × Option Fingerprint}
    {y : WalletSettlementSuccess} (h : replayResult f e = .ok y) :
    y = e.1 ∧ (e.2 = none ∨ e.2 = some f) := by
  unfold replayResult at h
  split at h
  · cases h
  · rename_i hne
    cases h
    refine ⟨rfl, ?_⟩
    by_contra hcon
    rw [not_or] at hcon
    exact hne hcon

/-- What `settleWalletOrder` returns as a success is `G`: committed now, or loaded. -/
theorem wp_settleWalletOrder {K : AppStore → Prop} {M : ℕ → Payment → AppStore → Prop}
    {G : WalletSettlementSuccess → AppStore → Prop}
    (hK : ∀ {u r s s'}, D.Inv s → D.Step u r s s' → K s → K s')
    (hM : ∀ {pid q u r s s'}, D.Inv s → D.Step u r s s' → M pid q s → M pid q s')
    (hread : ∀ {pid q s}, D.Inv s → KeyedPayment args.idempotencyKey s pid q → M pid q s)
    (hi : D.Inv s) (hk : K s)
    (hcommit : ∀ y t r s', SettledBy args y t → D.Inv s' → K s' → t.Held s'.rows →
      D.Commits p r s' t)
    (hsettled : ∀ y t s', SettledBy args y t → t.Held s'.rows → D.Inv s' → K s' →
      G y (s'.commit p t))
    (hloaded : ∀ e s', M e.1.payment.1 e.1.payment.2 s' → Loaded s'.journal e → D.Inv s' → K s' →
      e.2 = none ∨ e.2 = some (settlementPayloadFingerprint args) → G e.1 s') :
    wp D p (settleWalletOrder args) (fun x l s' => l.tx = none ∧ D.Inv s' ∧ K s' ∧
      ∀ y, x = .ok y → G y s') ⟨none, r⟩ s := by
  have hreplay : ∀ e s', M e.1.payment.1 e.1.payment.2 s' → Loaded s'.journal e → D.Inv s' →
      K s' → ∀ y, replayResult (settlementPayloadFingerprint args) e = .ok y → G y s' := by
    intro e s' hm hl hi' hk' y hy
    obtain ⟨rfl, hfp⟩ := replayResult_ok hy
    exact hloaded e s' hm hl hi' hk' hfp
  unfold settleWalletOrder
  split
  · exact ⟨rfl, hi, hk, by simp⟩
  refine (wp_seq _ _).mpr (wp_mono _ (fun x l s₁ hx => ?_)
    (wp_frame hK _ hi hk (wp_loadExistingSettlement (M := M) hM hread)))
  obtain ⟨tx, reads⟩ := l
  obtain ⟨⟨rfl, -, hx⟩, hi₁, hk₁⟩ := hx
  split
  · rename_i e
    obtain ⟨hm, hl⟩ := hx e rfl
    exact ⟨rfl, hi₁, hk₁, hreplay e s₁ hm hl hi₁ hk₁⟩
  refine (wp_seq _ _).mpr (wp_ask _ fun enabled => ?_)
  split
  · exact ⟨rfl, hi₁, hk₁, by simp⟩
  refine (wp_seq _ _).mpr (wp_ask _ fun settleable => ?_)
  split
  · exact ⟨rfl, hi₁, hk₁, by simp⟩
  refine (wp_seq _ _).mpr (wp_ask _ fun minutes => ?_)
  refine (wp_seq _ _).mpr (wp_ask _ fun now => ?_)
  refine (wp_seq _ _).mpr (wp_settlementBody hK hi₁ hk₁ hcommit fun x r₂ s₂ hi₂ hk₂ hx₂ => ?_)
  rcases x with e | y
  · rcases e with code | _ | _
    · exact ⟨rfl, hi₂, hk₂, by simp⟩
    · refine (wp_seq _ _).mpr (wp_mono _ (fun x l s₃ hx => ?_)
        (wp_frame hK _ hi₂ hk₂ (wp_loadExistingSettlement (M := M) hM hread)))
      obtain ⟨tx, reads⟩ := l
      obtain ⟨⟨rfl, -, hx⟩, hi₃, hk₃⟩ := hx
      split
      · rename_i e
        obtain ⟨hm, hl⟩ := hx e rfl
        exact ⟨rfl, hi₃, hk₃, hreplay e s₃ hm hl hi₃ hk₃⟩
      · exact ⟨rfl, hi₃, hk₃, by simp⟩
    · exact ⟨rfl, hi₂, hk₂, by simp⟩
  · obtain ⟨t, s₃, hby, hheld, hi₃, hk₃, rfl⟩ := hx₂ y rfl
    refine ⟨rfl, hi₂, hk₂, fun y' hy' => ?_⟩
    cases hy'
    exact hsettled y t s₃ hby hheld hi₃ hk₃

end ZedBot
