import ZedBot.Stars.RefundRules

/-! A charge is marked REFUNDED only when it was refunded.

    Any number of the bot's and the worker's calls run next to Telegram. As long as every refund that
    a scan observes meets no other charge of its subscription and amount that waits for its refund,
    each REFUNDED charge has been refunded by Telegram. Where it meets another one, that one is marked
    in its place. -/

namespace ZedBot.Stars
open ReadCommitted

variable {s s' : StarsStore} {p : ℕ} {r : List StarsStore}

/-! ### The scan follows the rules -/

theorem mem_matchingCharges {cond : Charge → Bool} {v : StarsView} {id : ℕ} {q : Charge}
    (h : (id, q) ∈ matchingCharges cond v) : v.rows (.charge id) = some q ∧ cond q := by
  obtain ⟨id', -, h⟩ := List.mem_filterMap.mp h
  split at h
  · rename_i q' hq'
    split at h
    · cases h
      exact ⟨hq', ‹_›⟩
    · cases h
  · cases h

/-- What an observed refund of Telegram's makes of the charges. -/
theorem refundTx_confirm {x : String} {σ now : ℕ} {a : ℤ} (hx : x ∈ s.world.refunded) :
    RefundTx s (Tx.add {} s.rows (confirmEffect x σ a now (s.view {}))) := by
  have hwrite : ∀ k n, ⟨k, n⟩ ∈ (confirmEffect x σ a now (s.view {})).writes →
      ∃ id q, k = .charge id ∧ n ≍ some (refundedCharge now q) ∧
        s.rows (.charge id) = some q ∧ confirmedByRefund σ a q := by
    intro k n hmem
    obtain ⟨⟨id, q⟩, hq, he⟩ := List.mem_map.mp hmem
    cases he
    exact ⟨id, q, rfl, .rfl, mem_matchingCharges hq⟩
  refine ⟨⟨fun id q hq => ?_, fun x' o n hn => ?_⟩, fun id o n hn => ?_, fun y σ' a' cs hmem => ?_⟩
  · obtain ⟨ho, hmem⟩ := Tx.chg_add_empty hq
    obtain ⟨id', q', hk, -, hrow, -⟩ := hwrite _ _ hmem
    cases hk
    rw [hrow] at ho
    cases ho
  · obtain ⟨-, hmem⟩ := Tx.chg_add_empty hn
    obtain ⟨id', q', hk, -⟩ := hwrite _ _ hmem
    cases hk
  · obtain ⟨ho, hmem⟩ := Tx.chg_add_empty hn
    obtain ⟨id', q, hk, hnew, hrow, hmatch⟩ := hwrite _ _ hmem
    cases hk
    refine .inr ⟨q, _, ho.trans hrow, eq_of_heq hnew, ⟨rfl, rfl, rfl⟩, .inr ?_⟩
    refine ⟨x, σ, a, _, by rw [Tx.entries_add]; exact List.mem_cons_self, ?_, hmatch⟩
    obtain ⟨⟨id'', q''⟩, hq'', he⟩ := List.mem_map.mp hmem
    cases he
    exact List.mem_map.mpr ⟨_, hq'', rfl⟩
  · rw [Tx.entries_add] at hmem
    cases List.mem_singleton.mp hmem
    refine ⟨hx, fun c hc => ?_⟩
    obtain ⟨⟨id, q⟩, hq, rfl⟩ := List.mem_map.mp hc
    exact ⟨q, mem_matchingCharges hq⟩

theorem accepts_findOwnSubscription (partner : Option StarTransactionPartner) :
    Accepts refunds p (findOwnSubscription partner) := by
  unfold findOwnSubscription
  split
  · exact .pure _
  refine .bind (.select _) fun found => ?_
  split
  · exact .pure _
  refine .bind (.select _) fun user => ?_
  split <;> exact .pure _

theorem accepts_addJob (job : StarsExecuteJob) : Accepts refunds p (addJob job) := by
  refine chargeRules.accepts_ext (.ext fun c w => ?_)
  dsimp only
  split
  · exact .refl w
  · exact ⟨fun x h => h, fun h => h⟩

theorem accepts_tryRecoverPayment (tx : StarTransaction) :
    Accepts refunds p (tryRecoverPayment tx) := by
  refine .bind (accepts_findOwnSubscription _) fun found => ?_
  split
  · exact .pure _
  split
  · exact .pure _
  split
  · exact .pure _
  refine .bind (.select _) fun existing => ?_
  split
  · exact .pure _
  exact .bind (.select _) fun settledCount => .bind (accepts_addJob _) fun _ => .pure _

/-- A refund of the history is confirmed. -/
theorem wp_tryReconcileRefund {tx : StarTransaction} (hi : RefundInv s)
    (hx : tx.id ∈ s.world.refunded) :
    wp refunds p (tryReconcileRefund tx) (fun _ l s => l.tx = none ∧ refunds.Inv s) ⟨none, r⟩ s := by
  refine (accepts_findOwnSubscription tx.receiver).wp_seq
    (K := fun s => tx.id ∈ s.world.refunded) (fun _ hst h => refunded_later hst h) hi hx
    fun found r s hi hx => ?_
  split
  · exact ⟨rfl, hi⟩
  rename_i σ _
  refine (wp_seq _ _).mpr (wp_ask _ fun now => (wp_seq _ _).mpr fun s' hl hi' hh => ?_)
  have hx' := hl.stable (P := fun s => tx.id ∈ s.world.refunded)
    (fun _ _ hst h => refunded_later hst h) hi hx
  have htx : RefundTx s'
      (Tx.add {} s'.rows (confirmEffect tx.id σ tx.amount now.now (s'.view {}))) :=
    refundTx_confirm hx'
  exact ⟨htx, rfl, RefundInv.commit hi' ((Tx.Held.empty _).add _) htx⟩

/-- The refunds of a page have been made. -/
def Known (txs : List StarTransaction) (s : StarsStore) : Prop :=
  ∀ tx ∈ txs, isOutgoingRefund tx → tx.id ∈ s.world.refunded

theorem Known.later {q : ℕ} {txs : List StarTransaction} (hst : refunds.Step q r s s')
    (h : Known txs s) : Known txs s' :=
  fun tx hmem hout => refunded_later hst (h tx hmem hout)

theorem wp_scanTransaction {tx : StarTransaction} {counters : RecoveryCounters} (hi : RefundInv s)
    (hk : isOutgoingRefund tx → tx.id ∈ s.world.refunded) :
    wp refunds p (scanTransaction counters tx) (fun _ l s => l.tx = none ∧ refunds.Inv s)
      ⟨none, r⟩ s := by
  unfold scanTransaction
  split
  · refine Accepts.run (.bind (accepts_tryRecoverPayment tx) fun outcome => ?_) _ _ hi
    cases outcome <;> exact .pure _
  split
  · refine (wp_seq _ _).mpr (wp_mono _ (fun confirmed l s hx => ?_)
      (wp_tryReconcileRefund hi (hk ‹_›)))
    cases confirmed <;> exact hx
  · exact ⟨rfl, hi⟩

/-- By induction on the page: what is known of it stays known. -/
theorem wp_scanTransactions {txs : List StarTransaction} {counters : RecoveryCounters}
    (hi : RefundInv s) (hk : Known txs s) :
    wp refunds p (scanTransactions counters txs) (fun _ l s => l.tx = none ∧ refunds.Inv s)
      ⟨none, r⟩ s := by
  induction txs generalizing counters r s with
  | nil => exact ⟨rfl, hi⟩
  | cons tx txs ih =>
    refine (wp_seq _ _).mpr (wp_mono _ (fun counters l s hx => ?_)
      (wp_frame (K := Known (tx :: txs)) (fun _ hst h => h.later hst) _ hi hk
        (wp_scanTransaction hi (hk tx List.mem_cons_self))))
    obtain ⟨tx', reads⟩ := l
    obtain ⟨⟨rfl, hi⟩, -, hk⟩ := hx
    exact ih hi fun tx hmem => hk tx (List.mem_cons_of_mem _ hmem)

theorem accepts_updateCursor
    (data : TelegramStarsReconciliationCursor → TelegramStarsReconciliationCursor) :
    Accepts refunds p (updateCursor data) :=
  chargeRules.accepts_stmt (each_free (by simp) (by simp))

theorem accepts_loadOrCreateCursor : Accepts refunds p loadOrCreateCursor := by
  refine .bind (.select _) fun existing => ?_
  split
  · exact .pure _
  refine chargeRules.accepts_stmt (.sql fun v => ?_)
  split
  · exact .other (by simp) (by simp)
  · exact .other (by simp) (by simp)

/-- By induction on the pages: Telegram answers with a page of a truthful history. -/
theorem accepts_scanPages {config : StarsSubscriptionConfig} {bootstrap : Bool}
    {cursorOffset oldestRelevant pages : ℕ} {runOffset persistentOffset : ℕ}
    {counters : RecoveryCounters} :
    Accepts refunds p (scanPages config bootstrap cursorOffset oldestRelevant pages runOffset
      persistentOffset counters) := by
  induction pages generalizing runOffset persistentOffset counters with
  | zero => exact .pure _
  | succ pages ih =>
    refine ⟨fun r s hi => (wp_seq _ _).mpr (wp_ext _ fun s' hl hi' c => ⟨.refl _, ?_⟩)⟩
    cases c.flag with
    | false => exact (Accepts.bind (accepts_updateCursor _) fun _ => .pure _).run _ _ hi'
    | true =>
      refine (wp_seq _ _).mpr (wp_mono _ (fun scanned l s hx => ?_)
        (wp_scanTransactions hi' fun tx hmem hout => hi'.truthful tx ?_ hout))
      · obtain ⟨tx, reads⟩ := l
        obtain ⟨rfl, hi⟩ := hx
        refine Accepts.run (.bind (accepts_updateCursor _) fun _ => ?_) _ _ hi
        split
        · exact .pure _
        · exact ih
      · exact List.mem_of_mem_drop (List.mem_of_mem_take hmem)

theorem accepts_recovery (config : StarsSubscriptionConfig) :
    Accepts refunds p (runStarsTransactionRecovery config) := by
  refine .bind (.ask _) fun token => ?_
  split
  · exact .pure _
  exact .bind accepts_loadOrCreateCursor fun cursor => .bind (.ask _) fun now => accepts_scanPages

/-! ### The other passes -/

theorem accepts_markPastDue (now id : ℕ) (sub : TelegramStarsServiceSubscription) :
    Accepts refunds p (markPastDue now id sub) := by
  unfold markPastDue
  split
  · exact .pure _
  split
  · exact .pure _
  refine .bind (.select _) fun newerCharge => ?_
  split
  · exact .pure _
  · exact .bind (accepts_updateSubscription _ _ _) fun _ => .pure _

theorem accepts_pastDueDetection (config : StarsSubscriptionConfig) :
    Accepts refunds p (runStarsPastDueDetection config) :=
  .bind (.ask _) fun _ => .bind (.select _) fun _ => .forEach
    (fun _ => .bind (accepts_markPastDue _ _ _) fun _ => .pure _) _

theorem accepts_runJob (job : StarsExecuteJob) : Accepts refunds p (runJob job) := by
  cases job with
  | SETTLE_RECOVERED_CHARGE input =>
    exact .bind (accepts_settleRecovered _) fun _ => accepts_refundIfRequired _
  | RETRY_REFUND chargeId => exact .bind (accepts_refund _) fun _ => .pure _
  | RECONCILE_CHARGE chargeId =>
    exact .bind (accepts_reconcile _) fun _ => accepts_refundIfRequired _

theorem accepts_consumeJob : Accepts refunds p consumeJob := by
  refine .bind (chargeRules.accepts_ext (.ext fun _ w => .refl w)) fun taken => ?_
  split
  · exact .pure _
  refine .bind (accepts_runJob _) fun _ => chargeRules.accepts_ext (.ext fun c w => ?_)
  exact ⟨fun x h => h, fun h => h⟩

theorem accepts_onSuccessfulPayment (sp : SuccessfulPayment) :
    Accepts refunds p (onSuccessfulPayment sp) := by
  unfold onSuccessfulPayment
  split
  · split
    · exact .pure _
    refine .bind (.select _) fun found => ?_
    split
    · exact .pure _
    refine .bind (.select _) fun user => ?_
    split
    · exact .pure _
    · exact .bind (accepts_settle _ _ _) fun _ => accepts_refundIfRequired _
  · exact .pure _

theorem accepts_fulfillmentReconcile : Accepts refunds p runStarsFulfillmentReconcile :=
  .bind (.ask _) fun _ => .bind (.select _) fun _ => .forEach (fun _ => accepts_addJob _) _

theorem accepts_refundRetry (config : StarsSubscriptionConfig) :
    Accepts refunds p (runStarsRefundRetry config) := by
  refine .bind (.ask _) fun aged => .bind (.select _) fun pending => .forEach (fun x => ?_) _
  unfold retryRefund
  split
  · exact .bind (accepts_updateSubscription _ _ _) fun _ => .pure _
  split
  · exact .pure _
  · exact accepts_addJob _

theorem accepts_telegramLists (tx : StarTransaction) :
    Accepts refunds p (telegramLists tx) := by
  refine chargeRules.accepts_ext (.ext fun c w => ?_)
  dsimp only
  split
  · exact .refl w
  · refine ⟨fun x h => h, fun h tx' hmem hout => ?_⟩
    rcases List.mem_cons.mp hmem with rfl | hmem
    · exact absurd hout ‹_›
    · exact h tx' hmem hout

theorem accepts_telegramRefunds (userId : ℕ) (chargeId : String) :
    Accepts refunds p (telegramRefunds userId chargeId) := by
  refine chargeRules.accepts_ext (.ext fun c w => ?_)
  dsimp only
  cases h : w.refund userId chargeId c.now with
  | none => exact .refl w
  | some w' => exact (refund_eq_some h).2

/-- Every call is accepted. -/
theorem accepts_call (c : StarsCall) : Accepts refunds p c.prog := by
  cases c with
  | onSuccessfulPayment sp => exact accepts_onSuccessfulPayment sp
  | consumeJob => exact accepts_consumeJob
  | refundStarsSubscriptionCharge chargeId => exact .bind (accepts_refund _) fun _ => .pure _
  | reconcileStarsChargeById chargeId =>
    exact .bind (accepts_reconcile _) fun _ => accepts_refundIfRequired _
  | runStarsTransactionRecovery config => exact .bind (accepts_recovery _) fun _ => .pure _
  | runStarsPastDueDetection config => exact accepts_pastDueDetection config
  | runStarsFulfillmentReconcile => exact accepts_fulfillmentReconcile
  | runStarsRefundRetry config => exact accepts_refundRetry config
  | telegramLists tx => exact accepts_telegramLists tx
  | telegramRefunds userId chargeId => exact accepts_telegramRefunds userId chargeId

/-! ### Any number of calls -/

/-- Every charge that is marked REFUNDED has been refunded by Telegram. -/
def RefundedTruly (s : StarsStore) : Prop :=
  ∀ id (q : Charge), s.rows (.charge id) = some q → q.status = .REFUNDED →
    q.telegramPaymentChargeId ∈ s.world.refunded

/-- A refund transaction confirms at most one charge, however often it is observed. -/
def ConfirmsOne (s : StarsStore) : Prop :=
  ∀ x σ₁ a₁ cs₁ σ₂ a₂ cs₂, .refundObserved x σ₁ a₁ cs₁ ∈ s.journal →
    .refundObserved x σ₂ a₂ cs₂ ∈ s.journal → ∀ c₁ ∈ cs₁, ∀ c₂ ∈ cs₂, c₁ = c₂

/-- An observed refund has confirmed no charge but its own. -/
def ConfirmedOwn (s : StarsStore) : Prop :=
  ∀ x σ a cs, .refundObserved x σ a cs ∈ s.journal → ∀ c ∈ cs, HasId c x s

/-- The charges of the subscription and amount of an observed refund that wait for their refund are
    the refunded one. -/
def ownCharge : StepCond StarsRow StarsEntry Telegram := fun _ _ s s' =>
  ∀ es x σ a cs, s'.journal = s.journal ++ es → .refundObserved x σ a cs ∈ es →
    ∀ id (q : Charge), s.rows (.charge id) = some q → confirmedByRefund σ a q →
      q.telegramPaymentChargeId = x

theorem RefundedTruly.step (hst : refunds.Step p r s s') (hown : ownCharge p r s s')
    (h : RefundedTruly s) : RefundedTruly s' := by
  intro id q' hq' hstatus
  cases hst with
  | act w ha => exact ha.refunded _ (h id q' hq' hstatus)
  | commit t hh hc =>
    change RefundTx s t at hc
    rcases s.commit_rows p hh (.charge id) with ⟨he, -⟩ | hchg
    · exact h id q' (he.symm.trans hq') hstatus
    rw [hq'] at hchg
    rcases hc.move id _ _ hchg with hm | ⟨q, q₁, hold, hnew, hsame, hmay⟩
    · generalize hold : s.rows (.charge id) = o at hm
      cases hm with
      | create hne => exact absurd hstatus hne
      | update same hback =>
        rw [same.id]
        exact h id _ hold (hback hstatus)
    · cases hnew
      rw [hsame.id]
      rcases hmay with hdone | ⟨x, σ, a, cs, hentry, hmem, hmatch⟩
      · exact hdone
      · rw [hown t.entries x σ a cs rfl hentry id q hold hmatch]
        exact (hc.observed x σ a cs hentry).1

theorem ConfirmedOwn.step (hst : refunds.Step p r s s') (hown : ownCharge p r s s')
    (h : ConfirmedOwn s) : ConfirmedOwn s' := by
  intro x σ a cs hentry c hc
  refine HasId.later hst ?_
  cases hst with
  | act w ha => exact h x σ a cs hentry c hc
  | commit t hh htx =>
    change RefundTx s t at htx
    rcases List.mem_append.mp (Store.journal_commit s p t ▸ hentry) with hold | hnew
    · exact h x σ a cs hold c hc
    · obtain ⟨q, hq, hmatch⟩ := (htx.observed x σ a cs hnew).2 c hc
      exact ⟨q, hq, hown t.entries x σ a cs rfl hnew c q hq hmatch⟩

/-- Two charges of one Telegram id are one. -/
theorem ConfirmedOwn.one (hi : RefundInv s) (h : ConfirmedOwn s) : ConfirmsOne s := by
  intro x σ₁ a₁ cs₁ σ₂ a₂ cs₂ h₁ h₂ c₁ hc₁ c₂ hc₂
  obtain ⟨q₁, hq₁, hx₁⟩ := h x σ₁ a₁ cs₁ h₁ c₁ hc₁
  obtain ⟨q₂, hq₂, hx₂⟩ := h x σ₂ a₂ cs₂ h₂ c₂ hc₂
  have hi₁ := hi.indexed c₁ q₁ hq₁
  have hi₂ := hi.indexed c₂ q₂ hq₂
  rw [hx₁] at hi₁
  rw [hx₂, hi₁] at hi₂
  exact Option.some.inj hi₂

theorem stars_good {calls : ℕ → Option StarsCall} (hi : RefundInv s) :
    Good refunds (Config.start s (starsPool calls)) := by
  refine good_start hi fun p => ?_
  unfold starsPool
  cases calls p with
  | none => trivial
  | some c => exact wp_mono _ (fun _ _ _ _ => trivial) ((accepts_call c).run [] s hi)

/-- REFUNDED: in a run whose scans observe no refund while another charge of its subscription and
    amount waits for its own, every charge marked REFUNDED has been refunded by Telegram, and each
    observed refund confirms at most one charge. -/
theorem stars_refunds_true {calls : ℕ → Option StarsCall} {s₀ : StarsStore} {c : StarsConfig}
    (hi : RefundInv s₀) (h₀ : RefundedTruly s₀) (hown₀ : ConfirmedOwn s₀)
    (h : Run ownCharge (Config.start s₀ (starsPool calls)) c) :
    RefundedTruly c.store ∧ ConfirmsOne c.store := by
  have hg : Good refunds (Config.start s₀ (starsPool calls)) := stars_good hi
  have htrue := h.keeps hg (fun _ hst hown h => h.step hst hown) h₀
  have hone := h.keeps hg (P := ConfirmedOwn) (fun _ hst hown h => h.step hst hown) hown₀
  exact ⟨htrue, hone.one (h.sound hg).1.inv⟩

/-! ### A refund that is confirmed, and one that is taken for another -/

def monthly : TelegramStarsServiceSubscription where
  userId := 1
  serviceId := 7
  productId := 3
  publicPayloadId := "AAAAAAAAAAAAAAAA"
  starsAmount := 500
  entitlementSnapshot := { durationDays := some 30, starsAmount := some 500 }

/-- A payment of the subscription, as the history lists it. -/
def monthlyPayment (id : String) (date : ℕ) : StarTransaction where
  id := id
  amount := 500
  date := date
  source := some {
    type := "user"
    transactionType := some "invoice_payment"
    userId := some 77
    invoicePayload := some "zedbot:sub:AAAAAAAAAAAAAAAA"
    subscriptionPeriod := some 2592000 }

/-- The live update of a payment. -/
def monthlyUpdate (id : String) : SuccessfulPayment where
  invoicePayload := "zedbot:sub:AAAAAAAAAAAAAAAA"
  currency := "XTR"
  isRecurring := true
  isFirstRecurring := false
  subscriptionExpirationDate := some 5000
  fromUserId := 77
  telegramPaymentChargeId := id
  totalAmount := 500

/-- A subscription of user 1, and perhaps a charge B of it. -/
def monthlyStore (charge : Option Charge) (world : Telegram) : StarsStore where
  rows
    | .user 1 => some { telegramId := 77 }
    | .subscription 5 => some monthly
    | .subscriptionOfPayload "AAAAAAAAAAAAAAAA" => some 5
    | .charge 10 => charge
    | .chargeOfTelegram "B" => charge.map fun _ => 10
    | .cursor => some {}
    | k => emptyStarsRows k
  log := [⟨0, { entries := [.subscription 5, .charge 10] }⟩]
  world := world

/-- Charge B waits for its refund. -/
def pendingCharge : Charge where
  subscriptionId := 5
  telegramPaymentChargeId := "B"
  starsAmount := 500
  isFirstRecurring := false
  subscriptionExpirationDate := 5000000
  status := .REFUND_PENDING

/-- Telegram has refunded charge B; the answer was lost. -/
def refundedB : Telegram where
  transactions := [refundTransaction (monthlyPayment "B" 2000) 2500, monthlyPayment "B" 2000]
  refunded := ["B"]

theorem monthlyStore_charge {charge : Option Charge} {w : Telegram} {id : ℕ} {q : Charge}
    (h : (monthlyStore charge w).rows (.charge id) = some q) : id = 10 ∧ charge = some q := by
  by_cases hid : id = 10
  · subst hid
    exact ⟨rfl, h⟩
  · simp [monthlyStore, hid, emptyStarsRows] at h

theorem monthlyStore_inv {charge : Option Charge} {w : Telegram}
    (hB : ∀ q, charge = some q → q.telegramPaymentChargeId = "B") (hw : Truthful w) :
    RefundInv (monthlyStore charge w) := by
  refine ⟨fun id q hq => ?_, hw⟩
  obtain ⟨rfl, rfl⟩ := monthlyStore_charge hq
  rw [hB q rfl]
  rfl

theorem monthlyStore_confirmed (charge : Option Charge) (w : Telegram) :
    ConfirmedOwn (monthlyStore charge w) := by
  intro x σ a cs hmem
  simp [monthlyStore, Store.journal, journalOf] at hmem

theorem truthful_refundedB : Truthful refundedB := by
  intro tx hmem hout
  rcases List.mem_cons.mp hmem with rfl | hmem
  · exact List.mem_cons_self
  · cases List.mem_singleton.mp hmem
    exact absurd hout (by decide)

/-- The worker scans the history once. -/
def oneScan : ℕ → Option StarsCall
  | 0 => some (.runStarsTransactionRecovery {})
  | _ => none

def scanEvent : Event StarsChoice := .run 0 { now := 3000 }

/-- The scan confirms the refund of charge B. -/
theorem stars_refunds_true_scan : ∃ c : StarsConfig,
    (c.store.rows (.charge 10)).any (·.status = .REFUNDED) ∧ RefundedTruly c.store ∧
      ConfirmsOne c.store := by
  have hsame : ∀ {p r} {s s' : StarsStore}, s'.journal = s.journal → ownCharge p r s s' := by
    intro p r s s' hj es x σ a cs hes hmem
    rw [hj, List.self_eq_append_right] at hes
    rw [hes] at hmem
    cases hmem
  have h₁ := Run.tail scanEvent (.refl (c := Config.start (monthlyStore (some pendingCharge)
    refundedB) (starsPool oneScan))) rfl (hsame rfl)
  have h₂ := Run.tail scanEvent h₁ rfl (hsame rfl)
  have h₃ := Run.tail scanEvent h₂ rfl (hsame rfl)
  have h₄ := Run.tail scanEvent h₃ rfl (hsame rfl)
  have h₅ := Run.tail scanEvent h₄ rfl (hsame rfl)
  have h₆ := Run.tail scanEvent h₅ rfl (hsame rfl)
  have h₇ := Run.tail scanEvent h₆ rfl (hsame rfl)
  have h₈ := Run.tail scanEvent h₇ rfl fun es x σ a cs hes hmem id q hq _ => by
    have hes : [.refundObserved "B" 5 500 [10]] = es := List.append_cancel_left hes
    rw [← hes, List.mem_singleton] at hmem
    cases hmem
    cases (monthlyStore_charge hq).2
    rfl
  refine ⟨_, rfl, stars_refunds_true ?_ ?_ (monthlyStore_confirmed _ _) h₈⟩
  · refine monthlyStore_inv (fun q hq => ?_) truthful_refundedB
    cases hq
    rfl
  · intro id q hq hstatus
    cases (monthlyStore_charge hq).2
    cases hstatus

/-- Payment A is refunded by hand before any charge of it is recorded; payment B is settled, its
    renewal fails and Telegram refuses the refund; then the history is scanned. -/
def refundThenScan : ℕ → Option StarsCall
  | 0 => some (.telegramLists (monthlyPayment "A" 1000))
  | 1 => some (.telegramRefunds 77 "A")
  | 2 => some (.telegramLists (monthlyPayment "B" 2000))
  | 3 => some (.onSuccessfulPayment (monthlyUpdate "B"))
  | 4 => some (.runStarsTransactionRecovery {})
  | _ => none

def failingChoice : StarsChoice where
  now := 3000
  id := 10
  answer := .refused
  dispatch := { refunded := true }

/-- The scan takes the refund of A for that of B. -/
theorem refundThenScan_run :
    ((Config.start (monthlyStore none {}) (starsPool refundThenScan)).exec
      (.run 0 failingChoice :: .run 1 failingChoice :: .run 2 failingChoice ::
        (List.replicate 30 (.run 3 failingChoice) ++
          List.replicate 17 (.run 4 failingChoice)))).any (fun c =>
        c.store.world.refunded = ["A"] ∧
        (c.store.rows (.charge 10)).any fun q =>
          q.status = .REFUNDED ∧ q.telegramPaymentChargeId = "B") = true := by
  decide +kernel

/-- The refund of A marks charge B, which Telegram has not refunded. -/
theorem scan_refunds_another : ¬ ∀ (calls : ℕ → Option StarsCall) (s₀ : StarsStore)
    (c : StarsConfig), RefundInv s₀ → RefundedTruly s₀ → ConfirmedOwn s₀ →
    Run anyStep (Config.start s₀ (starsPool calls)) c →
    RefundedTruly c.store ∧ ConfirmsOne c.store := by
  intro h
  obtain ⟨c, hrun, hend⟩ := Run.of_exec_any refundThenScan_run
  simp only [decide_eq_true_eq, Option.any_eq_true] at hend
  obtain ⟨hw, q, hq, hstatus, hid⟩ := hend
  have hinv : RefundInv (monthlyStore none {}) :=
    monthlyStore_inv (by simp) fun tx hmem => by cases hmem
  have htrue := h refundThenScan _ c hinv (fun id q hq => ?_) (monthlyStore_confirmed _ _) hrun
  · have hB := htrue.1 10 q hq hstatus
    rw [hw, hid] at hB
    simp at hB
  · cases (monthlyStore_charge hq).2

end ZedBot.Stars
