import ZedBot.Payments.GatewayProcesses

/-! The other processes that move a checkout are accepted by the payment discipline: receipt review,
    wallet orders and the cancellation of superseded checkouts. -/

namespace ZedBot
open ReadCommitted RunningBalance

variable {dm : ℕ → Bool} {p : ℕ} {t : AppTx} {r : List AppStore} {s s' : AppStore}

/-! ### Approval -/

/-- What the approval leaves: the payment is its only ruled change. -/
structure Approved (pid adminId now : ℕ) (o : Payment) (t : AppTx) : Prop where
  review : o.status = .PENDING_REVIEW
  entries : t.entries = []
  payment : t.chg (.payment pid) = some (some o, some (approvedPayment adminId now o))
  others : ∀ k : Key, k.ruled = true → k ≠ .payment pid → t.chg k = none

theorem wp_approvePayment {pid adminId now : ℕ} {guard : Payment → Bool} :
    wp (money dm) p (approvePayment pid adminId now guard) (Returns fun _ t' s' =>
      ∃ o, s'.rows (.payment pid) = some o ∧ Approved pid adminId now o t') ⟨some {}, r⟩ s := by
  refine (wp_seq _ _).mpr (wp_update_tx fun s₁ _ _ _ => ⟨fun _ => trivial, fun n hn => ?_⟩)
  obtain ⟨o, ho, hcond, rfl⟩ := onRow_eq_some.mp hn
  have hrow : s₁.rows (.payment pid) = some o := ho
  have hrev : o.status = .PENDING_REVIEW := by
    simp only [Bool.decide_and, Bool.and_eq_true, decide_eq_true_eq] at hcond; exact hcond.1
  refine (wp_seq _ _).mpr (wp_flipReceipts fun n t' s₂ ht' hl₂ _ _ => ?_)
  have hrow₂ : s₂.rows (.payment pid) = some o := by
    rw [hl₂.rows_eq (by simp [Tx.Holds]), hrow]
  split
  · trivial
  refine ⟨t', rfl, o, hrow₂, ?_⟩
  rcases ht' with rfl | ⟨rows, x, rfl⟩
  · exact ⟨hrev, rfl, by simp [hrow], fun k hk hne => by simp [hne]⟩
  · refine ⟨hrev, rfl, by simp [hrow], fun k hk hne => ?_⟩
    have hne' : k ≠ .receipts pid := by rintro rfl; cases hk
    simp [hne, hne']

/-- The checkout beside an approved payment gets its owner. -/
theorem Approved.clean {d : Bool} {pid adminId now cid : ℕ} {o : Payment} {k : CheckoutSession}
    {rows : ∀ k, Row k} (h : Approved pid adminId now o t) (hk : rows (.checkout cid) = some k)
    (hs : k.status = .PENDING) (hn : k.settledByPaymentId = none)
    (hcid : o.checkoutSessionId = some cid) (hu : o.userId = k.userId) :
    Clean d (t.write rows ⟨.checkout cid, some (claimedCheckout pid now k)⟩) := by
  have hbase : t.base rows (.checkout cid) = some k := by
    rw [Tx.base_of_chg (h.others _ rfl (by simp)), hk]
  have hchk : (t.write rows ⟨.checkout cid, some (claimedCheckout pid now k)⟩).chg
      (.checkout cid) = some (some k, some (claimedCheckout pid now k)) := by simp [hbase]
  have hpay : (t.write rows ⟨.checkout cid, some (claimedCheckout pid now k)⟩).chg (.payment pid) =
      some (some o, some (approvedPayment adminId now o)) := by
    simp [h.payment]
  have hother : ∀ k' : Key, k'.ruled = true → k' ≠ .payment pid → k' ≠ .checkout cid →
      (t.write rows ⟨.checkout cid, some (claimedCheckout pid now k)⟩).chg k' = none := by
    intro k' hk' hp hc
    rw [Tx.chg_write_ne _ hc, h.others k' hk' hp]
  have hle : PaymentLe o (approvedPayment adminId now o) :=
    (settledPayment_le now (.inr h.review)).sameState_right ⟨rfl, rfl, rfl⟩
  refine Clean.settlement hchk ?_ hpay ?_ (fun _ => ?_) (fun _ => ?_) (fun _ => ?_) (fun _ => ?_)
    h.entries (claimedCheckout_le hs hn) hle rfl ?_ rfl rfl hcid hu
  · exact fun c' hne => hother _ rfl (by simp) (by simp [hne])
  · exact fun id hne => hother _ rfl (by simp [hne]) (by simp)
  · exact hother _ rfl (by simp) (by simp)
  · exact hother _ rfl (by simp) (by simp)
  · exact hother _ rfl (by simp) (by simp)
  · exact hother _ rfl (by simp) (by simp)
  · rintro _ ⟨⟩; exact hn

/-- The approval and the flip of the checkout: a clean settlement, and the claim in it. -/
theorem wp_payCheckout {pid adminId cid now : ℕ} {o payment : Payment} {c : CheckoutSession}
    (ht : Approved pid adminId now o t) (hi : MoneyInv s) (hk : Known pid cid payment c s)
    (ho : s.rows (.payment pid) = some o) (hheld : t.Holds (.payment pid))
    (hcid : payment.checkoutSessionId = some cid) :
    wp (money dm) p (payCheckout cid pid now) (Returns fun _ t' s' => MoneyInv s' ∧
      Clean (dm p) t' ∧ t'.entries = [] ∧ 0 ≤ o.amountToman ∧ o.identity = payment.identity ∧
      ∃ n, Claims t' cid pid n ∧ n.userId = o.userId ∧ n.finalPriceToman = c.finalPriceToman)
      ⟨some t, r⟩ s := by
  refine (wp_seq _ _).mpr (wp_update_tx fun s₁ hl₁ hi₁ hh₁ => ⟨fun _ => trivial, fun n hn => ?_⟩)
  obtain ⟨k, hkrow, hcond, rfl⟩ := onRow_eq_some.mp hn
  simp only [Bool.decide_and, Bool.and_eq_true, decide_eq_true_eq] at hcond
  have hnone : t.chg (.checkout cid) = none := ht.others _ rfl (by simp)
  rw [Tx.row_of_chg hnone] at hkrow
  have ho₁ : s₁.rows (.payment pid) = some o := by rw [hl₁.rows_eq hheld, ho]
  obtain ⟨⟨q, hq, hid⟩, ⟨k', hk', hterms⟩⟩ := hk.later hi hl₁
  rw [ho₁] at hq; cases hq
  rw [hkrow] at hk'; cases hk'
  have hoc : o.checkoutSessionId = some cid := by rw [← hcid]; exact congrArg (·.2.1) hid
  obtain ⟨row, hrow, hu⟩ := hi₁.belongs pid o cid ho₁ hoc
  rw [hkrow] at hrow; cases hrow
  refine ⟨_, rfl, hi₁, ht.clean hkrow hcond.1 hcond.2 hoc hu.symm, ht.entries,
    hi₁.amount pid o ho₁, hid, claimedCheckout pid now k, ⟨some k, ?_, rfl, ?_⟩, hu,
    hterms.finalPriceToman⟩
  · simp [Tx.base_of_chg hnone, hkrow]
  · rintro _ ⟨⟩; exact hcond.2

/-- The payment, its receipts and the checkout flipped, then the rest of an approval. -/
theorem wp_approve {pid adminId cid now : ℕ} {payment : Payment} {c : CheckoutSession}
    {guard : Payment → Bool} {α : Type} {g : App (Except ReviewThrow α)}
    (hi : MoneyInv s) (hk : Known pid cid payment c s)
    (hcid : payment.checkoutSessionId = some cid)
    (hg : ∀ (o : Payment) t r s, MoneyInv s → Clean (dm p) t → t.entries = [] → 0 ≤ o.amountToman →
      o.identity = payment.identity →
      (∃ n, Claims t cid pid n ∧ n.userId = o.userId ∧ n.finalPriceToman = c.finalPriceToman) →
      wp (money dm) p g (Returns fun _ t' _ => Clean (dm p) t') ⟨some t, r⟩ s) :
    wp (money dm) p (transaction do
      let approved ← approvePayment pid adminId now guard
      if let .error e := approved then
        return .error e
      let paid ← payCheckout cid pid now
      if let .error e := paid then
        return .error e
      g) (fun _ l s => l.tx = none ∧ MoneyInv s) ⟨none, r⟩ s := by
  refine (cleanRules dm p).wp_transaction hi ?_
  refine (wp_seq _ _).mpr (wp_mono _ (fun x l s₁ hx => ?_)
    (wp_frame (D := money dm) Known.step _ hi hk wp_approvePayment))
  obtain ⟨hx, hi₁, hk₁⟩ := hx
  cases x with
  | error e => trivial
  | ok x =>
  obtain ⟨tx, reads⟩ := l
  obtain ⟨t₁, rfl, o, ho, happ⟩ := hx
  refine wp_call (wp_payCheckout happ hi₁ hk₁ ho ?_ hcid) (fun _ _ _ => trivial)
    fun _ t₂ _ s₂ h₂ => ?_
  · simp [Tx.Holds, happ.payment]
  · obtain ⟨hi₂, hclean, he, hpos, hid, hclaim⟩ := h₂
    exact hg o t₂ _ s₂ hi₂ hclean he hpos hid hclaim

theorem wp_approveTransaction {pid cid adminId now : ℕ} {payment : Payment} {c : CheckoutSession}
    (hi : MoneyInv s) (hk : Known pid cid payment c s)
    (hcid : payment.checkoutSessionId = some cid) :
    wp (money dm) p (approveTransaction pid cid adminId c now)
      (fun _ l s => l.tx = none ∧ MoneyInv s) ⟨none, r⟩ s := by
  refine wp_approve hi hk hcid fun _ t r s _ hc _ _ _ _ => ?_
  refine wp_call ((cleanRules dm p).wp_approveOrder hc) (fun _ _ _ => trivial) fun order t₁ _ _ h₁ => ?_
  simp only
  split
  · exact ⟨t₁, rfl, h₁⟩
  refine (wp_seq _ _).mpr (wp_ask _ fun claimed => ?_)
  split
  · trivial
  · exact ⟨t₁, rfl, h₁⟩

theorem wp_topupTransaction {pid cid adminId now : ℕ} {payment : Payment} {c : CheckoutSession}
    (hi : MoneyInv s) (hk : Known pid cid payment c s)
    (hcid : payment.checkoutSessionId = some cid)
    (ham : payment.amountToman = c.finalPriceToman) :
    wp (money dm) p (topupTransaction pid cid adminId payment now)
      (fun _ l s => l.tx = none ∧ MoneyInv s) ⟨none, r⟩ s := by
  refine wp_approve hi hk hcid fun o t r s _ hc he hpos hid hclaim => ?_
  refine (wp_seq _ _).mpr (wp_select _ fun s₁ _ _ => ?_)
  split
  · exact ⟨t, rfl, hc⟩
  obtain ⟨n, hcl, hu, hprice⟩ := hclaim
  have huser : o.userId = payment.userId := congrArg Prod.fst hid
  have hamount : o.amountToman = payment.amountToman := congrArg (·.2.2.2.1) hid
  refine wp_call ((cleanRules dm p).wp_creditTopup hc ?_ ⟨?_, cid, n, hcl, ?_, ?_⟩) (fun _ _ _ => trivial)
    fun _ t _ _ h => ⟨t, rfl, h⟩
  · rw [← hamount]; exact hpos
  · rw [he]; rfl
  · rw [hu, huser]
  · rw [ham, hprice]

/-- A review that was loaded: the payment and the checkout beside it are known. -/
theorem wp_loadReviewPayment {pid : ℕ} :
    wp (money dm) p (loadReviewPayment pid) (fun x l s => l.tx = none ∧ MoneyInv s ∧
      ∀ review, x = some review → ∀ cid c, review.checkout = some (cid, c) →
        review.payment.checkoutSessionId = some cid ∧ Known pid cid review.payment c s)
      ⟨none, r⟩ s := by
  refine (wp_seq _ _).mpr (wp_select _ fun s₁ _ hi₁ => ?_)
  split
  case h_2 => exact ⟨rfl, hi₁, by rintro _ ⟨⟩⟩
  rename_i payment hpay
  refine (wp_seq _ _).mpr (wp_select _ fun s₂ hl₂ hi₂ => ?_)
  refine (wp_seq _ _).mpr (wp_select _ fun s₃ hl₃ hi₃ => ?_)
  split
  · exact ⟨rfl, hi₃, by rintro _ ⟨⟩⟩
  refine ⟨rfl, hi₃, ?_⟩
  rintro review ⟨⟩ cid c hchk
  obtain ⟨cid', hcid, hrow⟩ := Option.bind_eq_some_iff.mp hchk
  obtain ⟨c', hc', hpair⟩ := Option.map_eq_some_iff.mp hrow
  obtain ⟨rfl, rfl⟩ := Prod.mk.inj hpair
  exact ⟨hcid, Known.later (known_of_reads hpay hi₁ hl₂ hc') hi₂ hl₃⟩

theorem accepts_approveReceiptPayment (pid adminId : ℕ) :
    Accepts (money dm) p (approveReceiptPayment pid adminId) := by
  refine ⟨fun r s _ => (wp_seq _ _).mpr (wp_mono _ (fun x l s hx => ?_) wp_loadReviewPayment)⟩
  obtain ⟨tx, reads⟩ := l
  obtain ⟨rfl, hi, hx⟩ := hx
  cases x with
  | none => exact ⟨rfl, hi⟩
  | some review =>
  simp only
  split
  · exact ⟨rfl, hi⟩
  split
  case h_2 => exact ⟨rfl, hi⟩
  rename_i cid c hchk
  obtain ⟨hcid, hk⟩ := hx review rfl cid c hchk
  split
  · exact ⟨rfl, hi⟩
  split
  · exact ⟨rfl, hi⟩
  rename_i hamount
  split
  · exact ⟨rfl, hi⟩
  split
  · exact ⟨rfl, hi⟩
  refine (wp_seq _ _).mpr (wp_ask _ fun now => ?_)
  split
  · have ham : review.payment.amountToman = c.finalPriceToman := by tauto
    refine (wp_seq _ _).mpr (wp_mono _ (fun x l s hl => ?_) (wp_topupTransaction hi hk hcid ham))
    rcases x with (_ | _) | _ <;> exact hl
  · refine (wp_seq _ _).mpr (wp_ask _ fun infoMissing => ?_)
    split
    · exact ⟨rfl, hi⟩
    refine (wp_seq _ _).mpr (wp_mono _ (fun x l s hl => ?_) (wp_approveTransaction hi hk hcid))
    rcases x with (_ | _) | _ <;> exact hl

/-! ### Rejection -/

/-- Rejecting a payment in review. -/
theorem rejected_le {o : Payment} {now adminId : ℕ} {reason : String}
    (h : o.status = .PENDING_REVIEW) : PaymentLe o { o with
      status := .REJECTED
      reviewedAt := some now
      reviewedByAdminId := some adminId
      rejectReason := some reason } where
  identity := Eq.refl _
  settled h := .inl h
  approved h := by cases h
  keepsSettled h := h
  keepsApproved ha := by rw [h] at ha; cases ha
  keepsReview h := by simp [h]
  status := .inr (.inl h)

/-- A process that demotes expires a checkout, whatever its status. -/
theorem demoted_le {o : CheckoutSession} {st : CheckoutStatus}
    (hst : st = .EXPIRED ∨ st = .CANCELLED) : CheckoutLe true o { o with status := st } where
  terms := by cases o; rfl
  owner _ := Eq.refl _
  paid h := absurd (Eq.refl _) h
  status := .inr (.inr ⟨Eq.refl _, hst⟩)

theorem accepts_rejectTransaction (hd : dm p = true) (pid adminId : ℕ)
    (checkout : Option (ℕ × CheckoutSession)) (reason : String) (now : ℕ) :
    Accepts (money dm) p (rejectTransaction pid adminId checkout reason now) := by
  refine (cleanRules dm p).accepts_transaction fun r s hi => ?_
  refine (wp_seq _ _).mpr (wp_update_tx fun s₁ _ _ hh₁ => ⟨fun _ => trivial, fun n hn => ?_⟩)
  obtain ⟨o, ho, hcond, rfl⟩ := onRow_eq_some.mp hn
  have hrow : s₁.rows (.payment pid) = some o := ho
  have hrev : o.status = .PENDING_REVIEW := by simpa using hcond
  generalize hn' : { o with
    status := .REJECTED
    reviewedAt := some now
    reviewedByAdminId := some adminId
    rejectReason := some reason : Payment } = n
  have hle : PaymentLe o n := hn' ▸ rejected_le hrev
  have hset : n.settlementStatus = o.settlementStatus := by rw [← hn']
  have hm₁ : Moving (dm p) (Tx.write ({} : AppTx) s₁.rows ⟨.payment pid, some n⟩) := by
    refine (Moving.empty _).write hh₁ ?_
    change PaymentMove (s₁.rows (.payment pid)) (some n)
    rw [hrow]; exact ⟨hle, fun h => by rw [← hset, h]⟩
  have hquiet : ∀ t : AppTx, Moving (dm p) t →
      (∀ id, t.chg (.payment id) =
        (Tx.write ({} : AppTx) s₁.rows ⟨.payment pid, some n⟩).chg (.payment id)) →
      Clean (dm p) t := by
    intro t hm hsame
    refine hm.clean fun id o' n' hc hn'' => ?_
    rw [hsame] at hc
    by_cases hne : id = pid
    · subst hne
      simp only [Tx.chg_write_self, Tx.base_empty, hrow, Option.some.injEq, Prod.mk.injEq] at hc
      obtain ⟨rfl, rfl⟩ := hc
      rw [← hset, hn'']
    · simp [hne] at hc
  refine (wp_seq _ _).mpr (wp_flipReceipts fun _ t₂ s₂ ht₂ _ _ hh₂ => ?_)
  have hm₂ : Moving (dm p) t₂ := by
    rcases ht₂ with rfl | ⟨rows, x, rfl⟩
    · exact hm₁
    · exact hm₁.writeFree rfl
  have hpay₂ : ∀ id, t₂.chg (.payment id) =
      (Tx.write ({} : AppTx) s₁.rows ⟨.payment pid, some n⟩).chg (.payment id) := by
    rcases ht₂ with rfl | ⟨rows, x, rfl⟩
    · exact fun _ => rfl
    · exact fun id => Tx.chg_write_ne _ (by simp)
  have hnone : ∀ cid, t₂.chg (.checkout cid) = none := by
    rcases ht₂ with rfl | ⟨rows, x, rfl⟩ <;> simp
  split
  · exact ⟨t₂, rfl, hquiet t₂ hm₂ hpay₂⟩
  rename_i cid c
  split
  · refine (wp_seq _ _).mpr (wp_update_tx fun s₃ _ _ hh₃ => ⟨fun _ => trivial, fun n hn => ?_⟩)
    obtain ⟨k, hk, _, rfl⟩ := onRow_eq_some.mp hn
    rw [Tx.row_of_chg (hnone cid)] at hk
    refine ⟨_, rfl, hquiet _ (hm₂.write hh₃ ?_) fun id => ?_⟩
    · change CheckoutMove (dm p) (s₃.rows (.checkout cid)) (some _)
      rw [hk, hd]; exact ⟨demoted_le (.inl rfl), rfl⟩
    · rw [Tx.chg_write_ne _ (by simp), hpay₂]
  · exact ⟨t₂, rfl, hquiet t₂ hm₂ hpay₂⟩

/-! ### Wallet orders -/

/-- What the settlement of a wallet order starts with: one checkout of the buyer made PAID, a
    PENDING unowned one or a new one. -/
structure Opened (userId cid : ℕ) (co : Option CheckoutSession) (k : CheckoutSession)
    (t : AppTx) : Prop where
  entries : t.entries = []
  checkout : t.chg (.checkout cid) = some (co, some k)
  others : ∀ k' : Key, k' ≠ .checkout cid → t.chg k' = none
  user : k.userId = userId
  paid : k.status = .PAID
  unowned : k.settledByPaymentId = none
  before : ∀ o, co = some o → o.SameTerms k ∧ o.status = .PENDING ∧ o.settledByPaymentId = none

theorem wp_settlementCheckout {args : WalletSettlementArgs} {minutes now : ℕ} :
    wp (money dm) p (settlementCheckout args minutes now) (Returns fun x t' _ =>
      ∃ co k, Opened args.userId x.1 co k t') ⟨some {}, r⟩ s := by
  unfold settlementCheckout
  split
  · refine (wp_seq _ _).mpr (wp_update_tx fun s₁ _ _ _ => ⟨fun _ => trivial, fun n hn => ?_⟩)
    obtain ⟨o, ho, hcond, rfl⟩ := onRow_eq_some.mp hn
    have hrow : s₁.rows (.checkout _) = some o := ho
    simp only [decide_eq_true_eq] at hcond
    obtain ⟨huser, _, _, _, _, hpend, hnone, _⟩ := hcond
    refine (wp_seq _ _).mpr (wp_select _ fun s₂ _ _ => ?_)
    simp only [Local.pending, Store.view, Option.getD_some, Tx.row_write_self]
    refine ⟨_, rfl, some o, paidCheckout now o, rfl, ?_, fun k' hne => by simp [hne], huser, rfl,
      hnone, ?_⟩
    · simp [hrow]
    rintro _ ⟨⟩
    exact ⟨by cases o; rfl, hpend, hnone⟩
  · refine (wp_seq _ _).mpr (wp_ask _ fun id => ?_)
    refine (wp_seq _ _).mpr (wp_update_tx fun s₁ _ _ _ => ⟨fun _ => trivial, fun n hn => ?_⟩)
    obtain ⟨hnone, rfl⟩ := onFree_eq_some.mp hn
    have hrow : s₁.rows (.checkout id.id) = none := hnone
    refine ⟨_, rfl, none, walletCheckout args minutes now, rfl, ?_, fun k' hne => by simp [hne], rfl,
      rfl, rfl, ?_⟩
    · simp [hrow]
    rintro _ ⟨⟩

/-- The wallet payment beside the opened checkout, and the checkout given to it. -/
theorem Opened.clean (d : Bool) (key : IdempotencyKey) {rows : ∀ k, Row k}
    (rows' : ∀ k, Row k) {cid pid : ℕ} {co : Option CheckoutSession} {k : CheckoutSession}
    {n : Payment} (h : Opened n.userId cid co k t) (hfree : rows (.payment pid) = none) (hnew : PaymentNew n)
    (hcid : n.checkoutSessionId = some cid) :
    Clean d (((t.write rows ⟨.payment pid, some n⟩).write rows
      ⟨.paymentOfKey key, some pid⟩).write rows'
        ⟨.checkout cid, some { k with settledByPaymentId := some pid }⟩) := by
  generalize ht : ((t.write rows ⟨.payment pid, some n⟩).write rows
    ⟨.paymentOfKey key, some pid⟩).write rows'
      ⟨.checkout cid, some { k with settledByPaymentId := some pid }⟩ = t'
  have hchk : t'.chg (.checkout cid) =
      some (co, some { k with settledByPaymentId := some pid }) := by
    subst ht; simp [Tx.base, h.checkout]
  have hpay : t'.chg (.payment pid) = some (none, some n) := by
    subst ht; simp [Tx.base, h.others, hfree]
  have hother : ∀ k' : Key, k'.ruled = true → k' ≠ .payment pid → k' ≠ .checkout cid →
      t'.chg k' = none := by
    intro k' hk' hp hc
    subst ht
    have hkey : k' ≠ .paymentOfKey key := by rintro rfl; cases hk'
    simp [hp, hc, hkey, h.others]
  have hcs : CheckoutStep d co (some { k with settledByPaymentId := some pid }) := by
    cases co with
    | none => exact fun _ => h.paid
    | some o =>
      obtain ⟨hterms, hpend, hnone⟩ := h.before o rfl
      exact ⟨hterms, fun ho => absurd hnone ho, fun _ => h.paid, .inr (.inl ⟨hpend, h.paid⟩)⟩
  refine Clean.settlement hchk ?_ hpay ?_ (fun _ => ?_) (fun _ => ?_) (fun _ => ?_) (fun _ => ?_)
    ?_ hcs hnew rfl (fun o ho => (h.before o ho).2.2) hnew.approved hnew.settled hcid h.user.symm
  · exact fun c' hne => hother _ rfl (by simp) (by simp [hne])
  · exact fun id hne => hother _ rfl (by simp [hne]) (by simp)
  · exact hother _ rfl (by simp) (by simp)
  · exact hother _ rfl (by simp) (by simp)
  · exact hother _ rfl (by simp) (by simp)
  · exact hother _ rfl (by simp) (by simp)
  · subst ht; exact h.entries

theorem accepts_walletTransactionBody {args : WalletSettlementArgs}
    (hvalid : hasValidFinancialInvariant args = true) (minutes now : ℕ) :
    Accepts (money dm) p (walletTransactionBody args minutes now) := by
  have hpos : 0 < args.finalPriceToman := by
    simp only [hasValidFinancialInvariant, decide_eq_true_eq] at hvalid
    exact hvalid.2.2.2.2.2.1
  refine (cleanRules dm p).accepts_transaction fun r s _ => ?_
  refine wp_call wp_settlementCheckout (fun _ _ _ => trivial) fun x t₁ _ s₁ h₁ => ?_
  obtain ⟨cid, c⟩ := x
  obtain ⟨co, k, hopen⟩ := h₁
  refine (wp_seq _ _).mpr (wp_ask _ fun paymentId => ?_)
  refine (wp_seq _ _).mpr (wp_sql_tx fun s₂ _ _ _ => ?_)
  split
  case h_2 => trivial
  rename_i hp hkey
  -- the payment and its key are written over absent rows
  have hfree : s₂.rows (.payment paymentId.id) = none := by
    rw [← hp]; simp [Store.view, Tx.row_of_chg, hopen.others]
  simp only [Tx.add, List.foldl_cons, List.foldl_nil, Tx.append_nil]
  refine (wp_seq _ _).mpr (wp_update_tx fun s₃ _ _ _ => ⟨fun _ => trivial, fun n hn => ?_⟩)
  obtain ⟨k', hk', _, rfl⟩ := onRow_eq_some.mp hn
  obtain rfl : k = k' := by simpa [Tx.row, hopen.checkout] using hk'
  have hclean := Opened.clean (dm p) args.idempotencyKey s₃.rows
    (n := { walletPayment args cid now with idempotencyKey := some args.idempotencyKey })
    hopen hfree ⟨rfl, rfl, Int.le_of_lt hpos⟩ rfl
  refine (wp_seq _ _).mpr (wp_ask _ fun orderId => ?_)
  refine (wp_seq _ _).mpr (wp_mono _ (fun created l s₄ hl => ?_) ((cleanRules dm p).wp_createOrder hclean rfl))
  obtain ⟨tx, reads⟩ := l
  obtain ⟨t₄, rfl, h₄⟩ := hl
  split
  · trivial
  refine (cleanRules dm p).wp_walletTail h₄ fun w t₅ _ _ h₅ => ?_
  split
  · exact ⟨t₅, rfl, h₅⟩
  refine (wp_seq _ _).mpr (wp_ask _ fun claimed => ?_)
  split
  · trivial
  · exact ⟨t₅, rfl, h₅⟩

/-! ### Superseded checkouts -/

/-- The writes of a cancellation, one after another. -/
theorem cancel_moving (hd : dm p = true) {rows : ∀ k, Row k} (ws : List (ℕ × CheckoutSession))
    (hws : ∀ x ∈ ws, rows (.checkout x.1) = some x.2) (hh : t.Held rows) (hm : Moving (dm p) t)
    (hp : ∀ id, t.chg (.payment id) = none) :
    let t' := (ws.map fun x => (⟨.checkout x.1, some { x.2 with status := .CANCELLED }⟩ :
      Write Row)).foldl (fun t w => t.write rows w) t
    Moving (dm p) t' ∧ t'.Held rows ∧ ∀ id, t'.chg (.payment id) = none := by
  induction ws generalizing t with
  | nil => exact ⟨hm, hh, hp⟩
  | cons x xs ih =>
    refine ih (fun y hy => hws y (.tail _ hy)) (hh.write _) (hm.write hh ?_) fun id => ?_
    · change CheckoutMove (dm p) (rows (.checkout x.1)) (some _)
      rw [hws x (.head _), hd]; exact ⟨demoted_le (.inr rfl), rfl⟩
    · rw [Tx.chg_write_ne _ (by simp)]; exact hp id

theorem accepts_materialize (hd : dm p = true) (args : MaterializeArgs) :
    Accepts (money dm) p (materializePendingOtherProductCheckout args) := by
  refine .bind (.ask _) fun minutes => .bind (.ask _) fun now => ?_
  refine (cleanRules dm p).accepts_transaction fun r s _ => ?_
  refine (wp_seq _ _).mpr (wp_ask _ fun checkoutIds => ?_)
  refine (wp_seq _ _).mpr (wp_select _ fun s₁ _ _ => ?_)
  refine (wp_seq _ _).mpr (wp_sql_tx fun s₂ _ _ hh₂ => ?_)
  generalize List.filter _ checkoutIds.ids = ids
  obtain ⟨hm, _, hp⟩ := cancel_moving (t := {}) (p := p) hd
    (ids.filterMap fun id => (s₂.rows (.checkout id)).map fun c => (id, c)) (fun x hx => by
      obtain ⟨id, _, hid⟩ := List.mem_filterMap.mp hx
      obtain ⟨c, hc, rfl⟩ := Option.map_eq_some_iff.mp hid
      exact hc) hh₂ (.empty _) (fun _ => rfl)
  refine (wp_seq _ _).mpr (wp_ask _ fun id => ?_)
  refine (wp_seq _ _).mpr (wp_update_tx fun s₃ _ _ hh₃ => ⟨fun _ => trivial, fun n hn => ?_⟩)
  obtain ⟨hnone, rfl⟩ := onFree_eq_some.mp hn
  rw [Tx.add, Tx.append_nil] at hnone hh₃ ⊢
  have hfree : s₃.rows (.checkout id.id) = none := by
    rcases Tx.chg_of_row hnone with ⟨_, hb⟩ | hc
    · rw [← hh₃.base_eq, hb]
    · exact (CheckoutMove.not_gone (hm.moves (.checkout id.id) _ none hc)).elim
  refine ⟨_, rfl, Moving.clean (hm.write hh₃ ?_) fun id' o n hc => ?_⟩
  · change CheckoutMove (dm p) (s₃.rows (.checkout id.id)) (some _)
    rw [hfree]; rfl
  · rw [Tx.chg_write_ne _ (by simp)] at hc
    have hnone := hp id'
    exact absurd (hc.symm.trans hnone) (by simp)

end ZedBot
