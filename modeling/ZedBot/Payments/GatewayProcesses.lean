import ZedBot.Payments.Discipline
import ZedBot.Payments.Steps
import ZedBot.Payments.Accepted

/-! The processes of gateway payments are accepted by the payment discipline: provider events, the
    settlement with its order or top-up, duplicate successes and the sweep. -/

namespace ZedBot
open ReadCommitted RunningBalance

variable {dm : ℕ → Bool} {p : ℕ} {t : AppTx} {r : List AppStore} {s s' : AppStore}

/-! ### The rules of clean transactions -/

/-- A top-up is clean when it is the first of its payment, which has claimed its checkout, for the
    user and the price of that checkout. -/
def CleanTopup (t : AppTx) (pid userId : ℕ) (amount : ℤ) : Prop :=
  topupsOf pid t.entries = [] ∧
    ∃ c k, Claims t c pid k ∧ userId = k.userId ∧ amount = k.finalPriceToman

theorem money_user_absent {q u : ℕ} (hst : (money dm).Step q r s s')
    (hn : s.rows (.user u) = none) : s'.rows (.user u) = none := by
  cases hst with
  | act w h => exact h.elim
  | commit t hh h =>
    rcases s.commit_rows q hh (.user u) with ⟨he, _⟩ | hc
    · rw [he, hn]
    · rw [hn] at hc; exact (h.1.user u _ _ hc).elim

theorem cleanRules (dm : ℕ → Bool) (p : ℕ) : Rules (money dm) p (Clean (dm p)) CleanTopup where
  empty := .empty _
  commits h := ⟨h.toMoneyTx, h.filed⟩
  free n h hk := h.free hk n
  list h := h.listCommission _
  link h := h.linkPayment
  newOrder h := h.createOrder
  noteOrder h := h.noteOrder
  newCase h := h.createCase
  count h := h.countUser
  move h := h.moveBalance
  user_fresh h hh hr := h.toLedgerRows.user_fresh hh hr
  user_absent := money_user_absent

/-! ### What is known of a payment and its checkout -/

/-- The payment and the checkout that a process read earlier are still there; the payment's identity
    and the checkout's terms have not changed. -/
structure Known (paymentId checkoutId : ℕ) (payment : Payment) (c : CheckoutSession)
    (s : AppStore) : Prop where
  payment : ∃ q, s.rows (.payment paymentId) = some q ∧ q.identity = payment.identity
  checkout : ∃ k, s.rows (.checkout checkoutId) = some k ∧ c.SameTerms k

theorem CheckoutSession.SameTerms.trans {a b c : CheckoutSession} (h₁ : a.SameTerms b)
    (h₂ : b.SameTerms c) : a.SameTerms c := by
  cases a; cases b; cases c
  simp only [CheckoutSession.SameTerms, CheckoutSession.mk.injEq] at *
  grind

variable {paymentId checkoutId : ℕ} {payment : Payment} {c : CheckoutSession}

theorem Known.step {q : ℕ} (_ : MoneyInv s) (hst : (money dm).Step q r s s')
    (h : Known paymentId checkoutId payment c s) : Known paymentId checkoutId payment c s' := by
  cases hst with
  | act w h => exact h.elim
  | commit t hh hc =>
    obtain ⟨⟨a, ha, hid⟩, ⟨k, hk, hterms⟩⟩ := h
    obtain ⟨a', ha', hle⟩ := fwd_payment (p := q) hc.1 hh ha
    obtain ⟨k', hk', hcle⟩ := fwd_checkout (p := q) hc.1 hh hk
    exact ⟨⟨a', ha', hle.identity.trans hid⟩, ⟨k', hk', hterms.trans hcle.terms⟩⟩

theorem Known.later {ks : Key → Prop} (h : Known paymentId checkoutId payment c s)
    (hi : MoneyInv s) (hl : (money dm).Later p ks s s') :
    Known paymentId checkoutId payment c s' :=
  hl.stable (fun _ => Known.step) hi h

/-! ### Statements that settle nothing -/

/-- A write that settles nothing and marks no payment for review. -/
def Quiet (d : Bool) (rows : ∀ k, Row k) (w : Write Row) : Prop :=
  Moves d w.1 (rows w.1) w.2 ∧ ∀ id n o, w = ⟨.payment id, some n⟩ →
    rows (.payment id) = some o → n.settlementStatus = o.settlementStatus

variable {d : Bool} {rows : ∀ k, Row k}

theorem Quiet.ofPayment {id : ℕ} {o n : Payment} (ho : rows (.payment id) = some o)
    (hle : PaymentLe o n) (hs : n.settlementStatus = o.settlementStatus) :
    Quiet d rows ⟨.payment id, some n⟩ := by
  refine ⟨?_, ?_⟩
  · change PaymentMove (rows (.payment id)) (some n)
    rw [ho]; exact ⟨hle, fun h => by rw [← hs, h]⟩
  · rintro _ _ o' ⟨⟩ ho'
    rw [ho] at ho'; cases ho'; exact hs

theorem Quiet.ofCheckout {id : ℕ} {n : CheckoutSession}
    (h : CheckoutMove d (rows (.checkout id)) (some n)) :
    Quiet d rows ⟨.checkout id, some n⟩ := ⟨h, by rintro _ _ _ ⟨⟩⟩

theorem Quiet.free {k : Key} {n : Row k} (h : k.ruled = false) : Quiet d rows ⟨k, n⟩ := by
  cases k <;> first | exact ⟨rfl, by rintro _ _ _ ⟨⟩⟩ | cases h

/-- A statement outside a transaction whose writes are quiet. -/
theorem accepts_quiet {α : Type} {f : AppView → Effect Row Entry α}
    (he : ∀ v, (f v).entries = [])
    (hq : ∀ s : AppStore, ∀ w ∈ (f (s.view {})).writes, Quiet (dm p) s.rows w) :
    Accepts (money dm) p (sql f : App α) := by
  refine Accepts.sql fun r s _ => ?_
  have hmoving : Moving (dm p) (Tx.add {} s.rows (f (s.view {}))) := by
    refine ⟨?_, fun k o n hc => ?_⟩
    · have hfold : ∀ (ws : List (Write Row)) (t : AppTx),
          (ws.foldl (fun t w => t.write s.rows w) t).entries = t.entries := by
        intro ws
        induction ws with
        | nil => exact fun t => rfl
        | cons w ws ih => exact fun t => ih _
      simp [Tx.add, hfold, he]
    · obtain ⟨rfl, hw⟩ := Tx.chg_add_empty hc
      exact (hq s _ hw).1
  have hclean := hmoving.clean fun id o n hc hn => by
    obtain ⟨ho, hw⟩ := Tx.chg_add_empty hc
    rw [← (hq s _ hw).2 id n o rfl ho.symm, hn]
  exact ⟨hclean.toMoneyTx, hclean.filed⟩

/-- An update of one payment outside a transaction. -/
theorem accepts_updatePayment {id : ℕ} {cond : Payment → Bool} {data : Payment → Payment}
    (h : ∀ o, cond o = true → PaymentLe o (data o) ∧
      (data o).settlementStatus = o.settlementStatus) :
    Accepts (money dm) p (updatePayment id cond data) := by
  refine accepts_quiet (fun v => ?_) (fun s w hw => ?_)
  · split <;> rfl
  · split at hw
    · rename_i x hx
      obtain ⟨o, ho, hcond, rfl⟩ := onRow_eq_some.mp hx
      obtain rfl := List.mem_singleton.mp hw
      exact .ofPayment ho (h o hcond).1 (h o hcond).2
    · cases hw

/-! ### The settlement of a gateway payment -/

/-- The claim inside a settlement transaction that has written nothing else: the checkout was
    PENDING and unowned and is now given to the payment, or the payment owns it already. -/
theorem wp_claimCheckout {cid pid now : ℕ} :
    wp (money dm) p (claimCheckout cid pid now) (Returns fun _ t' s' =>
      (∃ rows o, rows (.checkout cid) = some o ∧ o.settledByPaymentId = none ∧ o.status = .PENDING ∧
        t' = Tx.write {} rows ⟨.checkout cid, some (claimedCheckout pid now o)⟩) ∨
      (t' = {} ∧ ∃ o, s'.rows (.checkout cid) = some o ∧ o.settledByPaymentId = some pid))
      ⟨some {}, r⟩ s := by
  refine (wp_seq _ _).mpr (wp_update_tx fun s₁ _ _ _ => ⟨fun _ => ?_, fun n hn => ?_⟩)
  · refine (wp_seq _ _).mpr (wp_select _ fun s₂ _ _ => ?_)
    split
    · trivial
    · rename_i f hf
      split
      · rename_i hown
        exact ⟨{}, rfl, .inr ⟨rfl, f, hf, hown⟩⟩
      · trivial
  · obtain ⟨o, ho, hcond, rfl⟩ := onRow_eq_some.mp hn
    simp only [Bool.decide_and, Bool.and_eq_true, decide_eq_true_eq] at hcond
    exact ⟨_, rfl, .inl ⟨s₁.rows, o, ho, hcond.1, hcond.2, rfl⟩⟩

/-- The owner of a checkout is no longer open. -/
theorem MoneyInv.owner_not_open (hi : MoneyInv s) {cid pid : ℕ} {o : CheckoutSession} {q : Payment}
    (ho : s.rows (.checkout cid) = some o) (hpid : o.settledByPaymentId = some pid)
    (hq : s.rows (.payment pid) = some q) : isOpen q = false := by
  obtain ⟨q', hq', ha, _⟩ := hi.owner cid o pid ho hpid
  rw [hq] at hq'; cases hq'
  simp [isOpen, ha]

/-- An owner stays. -/
theorem owner_later {ks : Key → Prop} {cid pid : ℕ} (hi : MoneyInv s)
    (hl : (money dm).Later p ks s s')
    (h : ∃ o, s.rows (.checkout cid) = some o ∧ o.settledByPaymentId = some pid) :
    ∃ o, s'.rows (.checkout cid) = some o ∧ o.settledByPaymentId = some pid := by
  refine hl.stable (P := fun s => ∃ o, s.rows (.checkout cid) = some o ∧
    o.settledByPaymentId = some pid) (fun {q _ s _} _ _ hst ⟨o, ho, hpid⟩ => ?_) hi h
  cases hst with
  | act w h => exact h.elim
  | commit t hh hc =>
    obtain ⟨o', ho', hle⟩ := fwd_checkout (p := q) hc.1 hh ho
    exact ⟨o', ho', by rw [hle.owner (by simp [hpid]), hpid]⟩

/-- The settlement's approval of a payment that is open or in review. -/
theorem settledPayment_le {o : Payment} (now : ℕ)
    (h : isOpen o = true ∨ o.status = .PENDING_REVIEW) : PaymentLe o (settledPayment now o) where
  identity := rfl
  settled _ := .inr rfl
  approved _ := .inr rfl
  keepsSettled _ := rfl
  keepsApproved _ := rfl
  keepsReview _ := by simp [settledPayment]
  status := by
    rcases h with h | h
    · exact .inr (.inr ⟨h, by simp [settledPayment]⟩)
    · exact .inr (.inl h)

/-- A checkout gets its owner. -/
theorem claimedCheckout_le {d : Bool} {o : CheckoutSession} {pid now : ℕ}
    (hs : o.status = .PENDING) (hn : o.settledByPaymentId = none) :
    CheckoutLe d o (claimedCheckout pid now o) where
  terms := by cases o; rfl
  owner h := absurd hn h
  paid _ := rfl
  status := .inr (.inl ⟨hs, rfl⟩)

/-- The claim and the approval beside it. -/
theorem settle_clean (d : Bool) (now : ℕ) {rows₁ rows₂ : ∀ k, Row k} {cid pid : ℕ}
    {o : CheckoutSession} {q : Payment} (ho : rows₁ (.checkout cid) = some o) (hn : o.settledByPaymentId = none)
    (hs : o.status = .PENDING) (hq : rows₂ (.payment pid) = some q) (hopen : isOpen q = true)
    (hcid : q.checkoutSessionId = some cid) (hu : q.userId = o.userId) :
    Clean d ((Tx.write ({} : AppTx) rows₁
      ⟨.checkout cid, some (claimedCheckout pid now o)⟩).write rows₂
      ⟨.payment pid, some (settledPayment now q)⟩) := by
  have hchk : ((Tx.write ({} : AppTx) rows₁ ⟨.checkout cid,
      some (claimedCheckout pid now o)⟩).write rows₂ ⟨.payment pid, some (settledPayment now q)⟩).chg
      (.checkout cid) = some (some o, some (claimedCheckout pid now o)) := by simp [ho]
  have hpay : ((Tx.write ({} : AppTx) rows₁ ⟨.checkout cid,
      some (claimedCheckout pid now o)⟩).write rows₂ ⟨.payment pid, some (settledPayment now q)⟩).chg
      (.payment pid) = some (some q, some (settledPayment now q)) := by simp [Tx.base, hq]
  refine Clean.settlement hchk ?_ hpay ?_ (fun _ => ?_) (fun _ => ?_) (fun _ => ?_) (fun _ => ?_) rfl
    (claimedCheckout_le hs hn) (settledPayment_le now (.inl hopen)) rfl ?_ rfl rfl hcid hu
  · intro c' hne; simp [hne]
  · intro id hne; simp [hne]
  · simp
  · simp
  · simp
  · simp
  · rintro _ ⟨⟩; exact hn

theorem wp_settleTransaction {cid pid now : ℕ} {c : CheckoutSession} {payment : Payment}
    (hi : MoneyInv s) (hk : Known pid cid payment c s)
    (hcid : payment.checkoutSessionId = some cid)
    (ham : payment.amountToman = c.finalPriceToman) :
    wp (money dm) p (settleTransaction cid pid c payment now)
      (fun _ l s => l.tx = none ∧ MoneyInv s) ⟨none, r⟩ s := by
  refine (cleanRules dm p).wp_transaction hi ?_
  refine (wp_seq _ _).mpr (wp_mono _ (fun x l s₁ hx => ?_)
    (wp_frame (D := money dm) Known.step _ hi hk wp_claimCheckout))
  obtain ⟨hx, hi₁, hk₁⟩ := hx
  cases x with
  | error e => trivial
  | ok x =>
  obtain ⟨tx, reads⟩ := l
  obtain ⟨t₁, rfl, ht₁⟩ := hx
  refine (wp_seq _ _).mpr (wp_update_tx fun s₂ hl₂ hi₂ hh₂ => ⟨fun _ => trivial, fun n hn => ?_⟩)
  have hk₂ := hk₁.later hi₁ hl₂
  obtain ⟨q, hq, hopen, rfl⟩ := onRow_eq_some.mp hn
  rcases ht₁ with ⟨rows, o, ho, hnone, hpend, rfl⟩ | ⟨rfl, hown⟩
  case inr =>
    -- a payment that owned the checkout before is not open
    obtain ⟨o, ho, hpid⟩ := owner_later hi₁ hl₂ hown
    have := MoneyInv.owner_not_open hi₂ ho hpid hq
    rw [hopen] at this; cases this
  obtain ⟨q', hq', hid⟩ := hk₂.payment
  obtain ⟨k, hkc, hterms⟩ := hk₂.checkout
  have hqrow : s₂.rows (.payment pid) = some q := by
    rw [← hq, Tx.row_of_chg]; simp
  rw [hqrow] at hq'; cases hq'
  -- the checkout is still the one that was claimed
  obtain rfl : k = o := by
    have := hh₂ (.checkout cid) _ _ (Tx.chg_write_self _ _)
    rw [hkc] at this
    simpa [ho] using this.symm
  have hqc : q.checkoutSessionId = some cid := by
    rw [← hcid]; exact congrArg (·.2.1) hid
  have hqu : q.userId = k.userId := by
    obtain ⟨row, hrow, hu⟩ := hi₂.belongs pid q cid hqrow hqc
    rw [hkc] at hrow; cases hrow; exact hu.symm
  have hclean := settle_clean (dm p) now ho hnone hpend hqrow hopen hqc hqu
  simp only [Nat.one_ne_zero, if_false]
  split
  · -- a wallet top-up
    refine (wp_seq _ _).mpr (wp_select _ fun s₃ _ _ => ?_)
    split
    · exact ⟨_, rfl, hclean⟩
    · have huser : payment.userId = q.userId := (congrArg Prod.fst hid).symm
      have hamount : payment.amountToman = q.amountToman := (congrArg (·.2.2.2.1) hid).symm
      refine wp_call ((cleanRules dm p).wp_creditTopup hclean ?_ ⟨?_, ?_⟩) (fun _ _ _ => trivial)
        fun _ t _ _ h => ⟨t, rfl, h⟩
      · rw [hamount]; exact hi₂.amount pid q hqrow
      · simp
      · refine ⟨cid, claimedCheckout pid now k, ⟨some k, by simp [ho], rfl, ?_⟩, ?_, ?_⟩
        · rintro _ ⟨⟩; exact hnone
        · exact huser.trans hqu
        · exact ham.trans hterms.finalPriceToman.symm
  · refine wp_call ((cleanRules dm p).wp_settleOrder hclean) (fun _ _ _ => trivial) fun order t₃ _ _ h₃ => ?_
    exact wp_call ((cleanRules dm p).wp_finalizeGatewayDiscount h₃) (fun _ _ _ => trivial) fun _ t _ _ h => ⟨t, rfl, h⟩

/-! ### Provider events -/

/-- An open payment is moved to a status that is not APPROVED. -/
theorem PaymentLe.of_open {o : Payment} {st : PaymentStatus} (h : isOpen o = true)
    (hst : st = .PROCESSING ∨ st = .FAILED ∨ st = .EXPIRED ∨ st = .CANCELLED) :
    PaymentLe o { o with status := st } where
  identity := Eq.refl _
  settled h := .inl h
  approved h := by rcases hst with rfl | rfl | rfl | rfl <;> cases h
  keepsSettled h := h
  keepsApproved ha := by simp [isOpen, ha] at h
  keepsReview h := by simp [h]
  status := .inr (.inr ⟨h, by tauto⟩)

theorem accepts_updatePaymentCharge {id : ℕ} {charge : Option String} {data : Payment → Payment}
    (h : ∀ o : Payment, o.SameState (data o)) :
    Accepts (money dm) p (updatePaymentCharge id charge data) := by
  have hquiet : ∀ (s : AppStore) (q : Payment) (n : Payment), s.rows (.payment id) = some q →
      q.SameState n → Quiet (dm p) s.rows ⟨.payment id, some n⟩ :=
    fun s q n hq hs => .ofPayment hq (.of_sameState hs) hs.2.2
  refine accepts_quiet (fun v => ?_) (fun s w hw => ?_)
  · split
    · rfl
    split
    · rfl
    split
    · rfl
    · split <;> rfl
  · split at hw
    · cases hw
    rename_i q hq
    split at hw
    · obtain rfl := List.mem_singleton.mp hw
      exact hquiet s q _ hq (h q)
    rename_i x
    have hx : q.SameState { data q with externalTransactionId := some x } := h q
    split at hw
    · rcases List.mem_cons.mp hw with rfl | hw
      · exact hquiet s q _ hq hx
      · obtain rfl := List.mem_singleton.mp hw
        exact .free rfl
    · split at hw
      · obtain rfl := List.mem_singleton.mp hw
        exact hquiet s q _ hq hx
      · cases hw

theorem accepts_expireStalePayments (ids : List ℕ) :
    Accepts (money dm) p (expireStalePayments ids) := by
  refine .bind (.ask _) fun now => accepts_quiet (fun _ => rfl) fun s w hw => ?_
  obtain ⟨⟨id, q⟩, hmem, rfl⟩ := List.mem_map.mp hw
  obtain ⟨id', _, hid⟩ := List.mem_filterMap.mp hmem
  split at hid
  · rename_i q' hq'
    split at hid
    · rename_i hstale
      cases hid
      refine .ofPayment hq' (.of_open ?_ (.inr (.inr (.inl rfl)))) rfl
      simp only [isStalePending, decide_eq_true_eq] at hstale
      simp [isOpen, hstale.2.1]
    · cases hid
  · cases hid

/-! ### Duplicate successes -/

/-- A case stays. -/
theorem case_later {ks : Key → Prop} {id : ℕ} (hi : MoneyInv s) (hl : (money dm).Later p ks s s')
    (h : s.rows (.reconciliation id) ≠ none) : s'.rows (.reconciliation id) ≠ none := by
  refine hl.stable (P := fun s => s.rows (.reconciliation id) ≠ none)
    (fun {q _ s _} _ _ hst hn => ?_) hi h
  cases hst with
  | act w h => exact h.elim
  | commit t hh hc => exact fwd_case (p := q) hc.1 hh hn

/-- A transaction that settles nothing and may mark payment `id`, and no other, for review. -/
structure Marking (d : Bool) (id : ℕ) (t : AppTx) : Prop extends Moving d t where
  only : ∀ id' o n, t.chg (.payment id') = some (some o, some n) →
    n.settlementStatus = .DUPLICATE_SUCCESS_REVIEW →
    o.settlementStatus = .DUPLICATE_SUCCESS_REVIEW ∨ id' = id

/-- The payment is marked with its case beside it, written here or committed before. -/
theorem Marking.commits {id : ℕ} (h : Marking (dm p) id t)
    (hcase : t.row s.rows (.reconciliation id) ≠ none) : MoneyTx (dm p) t ∧ Filed s t := by
  refine ⟨h.moneyTx, fun id' o n hc hn ho => ?_⟩
  have hm : PaymentMove o (some n) := h.moves (.payment id') o (some n) hc
  cases o with
  | none => exact hm.elim
  | some o =>
    rcases h.only id' o n hc hn with hd | rfl
    · exact absurd hd (ho o rfl)
    · exact hcase

theorem wp_findOrCreateCase_marking {id : ℕ} {row : FinancialReconciliationCase}
    (hm : Marking (dm p) id t) (hfresh : t.chg (.reconciliation id) = none) :
    wp (money dm) p (findOrCreateCase id row) (Returns fun _ t' s' => Marking (dm p) id t' ∧
      ∀ s'', (money dm).Later p t'.Holds s' s'' → t'.row s''.rows (.reconciliation id) ≠ none)
      ⟨some t, r⟩ s := by
  have found : ∀ {s₁ : AppStore} {e}, MoneyInv s₁ → t.row s₁.rows (.reconciliation id) = some e →
      ∀ s₂, (money dm).Later p t.Holds s₁ s₂ → t.row s₂.rows (.reconciliation id) ≠ none := by
    intro s₁ e hi he s₂ hl
    rw [Tx.row_of_chg hfresh] at he ⊢
    exact case_later hi hl (by rw [he]; simp)
  refine (wp_seq _ _).mpr (wp_select _ fun s₁ _ hi₁ => ?_)
  split
  · rename_i e he
    exact ⟨t, rfl, hm, found hi₁ he⟩
  refine (wp_seq _ _).mpr (wp_update_tx fun s₂ _ _ hh => ⟨fun _ => ?_, fun n hn => ?_⟩)
  · refine (wp_seq _ _).mpr (wp_select _ fun s₃ _ hi₃ => ?_)
    split
    · rename_i w hw
      exact ⟨t, rfl, hm, found hi₃ hw⟩
    · trivial
  · obtain ⟨hnone, rfl⟩ := onFree_eq_some.mp hn
    rw [Tx.row_of_chg hfresh] at hnone
    refine ⟨_, rfl, ⟨hm.toMoving.write hh ?_, ?_⟩, fun s₃ _ => by simp⟩
    · change CaseStep (s₂.rows (.reconciliation id)) (some row)
      rw [hnone]; trivial
    · intro id' o n hc; exact hm.only id' o n (by simpa using hc)

theorem accepts_recordDuplicateSuccess (input : DuplicateSuccessInput) :
    Accepts (money dm) p (recordDuplicateSuccess input) := by
  refine ⟨fun r s hi => wp_transaction ?_⟩
  -- the case is found or created under the mark, and committed with it
  have file : ∀ {t : AppTx} {r s}, Marking (dm p) input.duplicatePaymentId t → MoneyInv s →
      t.chg (.reconciliation input.duplicatePaymentId) = none →
      wp (money dm) p (findOrCreateCase input.duplicatePaymentId
        { type := .DUPLICATE_CHECKOUT_PAYMENT
          checkoutSessionId := input.checkoutSessionId
          primaryPaymentId := input.primaryPaymentId
          userId := input.userId
          expectedAmountToman := input.expectedAmountToman
          safeReason := slice200 input.safeReason })
        (fun x l s => match x with
          | .ok _ => ∀ s', (money dm).Later p l.Holds s s' → MoneyInv s' →
            l.pending.Held s'.rows → (money dm).Commits p l.reads s' l.pending ∧
              MoneyInv (s'.commit p l.pending)
          | .error _ => MoneyInv s) ⟨some t, r⟩ s := by
    intro t r s hm hi hfresh
    refine wp_mono _ (fun x l s hx => ?_) (wp_frame (D := money dm) (K := fun _ => True)
      (fun _ _ _ => trivial) _ hi trivial (wp_findOrCreateCase_marking hm hfresh))
    obtain ⟨hx, hi, _⟩ := hx
    cases x with
    | error e => exact hi
    | ok x =>
      obtain ⟨tx, reads⟩ := l
      obtain ⟨t', rfl, hm', hcase⟩ := hx
      intro s' hl hi' hh
      have hc := hm'.commits (hcase s' hl)
      exact ⟨hc, hi'.commit hh hc.1 hc.2⟩
  refine (wp_seq _ _).mpr (wp_update_tx fun s₁ _ hi₁ hh => ⟨fun _ => ?_, fun n hn => ?_⟩)
  · refine wp_mono _ (fun x l s hx => ?_) (file ⟨.empty _, by intro _ _ _ h; cases h⟩ hi₁ rfl)
    cases x with
    | error e => exact ⟨rfl, hx⟩
    | ok x => exact fun s' hl hi hh => ⟨(hx s' hl hi hh).1, rfl, (hx s' hl hi hh).2⟩
  · obtain ⟨q, hq, hcond, rfl⟩ := onRow_eq_some.mp hn
    have hq' : s₁.rows (.payment input.duplicatePaymentId) = some q := hq
    have hun : q.settlementStatus = .UNSETTLED := by simpa using hcond
    refine wp_mono _ (fun x l s hx => ?_) (file ⟨(Moving.empty _).write hh ?_, ?_⟩ hi₁ (by simp))
    · cases x with
      | error e => exact ⟨rfl, hx⟩
      | ok x => exact fun s' hl hi hh => ⟨(hx s' hl hi hh).1, rfl, (hx s' hl hi hh).2⟩
    · change PaymentMove (s₁.rows (.payment input.duplicatePaymentId)) (some _)
      rw [hq']
      refine ⟨⟨rfl, by simp, by simp, by simp [hun], id, by simp [hun], .inl rfl⟩, by simp⟩
    · intro id' o n hc _
      by_cases hne : id' = input.duplicatePaymentId
      · exact .inr hne
      · simp [hne] at hc

/-! ### The gateway -/

theorem moneyStatements (dm : ℕ → Bool) (p : ℕ) : PaymentStatements (money dm) p where
  charge := accepts_updatePaymentCharge
  move h := accepts_updatePayment fun _ ho => ⟨.of_open ho h, rfl⟩
  file := accepts_recordDuplicateSuccess

theorem wp_settleVerified {cid pid : ℕ} {c : CheckoutSession} {payment : Payment}
    (hi : MoneyInv s) (hk : Known pid cid payment c s)
    (hcid : payment.checkoutSessionId = some cid) :
    wp (money dm) p (settleVerified cid pid c payment) (fun _ l s => l.tx = none ∧ MoneyInv s)
      ⟨none, r⟩ s := by
  unfold settleVerified
  split
  · exact ⟨rfl, hi⟩
  rename_i ham
  refine (wp_seq _ _).mpr (wp_ask _ fun infoMissing => ?_)
  split
  · exact ⟨rfl, hi⟩
  refine (wp_seq _ _).mpr (wp_ask _ fun now => ?_)
  have hamount : payment.amountToman = c.finalPriceToman := by tauto
  refine (wp_seq _ _).mpr (wp_mono _ (fun x l s hx => ?_)
    (wp_settleTransaction hi hk hcid hamount))
  obtain ⟨tx, reads⟩ := l
  obtain ⟨rfl, hi'⟩ := hx
  exact ((moneyStatements dm p).accepts_settleResult cid pid payment x).run reads s hi'

/-- A payment row that was read is still there, with the same identity; so is the checkout. -/
theorem known_of_reads {pid cid : ℕ} {payment : Payment} {c : CheckoutSession} {s₁ s₂ : AppStore}
    {ks : Key → Prop} (hp : s₁.rows (.payment pid) = some payment) (hi : MoneyInv s₁)
    (hl : (money dm).Later p ks s₁ s₂) (hc : s₂.rows (.checkout cid) = some c) :
    Known pid cid payment c s₂ := by
  refine ⟨?_, c, hc, .rfl c⟩
  refine hl.stable (P := fun s => ∃ q, s.rows (.payment pid) = some q ∧
    q.identity = payment.identity) (fun {q _ s _} _ _ hst ⟨a, ha, hid⟩ => ?_) hi
    ⟨payment, hp, rfl⟩
  cases hst with
  | act w h => exact h.elim
  | commit t hh hc =>
    obtain ⟨a', ha', hle⟩ := fwd_payment (p := q) hc.1 hh ha
    exact ⟨a', ha', hle.identity.trans hid⟩

theorem accepts_settleGatewayPayment (pid : ℕ) :
    Accepts (money dm) p (settleGatewayPayment pid) := by
  refine ⟨fun r s hi => (wp_seq _ _).mpr (wp_select _ fun s₁ _ hi₁ => ?_)⟩
  split
  case h_2 => exact ⟨rfl, hi₁⟩
  rename_i payment hpay
  refine (wp_seq _ _).mpr (wp_select _ fun s₂ hl₂ hi₂ => ?_)
  split
  · exact ⟨rfl, hi₂⟩
  split
  · exact ⟨rfl, hi₂⟩
  split
  case h_2 => exact ⟨rfl, hi₂⟩
  rename_i cid c hchk
  obtain ⟨cid', hcid, hrow⟩ := Option.bind_eq_some_iff.mp hchk
  obtain ⟨c', hc', hpair⟩ := Option.map_eq_some_iff.mp hrow
  obtain ⟨rfl, rfl⟩ := Prod.mk.inj hpair
  have hk := known_of_reads (show s₁.rows (.payment pid) = some payment from hpay) hi₁ hl₂ hc'
  split
  · exact (accepts_alreadyOutcome _).run _ _ hi₂
  split
  · exact ⟨rfl, hi₂⟩
  split
  · exact ⟨rfl, hi₂⟩
  split
  · refine (Accepts.bind (.select _) fun found => ?_).run _ _ hi₂
    split
    · exact .pure _
    · exact (moneyStatements dm p).accepts_duplicateOutcome _ _ _ _ _
  · refine Accepts.wp_seq (D := money dm) ((moneyStatements dm p).accepts_verifyOnDemand pid payment) Known.step hi₂ hk
      fun verified r s hi hk => ?_
    split
    · exact ⟨rfl, hi⟩
    · exact wp_settleVerified hi hk hcid

end ZedBot
