import ZedBot.Payments.Adjustments
import ZedBot.RunningBalance

/-! What the payment processes may do to the database, and the invariant they keep.

    Each process is read against `money`: a transaction moves every checkout and payment forward
    only, names in the checkout it settles a payment that it approves in the same transaction, and
    writes ledger rows that lead from the balance of the user's locked row to the one it leaves. The
    rows of one transaction are enough to check all of that, so a process can be checked without
    knowing what the others do. -/

namespace ZedBot
open ReadCommitted RunningBalance

/-! ### The wallet ledger -/

/-- The direction in which a ledger row moves the balance. -/
def WalletTransactionType.sign : WalletTransactionType → ℤ
  | .CHARGE | .REFUND | .CASHBACK | .COMMISSION | .MANUAL_ADD => 1
  | .SPEND | .MANUAL_DEDUCT | .DEBT_PAYMENT | .SYSTEM_ADJUSTMENT => -1
  | .DEBT_ADD | .DISCOUNT => 0

/-- A wallet transaction as a row of a running balance. -/
def wallet : Account WalletTransaction where
  before := (·.balanceBeforeToman)
  after := (·.balanceAfterToman)
  delta w := w.type.sign * w.amountToman

/-- The ledger rows of one user, in commit order. -/
def ledgerOf (userId : ℕ) (js : List Entry) : List WalletTransaction :=
  js.filterMap fun
    | .wallet w => if w.userId = userId then some w else none
    | .draft _ | .openPayment _ | .commission _ => none

@[simp] theorem ledgerOf_nil (u : ℕ) : ledgerOf u [] = [] := rfl

theorem ledgerOf_append (u : ℕ) (js ks : List Entry) :
    ledgerOf u (js ++ ks) = ledgerOf u js ++ ledgerOf u ks := List.filterMap_append ..

/-- The top-up rows of one payment, in commit order. -/
def topupsOf (paymentId : ℕ) (js : List Entry) : List WalletTransaction :=
  js.filterMap fun
    | .wallet w =>
      if w.relatedPaymentId = some paymentId ∧ w.reason = .WALLET_TOPUP_CARD_TO_CARD then some w
      else none
    | .draft _ | .openPayment _ | .commission _ => none

@[simp] theorem topupsOf_nil (p : ℕ) : topupsOf p [] = [] := rfl

theorem topupsOf_append (p : ℕ) (js ks : List Entry) :
    topupsOf p (js ++ ks) = topupsOf p js ++ topupsOf p ks := List.filterMap_append ..

/-! ### How one row may change -/

/-- The terms of a checkout, fixed at its creation. -/
def CheckoutSession.SameTerms (o n : CheckoutSession) : Prop :=
  { n with status := o.status, settledByPaymentId := o.settledByPaymentId, paidAt := o.paidAt } = o

/-- A checkout keeps its terms and its owner; it gets an owner only together with PAID, from
    PENDING; only a process that `demotes` moves it to EXPIRED or CANCELLED. -/
structure CheckoutLe (demotes : Bool) (o n : CheckoutSession) : Prop where
  terms : o.SameTerms n
  owner : o.settledByPaymentId ≠ none → n.settledByPaymentId = o.settledByPaymentId
  paid : n.settledByPaymentId ≠ o.settledByPaymentId → n.status = .PAID
  status : n.status = o.status ∨ (o.status = .PENDING ∧ n.status = .PAID) ∨
    (demotes ∧ (n.status = .EXPIRED ∨ n.status = .CANCELLED))

/-- A created checkout has an owner only if it is PAID. -/
def CheckoutStep (demotes : Bool) : Option CheckoutSession → Option CheckoutSession → Prop
  | some o, some n => CheckoutLe demotes o n
  | none, some n => n.settledByPaymentId ≠ none → n.status = .PAID
  | _, none => False

/-- What stays of a payment. -/
def Payment.identity (p : Payment) :
    ℕ × Option ℕ × PaymentPurpose × ℤ × ℤ × Option PaymentGatewayType :=
  (p.userId, p.checkoutSessionId, p.purpose, p.amountToman, p.payableAmountToman, p.provider)

/-- A payment keeps its identity; APPROVED and SETTLED come together and stay; its local status
    moves only from an open one or from review. -/
structure PaymentLe (o n : Payment) : Prop where
  identity : n.identity = o.identity
  settled : n.settlementStatus = .SETTLED → o.settlementStatus = .SETTLED ∨ n.status = .APPROVED
  approved : n.status = .APPROVED → o.status = .APPROVED ∨ n.settlementStatus = .SETTLED
  keepsSettled : o.settlementStatus = .SETTLED → n.settlementStatus = .SETTLED
  keepsApproved : o.status = .APPROVED → n.status = .APPROVED
  keepsReview : o.settlementStatus = .DUPLICATE_SUCCESS_REVIEW → n.settlementStatus ≠ .UNSETTLED
  status : n.status = o.status ∨ o.status = .PENDING_REVIEW ∨
    (isOpen o ∧ (n.status = .PROCESSING ∨ n.status = .FAILED ∨ n.status = .EXPIRED ∨
      n.status = .CANCELLED ∨ n.status = .APPROVED))

/-- A created payment is a settled wallet payment of a non-negative amount. -/
structure PaymentNew (n : Payment) : Prop where
  approved : n.status = .APPROVED
  settled : n.settlementStatus = .SETTLED
  amount : 0 ≤ n.amountToman

def PaymentStep : Option Payment → Option Payment → Prop
  | some o, some n => PaymentLe o n
  | none, some n => PaymentNew n
  | _, none => False

/-- An order keeps its checkout. -/
def OrderStep : Option Order → Option Order → Prop
  | some o, some n => n.checkoutSessionId = o.checkoutSessionId
  | none, some _ => True
  | _, none => False

/-- A reconciliation case stays. -/
def CaseStep : Option FinancialReconciliationCase → Option FinancialReconciliationCase → Prop
  | some o, some n => n = o
  | none, some _ => True
  | _, none => False

/-- A user's row changes with the ledger rows `ws` written beside it: they lead from its balance to
    the new one, which is not negative unless the user may be overdrawn. -/
def UserStep (ws : List WalletTransaction) : Option User → Option User → Prop
  | some o, some n =>
    Chain wallet o.balanceToman ws n.balanceToman ∧
      n.allowNegativeBalance = o.allowNegativeBalance ∧
      (o.allowNegativeBalance = false → 0 ≤ o.balanceToman → 0 ≤ n.balanceToman)
  | _, _ => False

/-! ### How one transaction may change the rows -/

/-- Transaction `t` gives checkout `c` to payment `pid`. -/
def Claims (t : AppTx) (c pid : ℕ) (n : CheckoutSession) : Prop :=
  ∃ o, t.chg (.checkout c) = some (o, some n) ∧ n.settledByPaymentId = some pid ∧
    ∀ o', o = some o' → o'.settledByPaymentId = none

/-- What a transaction may do to checkouts and payments. -/
structure SettlementRows (demotes : Bool) (t : AppTx) : Prop where
  checkout : ∀ c o n, t.chg (.checkout c) = some (o, n) → CheckoutStep demotes o n
  payment : ∀ id o n, t.chg (.payment id) = some (o, n) → PaymentStep o n
  /-- The owner named in a settled checkout is approved beside it. -/
  claim : ∀ c pid n, Claims t c pid n → ∃ o p, t.chg (.payment pid) = some (o, some p) ∧
    p.status = .APPROVED ∧ p.settlementStatus = .SETTLED ∧ p.checkoutSessionId = some c ∧
    p.userId = n.userId
  /-- A payment is settled only as the owner of its checkout. -/
  owner : ∀ pid o n, t.chg (.payment pid) = some (o, some n) → n.settlementStatus = .SETTLED →
    (∀ o', o = some o' → o'.settlementStatus ≠ .SETTLED) →
    ∃ c k, n.checkoutSessionId = some c ∧ Claims t c pid k

/-- What a transaction may do to orders. -/
structure OrderRows (t : AppTx) : Prop where
  order : ∀ id o n, t.chg (.order id) = some (o, n) → OrderStep o n
  /-- A created order of a checkout enters the unique index with it. -/
  indexed : ∀ id n c, t.chg (.order id) = some (none, some n) → n.checkoutSessionId = some c →
    t.chg (.orderOfCheckout c) = some (none, some id)
  index : ∀ c o n, t.chg (.orderOfCheckout c) = some (o, n) → o = none ∧
    ∃ id row, n = some id ∧ t.chg (.order id) = some (none, some row) ∧
      row.checkoutSessionId = some c

/-- What a transaction may do to balances and their ledger. -/
structure LedgerRows (t : AppTx) : Prop where
  user : ∀ u o n, t.chg (.user u) = some (o, n) → UserStep (ledgerOf u t.entries) o n
  /-- No ledger row of a user whose balance is not locked. -/
  locked : ∀ u, t.chg (.user u) = none → ledgerOf u t.entries = []

/-- What a payment transaction may do, checked on its own changes. -/
structure MoneyTx (demotes : Bool) (t : AppTx) : Prop extends SettlementRows demotes t, OrderRows t,
    LedgerRows t where
  case : ∀ id o n, t.chg (.reconciliation id) = some (o, n) → CaseStep o n
  /-- A top-up credits the user of the checkout it settles with its price, once. -/
  topup : ∀ pid w, w ∈ topupsOf pid t.entries → topupsOf pid t.entries = [w] ∧
    ∃ c n, Claims t c pid n ∧ w.userId = n.userId ∧ w.amountToman = n.finalPriceToman

/-- A payment marked for duplicate review has its case. -/
def Filed (s : AppStore) (t : AppTx) : Prop :=
  ∀ pid o n, t.chg (.payment pid) = some (o, some n) →
    n.settlementStatus = .DUPLICATE_SUCCESS_REVIEW →
    (∀ o', o = some o' → o'.settlementStatus ≠ .DUPLICATE_SUCCESS_REVIEW) →
    t.row s.rows (.reconciliation pid) ≠ none

/-! ### The invariant -/

/-- What holds of the committed rows at all times. -/
structure MoneyInv (s : AppStore) : Prop where
  /-- The owner of a checkout is an approved and settled payment for it. -/
  owner : ∀ c row pid, s.rows (.checkout c) = some row → row.settledByPaymentId = some pid →
    ∃ p, s.rows (.payment pid) = some p ∧ p.status = .APPROVED ∧ p.settlementStatus = .SETTLED ∧
      p.checkoutSessionId = some c
  /-- A settled payment owns its checkout. -/
  settled : ∀ pid p, s.rows (.payment pid) = some p → p.settlementStatus = .SETTLED →
    p.status = .APPROVED ∧ ∃ c row, p.checkoutSessionId = some c ∧
      s.rows (.checkout c) = some row ∧ row.settledByPaymentId = some pid
  /-- A payment belongs to the user of its checkout, which exists. -/
  belongs : ∀ pid p c, s.rows (.payment pid) = some p → p.checkoutSessionId = some c →
    ∃ row, s.rows (.checkout c) = some row ∧ row.userId = p.userId
  amount : ∀ pid p, s.rows (.payment pid) = some p → 0 ≤ p.amountToman
  /-- A payment in duplicate review has its case. -/
  filed : ∀ pid p, s.rows (.payment pid) = some p →
    p.settlementStatus = .DUPLICATE_SUCCESS_REVIEW → s.rows (.reconciliation pid) ≠ none
  /-- The unique index holds the order of a checkout. -/
  indexed : ∀ id row c, s.rows (.order id) = some row → row.checkoutSessionId = some c →
    s.rows (.orderOfCheckout c) = some id
  /-- A top-up row is of the owner of a checkout, for its price, and the only one. -/
  topup : ∀ pid w, w ∈ topupsOf pid s.journal → topupsOf pid s.journal = [w] ∧
    ∃ c row, s.rows (.checkout c) = some row ∧ row.settledByPaymentId = some pid ∧
      w.userId = row.userId ∧ w.amountToman = row.finalPriceToman

/-! ### One transaction keeps the invariant -/

theorem CheckoutSession.SameTerms.rfl (o : CheckoutSession) : o.SameTerms o := by
  cases o; exact Eq.refl _

theorem CheckoutSession.SameTerms.userId {o n : CheckoutSession} (h : o.SameTerms n) :
    n.userId = o.userId := by
  have := congrArg CheckoutSession.userId h; exact this

theorem CheckoutSession.SameTerms.finalPriceToman {o n : CheckoutSession} (h : o.SameTerms n) :
    n.finalPriceToman = o.finalPriceToman := by
  have := congrArg CheckoutSession.finalPriceToman h; exact this

theorem CheckoutLe.rfl (d : Bool) (o : CheckoutSession) : CheckoutLe d o o :=
  ⟨.rfl o, fun _ => Eq.refl _, fun h => absurd (Eq.refl _) h, .inl (Eq.refl _)⟩

theorem PaymentLe.rfl (o : Payment) : PaymentLe o o :=
  ⟨Eq.refl _, .inl, .inl, id, id, fun h => by simp [h], .inl (Eq.refl _)⟩

theorem PaymentLe.userId {o n : Payment} (h : PaymentLe o n) : n.userId = o.userId :=
  congrArg Prod.fst h.identity

theorem PaymentLe.checkoutSessionId {o n : Payment} (h : PaymentLe o n) :
    n.checkoutSessionId = o.checkoutSessionId := congrArg (·.2.1) h.identity

theorem PaymentLe.amountToman {o n : Payment} (h : PaymentLe o n) :
    n.amountToman = o.amountToman := congrArg (·.2.2.2.1) h.identity

section Commit

variable {d : Bool} {s : AppStore} {t : AppTx} {p : ℕ}

theorem fwd_checkout (hm : MoneyTx d t) (hh : t.Held s.rows) {c : ℕ} {row : CheckoutSession}
    (h : s.rows (.checkout c) = some row) :
    ∃ row', (s.commit p t).rows (.checkout c) = some row' ∧ CheckoutLe d row row' := by
  rcases s.commit_rows p hh (.checkout c) with ⟨he, _⟩ | hc
  · exact ⟨row, by rw [he, h], .rfl d row⟩
  · have hs := hm.checkout c _ _ hc
    rw [h] at hs
    cases hn : (s.commit p t).rows (.checkout c) with
    | none => rw [hn] at hs; exact hs.elim
    | some n => rw [hn] at hs; exact ⟨n, rfl, hs⟩

theorem fwd_payment (hm : MoneyTx d t) (hh : t.Held s.rows) {id : ℕ} {row : Payment}
    (h : s.rows (.payment id) = some row) :
    ∃ row', (s.commit p t).rows (.payment id) = some row' ∧ PaymentLe row row' := by
  rcases s.commit_rows p hh (.payment id) with ⟨he, _⟩ | hc
  · exact ⟨row, by rw [he, h], .rfl row⟩
  · have hs := hm.payment id _ _ hc
    rw [h] at hs
    cases hn : (s.commit p t).rows (.payment id) with
    | none => rw [hn] at hs; exact hs.elim
    | some n => rw [hn] at hs; exact ⟨n, rfl, hs⟩

/-- A claimed checkout is committed with its owner. -/
theorem Claims.commit {c pid : ℕ} {n : CheckoutSession} (h : Claims t c pid n) :
    (s.commit p t).rows (.checkout c) = some n := by
  obtain ⟨o, hc, _⟩ := h
  simp only [Store.commit, Tx.row, hc]

theorem chg_commit {k : Key} {o n : Row k} (h : t.chg k = some (o, n)) :
    (s.commit p t).rows k = n := by
  simp only [Store.commit, Tx.row, h]

theorem MoneyInv.owner_commit (hi : MoneyInv s) (hm : MoneyTx d t) (hh : t.Held s.rows) {c pid : ℕ}
    {row : CheckoutSession} (h : (s.commit p t).rows (.checkout c) = some row)
    (hr : row.settledByPaymentId = some pid) :
    ∃ q, (s.commit p t).rows (.payment pid) = some q ∧ q.status = .APPROVED ∧
      q.settlementStatus = .SETTLED ∧ q.checkoutSessionId = some c := by
  have keep : ∀ o, s.rows (.checkout c) = some o → o.settledByPaymentId = some pid →
      ∃ q, (s.commit p t).rows (.payment pid) = some q ∧ q.status = .APPROVED ∧
        q.settlementStatus = .SETTLED ∧ q.checkoutSessionId = some c := by
    intro o ho hpid
    obtain ⟨q, hq, ha, hs, hc⟩ := hi.owner c o pid ho hpid
    obtain ⟨q', hq', hle⟩ := fwd_payment (p := p) hm hh hq
    exact ⟨q', hq', hle.keepsApproved ha, hle.keepsSettled hs, by rw [hle.checkoutSessionId, hc]⟩
  have claimed : Claims t c pid row → ∃ q, (s.commit p t).rows (.payment pid) = some q ∧
      q.status = .APPROVED ∧ q.settlementStatus = .SETTLED ∧ q.checkoutSessionId = some c := by
    intro hcl
    obtain ⟨o, q, hq, ha, hs, hc, _⟩ := hm.claim c pid row hcl
    exact ⟨q, chg_commit hq, ha, hs, hc⟩
  rcases s.commit_rows p hh (.checkout c) with ⟨he, _⟩ | hc
  · exact keep row (by rw [← he, h]) hr
  · rw [h] at hc
    cases ho : s.rows (.checkout c) with
    | none => rw [ho] at hc; exact claimed ⟨none, hc, hr, by simp⟩
    | some o =>
      rw [ho] at hc
      by_cases hn : o.settledByPaymentId = none
      · exact claimed ⟨some o, hc, hr, by simpa using hn⟩
      · exact keep o ho (by rw [← (hm.checkout c _ _ hc).owner hn, hr])

/-- A payment of the new state: it stood before, or this transaction created it settled. -/
theorem back_payment (hm : MoneyTx d t) (hh : t.Held s.rows) {id : ℕ} {row : Payment}
    (h : (s.commit p t).rows (.payment id) = some row) :
    (∃ o, s.rows (.payment id) = some o ∧ PaymentLe o row ∧
      (o = row ∨ t.chg (.payment id) = some (some o, some row))) ∨
    (t.chg (.payment id) = some (none, some row) ∧ PaymentNew row) := by
  rcases s.commit_rows p hh (.payment id) with ⟨he, _⟩ | hc
  · exact .inl ⟨row, by rw [← he, h], .rfl row, .inl rfl⟩
  · rw [h] at hc
    have hs := hm.payment id _ _ hc
    cases ho : s.rows (.payment id) with
    | none => rw [ho] at hs hc; exact .inr ⟨hc, hs⟩
    | some o => rw [ho] at hs hc; exact .inl ⟨o, rfl, hs, .inr hc⟩

theorem MoneyInv.settled_commit (hi : MoneyInv s) (hm : MoneyTx d t) (hh : t.Held s.rows) {pid : ℕ}
    {q : Payment} (h : (s.commit p t).rows (.payment pid) = some q)
    (hs : q.settlementStatus = .SETTLED) :
    q.status = .APPROVED ∧ ∃ c row, q.checkoutSessionId = some c ∧
      (s.commit p t).rows (.checkout c) = some row ∧ row.settledByPaymentId = some pid := by
  have claimed : ∀ o, t.chg (.payment pid) = some (o, some q) →
      (∀ o', o = some o' → o'.settlementStatus ≠ .SETTLED) →
      ∃ c row, q.checkoutSessionId = some c ∧
        (s.commit p t).rows (.checkout c) = some row ∧ row.settledByPaymentId = some pid := by
    intro o hc ho
    obtain ⟨c, k, hqc, hcl⟩ := hm.owner pid o q hc hs ho
    exact ⟨c, k, hqc, hcl.commit, by obtain ⟨_, _, hk, _⟩ := hcl; exact hk⟩
  rcases back_payment hm hh h with ⟨o, ho, hle, hchg⟩ | ⟨hc, hnew⟩
  · by_cases hos : o.settlementStatus = .SETTLED
    · obtain ⟨ha, c, row, hqc, hrow, hpid⟩ := hi.settled pid o ho hos
      obtain ⟨row', hrow', hcle⟩ := fwd_checkout (p := p) hm hh hrow
      refine ⟨hle.keepsApproved ha, c, row', by rw [hle.checkoutSessionId, hqc], hrow', ?_⟩
      rw [hcle.owner (by simp [hpid]), hpid]
    · have hc := hchg.resolve_left (fun he => hos (he ▸ hs))
      exact ⟨(hle.settled hs).resolve_left hos, claimed _ hc (by rintro o' ⟨⟩; exact hos)⟩
  · exact ⟨hnew.approved, claimed none hc (by simp)⟩

theorem MoneyInv.belongs_commit (hi : MoneyInv s) (hm : MoneyTx d t) (hh : t.Held s.rows)
    {pid c : ℕ} {q : Payment} (h : (s.commit p t).rows (.payment pid) = some q)
    (hc : q.checkoutSessionId = some c) :
    ∃ row, (s.commit p t).rows (.checkout c) = some row ∧ row.userId = q.userId := by
  rcases back_payment hm hh h with ⟨o, ho, hle, _⟩ | ⟨hchg, hnew⟩
  · obtain ⟨row, hrow, hu⟩ := hi.belongs pid o c ho (by rw [← hle.checkoutSessionId, hc])
    obtain ⟨row', hrow', hcle⟩ := fwd_checkout (p := p) hm hh hrow
    exact ⟨row', hrow', by rw [hcle.terms.userId, hu, hle.userId]⟩
  · obtain ⟨c', k, hqc, hcl⟩ := hm.owner pid none q hchg hnew.settled (by simp)
    obtain rfl : c' = c := by rw [hqc] at hc; exact Option.some.inj hc
    obtain ⟨o, q', hq', _, _, _, hu⟩ := hm.claim c' pid k hcl
    rw [hchg] at hq'; cases hq'
    exact ⟨k, hcl.commit, hu.symm⟩

theorem fwd_case (hm : MoneyTx d t) (hh : t.Held s.rows) {pid : ℕ}
    (h : s.rows (.reconciliation pid) ≠ none) : (s.commit p t).rows (.reconciliation pid) ≠ none := by
  rcases s.commit_rows p hh (.reconciliation pid) with ⟨he, _⟩ | hc
  · rwa [he]
  · intro hn
    have hs := hm.case pid _ _ hc
    rw [hn] at hs
    cases ho : s.rows (.reconciliation pid) with
    | none => exact h ho
    | some o => rw [ho] at hs; exact hs

theorem MoneyInv.filed_commit (hi : MoneyInv s) (hm : MoneyTx d t) (hf : Filed s t)
    (hh : t.Held s.rows) {pid : ℕ} {q : Payment}
    (h : (s.commit p t).rows (.payment pid) = some q)
    (hq : q.settlementStatus = .DUPLICATE_SUCCESS_REVIEW) :
    (s.commit p t).rows (.reconciliation pid) ≠ none := by
  rcases back_payment hm hh h with ⟨o, ho, hle, hchg⟩ | ⟨_, hnew⟩
  · by_cases hod : o.settlementStatus = .DUPLICATE_SUCCESS_REVIEW
    · exact fwd_case hm hh (hi.filed pid o ho hod)
    · have hc := hchg.resolve_left (fun he => hod (he ▸ hq))
      exact hf pid _ q hc hq (by rintro o' ⟨⟩; exact hod)
  · rw [hnew.settled] at hq; cases hq

theorem MoneyInv.indexed_commit (hi : MoneyInv s) (hm : MoneyTx d t) (hh : t.Held s.rows)
    {id c : ℕ} {row : Order} (h : (s.commit p t).rows (.order id) = some row)
    (hc : row.checkoutSessionId = some c) : (s.commit p t).rows (.orderOfCheckout c) = some id := by
  have keep : ∀ o, s.rows (.order id) = some o → o.checkoutSessionId = some c →
      (s.commit p t).rows (.orderOfCheckout c) = some id := by
    intro o ho hoc
    have hix := hi.indexed id o c ho hoc
    rcases s.commit_rows p hh (.orderOfCheckout c) with ⟨he, _⟩ | hch
    · rw [he, hix]
    · have := (hm.index c _ _ hch).1
      rw [hix] at this; cases this
  rcases s.commit_rows p hh (.order id) with ⟨he, _⟩ | hch
  · exact keep row (by rw [← he, h]) hc
  · rw [h] at hch
    cases ho : s.rows (.order id) with
    | none => rw [ho] at hch; exact chg_commit (hm.indexed id row c hch hc)
    | some o =>
      rw [ho] at hch
      have hs : row.checkoutSessionId = o.checkoutSessionId := hm.order id _ _ hch
      exact keep o ho (by rw [← hs, hc])

theorem MoneyInv.topup_commit (hi : MoneyInv s) (hm : MoneyTx d t) (hh : t.Held s.rows) {pid : ℕ}
    {w : WalletTransaction} (h : w ∈ topupsOf pid (s.commit p t).journal) :
    topupsOf pid (s.commit p t).journal = [w] ∧
      ∃ c row, (s.commit p t).rows (.checkout c) = some row ∧
        row.settledByPaymentId = some pid ∧ w.userId = row.userId ∧
        w.amountToman = row.finalPriceToman := by
  rw [Store.journal_commit, topupsOf_append] at h ⊢
  -- a payment that owned its checkout before cannot claim one now
  have excl : ∀ w₁ ∈ topupsOf pid s.journal, ∀ w₂ ∈ topupsOf pid t.entries, False := by
    intro w₁ h₁ w₂ h₂
    obtain ⟨_, c₁, row₁, hrow₁, hp₁, _⟩ := hi.topup pid w₁ h₁
    obtain ⟨_, c₂, n, hcl, _⟩ := hm.topup pid w₂ h₂
    obtain ⟨q, hq, _, _, hqc⟩ := hi.owner c₁ row₁ pid hrow₁ hp₁
    obtain ⟨o, q', hq', _, _, hqc', _⟩ := hm.claim c₂ pid n hcl
    obtain ⟨q'', hq'', hle⟩ := fwd_payment (p := p) hm hh hq
    rw [chg_commit hq'] at hq''; cases hq''
    rw [hle.checkoutSessionId, hqc] at hqc'; cases hqc'
    obtain ⟨oc, hchg, _, hnone⟩ := hcl
    have := hh _ _ _ hchg
    rw [hrow₁] at this
    rw [hnone row₁ this] at hp₁; cases hp₁
  rcases List.mem_append.mp h with h₁ | h₂
  · obtain ⟨hone, c, row, hrow, hpid, hu, ha⟩ := hi.topup pid w h₁
    have hnil : topupsOf pid t.entries = [] :=
      List.eq_nil_iff_forall_not_mem.mpr fun w₂ h₂ => excl w h₁ w₂ h₂
    obtain ⟨row', hrow', hle⟩ := fwd_checkout (p := p) hm hh hrow
    refine ⟨by rw [hone, hnil, List.append_nil], c, row', hrow', ?_, ?_, ?_⟩
    · rw [hle.owner (by simp [hpid]), hpid]
    · rw [hu, hle.terms.userId]
    · rw [ha, hle.terms.finalPriceToman]
  · obtain ⟨hone, c, n, hcl, hu, ha⟩ := hm.topup pid w h₂
    have hnil : topupsOf pid s.journal = [] :=
      List.eq_nil_iff_forall_not_mem.mpr fun w₁ h₁ => excl w₁ h₁ w h₂
    refine ⟨by rw [hone, hnil, List.nil_append], c, n, hcl.commit, ?_, hu, ha⟩
    obtain ⟨_, _, hk, _⟩ := hcl; exact hk

/-- The step lemma: a payment transaction keeps the invariant. -/
theorem MoneyInv.commit (hi : MoneyInv s) (hh : t.Held s.rows) (hm : MoneyTx d t) (hf : Filed s t) :
    MoneyInv (s.commit p t) where
  owner _ _ _ h hr := hi.owner_commit hm hh h hr
  settled _ _ h hs := hi.settled_commit hm hh h hs
  belongs _ _ _ h hc := hi.belongs_commit hm hh h hc
  amount pid q h := by
    rcases back_payment hm hh h with ⟨o, ho, hle, _⟩ | ⟨_, hnew⟩
    · rw [hle.amountToman]; exact hi.amount pid o ho
    · exact hnew.amount
  filed _ _ h hq := hi.filed_commit hm hf hh h hq
  indexed _ _ _ h hc := hi.indexed_commit hm hh h hc
  topup _ _ h := hi.topup_commit hm hh h

end Commit

/-- The empty transaction is a payment transaction. -/
theorem MoneyTx.empty (d : Bool) : MoneyTx d {} where
  checkout _ _ _ h := by cases h
  payment _ _ _ h := by cases h
  order _ _ _ h := by cases h
  indexed _ _ _ h := by cases h
  index _ _ _ h := by cases h
  case _ _ _ h := by cases h
  claim _ _ _ h := by obtain ⟨_, h, _⟩ := h; cases h
  owner _ _ _ h := by cases h
  user _ _ _ h := by cases h
  locked _ _ := rfl
  topup _ _ h := by cases h

/-- The payment discipline; `demotes` tells which processes may expire or cancel a checkout. -/
def money (demotes : ℕ → Bool) : Discipline Row Entry World where
  Inv := MoneyInv
  Commits p _ s t := MoneyTx (demotes p) t ∧ Filed s t
  Acts _ _ _ _ := False
  commits_empty _ := ⟨.empty _, by intro _ _ _ h; cases h⟩
  inv_commit hi hh h := hi.commit hh h.1 h.2
  inv_act _ h := h.elim

end ZedBot
