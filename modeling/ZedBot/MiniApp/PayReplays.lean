import ZedBot.MiniApp.DraftRequests
import ZedBot.MiniApp.WalletPay

/-! What the wallet payments of the Mini App guarantee.

    Each checkout is charged once at most, at the sealed price, and nobody is answered with a
    settlement that is not their own. The settlement replays its keys, but the route asks for a
    PENDING draft before it gets there: a request that comes after its own settlement is refused. -/

namespace ZedBot
open ReadCommitted

variable {requests : ℕ → Option PayRequest} {req : PayRequest} {s s' : AppStore} {t : AppTx}
  {p : ℕ} {r : List AppStore} {args : WalletSettlementArgs} {cid pid oid : ℕ}

/-- Entry `e` pays for checkout `c`. -/
def ChargesCheckout (s : AppStore) (e : Entry) (c : ℕ) : Prop :=
  ∃ w pid q, e = .wallet w ∧ w.reason = .WALLET_ORDER_PAYMENT ∧ w.relatedPaymentId = some pid ∧
    s.rows (.payment pid) = some q ∧ q.checkoutSessionId = some c

/-- No checkout is charged twice. -/
def ChargedOnce (s : AppStore) : Prop :=
  s.journal.Pairwise fun e e' => ¬ ∃ c, ChargesCheckout s e c ∧ ChargesCheckout s e' c

/-- The checkout exists and is no draft any more. -/
def NotPending (s : AppStore) (c : ℕ) : Prop :=
  ∃ row, s.rows (.checkout c) = some row ∧ row.status ≠ .PENDING

/-- The settlement of the key of `req`: its own payment, for the checkout of its token. -/
structure SettledAs (req : PayRequest) (pid oid : ℕ) (balance : ℤ) (s : AppStore) : Prop where
  payment : ∃ q, KeyedPayment (.fixed req.clientRequestId) s pid q ∧ q.userId = req.owner ∧
    q.orderId = some oid ∧ q.checkoutSessionId = some req.draftToken.checkoutId
  spend : ∃ w, findSpend s.journal pid = some w ∧ w.balanceAfterToman = balance
  closed : NotPending s req.draftToken.checkoutId

/-- The ledger row `w` and the transaction `t` charge `req` its sealed price. -/
structure ChargedBy (req : PayRequest) (w : WalletTransaction) (t : AppTx) : Prop where
  entries : t.entries = [.wallet w]
  user : w.userId = req.owner
  amount : w.amountToman = req.draftToken.finalPriceToman
  balance : ∃ u u', t.chg (.user req.owner) = some (some u, some u') ∧
    u'.balanceToman = u.balanceToman - req.draftToken.finalPriceToman

/-- A request was charged nothing, or its sealed price for the checkout of its token. -/
def AtSealedPrice (requests : ℕ → Option PayRequest) (s : AppStore) : Prop :=
  ∀ p t req, ⟨p, t⟩ ∈ s.log → requests p = some req →
    t = {} ∨ ∃ w pid oid, ChargedBy req w t ∧ w.relatedPaymentId = some pid ∧
      w.relatedOrderId = some oid ∧ SettledAs req pid oid w.balanceAfterToman s

/-- Whoever is answered with a settlement owns it and asked for it. -/
def OwnSettlements (requests : ℕ → Option PayRequest) (s : AppStore) : Prop :=
  ∀ p cid pid oid balance, .replied p (.settled cid pid oid balance) ∈ s.world.http →
    ∃ req, requests p = some req ∧ cid = req.draftToken.checkoutId ∧
      SettledAs req pid oid balance s

/-- Every payment under a Mini App key is a settlement with its fingerprint. -/
def KeysSettled (s : AppStore) : Prop :=
  ∀ k pid, isRenewalIdempotencyKey k → s.rows (.paymentOfKey (.fixed k)) = some pid →
    ∃ q f c, s.rows (.payment pid) = some q ∧ q.payloadFingerprint = some f ∧
      f.userId = q.userId ∧ q.checkoutSessionId = some c ∧
      (∀ c', f.existingCheckoutId = some c' → c' = c) ∧ NotPending s c

/-- Every charged checkout is paid for. -/
def ChargesSettled (s : AppStore) : Prop :=
  ∀ w, .wallet w ∈ s.journal → w.reason = .WALLET_ORDER_PAYMENT →
    ∃ pid q c, w.relatedPaymentId = some pid ∧ s.rows (.payment pid) = some q ∧
      q.checkoutSessionId = some c ∧ NotPending s c

structure PayInv (requests : ℕ → Option PayRequest) (s : AppStore) : Prop where
  keys : KeysSettled s
  charges : ChargesSettled s
  once : ChargedOnce s
  sealed : AtSealedPrice requests s
  own : OwnSettlements requests s

/-- The settlement that a request may commit. -/
structure PayTx (req : PayRequest) (t : AppTx) (args : WalletSettlementArgs) (cid pid oid : ℕ) :
    Prop where
  tx : SettlementTx args cid pid oid t
  user : args.userId = req.owner
  price : args.finalPriceToman = req.draftToken.finalPriceToman
  checkout : args.existingCheckoutId = some req.draftToken.checkoutId
  key : args.idempotencyKey = .fixed req.clientRequestId
  valid : isRenewalIdempotencyKey req.clientRequestId

/-- The draft was seen PENDING after the request had come. -/
def SawDraft (req : PayRequest) (p : ℕ) (x : AppStore) : Prop :=
  .received p ∈ x.world.http ∧ ¬ NotPending x req.draftToken.checkoutId

/-- What a request may answer. -/
def Answers (req : PayRequest) (p : ℕ) (reads : List AppStore) (s : AppStore) (reply : Reply) :
    Prop :=
  ∀ cid pid oid balance, reply = .settled cid pid oid balance →
    cid = req.draftToken.checkoutId ∧ SettledAs req pid oid balance s ∧ ∃ x ∈ reads, SawDraft req p x

/-- What the requests may do to the world. -/
def PayActs (requests : ℕ → Option PayRequest) (p : ℕ) (reads : List AppStore) (s : AppStore)
    (w : World) : Prop :=
  ∃ req, requests p = some req ∧ (w.http = .received p :: s.world.http ∨
    ∃ reply, w.http = .replied p reply :: s.world.http ∧ Answers req p reads s reply)

/-! ### What a settlement changes -/

section Settlement

variable (h : SettlementTx args cid pid oid t)
include h

theorem SettlementTx.payment_other {i : ℕ} (hi : i ≠ pid) : t.chg (.payment i) = none :=
  h.others _ (by simp [Settles, hi])

theorem SettlementTx.checkout_other {i : ℕ} (hi : i ≠ cid) : t.chg (.checkout i) = none :=
  h.others _ (by simp [Settles, hi])

theorem SettlementTx.key_other {k : IdempotencyKey} (hk : k ≠ args.idempotencyKey) :
    t.chg (.paymentOfKey k) = none :=
  h.others _ (by simp [Settles, hk])

/-- The payment did not exist before. -/
theorem SettlementTx.payment_fresh (hh : t.Held s.rows) : s.rows (.payment pid) = none := by
  obtain ⟨now, hp⟩ := h.payment
  exact (hh _ _ _ hp).symm

theorem SettlementTx.key_fresh (hh : t.Held s.rows) :
    s.rows (.paymentOfKey args.idempotencyKey) = none := (hh _ _ _ h.keyed).symm

/-- A payment that existed is as it was. -/
theorem SettlementTx.payment_stays (hh : t.Held s.rows) {i : ℕ} {q : Payment}
    (hq : s.rows (.payment i) = some q) : (s.commit p t).rows (.payment i) = some q := by
  have hi : i ≠ pid := by
    rintro rfl
    rw [h.payment_fresh hh] at hq
    cases hq
  simp only [Store.commit, Tx.row, h.payment_other hi, hq]

/-- The settled checkout was PENDING, or did not exist. -/
theorem SettlementTx.checkout_was (hh : t.Held s.rows) : ¬ NotPending s cid := by
  rintro ⟨row, hrow, hne⟩
  obtain ⟨o, k, hpaid, hchg⟩ := h.checkout
  have ho : s.rows (.checkout cid) = o := (hh _ _ _ hchg).symm
  rw [hrow] at ho
  exact hne (hpaid.before row ho.symm).2.1

theorem SettlementTx.checkout_closed : NotPending (s.commit p t) cid := by
  obtain ⟨o, k, hpaid, hchg⟩ := h.checkout
  exact ⟨{ k with settledByPaymentId := some pid }, by simp only [Store.commit, Tx.row, hchg],
    by simp [hpaid.paid]⟩

theorem SettlementTx.notPending_stays {c : ℕ} (hc : NotPending s c) (hh : t.Held s.rows) :
    NotPending (s.commit p t) c := by
  rcases eq_or_ne c cid with rfl | hne
  · exact absurd hc (h.checkout_was hh)
  · obtain ⟨row, hrow, hst⟩ := hc
    exact ⟨row, by simp only [Store.commit, Tx.row, h.checkout_other hne, hrow], hst⟩

theorem SettlementTx.payment_row : ∃ now,
    (s.commit p t).rows (.payment pid) = some (linkedPayment args cid oid now) := by
  obtain ⟨now, hp⟩ := h.payment
  exact ⟨now, by simp only [Store.commit, Tx.row, hp]⟩

theorem SettlementTx.keyed_row :
    (s.commit p t).rows (.paymentOfKey args.idempotencyKey) = some pid := by
  simp only [Store.commit, Tx.row, h.keyed]

end Settlement

/-! ### Every commit keeps the invariant -/

theorem PayTx.cid_eq (h : PayTx req t args cid pid oid) : cid = req.draftToken.checkoutId := by
  obtain ⟨o, k, hpaid, -⟩ := h.tx.checkout
  exact (hpaid.existing _ h.checkout).1

theorem PayTx.entries (h : PayTx req t args cid pid oid) :
    ∃ b, t.entries = [.wallet (spendRow args oid pid b)] := by
  obtain ⟨u, -, -, he⟩ := h.tx.user
  exact ⟨u.balanceToman, he⟩

theorem PayTx.chargedBy (h : PayTx req t args cid pid oid) {b : ℤ}
    (he : t.entries = [.wallet (spendRow args oid pid b)]) :
    ChargedBy req (spendRow args oid pid b) t := by
  obtain ⟨u, -, hu, -⟩ := h.tx.user
  refine ⟨he, h.user, h.price, u, deductOrder args u, ?_, ?_⟩
  · rw [← h.user]
    exact hu
  · rw [← h.price]
    rfl

section Commit

variable (hi : PayInv requests s) (hh : t.Held s.rows) (h : PayTx req t args cid pid oid)
include hh h

theorem SettledAs.stays {req' : PayRequest} {i o : ℕ} {b : ℤ} (hs : SettledAs req' i o b s) :
    SettledAs req' i o b (s.commit p t) := by
  obtain ⟨⟨q, ⟨hkey, hq⟩, hrest⟩, ⟨w, hw, hb⟩, hclosed⟩ := hs
  refine ⟨⟨q, ⟨?_, h.tx.payment_stays hh hq⟩, hrest⟩, ⟨w, ?_, hb⟩, h.tx.notPending_stays hclosed hh⟩
  · have hne : IdempotencyKey.fixed req'.clientRequestId ≠ args.idempotencyKey := by
      intro he
      rw [he, h.tx.key_fresh hh] at hkey
      cases hkey
    simp only [Store.commit, Tx.row, h.tx.key_other hne, hkey]
  · rw [Store.journal_commit]
    exact findSpend_append hw

theorem charges_stays {e : Entry} {c : ℕ} (hc : ChargesCheckout s e c) :
    ChargesCheckout (s.commit p t) e c := by
  obtain ⟨w, i, q, he, hreason, hrel, hq, hqc⟩ := hc
  exact ⟨w, i, q, he, hreason, hrel, h.tx.payment_stays hh hq, hqc⟩

include hi

/-- No row of the ledger names the new payment. -/
theorem findSpend_fresh : findSpend s.journal pid = none := by
  unfold findSpend
  rw [List.findSome?_eq_none_iff]
  intro e he
  cases e with
  | draft i | openPayment i | commission i => rfl
  | wallet w =>
    simp only [ite_eq_right_iff, reduceCtorEq, imp_false, not_and]
    intro hrel hreason
    obtain ⟨i, q, c, hi', hq, -⟩ := hi.charges w he hreason
    rw [hrel] at hi'
    cases hi'
    rw [h.tx.payment_fresh hh] at hq
    cases hq

theorem PayTx.settledAs {b : ℤ} (he : t.entries = [.wallet (spendRow args oid pid b)]) :
    SettledAs req pid oid (b - args.finalPriceToman) (s.commit p t) := by
  obtain ⟨now, hrow⟩ := h.tx.payment_row (s := s) (p := p)
  have hkey := h.tx.keyed_row (s := s) (p := p)
  rw [h.key] at hkey
  refine ⟨⟨_, ⟨hkey, hrow⟩, h.user, rfl, ?_⟩, ⟨spendRow args oid pid b, ?_, rfl⟩, ?_⟩
  · rw [← h.cid_eq]
    rfl
  · have hnone := findSpend_fresh hi hh h
    rw [Store.journal_commit, he]
    simp only [findSpend] at hnone ⊢
    rw [List.findSome?_append, hnone]
    simp [spendRow]
  · rw [← h.cid_eq]
    exact h.tx.checkout_closed

theorem keysSettled_commit : KeysSettled (s.commit p t) := by
  intro k i hk hi'
  by_cases hkey : IdempotencyKey.fixed k = args.idempotencyKey
  · rw [hkey, h.tx.keyed_row] at hi'
    cases hi'
    obtain ⟨now, hrow⟩ := h.tx.payment_row (s := s) (p := p)
    refine ⟨_, settlementPayloadFingerprint args, cid, hrow, rfl, rfl, rfl, fun c' hc' => ?_,
      h.tx.checkout_closed⟩
    rw [h.cid_eq]
    simpa [settlementPayloadFingerprint, h.checkout] using hc'.symm
  · have hold : s.rows (.paymentOfKey (.fixed k)) = some i := by
      simpa only [Store.commit, Tx.row, h.tx.key_other hkey] using hi'
    obtain ⟨q, f, c, hq, hf, hu, hqc, hex, hclosed⟩ := hi.keys k i hk hold
    exact ⟨q, f, c, h.tx.payment_stays hh hq, hf, hu, hqc, hex, h.tx.notPending_stays hclosed hh⟩

theorem chargesSettled_commit : ChargesSettled (s.commit p t) := by
  intro w hw hreason
  obtain ⟨b, he⟩ := h.entries
  rw [Store.journal_commit, he, List.mem_append, List.mem_singleton] at hw
  rcases hw with hw | hw
  · obtain ⟨i, q, c, hrel, hq, hqc, hclosed⟩ := hi.charges w hw hreason
    exact ⟨i, q, c, hrel, h.tx.payment_stays hh hq, hqc, h.tx.notPending_stays hclosed hh⟩
  · cases hw
    obtain ⟨now, hrow⟩ := h.tx.payment_row (s := s) (p := p)
    exact ⟨pid, _, cid, rfl, hrow, rfl, h.tx.checkout_closed⟩

/-- A charge of the log before is one of a checkout that is not PENDING. -/
theorem charges_before {e : Entry} {c : ℕ} (he : e ∈ s.journal)
    (hc : ChargesCheckout (s.commit p t) e c) : ChargesCheckout s e c ∧ NotPending s c := by
  obtain ⟨w, i, q, rfl, hreason, hrel, hq, hqc⟩ := hc
  obtain ⟨i', q', c', hrel', hq', hqc', hclosed⟩ := hi.charges w he hreason
  rw [hrel] at hrel'
  cases hrel'
  have hq₁ := h.tx.payment_stays (p := p) hh hq'
  rw [hq] at hq₁
  cases hq₁
  rw [hqc] at hqc'
  cases hqc'
  exact ⟨⟨w, i, q, rfl, hreason, hrel, hq', hqc⟩, hclosed⟩

theorem chargedOnce_commit : ChargedOnce (s.commit p t) := by
  obtain ⟨b, he⟩ := h.entries
  rw [ChargedOnce, Store.journal_commit, he, List.pairwise_append]
  refine ⟨hi.once.imp_of_mem fun {e e'} hm hm' hno => ?_, List.pairwise_singleton _ _, ?_⟩
  · rintro ⟨c, hc, hc'⟩
    exact hno ⟨c, (charges_before hi hh h hm hc).1, (charges_before hi hh h hm' hc').1⟩
  · rintro e hm e' hm' ⟨c, hc, hc'⟩
    rw [List.mem_singleton] at hm'
    subst hm'
    -- the checkout that is charged now was PENDING
    obtain ⟨w, i, q, hw, -, hrel, hq, hqc⟩ := hc'
    cases hw
    cases hrel
    obtain ⟨now, hrow⟩ := h.tx.payment_row (s := s) (p := p)
    rw [hrow] at hq
    cases hq
    cases hqc
    exact h.tx.checkout_was hh (charges_before hi hh h hm hc).2

theorem atSealedPrice_commit (hp : requests p = some req) : AtSealedPrice requests (s.commit p t) := by
  intro p' t' req' hmem hreq'
  obtain ⟨b, he⟩ := h.entries
  rcases List.mem_cons.mp hmem with heq | hmem
  · cases heq
    rw [hp] at hreq'
    cases hreq'
    exact .inr ⟨spendRow args oid pid b, pid, oid, h.chargedBy he, rfl, rfl,
      h.settledAs hi hh he⟩
  · rcases hi.sealed p' t' req' hmem hreq' with rfl | ⟨w, i, o, hcharged, hrel, hord, hs⟩
    · exact .inl rfl
    · exact .inr ⟨w, i, o, hcharged, hrel, hord, hs.stays hh h⟩

theorem ownSettlements_commit : OwnSettlements requests (s.commit p t) := by
  intro p' c i o b hmem
  obtain ⟨req', hreq', hc, hs⟩ := hi.own p' c i o b hmem
  exact ⟨req', hreq', hc, hs.stays hh h⟩

theorem payInv_commit (hp : requests p = some req) : PayInv requests (s.commit p t) where
  keys := keysSettled_commit hi hh h
  charges := chargesSettled_commit hi hh h
  once := chargedOnce_commit hi hh h
  sealed := atSealedPrice_commit hi hh h hp
  own := ownSettlements_commit hi hh h

end Commit

/-- The invariant does not depend on who commits nothing. -/
theorem payInv_commit_empty (hi : PayInv requests s) : PayInv requests (s.commit p {}) := by
  have hj : (s.commit p {}).journal = s.journal := by rw [Store.journal_commit, List.append_nil]
  have hs : ∀ {req i o b}, SettledAs req i o b s → SettledAs req i o b (s.commit p {}) :=
    fun h => ⟨h.payment, by rw [hj]; exact h.spend, h.closed⟩
  refine ⟨hi.keys, fun w hw => ?_, ?_, fun q t req hmem hreq => ?_, fun q c i o b hmem => ?_⟩
  · rw [hj] at hw
    exact hi.charges w hw
  · rw [ChargedOnce, hj]
    exact hi.once
  · rcases List.mem_cons.mp hmem with heq | hmem
    · cases heq
      exact .inl rfl
    · rcases hi.sealed q t req hmem hreq with rfl | ⟨w, i, o, hc, hrel, hord, h⟩
      · exact .inl rfl
      · exact .inr ⟨w, i, o, hc, hrel, hord, hs h⟩
  · obtain ⟨req, hreq, hc, h⟩ := hi.own q c i o b hmem
    exact ⟨req, hreq, hc, hs h⟩

theorem payInv_act {w : World} (hi : PayInv requests s) (ha : PayActs requests p r s w) :
    PayInv requests { s with world := w } := by
  obtain ⟨req, hreq, ha⟩ := ha
  have hs : ∀ {req i o b}, SettledAs req i o b s → SettledAs req i o b { s with world := w } :=
    fun h => ⟨h.payment, h.spend, h.closed⟩
  refine ⟨hi.keys, hi.charges, hi.once, fun q t req hmem hreq => ?_, fun q c i o b hmem => ?_⟩
  · rcases hi.sealed q t req hmem hreq with rfl | ⟨w, i, o, hc, hrel, hord, h⟩
    · exact .inl rfl
    · exact .inr ⟨w, i, o, hc, hrel, hord, hs h⟩
  · have hold : .replied q (.settled c i o b) ∈ s.world.http →
        ∃ req, requests q = some req ∧ c = req.draftToken.checkoutId ∧
          SettledAs req i o b { s with world := w } := by
      intro hmem
      obtain ⟨req, hreq, hc, h⟩ := hi.own q c i o b hmem
      exact ⟨req, hreq, hc, hs h⟩
    rcases ha with ha | ⟨reply, ha, hans⟩ <;> rw [ha] at hmem
    · exact hold (by simpa using hmem)
    · rcases List.mem_cons.mp hmem with heq | hmem
      · cases heq
        obtain ⟨hc, h, -⟩ := hans c i o b rfl
        exact ⟨req, hreq, hc, hs h⟩
      · exact hold hmem

/-- The rules of the payment requests. -/
def payCalls (requests : ℕ → Option PayRequest) : Discipline Row Entry World where
  Inv := PayInv requests
  Commits p _ _ t := t = {} ∨
    ∃ req args cid pid oid, requests p = some req ∧ PayTx req t args cid pid oid
  Acts := PayActs requests
  commits_empty _ := .inl rfl
  inv_commit := by
    rintro p r s t hi hh (rfl | ⟨req, args, cid, pid, oid, hp, h⟩)
    · exact payInv_commit_empty hi
    · exact payInv_commit hi hh h hp
  inv_act hi ha := payInv_act hi ha

theorem settledAs_step {req : PayRequest} {pid oid : ℕ} {b : ℤ}
    (hst : (payCalls requests).Step p r s s') (h : SettledAs req pid oid b s) :
    SettledAs req pid oid b s' := by
  cases hst with
  | commit t hh hc =>
    rcases hc with rfl | ⟨req', args, cid, i, o, -, htx⟩
    · exact ⟨h.payment, by rw [Store.journal_commit, List.append_nil]; exact h.spend, h.closed⟩
    · exact h.stays hh htx
  | act w _ => exact ⟨h.payment, h.spend, h.closed⟩

theorem notPending_step {c : ℕ} (hst : (payCalls requests).Step p r s s') (h : NotPending s c) :
    NotPending s' c := by
  cases hst with
  | commit t hh hc =>
    rcases hc with rfl | ⟨req', args, cid, i, o, -, htx⟩
    · exact h
    · exact htx.tx.notPending_stays h hh
  | act w _ => exact h

theorem keyedPayment_step {k : IdempotencyKey} {i : ℕ} {q : Payment}
    (hst : (payCalls requests).Step p r s s') (h : KeyedPayment k s i q) :
    KeyedPayment k s' i q := by
  cases hst with
  | commit t hh hc =>
    rcases hc with rfl | ⟨req', args, cid, i', o, -, htx⟩
    · exact h
    · obtain ⟨hk, hq⟩ := h
      have hne : k ≠ args.idempotencyKey := by
        rintro rfl
        rw [htx.tx.key_fresh hh] at hk
        cases hk
      exact ⟨by simp only [Store.commit, Tx.row, htx.tx.key_other hne, hk],
        htx.tx.payment_stays hh hq⟩
  | act w _ => exact h

/-- The world only gets events. -/
theorem http_step {e : HttpEvent} (hst : (payCalls requests).Step p r s s')
    (h : e ∈ s.world.http) : e ∈ s'.world.http := by
  cases hst with
  | commit t hh _ => exact h
  | act w ha =>
    obtain ⟨req, -, ha | ⟨reply, ha, -⟩⟩ := ha <;>
    · change e ∈ w.http
      rw [ha]
      exact .tail _ h

/-! ### The requests follow the rules -/

/-- A settlement that `req` is answered with is its own. -/
def OwnReply (req : PayRequest) (reply : Reply) (s : AppStore) : Prop :=
  ∀ cid pid oid b, reply = .settled cid pid oid b →
    cid = req.draftToken.checkoutId ∧ SettledAs req pid oid b s

theorem wp_settle (hp : requests p = some req) (hvalid : isRenewalIdempotencyKey req.clientRequestId)
    {c : CheckoutSession} (hprice : req.draftToken.finalPriceToman = c.finalPriceToman)
    (hi : PayInv requests s) :
    wp (payCalls requests) p (req.settle c) (fun reply l s' =>
      l.tx = none ∧ PayInv requests s' ∧ OwnReply req reply s') ⟨none, r⟩ s := by
  unfold PayRequest.settle
  split
  case h_2 => exact ⟨rfl, hi, by simp [OwnReply]⟩
  rename_i orderType _
  split
  case h_2 => exact ⟨rfl, hi, by simp [OwnReply]⟩
  rename_i productId _
  have hpay : ∀ {y t}, SettledBy (req.settlementArgs c orderType productId) y t →
      PayTx req t (req.settlementArgs c orderType productId) y.checkout.1 y.payment.1 y.order.1 :=
    fun hby => ⟨hby.1, rfl, hprice.symm, rfl, rfl, hvalid⟩
  refine (wp_seq _ _).mpr (wp_mono _ (fun x l s' hx => ?_) (wp_settleWalletOrder
    (K := fun _ => True) (M := fun pid q s => KeyedPayment (.fixed req.clientRequestId) s pid q)
    (G := fun y s => y.checkout.1 = req.draftToken.checkoutId ∧
      SettledAs req y.payment.1 y.order.1 y.newBalanceToman s)
    (fun _ _ _ => trivial) (fun _ hst h => keyedPayment_step hst h) (fun _ h => h) hi trivial
    ?_ ?_ ?_))
  · obtain ⟨tx, reads⟩ := l
    obtain ⟨rfl, hi', -, hx⟩ := hx
    refine ⟨rfl, hi', fun cid pid oid b hreply => ?_⟩
    cases x with
    | ok y =>
      cases hreply
      exact hx y rfl
    | fail code => cases hreply
    | threw => cases hreply
  · intro y t r s' hby _ _ _
    exact .inr ⟨req, _, _, _, _, hp, hpay hby⟩
  · intro y t s' hby hh hi' _
    obtain ⟨b, he⟩ := (hpay hby).entries
    have hw := hby.2.1.symm.trans he
    rw [List.singleton_inj, Entry.wallet.injEq] at hw
    refine ⟨(hpay hby).cid_eq, ?_⟩
    rw [hby.2.2, hw]
    exact (hpay hby).settledAs hi' hh he
  · intro e s' hkeyed hl hi' _ hfp
    obtain ⟨q, f, c', hq, hf, hu, hqc, hex, hclosed⟩ := hi'.keys _ _ hvalid hkeyed.1
    have hsome := hkeyed.2
    rw [hq, Option.some.injEq] at hsome
    subst hsome
    -- the fingerprints agree, so the payment is of this user and this checkout
    have hfp' : f = settlementPayloadFingerprint (req.settlementArgs c orderType productId) := by
      rw [hl.fingerprint, hf] at hfp
      simpa using hfp
    subst hfp'
    have hc' : req.draftToken.checkoutId = c' := hex _ rfl
    subst hc'
    have hcid : e.1.checkout.1 = req.draftToken.checkoutId := by
      rw [hl.checkout] at hqc
      exact Option.some.inj hqc
    exact ⟨hcid, ⟨_, hkeyed, hu.symm, hl.order, hqc⟩, ⟨_, hl.spend, hl.balance.symm⟩, hclosed⟩

theorem accepts_loadOwnedPendingCheckout (userId nowMs : ℕ) :
    Accepts (payCalls requests) p (loadOwnedPendingCheckout userId nowMs) := by
  refine .bind (.ask _) fun id => .bind (.ask _) fun unique => .bind (.select _) fun row => ?_
  cases row with
  | none => exact .pure _
  | some c =>
    dsimp only
    split
    · exact .pure _
    · cases operationOfOrderType c.orderType <;> exact .pure _

theorem accepts_issueQuoteForCheckout (userId : ℕ) :
    Accepts (payCalls requests) p (issueQuoteForCheckout userId) := by
  refine .bind (.ask _) fun nowMs => .bind (accepts_loadOwnedPendingCheckout _ _) fun found => ?_
  cases found with
  | none => exact .pure _
  | some x =>
    refine .bind (.ask _) fun hasProductId => ?_
    split
    · exact .pure _
    refine .bind (.ask _) fun stateFound => ?_
    split
    · exact .pure _
    · exact .bind (.ask _) fun live => .pure _

theorem wp_requireRollout {l : Local Row Entry World} :
    wp (payCalls requests) p requireRollout (fun x l' s' => l' = l ∧ s' = s ∧
      ∀ reply, x = some reply → ∃ status code, reply = .refused status code) l s := by
  refine (wp_seq _ _).mpr (wp_ask _ fun readable => ?_)
  split
  · exact ⟨rfl, rfl, fun reply h => by cases h; exact ⟨_, _, rfl⟩⟩
  refine (wp_seq _ _).mpr (wp_ask _ fun enabled => ?_)
  split
  · exact ⟨rfl, rfl, fun reply h => by cases h; exact ⟨_, _, rfl⟩⟩
  · exact ⟨rfl, rfl, by simp⟩

theorem wp_confirm (hp : requests p = some req)
    (hvalid : isRenewalIdempotencyKey req.clientRequestId) {c : CheckoutSession}
    (hi : PayInv requests s) :
    wp (payCalls requests) p (req.confirm c) (fun reply l s' =>
      l.tx = none ∧ PayInv requests s' ∧ OwnReply req reply s') ⟨none, r⟩ s := by
  have trivialK : ∀ {q r s s'}, (payCalls requests).Inv s → (payCalls requests).Step q r s s' →
      True → True := fun _ _ _ => trivial
  refine (Accepts.select _).wp_seq trivialK hi trivial fun freshUser r₁ s₁ hi₁ _ => ?_
  split
  · exact ⟨rfl, hi₁, by simp [OwnReply]⟩
  refine (accepts_issueQuoteForCheckout _).wp_seq trivialK hi₁ trivial
    fun fresh r₂ s₂ hi₂ _ => ?_
  cases fresh with
  | error code => exact ⟨rfl, hi₂, by simp [OwnReply]⟩
  | ok quote =>
    refine (wp_seq _ _).mpr (wp_ask _ fun nowMs => ?_)
    split
    case h_2 => exact ⟨rfl, hi₂, by simp [OwnReply]⟩
    split
    · exact ⟨rfl, hi₂, by simp [OwnReply]⟩
    · rename_i hsame
      simp only [not_or, ne_eq, not_not] at hsame
      exact wp_settle hp hvalid hsame.2.1 hi₂

/-- A reply of `req`: a settlement is its own, and its draft was PENDING after it had come. -/
theorem wp_payWallet (hp : requests p = some req) (hi : PayInv requests s)
    (hrec : .received p ∈ s.world.http) :
    wp (payCalls requests) p (payWallet req) (fun reply l s' =>
      l.tx = none ∧ PayInv requests s' ∧ ∀ cid pid oid b, reply = .settled cid pid oid b →
        cid = req.draftToken.checkoutId ∧ SettledAs req pid oid b s' ∧
          ∃ x ∈ l.reads, SawDraft req p x) ⟨none, r⟩ s := by
  unfold payWallet
  split
  · exact ⟨rfl, hi, by simp⟩
  rename_i hvalid
  rw [not_not] at hvalid
  split
  case h_2 => exact ⟨rfl, hi, by simp⟩
  rename_i opened hopen
  obtain rfl : opened = req.draftToken := by
    unfold openQuote at hopen
    split at hopen
    · cases hopen
    · exact (Option.some.inj hopen).symm
  split
  · exact ⟨rfl, hi, by simp⟩
  refine (wp_seq _ _).mpr (wp_mono _ (fun denied l s₁ hx => ?_) wp_requireRollout)
  obtain ⟨rfl, rfl, hdenied⟩ := hx
  split
  · rename_i reply
    obtain ⟨status, code, rfl⟩ := hdenied reply rfl
    exact ⟨rfl, hi, by simp⟩
  refine (wp_seq _ _).mpr (wp_select _ fun s₂ hl₂ hi₂ => ?_)
  have hrec₂ : .received p ∈ s₂.world.http := hl₂.stable (fun _ _ hst h => http_step hst h) hi hrec
  simp only [Local.pending, Local.read, Option.getD_none, Store.view, Tx.row_empty]
  split
  case h_2 => exact ⟨rfl, hi₂, by simp⟩
  rename_i c hc
  split
  · exact ⟨rfl, hi₂, by simp⟩
  rename_i hopen
  simp only [not_or, ne_eq, not_not] at hopen
  have hsaw : SawDraft req p s₂ := by
    refine ⟨hrec₂, ?_⟩
    rintro ⟨row, hrow, hne⟩
    rw [hc] at hrow
    cases hrow
    exact hne hopen.2.1
  refine wp_mono _ (fun reply l s' hx => ?_) (wp_reads _ (.head _) (wp_confirm hp hvalid hi₂))
  obtain ⟨⟨htx, hi', hown⟩, hmem⟩ := hx
  exact ⟨htx, hi', fun cid pid oid b he =>
    ⟨(hown cid pid oid b he).1, (hown cid pid oid b he).2, s₂, hmem, hsaw⟩⟩

theorem accepts_payCall (hp : requests p = some req) :
    Accepts (payCalls requests) p (req.call p) := by
  refine ⟨fun r s hi => (wp_seq _ _).mpr (wp_ext _ fun s₁ _ hi₁ _ => ?_)⟩
  have hact : PayActs requests p r s₁ { s₁.world with http := .received p :: s₁.world.http } :=
    ⟨req, hp, .inl rfl⟩
  refine ⟨hact, (wp_seq _ _).mpr (wp_mono _ (fun reply l s₂ hx => ?_)
    (wp_payWallet hp (payInv_act hi₁ hact) (.head _)))⟩
  obtain ⟨tx, reads⟩ := l
  obtain ⟨rfl, hi₂, hreply⟩ := hx
  refine wp_ext _ fun s₃ hl₃ hi₃ _ => ?_
  have hact₃ : PayActs requests p reads s₃
      { s₃.world with http := .replied p reply :: s₃.world.http } := by
    refine ⟨req, hp, .inr ⟨reply, rfl, fun cid pid oid b he => ?_⟩⟩
    obtain ⟨hc, hs, hsaw⟩ := hreply cid pid oid b he
    exact ⟨hc, hl₃.stable (fun _ _ hst h => settledAs_step hst h) hi₂ hs, hsaw⟩
  exact ⟨hact₃, rfl, payInv_act hi₃ hact₃⟩

theorem payPool_good (hi : PayInv requests s) :
    Good (payCalls requests) (Config.start s (payPool requests)) := by
  refine good_start hi fun q => ?_
  unfold payPool
  split
  · rename_i req hq
    exact wp_mono _ (fun _ _ _ _ => trivial) ((accepts_payCall hq).run [] s hi)
  · trivial

/-! ### Every run -/

/-- Where the requests start: earlier settlements are complete, and nothing is answered yet. -/
structure PayStart (requests : ℕ → Option PayRequest) (s : AppStore) : Prop where
  keys : KeysSettled s
  charges : ChargesSettled s
  once : ChargedOnce s
  log : ∀ p t, ⟨p, t⟩ ∈ s.log → requests p = none
  http : s.world.http = []

theorem PayStart.inv (h : PayStart requests s) : PayInv requests s where
  keys := h.keys
  charges := h.charges
  once := h.once
  sealed p t req hmem hreq := by
    rw [h.log p t hmem] at hreq
    cases hreq
  own p c i o b hmem := by
    rw [h.http] at hmem
    cases hmem

/-- Both requests have one sender, key and token. -/
def PayRequest.Repeats (req req' : PayRequest) : Prop :=
  req.owner = req'.owner ∧ req.clientRequestId = req'.clientRequestId ∧
    req.draftToken = req'.draftToken

/-- Request `p` comes, with a token that has not expired, after the settlement `w` of its key and
    token was committed. -/
def RepeatOf (requests : ℕ → Option PayRequest) (s : AppStore) (p : ℕ) (w : WalletTransaction) :
    Prop :=
  .received p ∉ s.world.http ∧ ∃ req q req' t, requests p = some req ∧ requests q = some req' ∧
    req.Repeats req' ∧ req.nowMs < req.draftToken.expiresAtMs ∧ ⟨q, t⟩ ∈ s.log ∧
      .wallet w ∈ t.entries

/-- `reply` is the settlement that wrote `w`. -/
def IsSettlement (w : WalletTransaction) (reply : Reply) : Prop :=
  ∃ cid pid oid, reply = .settled cid pid oid w.balanceAfterToman ∧
    w.relatedPaymentId = some pid ∧ w.relatedOrderId = some oid

/-- Every repeat of a request that had settled in `s` is answered in `s'` with the settlement. -/
def Replays (requests : ℕ → Option PayRequest) (s s' : AppStore) : Prop :=
  ∀ p w reply, RepeatOf requests s p w → .replied p reply ∈ s'.world.http → IsSettlement w reply

/-- Two settled answers to one key and token are the same. -/
def Agree (requests : ℕ → Option PayRequest) (s : AppStore) : Prop :=
  ∀ p q req req' c c' i i' o o' b b', requests p = some req → requests q = some req' →
    req.Repeats req' → .replied p (.settled c i o b) ∈ s.world.http →
    .replied q (.settled c' i' o' b') ∈ s.world.http → c = c' ∧ i = i' ∧ o = o' ∧ b = b'

/-- What is claimed of the payments, but for the replays of later requests. -/
structure PaidOnce (requests : ℕ → Option PayRequest) (s : AppStore) : Prop where
  once : ChargedOnce s
  atSealedPrice : AtSealedPrice requests s
  own : OwnSettlements requests s
  agree : Agree requests s

theorem SettledAs.agree {req' : PayRequest} {i i' o o' : ℕ} {b b' : ℤ} (hrep : req.Repeats req')
    (h : SettledAs req i o b s) (h' : SettledAs req' i' o' b' s) : i = i' ∧ o = o' ∧ b = b' := by
  obtain ⟨⟨q, ⟨hkey, hq⟩, -, ho, -⟩, ⟨w, hw, hb⟩, -⟩ := h
  obtain ⟨⟨q', ⟨hkey', hq'⟩, -, ho', -⟩, ⟨w', hw', hb'⟩, -⟩ := h'
  rw [← hrep.2.1, hkey] at hkey'
  cases hkey'
  rw [hq] at hq'
  cases hq'
  rw [ho] at ho'
  cases ho'
  rw [hw] at hw'
  cases hw'
  exact ⟨rfl, rfl, hb ▸ hb'⟩

theorem PayInv.paidOnce (hi : PayInv requests s) : PaidOnce requests s := by
  refine ⟨hi.once, hi.sealed, hi.own, fun p q req req' c c' i i' o o' b b' hp hq hrep h h' => ?_⟩
  obtain ⟨r₁, hr₁, rfl, hs₁⟩ := hi.own p c i o b h
  obtain ⟨r₂, hr₂, rfl, hs₂⟩ := hi.own q c' i' o' b' h'
  rw [hp] at hr₁
  cases hr₁
  rw [hq] at hr₂
  cases hr₂
  obtain ⟨rfl, rfl, rfl⟩ := hs₁.agree hrep hs₂
  exact ⟨by rw [hrep.2.2], rfl, rfl, rfl⟩

/-- A settled answer of `p` is among the events. -/
def AnsweredSettled (p : ℕ) (s : AppStore) : Prop :=
  ∃ cid pid oid b, .replied p (.settled cid pid oid b) ∈ s.world.http

/-- A settled answer is new only where a request follows the rules. -/
theorem answeredSettled_step {q : ℕ} (hst : (payCalls requests).Step q r s s')
    (h : AnsweredSettled p s') :
    AnsweredSettled p s ∨ q = p ∧ ∃ req, requests p = some req ∧ ∃ x ∈ r, SawDraft req p x := by
  obtain ⟨cid, pid, oid, b, hmem⟩ := h
  cases hst with
  | commit t hh _ => exact .inl ⟨cid, pid, oid, b, hmem⟩
  | act w ha =>
    change HttpEvent.replied p (.settled cid pid oid b) ∈ w.http at hmem
    obtain ⟨req, hq, ha | ⟨reply, ha, hans⟩⟩ := ha <;> rw [ha] at hmem
    · exact .inl ⟨cid, pid, oid, b, by simpa using hmem⟩
    · rcases List.mem_cons.mp hmem with heq | hmem
      · cases heq
        exact .inr ⟨rfl, req, hq, (hans cid pid oid b rfl).2.2⟩
      · exact .inl ⟨cid, pid, oid, b, hmem⟩

section Runs

variable {s₀ : AppStore} {c₁ c₂ : AppConfig}

/-- Before it has come, a request has read nothing that shows it, and has no settled answer. -/
theorem before_received (hs : PayStart requests s₀)
    (h₁ : Run anyStep (Config.start s₀ (payPool requests)) c₁)
    (hrec : .received p ∉ c₁.store.world.http) :
    ¬ AnsweredSettled p c₁.store ∧
      ∀ x ∈ (c₁.threads p).loc.reads, .received p ∉ x.world.http := by
  obtain ⟨hans, hreads⟩ := h₁.keeps_reads (q := p)
    (P := fun s => AnsweredSettled p s → .received p ∈ s.world.http)
    (R := fun x s => ∀ e ∈ x.world.http, e ∈ s.world.http) (payPool_good hs.inv)
    (fun {s s' q r} _ hst hr hP h => by
      rcases answeredSettled_step hst h with h | ⟨rfl, req, -, x, hx, hsaw⟩
      · exact http_step hst (hP h)
      · exact http_step hst (hr rfl x hx _ hsaw.1))
    (fun _ _ _ he => he) (fun _ hst hR e he => http_step hst (hR e he))
    (fun ⟨_, _, _, _, h⟩ => by
      change _ ∈ s₀.world.http at h
      rw [hs.http] at h
      cases h) (fun x hx => by cases hx)
  exact ⟨fun h => hrec (hans h), fun x hx h => hrec (hreads x hx _ h)⟩

/-- A request that comes after its settlement is never answered with one. -/
theorem repeat_not_settled (hs : PayStart requests s₀)
    (h₁ : Run anyStep (Config.start s₀ (payPool requests)) c₁) (h₂ : Run anyStep c₁ c₂)
    {w : WalletTransaction} (hrep : RepeatOf requests c₁.store p w) :
    ¬ AnsweredSettled p c₂.store := by
  obtain ⟨hrec, req, q, req', t, hp, hq, hsame, -, hmem, hw⟩ := hrep
  have hg₁ := (h₁.sound (payPool_good hs.inv)).1
  obtain ⟨hnone, hreads⟩ := before_received hs h₁ hrec
  have hclosed : NotPending c₁.store req.draftToken.checkoutId := by
    rcases hg₁.inv.sealed q t req' hmem hq with rfl | ⟨w', i, o, -, -, -, hs⟩
    · cases hw
    · rw [hsame.2.2]
      exact hs.closed
  have hkeep := h₂.keeps_reads (q := p)
    (P := fun s => NotPending s req.draftToken.checkoutId ∧ ¬ AnsweredSettled p s)
    (R := fun x _ => .received p ∈ x.world.http → NotPending x req.draftToken.checkoutId) hg₁
    (fun {s s' q r} _ hst hr hP => by
      refine ⟨notPending_step hst hP.1, fun h => ?_⟩
      rcases answeredSettled_step hst h with h | ⟨rfl, req', hp', x, hx, hsaw⟩
      · exact hP.2 h
      · rw [hp] at hp'
        cases hp'
        exact hsaw.2 (hr rfl x hx hsaw.1))
    (fun _ hP _ => hP.1) (fun _ _ hR => hR) ⟨hclosed, hnone⟩
    (fun x hx h => absurd h (hreads x hx))
  exact hkeep.1.2

/-- REPLAYS: in every run each checkout is charged once at most and at the sealed price, nobody is
    answered with a settlement of another user, and settled answers agree; later repeats are
    answered with the settlement exactly as long as none of them is answered. -/
theorem wallet_pay_replays (hs : PayStart requests s₀)
    (h₁ : Run anyStep (Config.start s₀ (payPool requests)) c₁) (h₂ : Run anyStep c₁ c₂) :
    PaidOnce requests c₂.store ∧ (Replays requests c₁.store c₂.store ↔
      ∀ p w, RepeatOf requests c₁.store p w → ∀ reply, .replied p reply ∉ c₂.store.world.http) := by
  have hi₂ := ((h₁.trans h₂).sound (payPool_good hs.inv)).1.inv
  refine ⟨hi₂.paidOnce, fun h p w hrep reply hreply => ?_, fun h p w reply hrep hreply => ?_⟩
  · obtain ⟨cid, pid, oid, rfl, -, -⟩ := h p w reply hrep hreply
    exact repeat_not_settled hs h₁ h₂ hrep ⟨cid, pid, oid, _, hreply⟩
  · exact absurd hreply (h p w hrep reply)

end Runs

/-! ### A request that is sent again -/

/-- A draft renewal of service 3, at 100. -/
def renewalDraft : CheckoutSession where
  userId := 1
  purpose := .ORDER_PAYMENT
  productId := some 7
  serviceId := some 3
  orderType := some .SERVICE_RENEWAL
  productSnapshot :=
    { originalPriceToman := some 100
      discountAmountToman := some 0
      finalPriceToman := some 100 }
  originalPriceToman := 100
  finalPriceToman := 100
  expiresAt := 100

def draftRows : ∀ k, Row k
  | .user 1 => some { balanceToman := 1000 }
  | .checkout 5 => some renewalDraft
  | k => emptyRows k

def draftStore : AppStore := { rows := draftRows, world := {} }

def payRequest : PayRequest where
  owner := 1
  clientRequestId := "0123456789abcdef"
  draftToken :=
    { userId := 1
      checkoutId := 5
      operation := .RENEWAL
      finalPriceToman := 100
      fingerprint := ⟨0, none, 0, 100, some 3⟩
      expiresAtMs := 1000 }
  nowMs := 1

/-- The request, and the same again. -/
def payTwice (p : ℕ) : Option PayRequest := if p < 2 then some payRequest else none

def payEvents (p n : ℕ) : List (Event Choice) := List.replicate n (.run p { id := 5, now := 1 })

theorem draftStore_start : PayStart payTwice draftStore := by
  refine ⟨fun k pid _ h => ?_, fun w hw => ?_, List.Pairwise.nil, fun p t h => ?_, rfl⟩
  · cases h
  · cases hw
  · cases h

/-- The ledger row that the first request writes. -/
def firstSpend : WalletTransaction where
  userId := 1
  amountToman := 100
  type := .SPEND
  source := .ORDER
  reason := .WALLET_ORDER_PAYMENT
  relatedOrderId := some 5
  relatedPaymentId := some 5
  balanceBeforeToman := 1000
  balanceAfterToman := 900

/-- The first request settles; the second comes and is refused. -/
theorem payTwice_run :
    ((Config.start draftStore (payPool payTwice)).exec (payEvents 0 33)).any (fun c =>
      (c.store.log.any fun e => e.pid = 0 ∧ .wallet firstSpend ∈ e.tx.entries) ∧
        .received 1 ∉ c.store.world.http ∧
        (c.exec (payEvents 1 5)).any fun c' =>
          .replied 1 (.refused 409 .CHECKOUT_UNAVAILABLE) ∈ c'.store.world.http) = true := by
  decide +kernel

theorem payTwice_refused : ∃ c₁ c₂ : AppConfig,
    Run anyStep (Config.start draftStore (payPool payTwice)) c₁ ∧ Run anyStep c₁ c₂ ∧
      RepeatOf payTwice c₁.store 1 firstSpend ∧
      .replied 1 (.refused 409 .CHECKOUT_UNAVAILABLE) ∈ c₂.store.world.http := by
  obtain ⟨c₁, h₁, hend⟩ := Run.of_exec_any payTwice_run
  simp only [decide_eq_true_eq, List.any_eq_true] at hend
  obtain ⟨⟨⟨q, t⟩, hmem, hq, hw⟩, hrec, hsecond⟩ := hend
  obtain ⟨c₂, h₂, hreply⟩ := Run.of_exec_any hsecond
  obtain rfl : q = 0 := hq
  refine ⟨c₁, c₂, h₁, h₂, ⟨hrec, payRequest, 0, payRequest, t, rfl, rfl, ⟨rfl, rfl, rfl⟩, ?_, hmem,
    hw⟩, by simpa using hreply⟩
  decide

theorem wallet_pay_replays_once : ∃ c₁ c₂ : AppConfig, PaidOnce payTwice c₂.store ∧
    (Replays payTwice c₁.store c₂.store ↔
      ∀ p w, RepeatOf payTwice c₁.store p w → ∀ reply, .replied p reply ∉ c₂.store.world.http) := by
  obtain ⟨c₁, c₂, h₁, h₂, -⟩ := payTwice_refused
  exact ⟨c₁, c₂, wallet_pay_replays draftStore_start h₁ h₂⟩

theorem wallet_pay_replay_refused : ¬ ∀ (requests : ℕ → Option PayRequest) (s₀ : AppStore)
    (c₁ c₂ : AppConfig), PayStart requests s₀ →
    Run anyStep (Config.start s₀ (payPool requests)) c₁ → Run anyStep c₁ c₂ →
    PaidOnce requests c₂.store ∧ Replays requests c₁.store c₂.store := by
  intro h
  obtain ⟨c₁, c₂, h₁, h₂, hrep, hreply⟩ := payTwice_refused
  obtain ⟨cid, pid, oid, heq, -⟩ := (h payTwice draftStore c₁ c₂ draftStore_start h₁ h₂).2 1
    firstSpend _ hrep hreply
  cases heq

end ZedBot
