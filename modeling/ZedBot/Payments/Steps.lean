import ZedBot.Payments.Discipline

/-! What single statements do to a payment transaction.

    `Clean` transactions are the payment transactions that mark nothing for duplicate review; each
    lemma takes a clean transaction across one statement, given the row the statement sees. -/

namespace ZedBot
open ReadCommitted RunningBalance

/-- A payment transaction that marks no payment for duplicate review. -/
structure Clean (d : Bool) (t : AppTx) : Prop extends MoneyTx d t where
  review : ∀ id o n, t.chg (.payment id) = some (o, some n) →
    n.settlementStatus = .DUPLICATE_SUCCESS_REVIEW →
    ∃ o', o = some o' ∧ o'.settlementStatus = .DUPLICATE_SUCCESS_REVIEW

theorem Clean.empty (d : Bool) : Clean d {} := ⟨.empty d, by intro _ _ _ h; cases h⟩

variable {d : Bool} {t t' : AppTx} {rows : ∀ k, Row k} {s : AppStore}

theorem Clean.filed (h : Clean d t) : Filed s t := by
  intro id o n hc hn ho
  obtain ⟨o', rfl, ho'⟩ := h.review id o n hc hn
  exact absurd ho' (ho o' rfl)

/-- The tables that the rules of a payment transaction look at. -/
def Key.ruled : Key → Bool
  | .checkout _ | .payment _ | .order _ | .orderOfCheckout _ | .reconciliation _ | .user _ => true
  | _ => false

/-! ### Parts that a statement leaves -/

theorem claims_congr (hc : ∀ c, t'.chg (.checkout c) = t.chg (.checkout c)) {c pid : ℕ}
    {n : CheckoutSession} : Claims t' c pid n ↔ Claims t c pid n := by
  simp only [Claims, hc]

theorem SettlementRows.congr (h : SettlementRows d t)
    (hc : ∀ c, t'.chg (.checkout c) = t.chg (.checkout c))
    (hp : ∀ id, t'.chg (.payment id) = t.chg (.payment id)) : SettlementRows d t' := by
  obtain ⟨h1, h2, h3, h4⟩ := h
  constructor <;> simp only [hc, hp, claims_congr hc] <;> assumption

theorem OrderRows.congr (h : OrderRows t) (ho : ∀ id, t'.chg (.order id) = t.chg (.order id))
    (hi : ∀ c, t'.chg (.orderOfCheckout c) = t.chg (.orderOfCheckout c)) : OrderRows t' := by
  obtain ⟨h1, h2, h3⟩ := h
  constructor <;> simp only [ho, hi] <;> assumption

theorem LedgerRows.congr (h : LedgerRows t) (hu : ∀ u, t'.chg (.user u) = t.chg (.user u))
    (he : t'.entries = t.entries) : LedgerRows t' := by
  obtain ⟨h1, h2⟩ := h
  constructor <;> simp only [hu, he] <;> assumption

/-- A transaction with the parts of a clean one: what the statement touched is given, the rest is as
    it was. -/
theorem Clean.of_parts (h : Clean d t) (hs : SettlementRows d t') (ho : OrderRows t')
    (hl : LedgerRows t') (he : t'.entries = t.entries)
    (hc : ∀ c, t'.chg (.checkout c) = t.chg (.checkout c))
    (hcase : ∀ id o n, t'.chg (.reconciliation id) = some (o, n) → CaseStep o n)
    (hr : ∀ id o n, t'.chg (.payment id) = some (o, some n) →
      n.settlementStatus = .DUPLICATE_SUCCESS_REVIEW →
      ∃ o', o = some o' ∧ o'.settlementStatus = .DUPLICATE_SUCCESS_REVIEW) : Clean d t' := by
  refine ⟨⟨hs, ho, hl, hcase, ?_⟩, hr⟩
  simp only [he, claims_congr hc]; exact h.topup

/-- A change of the tables that no rule looks at. -/
theorem Clean.congr (h : Clean d t) (he : t'.entries = t.entries)
    (hc : ∀ k : Key, k.ruled = true → t'.chg k = t.chg k) : Clean d t' := by
  have hchk := fun c => hc (.checkout c) rfl
  have hpay := fun id => hc (.payment id) rfl
  refine h.of_parts (h.toSettlementRows.congr hchk hpay)
    (h.toOrderRows.congr (fun id => hc (.order id) rfl) fun c => hc (.orderOfCheckout c) rfl)
    (h.toLedgerRows.congr (fun u => hc (.user u) rfl) he) he hchk ?_ ?_
  · intro id o n hr; rw [hc _ rfl] at hr; exact h.case id o n hr
  · intro id o n hr; rw [hpay] at hr; exact h.review id o n hr

/-- The listing of a commission is not a row of the ledger. -/
theorem LedgerRows.listCommission (h : LedgerRows t) (orderId : ℕ) :
    LedgerRows (t.append [.commission orderId]) := by
  have hsame : ∀ u, ledgerOf u (t.append [.commission orderId]).entries = ledgerOf u t.entries := by
    intro u
    rw [Tx.entries_append, ledgerOf_append]
    exact List.append_nil _
  obtain ⟨h1, h2⟩ := h
  constructor <;> simp only [hsame, Tx.chg_append] <;> assumption

theorem Clean.listCommission (h : Clean d t) (orderId : ℕ) :
    Clean d (t.append [.commission orderId]) := by
  have hsame : ∀ pid, topupsOf pid (t.append [.commission orderId]).entries =
      topupsOf pid t.entries := by
    intro pid
    rw [Tx.entries_append, topupsOf_append]
    exact List.append_nil _
  refine ⟨⟨h.toSettlementRows.congr (fun _ => rfl) fun _ => rfl,
    h.toOrderRows.congr (fun _ => rfl) fun _ => rfl, h.toLedgerRows.listCommission orderId, h.case,
    fun pid w hw => ?_⟩, h.review⟩
  rw [hsame] at hw ⊢
  exact h.topup pid w hw

/-- A write to a table that no rule looks at. -/
theorem Clean.free (h : Clean d t) {k : Key} (hk : k.ruled = false) (x : Row k) :
    Clean d (t.write rows ⟨k, x⟩) := by
  refine h.congr rfl fun k' hk' => Tx.chg_write_ne x ?_
  rintro rfl; rw [hk] at hk'; cases hk'

/-- The core of a settlement: one checkout gets its owner, and the owner is approved and settled
    for it. -/
theorem Clean.settlement {c pid : ℕ} {co : Option CheckoutSession} {cn : CheckoutSession}
    {po : Option Payment} {pn : Payment}
    (hchk : t.chg (.checkout c) = some (co, some cn))
    (hchk' : ∀ c', c' ≠ c → t.chg (.checkout c') = none)
    (hpay : t.chg (.payment pid) = some (po, some pn))
    (hpay' : ∀ id, id ≠ pid → t.chg (.payment id) = none)
    (horder : ∀ id, t.chg (.order id) = none) (hindex : ∀ c, t.chg (.orderOfCheckout c) = none)
    (hcase : ∀ id, t.chg (.reconciliation id) = none) (huser : ∀ u, t.chg (.user u) = none)
    (he : t.entries = [])
    (hcs : CheckoutStep d co (some cn)) (hps : PaymentStep po (some pn))
    (hown : cn.settledByPaymentId = some pid) (hfree : ∀ o, co = some o → o.settledByPaymentId = none)
    (ha : pn.status = .APPROVED) (hs : pn.settlementStatus = .SETTLED)
    (hc : pn.checkoutSessionId = some c) (hu : pn.userId = cn.userId) : Clean d t := by
  have hclaim : Claims t c pid cn := ⟨co, hchk, hown, hfree⟩
  have eqc : ∀ c' x, t.chg (.checkout c') = some x → c' = c := by
    intro c' x h; by_contra hne; rw [hchk' c' hne] at h; cases h
  have eqp : ∀ id x, t.chg (.payment id) = some x → id = pid := by
    intro id x h; by_contra hne; rw [hpay' id hne] at h; cases h
  refine ⟨⟨⟨?_, ?_, ?_, ?_⟩, ⟨?_, ?_, ?_⟩, ⟨?_, ?_⟩, ?_, ?_⟩, ?_⟩
  · intro c' o n h; obtain rfl := eqc c' _ h
    rw [hchk] at h; cases h; exact hcs
  · intro id o n h; obtain rfl := eqp id _ h
    rw [hpay] at h; cases h; exact hps
  · rintro c' pid' n ⟨o, h, hn, _⟩; obtain rfl := eqc c' _ h
    rw [hchk] at h; cases h
    rw [hown] at hn; cases hn
    exact ⟨po, pn, hpay, ha, hs, hc, hu⟩
  · intro id o n h _ _; obtain rfl := eqp id _ h
    rw [hpay] at h; cases h
    exact ⟨c, cn, hc, hclaim⟩
  · intro id o n h; rw [horder] at h; cases h
  · intro id n c' h; rw [horder] at h; cases h
  · intro c' o n h; rw [hindex] at h; cases h
  · intro u o n h; rw [huser] at h; cases h
  · intro u _; rw [he]; rfl
  · intro id o n h; rw [hcase] at h; cases h
  · intro pid' w h; rw [he] at h; cases h
  · intro id o n h hn; obtain rfl := eqp id _ h
    rw [hpay] at h; cases h
    rw [hs] at hn; cases hn

/-! ### Transactions that settle nothing -/

/-- A payment moves without being settled. -/
def PaymentMove : Option Payment → Option Payment → Prop
  | some o, some n => PaymentLe o n ∧
    (n.settlementStatus = .SETTLED → o.settlementStatus = .SETTLED)
  | _, _ => False

/-- A checkout moves, or is created, without getting an owner. -/
def CheckoutMove (d : Bool) : Option CheckoutSession → Option CheckoutSession → Prop
  | some o, some n => CheckoutLe d o n ∧ n.settledByPaymentId = o.settledByPaymentId
  | none, some n => n.settledByPaymentId = none
  | _, none => False

/-- A change of one row that settles nothing and touches neither an order nor a user. -/
def Moves (d : Bool) : (k : Key) → Row k → Row k → Prop
  | .payment _, o, n => PaymentMove o n
  | .checkout _, o, n => CheckoutMove d o n
  | .reconciliation _, o, n => CaseStep o n
  | k, _, _ => k.ruled = false

theorem PaymentMove.step {o n : Option Payment} (h : PaymentMove o n) : PaymentStep o n := by
  cases o with
  | none => exact h.elim
  | some o => cases n with
    | none => exact h.elim
    | some n => exact h.1

theorem CheckoutMove.not_gone {o : Option CheckoutSession} (h : CheckoutMove d o none) : False := by
  cases o <;> exact h

theorem CheckoutMove.step {o n : Option CheckoutSession} (h : CheckoutMove d o n) :
    CheckoutStep d o n := by
  cases n with
  | none => cases o <;> exact h.elim
  | some n => cases o with
    | none => exact fun hn => absurd h hn
    | some o => exact h.1

/-- A transaction of such changes only. -/
structure Moving (d : Bool) (t : AppTx) : Prop where
  entries : t.entries = []
  moves : ∀ k o n, t.chg k = some (o, n) → Moves d k o n

theorem Moving.empty (d : Bool) : Moving d {} := ⟨rfl, by intro _ _ _ h; cases h⟩

theorem Moving.write (h : Moving d t) (hh : t.Held rows) {k : Key} {n : Row k}
    (hm : Moves d k (rows k) n) : Moving d (t.write rows ⟨k, n⟩) := by
  refine ⟨h.entries, fun k' o' n' hc => ?_⟩
  rcases eq_or_ne k' k with rfl | hne
  · rw [Tx.chg_write_self, hh.base_eq] at hc; cases hc; exact hm
  · exact h.moves k' o' n' (by rwa [Tx.chg_write_ne n hne] at hc)

/-- A write to a table that no rule looks at. -/
theorem Moving.writeFree (h : Moving d t) {k : Key} {n : Row k} (hk : k.ruled = false) :
    Moving d (t.write rows ⟨k, n⟩) := by
  refine ⟨h.entries, fun k' o' n' hc => ?_⟩
  rcases eq_or_ne k' k with rfl | hne
  · cases k' <;> first | exact rfl | cases hk
  · exact h.moves k' o' n' (by rwa [Tx.chg_write_ne n hne] at hc)

theorem Moving.no_claim (h : Moving d t) {c pid : ℕ} {n : CheckoutSession}
    (hc : Claims t c pid n) : False := by
  obtain ⟨o, hc, hn, hfree⟩ := hc
  have hm : CheckoutMove d o (some n) := h.moves (.checkout c) o (some n) hc
  cases o with
  | none => rw [show n.settledByPaymentId = none from hm] at hn; cases hn
  | some o => rw [hm.2, hfree o rfl] at hn; cases hn

theorem Moving.moneyTx (h : Moving d t) : MoneyTx d t where
  checkout c o n hc := CheckoutMove.step (h.moves (.checkout c) o n hc)
  payment id o n hc := PaymentMove.step (h.moves (.payment id) o n hc)
  order id o n hc := by cases h.moves (.order id) o n hc
  indexed id n c hc _ := by cases h.moves (.order id) none (some n) hc
  index c o n hc := by cases h.moves (.orderOfCheckout c) o n hc
  case id o n hc := h.moves (.reconciliation id) o n hc
  claim c pid n hc := (h.no_claim hc).elim
  owner pid o n hc hs ho := by
    have hm : PaymentMove o (some n) := h.moves (.payment pid) o (some n) hc
    cases o with
    | none => exact hm.elim
    | some o => exact absurd (hm.2 hs) (ho o rfl)
  user u o n hc := by cases h.moves (.user u) o n hc
  locked u _ := by rw [h.entries]; rfl
  topup pid w hw := by rw [h.entries] at hw; cases hw

/-- If it marks no payment for duplicate review either, it is clean. -/
theorem Moving.clean (h : Moving d t)
    (hr : ∀ id o n, t.chg (.payment id) = some (some o, some n) →
      n.settlementStatus = .DUPLICATE_SUCCESS_REVIEW →
      o.settlementStatus = .DUPLICATE_SUCCESS_REVIEW) : Clean d t := by
  refine ⟨h.moneyTx, fun id o n hc hn => ?_⟩
  have hm : PaymentMove o (some n) := h.moves (.payment id) o (some n) hc
  cases o with
  | none => exact hm.elim
  | some o => exact ⟨o, rfl, hr id o n hc hn⟩

/-! ### Payments -/

/-- The state of a payment that the rules look at. -/
def Payment.SameState (o n : Payment) : Prop :=
  n.identity = o.identity ∧ n.status = o.status ∧ n.settlementStatus = o.settlementStatus

theorem PaymentLe.of_sameState {o n : Payment} (h : o.SameState n) : PaymentLe o n := by
  obtain ⟨h1, h2, h3⟩ := h
  exact ⟨h1, by simp_all, by simp_all, by simp_all, by simp_all, by simp_all, .inl h2⟩

theorem PaymentLe.sameState_right {o q n : Payment} (h : PaymentLe o q) (hs : q.SameState n) :
    PaymentLe o n := by
  obtain ⟨h1, h2, h3⟩ := hs
  obtain ⟨k1, k2, k3, k4, k5, k6, k7⟩ := h
  exact ⟨h1.trans k1, by rwa [h2, h3], by rwa [h2, h3], by rwa [h3], by rwa [h2], by rwa [h3],
    by rwa [h2]⟩

/-- A payment is written again without a change of its state (the link to its order). -/
theorem SettlementRows.linkPayment (h : SettlementRows d t) {pid : ℕ} {q n : Payment}
    (hq : t.row rows (.payment pid) = some q) (hs : q.SameState n) :
    SettlementRows d (t.write rows ⟨.payment pid, some n⟩) := by
  have hcl : ∀ c id k, Claims (t.write rows ⟨.payment pid, some n⟩) c id k ↔ Claims t c id k :=
    fun _ _ _ => claims_congr (by simp)
  -- the change of the payment before this write, if there is one, leads to `q`
  have hbase := Tx.chg_of_row hq
  obtain ⟨hid, hst, hse⟩ := hs
  have hcs : n.checkoutSessionId = q.checkoutSessionId := congrArg (·.2.1) hid
  refine ⟨fun c o m hc => h.checkout c o m (by simpa using hc), ?_, ?_, ?_⟩
  · intro id o m hc
    by_cases hne : id = pid
    · subst hne
      simp only [Tx.chg_write_self, Option.some.injEq, Prod.mk.injEq] at hc
      obtain ⟨rfl, rfl⟩ := hc
      rcases hbase with ⟨_, hb⟩ | hb
      · rw [hb]; exact .of_sameState ⟨hid, hst, hse⟩
      · have hp := h.payment id _ _ hb
        cases hbo : t.base rows (.payment id) with
        | none =>
          rw [hbo] at hp
          have ham : n.amountToman = q.amountToman := congrArg (·.2.2.2.1) hid
          exact ⟨by rw [hst]; exact hp.approved, by rw [hse]; exact hp.settled,
            by rw [ham]; exact hp.amount⟩
        | some o => rw [hbo] at hp; exact hp.sameState_right ⟨hid, hst, hse⟩
    · exact h.payment id o m (by simpa [hne] using hc)
  · intro c id m hc
    obtain ⟨o, p, hp, ha, hset, hpc, hu⟩ := h.claim c id m ((hcl c id m).mp hc)
    by_cases hne : id = pid
    · subst hne
      rcases hbase with ⟨hb, _⟩ | hb
      · rw [hb] at hp; cases hp
      · rw [hb] at hp; cases hp
        have hu' : n.userId = q.userId := congrArg Prod.fst hid
        exact ⟨_, n, Tx.chg_write_self .., by rw [hst, ha], by rw [hse, hset], by rw [hcs, hpc],
          by rw [hu', hu]⟩
    · exact ⟨o, p, by simpa [hne] using hp, ha, hset, hpc, hu⟩
  · intro id o m hc hset ho
    simp only [hcl]
    by_cases hne : id = pid
    · subst hne
      simp only [Tx.chg_write_self, Option.some.injEq, Prod.mk.injEq] at hc
      obtain ⟨rfl, rfl⟩ := hc
      rcases hbase with ⟨_, hb⟩ | hb
      · exact absurd (by rw [← hse, hset]) (ho q hb)
      · rw [hcs]; exact h.owner id _ q hb (by rw [← hse, hset]) ho
    · exact h.owner id o m (by simpa [hne] using hc) hset ho

theorem Clean.linkPayment (h : Clean d t) {pid : ℕ} {q n : Payment}
    (hq : t.row rows (.payment pid) = some q) (hs : q.SameState n) :
    Clean d (t.write rows ⟨.payment pid, some n⟩) := by
  refine h.of_parts (h.toSettlementRows.linkPayment hq hs)
    (h.toOrderRows.congr (by simp) (by simp)) (h.toLedgerRows.congr (by simp) rfl) rfl (by simp)
    (fun id o m hc => h.case id o m (by simpa using hc)) fun id o m hc hrev => ?_
  by_cases hne : id = pid
  · subst hne
    simp only [Tx.chg_write_self, Option.some.injEq, Prod.mk.injEq] at hc
    obtain ⟨rfl, rfl⟩ := hc
    have hrev' : q.settlementStatus = .DUPLICATE_SUCCESS_REVIEW := by rw [← hs.2.2, hrev]
    rcases Tx.chg_of_row hq with ⟨_, hb⟩ | hb
    · exact ⟨q, hb, hrev'⟩
    · exact h.review id _ q hb hrev'
  · exact h.review id o m (by simpa [hne] using hc) hrev

/-! ### Orders and cases -/

/-- A row that the transaction sees as it never leaves one has not been written by it. -/
theorem chg_none_of_row {k : Key} {x : Row k} (hr : t.row rows k = x)
    (h : ∀ o, t.chg k ≠ some (o, x)) : t.chg k = none := by
  rcases Tx.chg_of_row hr with ⟨h1, _⟩ | h1
  · exact h1
  · exact absurd h1 (h _)

theorem OrderRows.order_fresh (h : OrderRows t) {id : ℕ} (hr : t.row rows (.order id) = none) :
    t.chg (.order id) = none := by
  refine chg_none_of_row hr fun o hc => ?_
  have := h.order id o none hc
  cases o <;> exact this

theorem OrderRows.index_fresh (h : OrderRows t) {c : ℕ} (hr : t.row rows (.orderOfCheckout c) = none) :
    t.chg (.orderOfCheckout c) = none := by
  refine chg_none_of_row hr fun o hc => ?_
  obtain ⟨_, id, _, hid, _⟩ := h.index c o none hc
  cases hid

/-- The order of a checkout is created with its entry in the unique index. -/
theorem OrderRows.createOrder (h : OrderRows t) {id c : ℕ} {row : Order}
    (hr : t.row rows (.order id) = none) (hx : t.row rows (.orderOfCheckout c) = none)
    (hc : row.checkoutSessionId = some c) :
    OrderRows ((t.write rows ⟨.order id, some row⟩).write rows ⟨.orderOfCheckout c, some id⟩) := by
  have ho := h.order_fresh hr
  have hi := h.index_fresh hx
  rw [Tx.row_of_chg ho] at hr
  rw [Tx.row_of_chg hi] at hx
  have hbo : t.base rows (.order id) = none := by rw [Tx.base_of_chg ho, hr]
  have hbi : (t.write rows ⟨.order id, some row⟩).base rows (.orderOfCheckout c) = none := by
    rw [Tx.base_of_chg (by simpa using hi), hx]
  refine ⟨?_, ?_, ?_⟩
  · intro id' o n hh
    by_cases hne : id' = id
    · subst hne
      have : some ((none : Option Order), some row) = some (o, n) := by rw [← hh]; simp [hbo]
      cases this; trivial
    · exact h.order id' o n (by simpa [hne] using hh)
  · intro id' n c' hh hn
    by_cases hne : id' = id
    · subst hne
      have : some ((none : Option Order), some row) = some (none, some n) := by
        rw [← hh]; simp [hbo]
      cases this
      rw [hc] at hn; cases hn
      simp [hbi]
    · have hix := h.indexed id' n c' (by simpa [hne] using hh) hn
      by_cases hcc : c' = c
      · subst hcc; rw [hi] at hix; cases hix
      · simpa [hcc] using hix
  · intro c' o n hh
    by_cases hcc : c' = c
    · subst hcc
      have : some ((none : Option ℕ), some id) = some (o, n) := by rw [← hh]; simp [hbi]
      cases this
      exact ⟨rfl, id, row, rfl, by simp [hbo], hc⟩
    · obtain ⟨h1, id', row', h2, h3, h4⟩ := h.index c' o n (by simpa [hcc] using hh)
      refine ⟨h1, id', row', h2, ?_, h4⟩
      by_cases hne : id' = id
      · subst hne; rw [ho] at h3; cases h3
      · simpa [hne] using h3

theorem Clean.createOrder (h : Clean d t) {id c : ℕ} {row : Order}
    (hr : t.row rows (.order id) = none) (hx : t.row rows (.orderOfCheckout c) = none)
    (hc : row.checkoutSessionId = some c) :
    Clean d ((t.write rows ⟨.order id, some row⟩).write rows ⟨.orderOfCheckout c, some id⟩) :=
  h.of_parts (h.toSettlementRows.congr (by simp) (by simp)) (h.toOrderRows.createOrder hr hx hc)
    (h.toLedgerRows.congr (by simp) rfl) rfl (by simp)
    (fun id o n hh => h.case id o n (by simpa using hh))
    fun id o n hh => h.review id o n (by simpa using hh)

/-- An order is written again with the same checkout (its note). -/
theorem OrderRows.noteOrder (h : OrderRows t) {id : ℕ} {q n : Order}
    (hq : t.row rows (.order id) = some q) (hs : n.checkoutSessionId = q.checkoutSessionId) :
    OrderRows (t.write rows ⟨.order id, some n⟩) := by
  have hbase := Tx.chg_of_row hq
  refine ⟨?_, ?_, ?_⟩
  · intro id' o m hh
    by_cases hne : id' = id
    · subst hne
      simp only [Tx.chg_write_self, Option.some.injEq, Prod.mk.injEq] at hh
      obtain ⟨rfl, rfl⟩ := hh
      rcases hbase with ⟨_, hb⟩ | hb
      · rw [hb]; exact hs
      · have ho := h.order id' _ _ hb
        cases hbo : t.base rows (.order id') with
        | none => trivial
        | some o => rw [hbo] at ho; exact hs.trans ho
    · exact h.order id' o m (by simpa [hne] using hh)
  · intro id' m c' hh hm
    by_cases hne : id' = id
    · subst hne
      simp only [Tx.chg_write_self, Option.some.injEq, Prod.mk.injEq] at hh
      obtain ⟨hb0, rfl⟩ := hh
      rcases hbase with ⟨_, hb⟩ | hb
      · rw [hb] at hb0; cases hb0
      · rw [hb0] at hb
        simpa using h.indexed id' q c' hb (by rw [← hs, hm])
    · simpa using h.indexed id' m c' (by simpa [hne] using hh) hm
  · intro c' o m hh
    obtain ⟨h1, id', row', h2, h3, h4⟩ := h.index c' o m (by simpa using hh)
    by_cases hne : id' = id
    · subst hne
      rcases hbase with ⟨hb, _⟩ | hb
      · rw [hb] at h3; cases h3
      · rw [hb] at h3
        simp only [Option.some.injEq, Prod.mk.injEq] at h3
        obtain ⟨hb0, rfl⟩ := h3
        exact ⟨h1, id', n, h2, by simp [hb0], by rw [hs, h4]⟩
    · exact ⟨h1, id', row', h2, by simpa [hne] using h3, h4⟩

theorem Clean.noteOrder (h : Clean d t) {id : ℕ} {q n : Order}
    (hq : t.row rows (.order id) = some q) (hs : n.checkoutSessionId = q.checkoutSessionId) :
    Clean d (t.write rows ⟨.order id, some n⟩) :=
  h.of_parts (h.toSettlementRows.congr (by simp) (by simp)) (h.toOrderRows.noteOrder hq hs)
    (h.toLedgerRows.congr (by simp) rfl) rfl (by simp)
    (fun id o n hh => h.case id o n (by simpa using hh))
    fun id o n hh => h.review id o n (by simpa using hh)

/-- A case is created where none is seen. -/
theorem Clean.createCase (h : Clean d t) {id : ℕ} {row : FinancialReconciliationCase}
    (hr : t.row rows (.reconciliation id) = none) :
    Clean d (t.write rows ⟨.reconciliation id, some row⟩) := by
  refine h.of_parts (h.toSettlementRows.congr (by simp) (by simp))
    (h.toOrderRows.congr (by simp) (by simp)) (h.toLedgerRows.congr (by simp) rfl) rfl (by simp)
    (fun id' o n hh => ?_) fun id o n hh => h.review id o n (by simpa using hh)
  by_cases hne : id' = id
  · subst hne
    have hf : t.chg (.reconciliation id') = none := by
      refine chg_none_of_row hr fun o hc => ?_
      have hs := h.case id' o none hc
      cases o <;> exact hs
    rw [Tx.row_of_chg hf] at hr
    simp only [Tx.chg_write_self, Tx.base_of_chg hf, hr, Option.some.injEq, Prod.mk.injEq] at hh
    obtain ⟨rfl, rfl⟩ := hh; trivial
  · exact h.case id' o n (by simpa [hne] using hh)

/-! ### Users and the ledger -/

/-- A user's row changes along with the ledger rows `js` appended for that user alone; with no rows
    the balance stays. -/
theorem LedgerRows.writeUser (h : LedgerRows t) {u : ℕ} {q n : User} {js : List Entry}
    (hq : t.row rows (.user u) = some q)
    (hchain : Chain wallet q.balanceToman (ledgerOf u js) n.balanceToman)
    (hneg : n.allowNegativeBalance = q.allowNegativeBalance)
    (hpos : q.allowNegativeBalance = false → 0 ≤ q.balanceToman → 0 ≤ n.balanceToman)
    (honly : ∀ v, v ≠ u → ledgerOf v js = []) :
    LedgerRows ((t.write rows ⟨.user u, some n⟩).append js) := by
  refine ⟨?_, ?_⟩
  · intro v o m hh
    rw [Tx.entries_append, Tx.entries_write, ledgerOf_append]
    by_cases hne : v = u
    · subst hne
      simp only [Tx.chg_append, Tx.chg_write_self, Option.some.injEq, Prod.mk.injEq] at hh
      obtain ⟨rfl, rfl⟩ := hh
      rcases Tx.chg_of_row hq with ⟨hc, hb⟩ | hb
      · rw [hb, h.locked v hc, List.nil_append]
        exact ⟨hchain, hneg, hpos⟩
      · have ho := h.user v _ _ hb
        cases hbo : t.base rows (.user v) with
        | none => rw [hbo] at ho; exact ho.elim
        | some o =>
          rw [hbo] at ho
          obtain ⟨h1, h2, h3⟩ := ho
          exact ⟨h1.append hchain, hneg.trans h2, fun ha hp => hpos (h2.trans ha) (h3 ha hp)⟩
    · rw [honly v hne, List.append_nil]
      exact h.user v o m (by simpa [hne] using hh)
  · intro v hh
    rw [Tx.entries_append, Tx.entries_write, ledgerOf_append]
    by_cases hne : v = u
    · subst hne; simp at hh
    · rw [honly v hne, List.append_nil]; exact h.locked v (by simpa [hne] using hh)

/-- No transaction creates a user. -/
theorem LedgerRows.user_fresh (h : LedgerRows t) (hh : t.Held rows) {u : ℕ}
    (hr : t.row rows (.user u) = none) : rows (.user u) = none := by
  rw [← hh.base_eq]
  rcases Tx.chg_of_row hr with ⟨_, h1⟩ | h1
  · exact h1
  · have hs := h.user u _ _ h1
    cases ho : t.base rows (.user u) with
    | none => rfl
    | some o => rw [ho] at hs; exact hs.elim

theorem LedgerRows.countUser (h : LedgerRows t) {u : ℕ} {q n : User}
    (hq : t.row rows (.user u) = some q) (hb : n.balanceToman = q.balanceToman)
    (hneg : n.allowNegativeBalance = q.allowNegativeBalance) :
    LedgerRows (t.write rows ⟨.user u, some n⟩) := by
  have hw : LedgerRows ((t.write rows ⟨.user u, some n⟩).append []) :=
    h.writeUser hq hb.symm hneg (fun _ hp => by rw [hb]; exact hp) fun _ _ => rfl
  simpa using hw

theorem LedgerRows.moveBalance (h : LedgerRows t) {u : ℕ} {q n : User} {w : WalletTransaction}
    (hq : t.row rows (.user u) = some q) (hu : w.userId = u)
    (hbefore : w.balanceBeforeToman = q.balanceToman)
    (hafter : w.balanceAfterToman = n.balanceToman)
    (hmove : n.balanceToman = q.balanceToman + w.type.sign * w.amountToman)
    (hneg : n.allowNegativeBalance = q.allowNegativeBalance)
    (hpos : q.allowNegativeBalance = false → 0 ≤ q.balanceToman → 0 ≤ n.balanceToman) :
    LedgerRows ((t.write rows ⟨.user u, some n⟩).append [.wallet w]) := by
  subst hu
  refine h.writeUser hq ?_ hneg hpos ?_
  · have hone : ledgerOf w.userId [Entry.wallet w] = [w] := by simp [ledgerOf]
    rw [hone]
    exact ⟨hbefore, by simp only [wallet]; rw [hafter, hmove], hafter⟩
  · intro v hv; simp [ledgerOf, hv.symm]

/-- The counters of a user move, the balance stays. -/
theorem Clean.countUser (h : Clean d t) {u : ℕ} {q n : User}
    (hq : t.row rows (.user u) = some q) (hb : n.balanceToman = q.balanceToman)
    (hneg : n.allowNegativeBalance = q.allowNegativeBalance) :
    Clean d (t.write rows ⟨.user u, some n⟩) :=
  h.of_parts (h.toSettlementRows.congr (by simp) (by simp))
    (h.toOrderRows.congr (by simp) (by simp)) (h.toLedgerRows.countUser hq hb hneg) rfl (by simp)
    (fun id o n hh => h.case id o n (by simpa using hh))
    fun id o n hh => h.review id o n (by simpa using hh)

/-- A balance moves with the one ledger row that records it; a top-up needs its claim. -/
theorem Clean.moveBalance (h : Clean d t) {u : ℕ} {q n : User} {w : WalletTransaction}
    (hq : t.row rows (.user u) = some q) (hu : w.userId = u)
    (hbefore : w.balanceBeforeToman = q.balanceToman)
    (hafter : w.balanceAfterToman = n.balanceToman)
    (hmove : n.balanceToman = q.balanceToman + w.type.sign * w.amountToman)
    (hneg : n.allowNegativeBalance = q.allowNegativeBalance)
    (hpos : q.allowNegativeBalance = false → 0 ≤ q.balanceToman → 0 ≤ n.balanceToman)
    (htop : w.reason = .WALLET_TOPUP_CARD_TO_CARD → ∀ pid, w.relatedPaymentId = some pid →
      topupsOf pid t.entries = [] ∧
      ∃ c k, Claims t c pid k ∧ w.userId = k.userId ∧ w.amountToman = k.finalPriceToman) :
    Clean d ((t.write rows ⟨.user u, some n⟩).append [.wallet w]) := by
  refine ⟨⟨h.toSettlementRows.congr (by simp) (by simp),
    h.toOrderRows.congr (by simp) (by simp),
    h.toLedgerRows.moveBalance hq hu hbefore hafter hmove hneg hpos,
    fun id o m hh => h.case id o m (by simpa using hh), fun pid x hx => ?_⟩,
    fun id o m hh => h.review id o m (by simpa using hh)⟩
  have hcl : ∀ c' pid k, Claims ((t.write rows ⟨.user u, some n⟩).append [.wallet w]) c' pid k ↔
      Claims t c' pid k := fun _ _ _ => claims_congr (by simp)
  simp only [hcl]
  rw [Tx.entries_append, Tx.entries_write, topupsOf_append] at hx ⊢
  by_cases hr : w.relatedPaymentId = some pid ∧ w.reason = .WALLET_TOPUP_CARD_TO_CARD
  · have hone : topupsOf pid [Entry.wallet w] = [w] := by simp [topupsOf, hr]
    obtain ⟨h1, h2⟩ := htop hr.2 pid hr.1
    rw [hone, h1, List.nil_append] at hx ⊢
    obtain rfl := List.mem_singleton.mp hx
    exact ⟨rfl, h2⟩
  · have hnone : topupsOf pid [Entry.wallet w] = [] := by
      simp only [topupsOf, List.filterMap_cons, List.filterMap_nil, if_neg hr]
    rw [hnone, List.append_nil] at hx ⊢
    exact h.topup pid x hx

end ZedBot
