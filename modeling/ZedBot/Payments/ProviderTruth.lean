import ZedBot.Payments.Exclusive

/-! What the provider reported, and what becomes of it.

    A recorded SUCCESS leads to a settlement, to a filed duplicate or back into the sweep, unless the
    payment was locally given up before. It is never downgraded as long as the read on which a
    negative event decides is still current when the event writes. -/

namespace ZedBot
open ReadCommitted

variable {dm : ℕ → Bool} {s s' : AppStore} {p : ℕ} {r : List AppStore}

/-! ### Calls that record provider events -/

/-- One call that records a provider event. -/
inductive ProviderCall
  | outcome (lookup : OutcomeLookup) (event : ProviderOutcomeEvent)
  | successFromBot (paymentId : ℕ) (transactionId : Option String)

def ProviderCall.call : ProviderCall → PaymentCall
  | outcome lookup event => .recordProviderOutcome lookup event
  | successFromBot id charge => .recordProviderSuccessFromBot id charge

/-- The call reports something else than a SUCCESS. -/
def ProviderCall.negative : ProviderCall → Bool
  | outcome _ event => event.status ≠ .SUCCESS
  | successFromBot .. => false

def eventCalls (events : ℕ → Option ProviderCall) (p : ℕ) : Option PaymentCall :=
  (events p).map (·.call)

def negatives (events : ℕ → Option ProviderCall) (p : ℕ) : Bool := (events p).any (·.negative)

/-- The buyer cancels a payment at the gateway (0), and the provider reports its success (1). -/
def cancelAndPay (p : ℕ) : Option ProviderCall :=
  match p with
  | 0 => some (.outcome { paymentId := some 1, provider := .ZARINPAL } { status := .CANCELLED })
  | 1 => some (.outcome { paymentId := some 1, provider := .ZARINPAL } { status := .SUCCESS })
  | _ => none

/-! ### Collected money -/

/-- A payment is given up locally: the provider never completed it in time. -/
def Payment.givenUp (q : Payment) : Bool :=
  q.status = .FAILED ∨ q.status = .EXPIRED ∨ q.status = .CANCELLED

/-- A gateway payment is open, settled or given up; receipts in review are no gateway payments. -/
def GatewayRows (s : AppStore) : Prop :=
  ∀ pid q, s.rows (.payment pid) = some q → isOnlineProvider q.provider = true →
    isOpen q = true ∨ q.givenUp = true ∨ q.status = .APPROVED ∧ q.settlementStatus = .SETTLED

/-- How the money of a payment is accounted for. -/
inductive Accounted (s : AppStore) (pid : ℕ) (q : Payment) : Prop
  | settled (c : ℕ) (row : CheckoutSession) (h : q.status = .APPROVED)
      (hs : q.settlementStatus = .SETTLED) (hc : q.checkoutSessionId = some c)
      (hrow : s.rows (.checkout c) = some row) (howner : row.settledByPaymentId = some pid)
  | filed (e : FinancialReconciliationCase) (hs : q.settlementStatus = .DUPLICATE_SUCCESS_REVIEW)
      (hcase : s.rows (.reconciliation pid) = some e)
  | selected (h : selectedByPass1 q = true)

theorem PaymentLe.provider {o n : Payment} (h : PaymentLe o n) : n.provider = o.provider := by
  have := h.identity
  simp only [Payment.identity, Prod.mk.injEq] at this
  exact this.2.2.2.2.2

/-- The step lemma: a payment transaction keeps gateway payments in their statuses. -/
theorem gatewayRows_step (hst : (money dm).Step p r s s') (hg : GatewayRows s) : GatewayRows s' := by
  cases hst with
  | act w h => exact h.elim
  | commit t hh hc =>
    intro pid q hq hon
    rcases back_payment hc.1 hh hq with ⟨o, ho, hle, _⟩ | ⟨_, hnew⟩
    · rw [hle.provider] at hon
      rcases hle.status with hsame | hreview | ⟨_, hnext⟩
      · rcases hg pid o ho hon with h | h | ⟨ha, hs⟩
        · exact .inl (by simpa [isOpen, hsame] using h)
        · exact .inr (.inl (by simpa [Payment.givenUp, hsame] using h))
        · exact .inr (.inr ⟨hle.keepsApproved ha, hle.keepsSettled hs⟩)
      · have := hg pid o ho hon
        simp [isOpen, Payment.givenUp, hreview] at this
      · rcases hnext with h | h | h | h | h
        · exact .inl (by simp [isOpen, h])
        · exact .inr (.inl (by simp [Payment.givenUp, h]))
        · exact .inr (.inl (by simp [Payment.givenUp, h]))
        · exact .inr (.inl (by simp [Payment.givenUp, h]))
        · rcases hle.approved h with ha | hs
          · rcases hg pid o ho hon with h' | h' | ⟨_, hs⟩
            · simp [isOpen, ha] at h'
            · simp [Payment.givenUp, ha] at h'
            · exact .inr (.inr ⟨h, hle.keepsSettled hs⟩)
          · exact .inr (.inr ⟨h, hs⟩)
    · exact .inr (.inr ⟨hnew.approved, hnew.settled⟩)

/-- A payment that was given up stays as it is locally. -/
theorem givenUp_step {pid : ℕ} {st : PaymentStatus} (hst : (money dm).Step p r s s')
    (h : ∃ q, s.rows (.payment pid) = some q ∧ q.givenUp = true ∧ q.status = st) :
    ∃ q, s'.rows (.payment pid) = some q ∧ q.givenUp = true ∧ q.status = st := by
  cases hst with
  | act w h => exact h.elim
  | commit t hh hc =>
    obtain ⟨q, hq, hup, rfl⟩ := h
    obtain ⟨q', hq', hle⟩ := fwd_payment (p := p) hc.1 hh hq
    have hsame : q'.status = q.status := by
      rcases hle.status with h | h | ⟨h, _⟩
      · exact h
      · simp [Payment.givenUp, h] at hup
      · simp [isOpen] at h
        rcases h with h | h <;> simp [Payment.givenUp, h] at hup
    exact ⟨q', hq', by simpa [Payment.givenUp, hsame] using hup, hsame⟩

/-- A gateway payment with a recorded SUCCESS is accounted for or was given up. -/
theorem MoneyInv.accounted (hi : MoneyInv s) (hg : GatewayRows s) {pid : ℕ} {q : Payment}
    (hq : s.rows (.payment pid) = some q) (hon : isOnlineProvider q.provider = true)
    (hsucc : q.providerStatus = some .SUCCESS) : Accounted s pid q ∨ q.givenUp = true := by
  cases hset : q.settlementStatus with
  | SETTLED =>
    obtain ⟨ha, c, row, hc, hrow, howner⟩ := hi.settled pid q hq hset
    exact .inl (.settled c row ha hset hc hrow howner)
  | DUPLICATE_SUCCESS_REVIEW =>
    obtain ⟨e, he⟩ := Option.ne_none_iff_exists'.mp (hi.filed pid q hq hset)
    exact .inl (.filed e hset he)
  | UNSETTLED =>
    rcases hg pid q hq hon with h | h | ⟨_, h⟩
    · exact .inl (.selected (by simp [selectedByPass1, hon, hsucc, h, hset]))
    · exact .inr h
    · rw [hset] at h; cases h

theorem topupStore_inv (reported : Option NormalizedPaymentStatus) :
    MoneyInv (topupStore reported) :=
  .of_fresh (fun c row h => by match c, h with | 1, h => cases h; rfl)
    (fun _ _ h => (topupStore_payment h).2.2.2.1)
    (fun _ q c hq hc => by
      obtain ⟨h, hu, _⟩ := topupStore_payment hq
      rw [h] at hc; cases hc
      exact ⟨_, rfl, hu.symm⟩)
    (fun _ q hq => by rw [(topupStore_payment hq).2.2.1]; decide) (fun _ => rfl) rfl

theorem topupStore_gatewayRows (reported : Option NormalizedPaymentStatus) :
    GatewayRows (topupStore reported) := by
  intro pid q hq _
  exact .inl (by simp [isOpen, (topupStore_payment hq).2.2.2.2])

theorem cancelAndPay_runs : ((Config.start (topupStore none) (pool (eventCalls cancelAndPay))).exec
    (List.replicate 4 (.run 0 {}) ++ List.replicate 3 (.run 1 {}))).any (fun c =>
      (c.store.rows (.payment 1)).any fun q => isOnlineProvider q.provider ∧
        q.providerStatus = some .SUCCESS ∧ q.status = .CANCELLED ∧
        q.settlementStatus = .UNSETTLED) = true := by
  decide +kernel

/-- A row that was read without a SUCCESS. -/
def ReadOpen (id : ℕ) (r : List AppStore) : Prop :=
  ∀ s ∈ r, ∀ q, s.rows (.payment id) = some q → q.providerStatus ≠ some .SUCCESS

/-- What a provider event may write on a payment: a SUCCESS, the PROCESSING status, or, when it is a
    negative one that read no SUCCESS, anything. -/
def EventWrite (negative : Bool) (r : List AppStore) (id : ℕ) (o n : Payment) : Prop :=
  n.providerStatus = some .SUCCESS ∧ n.status = o.status ∨
  n.providerStatus = o.providerStatus ∧ n.status = .PROCESSING ∨
  negative ∧ ReadOpen id r

def EventTx (negative : Bool) (r : List AppStore) (t : AppTx) : Prop :=
  ∀ id o n, t.chg (.payment id) = some (o, n) →
    ∃ a b, o = some a ∧ n = some b ∧ EventWrite negative r id a b

/-- The discipline of the provider events. -/
def providerEvents (neg : ℕ → Bool) : Discipline Row Entry World where
  Inv _ := True
  Commits p r _ t := EventTx (neg p) r t
  Acts _ _ _ _ := False
  commits_empty _ := by intro _ _ _ h; cases h
  inv_commit _ _ _ := trivial
  inv_act _ _ := trivial

variable {neg : ℕ → Bool} {id : ℕ}

/-- The statement keeps what the process has read. -/
theorem wp_eventCharge {charge : Option String} {data : Payment → Payment}
    {Q : UpdateResult → Local Row Entry World → AppStore → Prop}
    (h : ∀ o, EventWrite (neg p) r id o (data o)) (hQ : ∀ x s, Q x ⟨none, r⟩ s) :
    wp (providerEvents neg) p (updatePaymentCharge id charge data) Q ⟨none, r⟩ s := by
  intro s' _ _ _
  refine ⟨?_, hQ _ _⟩
  intro id' o n hc
  obtain ⟨rfl, hw⟩ := Tx.chg_add_empty hc
  simp only [Local.pending, Store.view, Option.getD_none, Tx.row_empty] at hw
  split at hw
  · cases hw
  rename_i q hq
  split at hw
  · simp only [List.mem_singleton, Sigma.mk.injEq, Key.payment.injEq] at hw
    obtain ⟨rfl, hn⟩ := hw
    exact ⟨q, data q, hq, eq_of_heq hn, h q⟩
  split at hw
  · simp only [List.mem_cons, Sigma.mk.injEq, Key.payment.injEq, reduceCtorEq, false_and,
      List.not_mem_nil, or_false] at hw
    obtain ⟨rfl, hn⟩ := hw
    exact ⟨q, _, hq, eq_of_heq hn, h q⟩
  · split at hw
    · simp only [List.mem_singleton, Sigma.mk.injEq, Key.payment.injEq] at hw
      obtain ⟨rfl, hn⟩ := hw
      exact ⟨q, _, hq, eq_of_heq hn, h q⟩
    · cases hw

theorem wp_eventMove {next : PaymentStatus} {Q : ℕ → Local Row Entry World → AppStore → Prop}
    (h : ∀ o : Payment, EventWrite (neg p) r id o { o with status := next })
    (hQ : ∀ x s, Q x ⟨none, r⟩ s) :
    wp (providerEvents neg) p (updatePayment id isOpen fun o => { o with status := next }) Q
      ⟨none, r⟩ s := by
  refine wp_update fun s' _ _ => ⟨fun _ => hQ _ _, fun n hn => ⟨?_, hQ _ _⟩⟩
  obtain ⟨o, ho, _, rfl⟩ := onRow_eq_some.mp hn
  intro id' a b hc
  rcases eq_or_ne (Key.payment id') (.payment id) with he | hne
  · cases he
    rw [Tx.chg_write_self] at hc; cases hc
    exact ⟨o, _, ho, rfl, h o⟩
  · rw [Tx.chg_write_ne _ hne] at hc; cases hc

theorem wp_recordProviderOutcome {lookup : OutcomeLookup} {event : ProviderOutcomeEvent}
    (hn : event.status ≠ .SUCCESS → neg p = true) :
    wp (providerEvents neg) p (recordProviderOutcome lookup event) (fun _ _ _ => True)
      ⟨none, []⟩ s := by
  refine (wp_seq _ _).mpr (wp_select _ fun s₁ _ _ => ?_)
  split
  case h_2 => trivial
  rename_i id payment hfound
  have hrow : s₁.rows (.payment id) = some payment := by
    simp only [Local.pending, Store.view, Option.getD_none, Tx.row_empty] at hfound
    split at hfound
    · obtain ⟨q, hq, he⟩ := Option.map_eq_some_iff.mp hfound
      cases he; exact hq
    · split at hfound
      · obtain ⟨q, hq, he⟩ := Option.map_eq_some_iff.mp hfound
        cases he; exact hq
      · cases hfound
    · cases hfound
  split
  · trivial
  split
  · trivial
  rename_i hopen
  have hread : event.status ≠ .SUCCESS → ReadOpen id [s₁] := by
    intro hne s hs q hq
    obtain rfl := List.mem_singleton.mp hs
    rw [hrow] at hq; cases hq
    exact fun hp => hopen ⟨hp, hne⟩
  have hwrite : ∀ o n, (event.status = .SUCCESS → n.providerStatus = some .SUCCESS ∧
      n.status = o.status) → EventWrite (neg p) [s₁] id o n := by
    intro o n h
    by_cases hs : event.status = .SUCCESS
    · exact .inl (h hs)
    · exact .inr (.inr ⟨hn hs, hread hs⟩)
  refine (wp_seq _ _).mpr (wp_ask _ fun ch => ?_)
  refine (wp_seq _ _).mpr (wp_eventCharge (fun o => hwrite o _ fun hs => ?_) fun x s => ?_)
  · exact ⟨congrArg some hs, rfl⟩
  split
  · trivial
  split
  · trivial
  split
  · trivial
  rename_i next hnext
  split
  · trivial
  refine (wp_seq _ _).mpr (wp_eventMove (fun o => hwrite o _ fun hs => ?_) fun _ _ => trivial)
  rw [hs] at hnext; cases hnext

theorem wp_recordProviderSuccessFromBot {charge : Option String} :
    wp (providerEvents neg) p (recordProviderSuccessFromBot id charge) (fun _ _ _ => True)
      ⟨none, []⟩ s := by
  refine (wp_seq _ _).mpr (wp_select _ fun s₁ _ _ => ?_)
  split
  case h_2 => trivial
  refine (wp_seq _ _).mpr (wp_ask _ fun ch => ?_)
  refine (wp_seq _ _).mpr (wp_eventCharge (fun o => .inl ⟨rfl, rfl⟩) fun x s => ?_)
  split
  · trivial
  split
  · trivial
  exact (wp_seq _ _).mpr (wp_eventMove (fun o => .inr (.inl ⟨rfl, rfl⟩)) fun _ _ => trivial)

theorem providerEvents_good {events : ℕ → Option ProviderCall} {s₀ : AppStore} :
    Good (providerEvents (negatives events)) (Config.start s₀ (pool (eventCalls events))) := by
  refine good_start trivial fun p => ?_
  cases he : events p with
  | none => simp only [pool, eventCalls, he, Option.map_none]; trivial
  | some e =>
    simp only [pool, eventCalls, he, Option.map_some]
    cases e with
    | outcome lookup event =>
      have hneg : event.status ≠ .SUCCESS → negatives events p = true := by
        intro hne
        simp [negatives, he, ProviderCall.negative, hne]
      exact (wp_seq _ _).mpr (wp_mono _ (fun _ _ _ _ => trivial) (wp_recordProviderOutcome hneg))
    | successFromBot id charge => exact wp_recordProviderSuccessFromBot

/-- When a negative event changes a payment that has a SUCCESS, its own read saw the SUCCESS
    already. -/
def ReadCurrent (events : ℕ → Option ProviderCall) : StepCond Row Entry World :=
  fun p r s s' => negatives events p = true → ∀ id q, s.rows (.payment id) = some q →
    q.providerStatus = some .SUCCESS → s'.rows (.payment id) ≠ s.rows (.payment id) →
    ∃ sr ∈ r, ∃ q', sr.rows (.payment id) = some q' ∧ q'.providerStatus = some .SUCCESS

/-- A payment has a SUCCESS, and its status is `st` or PROCESSING. -/
def Succeeded (id : ℕ) (st : PaymentStatus) (s : AppStore) : Prop :=
  ∃ q, s.rows (.payment id) = some q ∧ q.providerStatus = some .SUCCESS ∧
    (q.status = st ∨ q.status = .PROCESSING)

/-- The step lemma: a current read does not downgrade. -/
theorem succeeded_step {events : ℕ → Option ProviderCall} {st : PaymentStatus}
    (hst : (providerEvents (negatives events)).Step p r s s') (hC : ReadCurrent events p r s s')
    (h : Succeeded id st s) : Succeeded id st s' := by
  cases hst with
  | act w h => exact h.elim
  | commit t hh hc =>
    obtain ⟨q, hq, hsucc, hstatus⟩ := h
    rcases s.commit_rows p hh (.payment id) with ⟨he, _⟩ | hch
    · exact ⟨q, by rw [he, hq], hsucc, hstatus⟩
    · obtain ⟨a, b, ha, hb, hw⟩ := hc id _ _ hch
      rw [hq] at ha; cases ha
      by_cases hsame : (s.commit p t).rows (.payment id) = s.rows (.payment id)
      · exact ⟨q, by rw [hsame, hq], hsucc, hstatus⟩
      rcases hw with ⟨hb', hs⟩ | ⟨hb', hs⟩ | ⟨hneg, hread⟩
      · exact ⟨b, hb, hb', by rwa [hs]⟩
      · exact ⟨b, hb, hb'.trans hsucc, .inr hs⟩
      · obtain ⟨sr, hsr, q', hq', hsucc'⟩ := hC hneg id q hq hsucc hsame
        exact absurd hsucc' (hread sr hsr q' hq')

/-- The success alone. -/
def payOnly (p : ℕ) : Option ProviderCall := if p = 1 then cancelAndPay 1 else none

theorem payOnly_runs : ((Config.start (topupStore none) (pool (eventCalls payOnly))).exec
    (List.replicate 3 (.run 1 {}))).any (fun c =>
      (c.store.rows (.payment 1)).any fun q => q.providerStatus = some .SUCCESS) = true := by
  decide +kernel

/-- The cancellation reads, the success is recorded, the cancellation writes. -/
theorem cancelRace_runs : ((Config.start (topupStore none) (pool (eventCalls cancelAndPay))).exec
    ([.run 0 {}] ++ List.replicate 3 (.run 1 {}))).any (fun c =>
      (c.store.rows (.payment 1)).any (fun q => q.providerStatus = some .SUCCESS) &&
      (c.exec (List.replicate 3 (.run 0 {}))).any fun c' =>
        (c'.store.rows (.payment 1)).any fun q =>
          q.providerStatus = some .CANCELLED ∧ q.status = .CANCELLED) = true := by
  decide +kernel

end ZedBot
