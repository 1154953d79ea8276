import ZedBot.Payments.LinkTruth
import ZedBot.ReadCommitted.Solo

/-! The retry of a dead gateway attempt.

    The next call for the checkout and the gateway of a dead row gives it to the provider again,
    unless the row has no status of its provider: `NOT` of a comparison with a null does not match.
    Whatever the other processes do, no call resets a row that its provider reported paid or that is
    settled. -/

namespace ZedBot.Links
open ReadCommitted

variable {call : GatewayCall} {calls : ℕ → Option GatewayCall} {others : ℕ → Linking Unit}
  {p id : ℕ} {ch : ℕ → LinkChoice} {s s' : LinkStore} {t : LinkTx} {row o n : GatewayPayment}

/-! ### A lone call -/

/-- The gateway takes payments and its adapter is there. -/
def isAvailable (call : GatewayCall) (ch : ℕ → LinkChoice) : Prop :=
  call.gateway.isEnabled ∧ isOnlineProvider (some call.gateway.type) ∧ ∀ i, (ch i).available

/-- The payment of the call, dead without a success of its provider. -/
structure DeadAttempt (call : GatewayCall) (s : LinkStore) (id : ℕ) (row : GatewayPayment) :
    Prop where
  key : s.rows (.paymentOfKey call.key) = some id
  found : s.rows (.payment id) = some row
  dead : isRevivable row.payment

/-- The lone run of a call. -/
def soloCall (call : GatewayCall) (p : ℕ) (ch : ℕ → LinkChoice) (s : LinkStore) :
    Option (ℕ × CreatePaymentResult) × Solo LinkRow LinkEntry (List String) :=
  (getOrCreateGatewayPayment call).solo p ch { store := s }

/-- The row after its revival. -/
def revivedRow (call : GatewayCall) (row : GatewayPayment) : GatewayPayment where
  payment := revivedPayment call.checkout.expiresAt row.payment

variable {σ : Solo LinkRow LinkEntry (List String)}

/-- The creation of a payment whose key is taken. -/
theorem solo_createPayment {i : ℕ} {key : IdempotencyKey}
    {Q : Bool → Solo LinkRow LinkEntry (List String) → Prop} (h : σ.tx = none)
    (hkey : σ.store.rows (.paymentOfKey key) = some id)
    (hQ : ∀ σ', σ'.tx = none → σ'.acts = σ.acts → σ'.store.rows = σ.store.rows → Q false σ') :
    soloWp p ch (createPayment i key row) Q σ := by
  have hquiet := hQ (σ.apply p (⟨false, [], []⟩ : Effect LinkRow LinkEntry Bool)).tick
    (Solo.apply_tx h _ _) (Solo.apply_acts _ _ _) (by rw [Solo.tick_store, Solo.apply_store h]; rfl)
  refine soloWp_sql _ ?_
  cases hid : σ.store.rows (.payment i) <;> simpa only [Solo.view_rows h, hkey, hid]

/-- The revival of a dead row, or nothing where the provider's status is null. -/
theorem solo_revive {Q : ℕ → Solo LinkRow LinkEntry (List String) → Prop} (h : σ.tx = none)
    (hrow : σ.store.rows (.payment id) = some row) (hdead : isRevivable row.payment)
    (hnone : row.payment.providerStatus = none → ∀ σ', σ'.acts = σ.acts → Q 0 σ')
    (hsome : row.payment.providerStatus ≠ none → ∀ σ', σ'.tx = none →
      σ'.store.rows (.payment id) = some (revivedRow call row) → Q 1 σ') :
    soloWp p ch (updatePayment id canRevive fun p =>
      { payment := revivedPayment call.checkout.expiresAt p.payment }) Q σ := by
  refine soloWp_sql _ ?_
  rw [Solo.view_rows h, hrow]
  by_cases hstatus : row.payment.providerStatus = none
  · have hrevive : canRevive row.payment = false := by simp [canRevive, hstatus]
    simp only [hrevive, Bool.false_eq_true, if_false]
    exact hnone hstatus _ (Solo.apply_acts _ _ _)
  · have hrevive : canRevive row.payment = true := by simp [canRevive, hdead, hstatus]
    simp only [hrevive, if_true]
    refine hsome hstatus _ (Solo.apply_tx h _ _) ?_
    rw [Solo.tick_store, Solo.apply_store h,
      payment_of_rowWrites (List.append_nil _).symm (by simp), if_pos rfl]
    rfl

/-- The payment row that a call goes on with, where its attempt is dead. -/
theorem solo_loadOrCreatePaymentRow
    {Q : Option (ℕ × GatewayPayment) → Solo LinkRow LinkEntry (List String) → Prop}
    (h : σ.tx = none) (hd : DeadAttempt call σ.store id row)
    (hnone : row.payment.providerStatus = none → ∀ σ', σ'.acts = σ.acts → Q none σ')
    (hsome : row.payment.providerStatus ≠ none → ∀ σ', σ'.tx = none →
      σ'.store.rows (.payment id) = some (revivedRow call row) →
      Q (some (id, revivedRow call row)) σ') :
    soloWp p ch (loadOrCreatePaymentRow call) Q σ := by
  have hstatus : row.payment.status ≠ .PENDING := by
    intro hpending
    have hdead := hd.dead
    simp [isRevivable, hpending] at hdead
  refine (soloWp_seq _ _).mpr (soloWp_ask _ ((soloWp_seq _ _).mpr (soloWp_ask _ ?_)))
  -- the key is taken: the row is found
  refine (soloWp_seq _ _).mpr (solo_createPayment h hd.key fun σ₁ h₁ hacts hrows => ?_)
  refine (soloWp_seq _ _).mpr (soloWp_select _ ?_)
  rw [Solo.view_rows h₁, hrows]
  simp only [Solo.tick_store, hd.key, hd.found, Option.bind_some, Option.map_some, if_neg hstatus]
  have htick : σ₁.tick.tx = none := h₁
  refine (soloWp_seq _ _).mpr (solo_revive htick (hrows ▸ hd.found) hd.dead
    (fun hnull σ₂ hacts₂ => ?_) fun hnull σ₂ h₂ hrow => ?_)
  · exact hnone hnull _ (hacts₂.trans hacts)
  · refine (soloWp_seq _ _).mpr (soloWp_select _ ?_)
    rw [Solo.view_rows h₂, hrow]
    exact hsome hnull _ h₂ hrow

/-- REVIVED: the call reaches the provider with the revived row, unless the provider's status is
    null. -/
theorem soloCall_reaches (hd : DeadAttempt call s id row) (ha : isAvailable call ch) :
    (∃ s' ∈ (soloCall call p ch s).2.acts, s'.rows (.payment id) = some (revivedRow call row)) ↔
      row.payment.providerStatus ≠ none := by
  obtain ⟨henabled, honline, hadapter⟩ := ha
  have hstatus : row.payment.status ≠ .PENDING := by
    intro hpending
    have hdead := hd.dead
    simp [isRevivable, hpending] at hdead
  suffices soloWp p ch (getOrCreateGatewayPayment call) (fun _ σ =>
      (row.payment.providerStatus = none → σ.acts = []) ∧
      (row.payment.providerStatus ≠ none →
        ∃ s' ∈ σ.acts, s'.rows (.payment id) = some (revivedRow call row))) { store := s } by
    refine ⟨?_, this.2⟩
    rintro ⟨s', hmem, -⟩ hnull
    rw [soloCall, this.1 hnull] at hmem
    cases hmem
  rw [getOrCreateGatewayPayment, if_neg (by simp [henabled, honline])]
  refine (soloWp_seq _ _).mpr (soloWp_ask _ ?_)
  rw [if_neg (by simp [hadapter])]
  refine (soloWp_seq _ _).mpr (soloWp_select _ ((soloWp_seq _ _).mpr (soloWp_ask _ ?_)))
  rw [Solo.view_rows rfl]
  simp only [Solo.tick_store, hd.key, hd.found, Option.bind_some, Option.map_some, hstatus,
    false_and, if_false]
  refine (soloWp_seq _ _).mpr (solo_loadOrCreatePaymentRow rfl hd (fun hnull σ hacts => ?_)
    fun hnull σ h hrow => ?_)
  · exact soloWp_pure _ ⟨fun _ => hacts, fun h => absurd hnull h⟩
  · -- the revived row has no handle: the provider is asked
    refine (soloWp_seq _ _).mpr (soloWp_ext _ ?_)
    refine soloWp_mono _ (fun _ σ' hmem => ⟨fun h => absurd h hnull, fun _ => ⟨_, hmem, hrow⟩⟩)
      (soloWp_acts _ ?_)
    exact List.mem_cons_self

/-! ### Runs -/

/-- The provider reported the payment paid, or it is settled. -/
def isPaid (p : Payment) : Bool := p.providerStatus = some .SUCCESS ∨ p.status = .APPROVED

/-- The payment is not reset: at most its failed creation is recorded. -/
structure NotReset (o n : Payment) : Prop where
  providerStatus : n.providerStatus = o.providerStatus
  status : n.status = o.status ∨ o.status = .PENDING ∧ n.status = .FAILED

namespace NotReset

variable {x y z : Payment}

theorem refl (x : Payment) : NotReset x x := ⟨rfl, .inl rfl⟩

theorem trans (h : NotReset x y) (h' : NotReset y z) : NotReset x z := by
  refine ⟨h'.providerStatus.trans h.providerStatus, ?_⟩
  rcases h.status with he | ⟨hx, hy⟩
  · rw [← he]
    exact h'.status
  · rcases h'.status with he | ⟨hpending, -⟩
    · exact .inr ⟨hx, he.trans hy⟩
    · rw [hy] at hpending
      cases hpending

/-- A paid payment stays paid. -/
theorem isPaid (h : NotReset x y) (hpaid : Links.isPaid x) : Links.isPaid y := by
  rw [Links.isPaid, decide_eq_true_eq] at hpaid ⊢
  rcases hpaid with hsuccess | happroved
  · exact .inl (h.providerStatus.trans hsuccess)
  · rcases h.status with he | ⟨hpending, -⟩
    · exact .inr (he.trans happroved)
    · rw [happroved] at hpending
      cases hpending

end NotReset

/-- What a call may commit: no paid payment is reset. -/
def SparesPaid (t : LinkTx) : Prop := ∀ id o n, t.chg (.payment id) = some (some o, n) →
  isPaid o.payment → ∃ n', n = some n' ∧ NotReset o.payment n'.payment

/-- The rules of the calls; the other processes do what they like. -/
def sparing (calls : ℕ → Option GatewayCall) : Discipline LinkRow LinkEntry (List String) where
  Inv _ := True
  Commits p _ _ t := calls p ≠ none → SparesPaid t
  Acts _ _ _ _ := True
  commits_empty _ _ _ _ _ h := nomatch h
  inv_commit _ _ _ := trivial
  inv_act _ _ := trivial

/-- A statement is accepted if each of its writes of a payment spares it. -/
theorem accepts_statement {β : Type} {f : LinkView → Effect LinkRow LinkEntry β}
    (h : ∀ (s : LinkStore) id o n, s.rows (.payment id) = some o → isPaid o.payment →
      ⟨.payment id, n⟩ ∈ (f (s.view {})).writes →
      ∃ n', n = some n' ∧ NotReset o.payment n'.payment) :
    Accepts (sparing calls) p (sql f : Linking β) := by
  refine .sql fun _ s _ _ id o n hchg hpaid => ?_
  obtain ⟨hbase, hmem⟩ := Tx.chg_add_empty hchg
  exact h s id o n hbase.symm hpaid hmem

theorem accepts_updatePayment {i : ℕ} {cond : Payment → Bool}
    {data : GatewayPayment → GatewayPayment}
    (h : ∀ o, cond o.payment = true → isPaid o.payment → NotReset o.payment (data o).payment) :
    Accepts (sparing calls) p (updatePayment i cond data) := by
  refine accepts_statement fun s id o n hrow hpaid hmem => ?_
  dsimp only [Store.view] at hmem
  rw [Tx.row_empty] at hmem
  split at hmem
  · rename_i o' hrow'
    split at hmem
    · rename_i hcond
      have he : id = i ∧ n = some (data o') := by simpa [rowWrites] using hmem
      obtain ⟨rfl, rfl⟩ := he
      cases hrow.symm.trans hrow'
      exact ⟨_, rfl, h o hcond hpaid⟩
    · cases hmem
  · cases hmem

theorem accepts_createPayment {i : ℕ} {key : IdempotencyKey} :
    Accepts (sparing calls) p (createPayment i key row) := by
  refine accepts_statement fun s id o n hrow _ hmem => ?_
  dsimp only [Store.view] at hmem
  rw [Tx.row_empty, Tx.row_empty] at hmem
  split at hmem
  · rename_i hnone _
    have he : id = i ∧ n = some row := by simpa [rowWrites] using hmem
    rw [he.1, hnone] at hrow
    cases hrow
  · cases hmem

theorem accepts_storeHandle {i : ℕ} {gateway : PaymentGatewayType} {create : CreatePaymentResult} :
    Accepts (sparing calls) p (storeHandle i gateway create) := by
  refine accepts_statement fun s id o n hrow _ hmem => ?_
  dsimp only [Store.view] at hmem
  rw [Tx.row_empty, Tx.row_empty] at hmem
  have hstored : ∀ o', s.rows (.payment i) = some o' →
      (⟨.payment id, n⟩ : Write LinkRow) ∈ rowWrites i (some o') (withHandle gateway create o') →
      ∃ n', n = some n' ∧ NotReset o.payment n'.payment := by
    intro o' hrow' hmem
    have he : id = i ∧ n = some (withHandle gateway create o') := by simpa [rowWrites] using hmem
    obtain ⟨rfl, rfl⟩ := he
    cases hrow.symm.trans hrow'
    exact ⟨_, rfl, rfl, .inl rfl⟩
  split at hmem
  · cases hmem
  · rename_i o' hrow' _
    exact hstored o' hrow' hmem
  · rename_i o' other hrow' _
    split at hmem
    · exact hstored o' hrow' hmem
    · cases hmem

/-- A dead row that may be revived is not paid. -/
theorem not_isPaid_of_canRevive {o : Payment} (h : canRevive o = true) : isPaid o = false := by
  simp only [canRevive, isRevivable, decide_eq_true_eq] at h
  rw [isPaid, decide_eq_false_iff_not, not_or]
  refine ⟨h.1.2, fun happroved => ?_⟩
  rw [happroved] at h
  simp at h

theorem accepts_loadOrCreatePaymentRow :
    Accepts (sparing calls) p (loadOrCreatePaymentRow call) := by
  refine .bind (.ask _) fun i => .bind (.ask _) fun now => ?_
  refine .bind accepts_createPayment fun created => ?_
  split
  · exact .pure _
  refine .bind (.select _) fun found => ?_
  split
  · split
    · exact .pure _
    refine .bind (accepts_updatePayment fun o hrevive hpaid => ?_) fun revived => ?_
    · rw [not_isPaid_of_canRevive hrevive] at hpaid
      cases hpaid
    · split
      · exact .pure _
      · exact .bind (.select _) fun fresh => .pure _
  · exact .pure _

theorem accepts_getOrCreateGatewayPayment :
    Accepts (sparing calls) p (getOrCreateGatewayPayment call) := by
  rw [getOrCreateGatewayPayment]
  split
  · exact .pure _
  refine .bind (.ask _) fun available => ?_
  split
  · exact .pure _
  refine .bind (.select _) fun existing => .bind (.ask _) fun now => ?_
  split
  · exact .pure _
  refine .bind accepts_loadOrCreatePaymentRow fun payment => ?_
  split
  · split
    · exact .pure _
    refine .bind (.ext _ fun _ _ _ => trivial) fun created => ?_
    split
    · refine .bind (accepts_updatePayment fun o hpending _ => ?_) fun _ => .pure _
      exact ⟨rfl, .inr ⟨of_decide_eq_true hpending, rfl⟩⟩
    · exact .bind accepts_storeHandle fun _ => .pure _
  · exact .pure _

theorem accepts_linkProgram (x : Option GatewayCall) :
    Accepts (sparing calls) p (linkProgram x) := by
  match x with
  | none => exact .pure _
  | some call =>
    refine .bind accepts_getOrCreateGatewayPayment fun result => ?_
    split
    · exact accepts_statement fun _ _ _ _ _ _ hmem => by cases hmem
    · exact .pure _

/-- The processes: calls, and any other programs. -/
def callsAmong (calls : ℕ → Option GatewayCall) (others : ℕ → Linking Unit) (p : ℕ) :
    Linking Unit :=
  match calls p with
  | some call => linkProgram (some call)
  | none => others p

theorem good_callsAmong (s : LinkStore) :
    Good (sparing calls) (Config.start s (callsAmong calls others)) := by
  refine good_start trivial fun p => ?_
  rw [callsAmong]
  split
  · exact wp_mono _ (fun _ _ _ _ => trivial) ((accepts_linkProgram _).run [] s trivial)
  · rename_i hnone
    exact wp_free (fun _ _ _ h => absurd hnone h) (fun _ _ _ => trivial) _

/-- One step of a call. -/
theorem step_spares_paid {r : List LinkStore} (hst : (sparing calls).Step p r s s')
    (hcall : calls p ≠ none) (hrow : s.rows (.payment id) = some o) (hpaid : isPaid o.payment) :
    ∃ n, s'.rows (.payment id) = some n ∧ NotReset o.payment n.payment := by
  cases hst with
  | act w _ => exact ⟨o, hrow, .refl _⟩
  | commit t hheld ht =>
    rcases s.commit_rows p hheld (.payment id) with ⟨he, -⟩ | hchg
    · exact ⟨o, he.trans hrow, .refl _⟩
    · rw [hrow] at hchg
      exact ht hcall id o _ hchg hpaid

/-- SPARED: whatever else runs, no step of a call resets a payment that is paid. -/
theorem call_spares_paid {c c' : LinkConfig} {e : Event LinkChoice}
    (hrun : Run anyStep (Config.start s (callsAmong calls others)) c) (hstep : c.step e = some c')
    (hcall : calls e.pid ≠ none) (hrow : c.store.rows (.payment id) = some o)
    (hpaid : isPaid o.payment) :
    ∃ n, c'.store.rows (.payment id) = some n ∧ NotReset o.payment n.payment := by
  rcases ((hrun.sound (good_callsAmong s)).1.step hstep).2 with he | hst
  · exact ⟨o, by rw [he, hrow], .refl _⟩
  · exact step_spares_paid hst hcall hrow hpaid

/-- A lone call does not reset a payment that is paid. -/
theorem soloCall_spares_paid (hrow : s.rows (.payment id) = some o) (hpaid : isPaid o.payment) :
    ∃ n, (soloCall call p ch s).2.store.rows (.payment id) = some n ∧
      NotReset o.payment n.payment := by
  have hstart : (Config.start s (callsAmong (fun _ => some call) fun _ => pure ())).Alone p
      ((getOrCreateGatewayPayment call).bind _) { store := s } := ⟨rfl, rfl, rfl, fun _ => .inl rfl⟩
  obtain ⟨c, hrun, halone⟩ := Run.of_solo ch _ _ hstart
  have hstore : c.store = (soloCall call p ch s).2.store := halone.store
  rw [← hstore]
  refine hrun.keeps (good_callsAmong s) (P := fun s => ∃ n, s.rows (.payment id) = some n ∧
    NotReset o.payment n.payment) ?_ ⟨o, hrow, .refl _⟩
  rintro _ _ _ _ _ hst - ⟨n, hn, hkept⟩
  obtain ⟨n', hn', hkept'⟩ := step_spares_paid hst (by rintro ⟨⟩) hn (hkept.isPaid hpaid)
  exact ⟨n', hn', hkept.trans hkept'⟩

/-! ### The retry -/

/-- A dead attempt is retried, and no call resets a payment that is paid. -/
structure Retries (call : GatewayCall) (p : ℕ) (ch : ℕ → LinkChoice) (s : LinkStore)
    (calls : ℕ → Option GatewayCall) (others : ℕ → Linking Unit) : Prop where
  revived : isAvailable call ch → ∀ id row, DeadAttempt call s id row →
    ∃ s' ∈ (soloCall call p ch s).2.acts, s'.rows (.payment id) = some (revivedRow call row)
  spared : ∀ {c c' : LinkConfig} {e : Event LinkChoice} {id : ℕ} {o : GatewayPayment},
    Run anyStep (Config.start s (callsAmong calls others)) c → c.step e = some c' →
    calls e.pid ≠ none → c.store.rows (.payment id) = some o → isPaid o.payment →
    ∃ n, c'.store.rows (.payment id) = some n ∧ NotReset o.payment n.payment

/-- RETRY: exactly the dead attempts with a status of their provider are retried. -/
theorem retries_iff (call : GatewayCall) (p : ℕ) (ch : ℕ → LinkChoice) (s : LinkStore)
    (calls : ℕ → Option GatewayCall) (others : ℕ → Linking Unit) :
    Retries call p ch s calls others ↔ (isAvailable call ch → ∀ id row,
      DeadAttempt call s id row → row.payment.providerStatus ≠ none) := by
  refine ⟨fun h ha id row hd => (soloCall_reaches hd ha).mp (h.revived ha id row hd), fun h => ?_⟩
  exact ⟨fun ha id row hd => (soloCall_reaches hd ha).mpr (h ha id row hd), call_spares_paid⟩

/-- The creation at the provider failed before the provider reported anything. -/
def failedCreation : GatewayPayment where
  payment := { gatewayPayment 1 1 tappedCheckout tap.gateway 0 with
    status := .FAILED
    idempotencyKey := some tap.key }

def failedOnce : LinkStore where
  rows
    | .payment 1 => some failedCreation
    | .paymentOfKey key => if key = tap.key then some 1 else none
    | .payment _ | .paymentOfAuthority _ => none
  world := []

/-- STUCK: a payment whose creation failed is never given to the provider again. -/
theorem failed_creation_not_retried :
    ¬ ∀ call p ch s calls others, Retries call p ch s calls others := by
  intro h
  have hretries := h tap 0 (fun _ => answered "A2") failedOnce (fun _ => none) fun _ => pure ()
  obtain ⟨s, hmem, -⟩ := hretries.revived (by simp [isAvailable, answered]; decide) 1 failedCreation
    ⟨by decide, rfl, by decide⟩
  have hnone : (soloCall tap 0 (fun _ => answered "A2") failedOnce).2.acts = [] := rfl
  rw [hnone] at hmem
  cases hmem

end ZedBot.Links
