import ZedBot.ReadCommitted.Statements
import ZedBot.Stars.Recovery

/-! When a charge is marked REFUNDED.

    The refund service marks a charge after Telegram has answered for that very charge id. The scan
    marks every charge of the subscription and amount that waits for its refund, whenever it sees a
    refund of that subscription in the history. -/

namespace ZedBot.Stars
open ReadCommitted

abbrev Charge := TelegramStarsSubscriptionCharge

variable {s s' : StarsStore} {t : StarsTx} {p : ℕ} {r : List StarsStore}

/-! ### What Telegram holds -/

/-- The refunds of the history have been made. -/
def Truthful (w : Telegram) : Prop :=
  ∀ tx ∈ w.transactions, isOutgoingRefund tx → tx.id ∈ w.refunded

/-- A refund is never taken back, and the history lists no other. -/
structure Grows (w w' : Telegram) : Prop where
  refunded : ∀ x ∈ w.refunded, x ∈ w'.refunded
  truthful : Truthful w → Truthful w'

theorem Grows.refl (w : Telegram) : Grows w w := ⟨fun _ h => h, fun h => h⟩

theorem refund_eq_some {w w' : Telegram} {userId date : ℕ} {chargeId : String}
    (h : w.refund userId chargeId date = some w') :
    chargeId ∈ w'.refunded ∧ Grows w w' := by
  unfold Telegram.refund at h
  split at h
  · cases h
  obtain ⟨payment, hfind, rfl⟩ := Option.map_eq_some_iff.mp h
  have hid : payment.id = chargeId := by
    have := List.find?_some hfind
    simp only [decide_eq_true_eq] at this
    exact this.1
  refine ⟨List.mem_cons_self, fun x hx => List.mem_cons_of_mem _ hx, fun ht tx hmem hout => ?_⟩
  rcases List.mem_cons.mp hmem with rfl | hmem
  · rw [show (refundTransaction payment date).id = payment.id from rfl, hid]
    exact List.mem_cons_self
  · exact List.mem_cons_of_mem _ (ht tx hmem hout)

theorem grows_refundAnswer (userId : ℕ) (chargeId : String) (c : StarsChoice) (w : Telegram) :
    Grows w (refundAnswer userId chargeId c w).2 := by
  unfold refundAnswer
  split
  · rename_i h
    exact (refund_eq_some h).2
  · rename_i h
    exact (refund_eq_some h).2
  · exact .refl w

/-- The answer of success means that Telegram has refunded the charge. -/
theorem refundAnswer_ok {userId : ℕ} {chargeId : String} {c : StarsChoice} {w : Telegram}
    (h : (refundAnswer userId chargeId c w).1 = true) :
    chargeId ∈ (refundAnswer userId chargeId c w).2.refunded := by
  unfold refundAnswer at h ⊢
  split
  · rename_i hw
    exact (refund_eq_some hw).1
  · rename_i hans hw
    simp [hans, hw] at h
  · rename_i h₁ h₂
    split at h
    · rename_i w' ha hw
      exact absurd hw (h₁ w' ha)
    · cases h
    · cases h

/-! ### What a statement does to a charge -/

/-- The columns that identify a charge stay. -/
structure SameCharge (q q' : Charge) : Prop where
  id : q'.telegramPaymentChargeId = q.telegramPaymentChargeId
  subscription : q'.subscriptionId = q.subscriptionId
  amount : q'.starsAmount = q.starsAmount

/-- A charge row created or updated without becoming REFUNDED. -/
inductive ChargeMove : Option Charge → Option Charge → Prop
  | create {q : Charge} (h : q.status ≠ .REFUNDED) : ChargeMove none (some q)
  | update {q q' : Charge} (same : SameCharge q q') (h : q'.status = .REFUNDED → q.status = .REFUNDED) :
      ChargeMove (some q) (some q')

/-- A statement that touches no charge, updates one or creates one with its index entry. -/
inductive ChargeStmt (v : StarsView) : List (Write StarsRow) → List StarsEntry → Prop
  | other {writes : List (Write StarsRow)} (hc : ∀ id n, ⟨.charge id, n⟩ ∉ writes)
      (hx : ∀ x n, ⟨.chargeOfTelegram x, n⟩ ∉ writes) : ChargeStmt v writes []
  | update {id : ℕ} {q q' : Charge} (hrow : v.rows (.charge id) = some q)
      (hm : ChargeMove (some q) (some q')) : ChargeStmt v [⟨.charge id, some q'⟩] []
  | create {id : ℕ} {q : Charge} (hrow : v.rows (.charge id) = none)
      (hx : v.rows (.chargeOfTelegram q.telegramPaymentChargeId) = none)
      (hm : ChargeMove none (some q)) :
      ChargeStmt v [⟨.charge id, some q⟩, ⟨.chargeOfTelegram q.telegramPaymentChargeId, some id⟩]
        [.charge id]

theorem ChargeMove.trans {o n m : Option Charge} (h₁ : ChargeMove o n) (h₂ : ChargeMove n m) :
    ChargeMove o m := by
  cases h₂ with
  | create h => cases h₁
  | update same h =>
    cases h₁ with
    | create h₁ => exact .create fun hr => h₁ (h hr)
    | update same₁ h₁ =>
      refine .update ⟨?_, ?_, ?_⟩ fun hr => h₁ (h hr)
      · rw [same.id, same₁.id]
      · rw [same.subscription, same₁.subscription]
      · rw [same.amount, same₁.amount]

/-- The index entries of the charges that a transaction creates. -/
structure Indexed (t : StarsTx) : Prop where
  listed : ∀ id (q : Charge), t.chg (.charge id) = some (none, some q) →
    t.chg (.chargeOfTelegram q.telegramPaymentChargeId) = some (none, some id)
  fresh : ∀ x o n, t.chg (.chargeOfTelegram x) = some (o, n) → o = none

/-- What a program other than a refund makes of the charges. -/
structure Regular (t : StarsTx) : Prop extends Indexed t where
  move : ∀ id o n, t.chg (.charge id) = some (o, n) → ChargeMove o n
  silent : ∀ x σ a cs, .refundObserved x σ a cs ∉ t.entries

theorem Regular.empty : Regular {} := by
  refine ⟨⟨?_, ?_⟩, ?_, ?_⟩
  · intro id q h; cases h
  · intro x o n h; cases h
  · intro id o n h; cases h
  · intro x σ a cs h; cases h

/-- A statement that touches no charge. -/
theorem Regular.other {β : Type} {e : Effect StarsRow StarsEntry β} (h : Regular t)
    (hc : ∀ id n, ⟨.charge id, n⟩ ∉ e.writes) (hx : ∀ x n, ⟨.chargeOfTelegram x, n⟩ ∉ e.writes)
    (he : e.entries = []) : Regular (t.add s.rows e) := by
  have hcharge : ∀ id, (t.add s.rows e).chg (.charge id) = t.chg (.charge id) := by
    refine fun id => Tx.chg_add_of_notMem fun hmem => ?_
    obtain ⟨⟨k, n⟩, hn, hk⟩ := List.mem_map.mp hmem
    cases hk
    exact hc id n hn
  have hindex : ∀ x, (t.add s.rows e).chg (.chargeOfTelegram x) = t.chg (.chargeOfTelegram x) := by
    refine fun x => Tx.chg_add_of_notMem fun hmem => ?_
    obtain ⟨⟨k, n⟩, hn, hk⟩ := List.mem_map.mp hmem
    cases hk
    exact hx x n hn
  refine ⟨⟨fun id q hq => ?_, fun x o n hn => ?_⟩, fun id o n hn => ?_, fun x σ a cs hmem => ?_⟩
  · rw [hcharge] at hq
    rw [hindex]
    exact h.listed id q hq
  · rw [hindex] at hn
    exact h.fresh x o n hn
  · rw [hcharge] at hn
    exact h.move id o n hn
  · rw [Tx.entries_add, he, List.append_nil] at hmem
    exact h.silent x σ a cs hmem

/-- A charge is updated, whatever the transaction did to it before. -/
theorem Regular.update {id : ℕ} {q q' : Charge} (h : Regular t)
    (hrow : t.row s.rows (.charge id) = some q) (hm : ChargeMove (some q) (some q')) :
    Regular (t.write s.rows ⟨.charge id, some q'⟩) := by
  have hmove : ChargeMove (t.base s.rows (.charge id)) (some q') := by
    rcases Tx.chg_of_row hrow with ⟨-, hb⟩ | hold
    · rw [hb]
      exact hm
    · exact (h.move id _ _ hold).trans hm
  refine ⟨⟨fun id' q₁ hq => ?_, fun x o n hn => ?_⟩, fun id' o n hn => ?_, h.silent⟩
  · rw [Tx.chg_write_ne _ (by simp)]
    by_cases hid : id' = id
    · subst hid
      rw [Tx.chg_write_self] at hq
      obtain ⟨hb, hq⟩ := Prod.mk.inj (Option.some.inj hq)
      cases hq
      rcases Tx.chg_of_row hrow with ⟨-, hb'⟩ | hold
      · rw [hb] at hb'
        cases hb'
      · rw [hb] at hold
        cases hm with
        | update same _ =>
          rw [same.id]
          exact h.listed _ _ hold
    · rw [Tx.chg_write_ne _ (by simp [hid])] at hq
      exact h.listed id' q₁ hq
  · rw [Tx.chg_write_ne _ (by simp)] at hn
    exact h.fresh x o n hn
  · by_cases hid : id' = id
    · subst hid
      rw [Tx.chg_write_self] at hn
      cases hn
      exact hmove
    · rw [Tx.chg_write_ne _ (by simp [hid])] at hn
      exact h.move id' o n hn

/-- A row that is not seen is neither committed nor written. -/
theorem Regular.unseen {id : ℕ} (h : Regular t) (hrow : t.row s.rows (.charge id) = none) :
    t.chg (.charge id) = none ∧ t.base s.rows (.charge id) = none := by
  rcases Tx.chg_of_row hrow with hb | hold
  · exact hb
  · have hm := h.move id _ _ hold
    generalize t.base s.rows (.charge id) = o at hm
    cases hm

/-- A charge is created with its index entry. -/
theorem Regular.create {id : ℕ} {q : Charge} {es : List StarsEntry} (h : Regular t)
    (hrow : t.row s.rows (.charge id) = none)
    (hx : t.row s.rows (.chargeOfTelegram q.telegramPaymentChargeId) = none)
    (hm : ChargeMove none (some q)) (hes : ∀ x σ a cs, .refundObserved x σ a cs ∉ es) :
    Regular (((t.write s.rows ⟨.charge id, some q⟩).write s.rows
      ⟨.chargeOfTelegram q.telegramPaymentChargeId, some id⟩).append es) := by
  obtain ⟨hnone, hbase⟩ := h.unseen hrow
  have hxbase : t.base s.rows (.chargeOfTelegram q.telegramPaymentChargeId) = none := by
    rcases Tx.chg_of_row hx with ⟨-, hb⟩ | hold
    · exact hb
    · exact h.fresh _ _ _ hold
  refine ⟨⟨fun id' q₁ hq => ?_, fun x o n hn => ?_⟩, fun id' o n hn => ?_, fun x σ a cs hmem => ?_⟩
  · rw [Tx.chg_append, Tx.chg_write_ne _ (by simp)] at hq
    rw [Tx.chg_append]
    by_cases hid : id' = id
    · subst hid
      rw [Tx.chg_write_self, hbase] at hq
      cases hq
      rw [Tx.chg_write_self, Tx.base_write, hxbase]
    · rw [Tx.chg_write_ne _ (by simp [hid])] at hq
      have hold := h.listed id' q₁ hq
      -- its entry is another one: the new one was free
      have hne : q₁.telegramPaymentChargeId ≠ q.telegramPaymentChargeId := by
        intro he
        rw [he] at hold
        rw [Tx.row, hold] at hx
        cases hx
      rw [Tx.chg_write_ne _ (by simp [hne]), Tx.chg_write_ne _ (by simp)]
      exact hold
  · rw [Tx.chg_append] at hn
    by_cases he : x = q.telegramPaymentChargeId
    · subst he
      rw [Tx.chg_write_self, Tx.base_write, hxbase] at hn
      cases hn
      rfl
    · rw [Tx.chg_write_ne _ (by simp [he]), Tx.chg_write_ne _ (by simp)] at hn
      exact h.fresh x o n hn
  · rw [Tx.chg_append, Tx.chg_write_ne _ (by simp)] at hn
    by_cases hid : id' = id
    · subst hid
      rw [Tx.chg_write_self, hbase] at hn
      cases hn
      exact hm
    · rw [Tx.chg_write_ne _ (by simp [hid])] at hn
      exact h.move id' o n hn
  · rcases List.mem_append.mp hmem with hmem | hmem
    · exact h.silent x σ a cs hmem
    · exact hes x σ a cs hmem

theorem Regular.add {β : Type} {e : Effect StarsRow StarsEntry β} (h : Regular t)
    (hΦ : ChargeStmt (s.view t) e.writes e.entries) : Regular (t.add s.rows e) := by
  obtain ⟨b, writes, entries⟩ := e
  cases hΦ with
  | other hc hx => exact h.other hc hx rfl
  | update hrow hm =>
    have := h.update hrow hm
    rwa [← Tx.append_nil (t.write _ _)] at this
  | create hrow hx hm => exact h.create hrow hx hm (by simp)

/-! ### The rules -/

/-- Why a transaction may mark charge `id` REFUNDED: Telegram has refunded it, or an observed refund
    matches it. -/
def MayRefund (s : StarsStore) (t : StarsTx) (id : ℕ) (q : Charge) : Prop :=
  q.telegramPaymentChargeId ∈ s.world.refunded ∨
    ∃ x σ a cs, .refundObserved x σ a cs ∈ t.entries ∧ id ∈ cs ∧ confirmedByRefund σ a q

/-- What a transaction makes of the charges. -/
structure RefundTx (s : StarsStore) (t : StarsTx) : Prop extends Indexed t where
  move : ∀ id o n, t.chg (.charge id) = some (o, n) → ChargeMove o n ∨
    ∃ q q', o = some q ∧ n = some q' ∧ SameCharge q q' ∧ MayRefund s t id q
  observed : ∀ x σ a cs, .refundObserved x σ a cs ∈ t.entries → x ∈ s.world.refunded ∧
    ∀ c ∈ cs, ∃ q, s.rows (.charge c) = some q ∧ confirmedByRefund σ a q

theorem Regular.refundTx (h : Regular t) : RefundTx s t where
  toIndexed := h.toIndexed
  move id o n hn := .inl (h.move id o n hn)
  observed x σ a cs hmem := absurd hmem (h.silent x σ a cs)

/-- The charges are indexed by their Telegram ids, and the history is truthful. -/
structure RefundInv (s : StarsStore) : Prop where
  indexed : ∀ id (q : Charge), s.rows (.charge id) = some q →
    s.rows (.chargeOfTelegram q.telegramPaymentChargeId) = some id
  truthful : Truthful s.world

/-- A charge stays, with the columns that identify it. -/
theorem RefundTx.keeps (h : RefundTx s t) (hh : t.Held s.rows) {id : ℕ} {q : Charge}
    (hq : s.rows (.charge id) = some q) :
    ∃ q', (s.commit p t).rows (.charge id) = some q' ∧ SameCharge q q' := by
  rcases s.commit_rows p hh (.charge id) with ⟨he, -⟩ | hchg
  · exact ⟨q, he.trans hq, rfl, rfl, rfl⟩
  · rw [hq] at hchg
    rcases h.move id _ _ hchg with hm | ⟨q₁, q', ho, hn, hsame, -⟩
    · generalize hnew : (s.commit p t).rows (.charge id) = n at hm
      cases hm with
      | update same _ => exact ⟨_, rfl, same⟩
    · cases ho
      exact ⟨q', hn, hsame⟩

theorem RefundInv.commit (hi : RefundInv s) (hh : t.Held s.rows) (h : RefundTx s t) :
    RefundInv (s.commit p t) := by
  refine ⟨fun id q' hq' => ?_, hi.truthful⟩
  -- an old entry is never replaced
  have hentry : ∀ x c, s.rows (.chargeOfTelegram x) = some c →
      (s.commit p t).rows (.chargeOfTelegram x) = some c := by
    intro x c hx
    rcases s.commit_rows p hh (.chargeOfTelegram x) with ⟨he, -⟩ | hchg
    · exact he.trans hx
    · have hnone := h.fresh x _ _ hchg
      rw [hx] at hnone
      cases hnone
  cases hold : s.rows (.charge id) with
  | some q =>
    obtain ⟨q₁, hq₁, hsame⟩ := h.keeps (p := p) hh hold
    rw [hq'] at hq₁
    cases hq₁
    rw [hsame.id]
    exact hentry _ _ (hi.indexed id q hold)
  | none =>
    rcases s.commit_rows p hh (.charge id) with ⟨he, -⟩ | hchg
    · rw [hq', hold] at he
      cases he
    · rw [hold, hq'] at hchg
      rcases s.commit_rows p hh (.chargeOfTelegram q'.telegramPaymentChargeId) with ⟨-, hn⟩ | hx
      · rw [h.listed id q' hchg] at hn
        cases hn
      · rw [h.listed id q' hchg] at hx
        exact (Prod.mk.inj (Option.some.inj hx)).2.symm

/-- The rules: a charge becomes REFUNDED when Telegram has refunded it, or when an observed refund
    matches it. -/
def refunds : Discipline StarsRow StarsEntry Telegram where
  Inv := RefundInv
  Commits _ _ s t := RefundTx s t
  Acts _ _ s w := Grows s.world w
  commits_empty _ := Regular.empty.refundTx
  inv_commit hi hh h := hi.commit hh h
  inv_act hi h := ⟨hi.indexed, h.truthful hi.truthful⟩

/-- A refund is never taken back. -/
theorem refunded_later {q : ℕ} {x : String} (hst : refunds.Step q r s s')
    (h : x ∈ s.world.refunded) : x ∈ s'.world.refunded := by
  cases hst with
  | commit t hh hc => exact h
  | act w ha => exact ha.refunded x h

theorem chargeRules : StmtRules refunds p ChargeStmt Grows fun _ t => Regular t where
  start _ := .empty
  env _ _ h := h
  add _ h hΦ := h.add hΦ
  commits _ _ h := h.refundTx
  acts _ h := h

/-! ### The settlement follows the rules -/

theorem each_free {k : StarsKey} {f : StarsRow k → Option (StarsRow k)}
    (hc : ∀ id, k ≠ .charge id) (hx : ∀ x, k ≠ .chargeOfTelegram x) :
    (update k f : Stars ℕ).Each ChargeStmt Grows := by
  refine .update (fun v => .other (by simp) (by simp)) fun v n _ => .other ?_ ?_
  · intro id n' hmem
    exact hc id (congrArg Sigma.fst (List.mem_singleton.mp hmem)).symm
  · intro x n' hmem
    exact hx x (congrArg Sigma.fst (List.mem_singleton.mp hmem)).symm

theorem each_updateSubscription (id : ℕ) (cond : TelegramStarsServiceSubscription → Bool)
    (data : TelegramStarsServiceSubscription → TelegramStarsServiceSubscription) :
    (updateSubscription id cond data).Each ChargeStmt Grows :=
  each_free (by simp) (by simp)

/-- The update of a charge that does not mark it REFUNDED. -/
theorem each_updateCharge {id : ℕ} {cond : Charge → Bool} {data : Charge → Charge}
    (same : ∀ q, SameCharge q (data q)) (h : ∀ q, (data q).status ≠ .REFUNDED ∨
      (data q).status = q.status) : (updateCharge id cond data).Each ChargeStmt Grows := by
  refine .update (fun v => .other (by simp) (by simp)) fun v n hn => ?_
  obtain ⟨q, hq, -, rfl⟩ := onRow_eq_some.mp hn
  refine .update hq (.update (same q) fun hr => ?_)
  rcases h q with h | h
  · exact absurd hr h
  · rw [← h, hr]

theorem each_createPayment (id : ℕ) (sub : TelegramStarsServiceSubscription)
    (input : StarsChargeInput) (q : Payment) :
    (createPayment id sub input q).Each ChargeStmt Grows := by
  refine .sql fun v => ?_
  simp only
  split
  · exact .other (by simp) (by simp)
  · exact .other (by simp) (by simp)

theorem accepts_settlementChain (subId chargeId now : ℕ) (sub : TelegramStarsServiceSubscription)
    (frozen : EntitlementSnapshot) (input : StarsChargeInput) :
    Accepts refunds p (settlementChain subId sub frozen input chargeId now) := by
  refine chargeRules.accepts_transaction (.bind (.ask _) fun alive => ?_)
  split
  · exact .pure _
  refine .bind (.ask _) fun checkoutId => .bind (each_free (by simp) (by simp)) fun created => ?_
  split
  · exact .pure _
  refine .bind (.ask _) fun paymentId => .bind (each_createPayment _ _ _ _) fun paid => ?_
  split
  · exact .pure _
  refine .bind (each_free (by simp) (by simp)) fun owned => ?_
  split
  · exact .pure _
  refine .bind (.ask _) fun orderId => .bind (each_free (by simp) (by simp)) fun ordered => ?_
  split
  · exact .pure _
  refine .bind (each_free (by simp) (by simp)) fun linked => ?_
  split
  · exact .pure _
  refine .bind (each_updateCharge (fun _ => ⟨rfl, rfl, rfl⟩) fun _ => .inl ?_) fun fulfilling => ?_
  · simp [fulfillingCharge]
  split
  · exact .pure _
  refine .bind (each_updateSubscription _ _ _) fun moved => ?_
  split <;> exact .pure _

theorem accepts_updateCharge {id : ℕ} {cond : Charge → Bool} {data : Charge → Charge}
    (same : ∀ q, SameCharge q (data q)) (h : ∀ q, (data q).status ≠ .REFUNDED ∨
      (data q).status = q.status) : Accepts refunds p (updateCharge id cond data) :=
  chargeRules.accepts_stmt (each_updateCharge same h)

theorem accepts_updateSubscription (id : ℕ) (cond : TelegramStarsServiceSubscription → Bool)
    (data : TelegramStarsServiceSubscription → TelegramStarsServiceSubscription) :
    Accepts refunds p (updateSubscription id cond data) :=
  chargeRules.accepts_stmt (each_updateSubscription _ _ _)

theorem accepts_createCharge {id : ℕ} {q : Charge} (h : q.status ≠ .REFUNDED) :
    Accepts refunds p (createCharge id q) := by
  refine chargeRules.accepts_stmt (.sql fun v => ?_)
  unfold chargeEffect
  split
  · exact .create ‹_› ‹_› (.create h)
  · exact .other (by simp) (by simp)

theorem accepts_upgradePeriodEnd (subId chargeId : ℕ) (existing : Charge)
    (input : StarsChargeInput) :
    Accepts refunds p (upgradePeriodEnd subId chargeId existing input) := by
  unfold upgradePeriodEnd
  split
  · refine .bind (accepts_updateCharge (fun _ => ⟨rfl, rfl, rfl⟩) fun _ => .inr rfl) fun _ => ?_
    exact .bind (accepts_updateSubscription _ _ _) fun _ => .pure _
  · exact .pure _

theorem accepts_finishAfterOrder (subId chargeId orderId : ℕ) :
    Accepts refunds p (finishAfterOrder subId chargeId orderId) := by
  refine .bind (.ask _) fun dispatch => .bind (.ask _) fun now => ?_
  split
  · refine .bind (accepts_updateCharge (fun _ => ⟨rfl, rfl, rfl⟩) fun _ => .inl (by simp)) fun _ => ?_
    exact .bind (accepts_updateSubscription _ _ _) fun _ => .pure _
  split
  · exact .bind (accepts_updateCharge (fun _ => ⟨rfl, rfl, rfl⟩) fun _ => .inl (by simp))
      fun _ => .pure _
  · exact .bind (accepts_updateCharge (fun _ => ⟨rfl, rfl, rfl⟩) fun _ => .inl (by simp))
      fun _ => .pure _

theorem accepts_chainResult (subId chargeId : ℕ) (result : Except ChainThrow ℕ) :
    Accepts refunds p (chainResult subId chargeId result) := by
  unfold chainResult
  split
  · exact accepts_finishAfterOrder _ _ _
  · exact .pure _
  · exact .bind (accepts_updateCharge (fun _ => ⟨rfl, rfl, rfl⟩) fun _ => .inl (by simp))
      fun _ => .pure _

theorem accepts_claimAndSettle (subId chargeId : ℕ) (sub : TelegramStarsServiceSubscription)
    (frozen : EntitlementSnapshot) (input : StarsChargeInput) :
    Accepts refunds p (claimAndSettle subId sub frozen input chargeId) := by
  refine .bind (.ask _) fun startedAt => ?_
  refine .bind (accepts_updateCharge (fun _ => ⟨rfl, rfl, rfl⟩) fun _ => .inl (by simp))
    fun claimed => ?_
  split
  · exact .pure _
  refine .bind (.ask _) fun now => .bind (.select _) fun user => ?_
  split
  · exact .bind (accepts_updateCharge (fun _ => ⟨rfl, rfl, rfl⟩) fun _ => .inl (by simp))
      fun _ => .pure _
  · exact .bind (accepts_settlementChain _ _ _ _ _ _) fun result => accepts_chainResult _ _ _

theorem accepts_resolvedResult (subId chargeId : ℕ) (existing : Charge) :
    Accepts refunds p (resolvedResult subId chargeId existing) := by
  unfold resolvedResult
  split
  case h_7 => exact .bind (accepts_finishAfterOrder _ _ _) fun _ => .pure _
  all_goals exact .pure _

theorem accepts_settle (subId : ℕ) (sub : TelegramStarsServiceSubscription)
    (input : StarsChargeInput) :
    Accepts refunds p (settleTelegramStarsSubscriptionCharge subId sub input) := by
  unfold settleTelegramStarsSubscriptionCharge
  split
  · exact .pure _
  split
  · exact .pure _
  refine .bind (.ask _) fun now => .bind (.ask _) fun id => ?_
  refine .bind (accepts_createCharge (by simp [receivedCharge])) fun created => ?_
  split
  · exact accepts_claimAndSettle _ _ _ _ _
  refine .bind (.select _) fun found => ?_
  split
  · exact .pure _
  refine .bind (accepts_upgradePeriodEnd _ _ _ _) fun _ => ?_
  refine .bind (accepts_resolvedResult _ _ _) fun resolved => ?_
  split
  · exact .pure _
  · exact accepts_claimAndSettle _ _ _ _ _

theorem accepts_settleRecovered (input : RecoveredChargeInput) :
    Accepts refunds p (settleRecoveredStarsCharge input) := by
  refine .bind (.select _) fun found => ?_
  split
  · exact .pure _
  · exact accepts_settle _ _ _

theorem accepts_reconcile (chargeId : ℕ) :
    Accepts refunds p (reconcileStarsChargeById chargeId) := by
  refine .bind (.select _) fun found => ?_
  split
  · exact .pure _
  split
  case h_6 => exact accepts_finishAfterOrder _ _ _
  case h_7 =>
    refine .bind (accepts_updateCharge (fun _ => ⟨rfl, rfl, rfl⟩) fun _ => .inl (by simp)) fun _ => ?_
    exact accepts_settle _ _ _
  all_goals exact .pure _

/-! ### Refunds -/

/-- The charge `id`, once it exists, has this Telegram id. -/
def HasId (id : ℕ) (x : String) (s : StarsStore) : Prop :=
  ∃ q : Charge, s.rows (.charge id) = some q ∧ q.telegramPaymentChargeId = x

theorem HasId.later {q id : ℕ} {x : String} (hst : refunds.Step q r s s') (h : HasId id x s) :
    HasId id x s' := by
  obtain ⟨c, hc, hx⟩ := h
  cases hst with
  | commit t hh htx =>
    obtain ⟨c', hc', hsame⟩ := RefundTx.keeps htx (p := q) hh hc
    exact ⟨c', hc', hsame.id.trans hx⟩
  | act w _ => exact ⟨c, hc, hx⟩

/-- One charge marked after Telegram has refunded it. -/
theorem refundTx_one {id now : ℕ} {q : Charge} (hrow : s.rows (.charge id) = some q)
    (h : q.telegramPaymentChargeId ∈ s.world.refunded) :
    RefundTx s (Tx.write {} s.rows ⟨.charge id, some (refundedCharge now q)⟩) := by
  refine ⟨⟨fun id' q' hq => ?_, fun x o n hn => ?_⟩, fun id' o n hn => ?_, fun x σ a cs hmem => ?_⟩
  · by_cases hid : id' = id
    · subst hid
      rw [Tx.chg_write_self, Tx.base_empty, hrow] at hq
      cases hq
    · rw [Tx.chg_write_ne _ (by simp [hid])] at hq
      cases hq
  · rw [Tx.chg_write_ne _ (by simp)] at hn
    cases hn
  · by_cases hid : id' = id
    · subst hid
      rw [Tx.chg_write_self, Tx.base_empty, hrow] at hn
      cases hn
      exact .inr ⟨q, _, rfl, rfl, ⟨rfl, rfl, rfl⟩, .inl h⟩
    · rw [Tx.chg_write_ne _ (by simp [hid])] at hn
      cases hn
  · cases hmem

/-- The update that marks a charge which Telegram has refunded. -/
theorem wp_markRefunded {id now : ℕ} {x : String} (hi : RefundInv s) (hid : HasId id x s)
    (hdone : x ∈ s.world.refunded) :
    wp refunds p (updateCharge id (fun c => c.status = .REFUND_PENDING) (refundedCharge now))
      (fun _ l s => l.tx = none ∧ refunds.Inv s) ⟨none, r⟩ s := by
  refine wp_update fun s' hl hi' => ⟨fun _ => ⟨rfl, ?_⟩, fun n hn => ?_⟩
  · exact refunds.inv_commit hi' (Tx.Held.empty _) (refunds.commits_empty (p := p) (r := r) hi')
  have hid' := hl.stable (P := HasId id x) (fun _ _ hst h => h.later hst) hi hid
  have hdone' := hl.stable (P := fun s => x ∈ s.world.refunded)
    (fun _ _ hst h => refunded_later hst h) hi hdone
  obtain ⟨q, hq, -, rfl⟩ := onRow_eq_some.mp hn
  obtain ⟨q', hq', hx⟩ := hid'
  rw [hq] at hq'
  cases hq'
  have htx : RefundTx s' (Tx.write {} s'.rows ⟨.charge id, some (refundedCharge now q)⟩) :=
    refundTx_one hq (hx ▸ hdone')
  exact ⟨htx, rfl, RefundInv.commit hi' ((Tx.Held.empty _).write _) htx⟩

/-- The refund of one charge: what is marked has been refunded by Telegram under that very id. -/
theorem accepts_refund (chargeId : ℕ) :
    Accepts refunds p (refundStarsSubscriptionCharge chargeId) := by
  refine ⟨fun r s hi => (wp_seq _ _).mpr (wp_select _ fun s₁ _ hi₁ => ?_)⟩
  split
  · exact ⟨rfl, hi₁⟩
  rename_i charge sub hfound
  obtain ⟨q, hq, hsub⟩ := Option.bind_eq_some_iff.mp hfound
  obtain ⟨_, -, heq⟩ := Option.map_eq_some_iff.mp hsub
  cases heq
  have hid₁ : HasId chargeId charge.telegramPaymentChargeId s₁ := ⟨charge, hq, rfl⟩
  split
  · exact ⟨rfl, hi₁⟩
  split
  · exact ⟨rfl, hi₁⟩
  refine (wp_seq _ _).mpr (wp_select _ fun s₂ hl₂ hi₂ => ?_)
  have hid₂ := hl₂.stable (fun _ _ hst h => h.later hst) hi₁ hid₁
  split
  · exact ⟨rfl, hi₂⟩
  rename_i u _
  refine (wp_seq _ _).mpr (wp_ask _ fun maxAttempts => ?_)
  refine (wp_seq _ _).mpr (wp_ext _ fun s₃ hl₃ hi₃ c => ⟨grows_refundAnswer _ _ _ _, ?_⟩)
  have hid₃ := hl₃.stable (fun _ _ hst h => h.later hst) hi₂ hid₂
  have hi₄ := refunds.inv_act hi₃ (p := p) (r := r) (grows_refundAnswer u.telegramId
    charge.telegramPaymentChargeId c s₃.world)
  cases hok : (refundAnswer u.telegramId charge.telegramPaymentChargeId c s₃.world).1 with
  | false =>
    refine Accepts.run ?_ _ _ hi₄
    refine .bind (accepts_updateCharge (fun _ => ⟨rfl, rfl, rfl⟩) fun _ => .inr rfl) fun _ => ?_
    split <;> exact .pure _
  | true =>
    refine (wp_seq _ _).mpr (wp_ask _ fun now => (wp_seq _ _).mpr ?_)
    refine wp_mono _ (fun claimed l s hx => ?_) (wp_markRefunded hi₄ hid₃ (refundAnswer_ok hok))
    obtain ⟨tx, reads⟩ := l
    obtain ⟨rfl, hi⟩ := hx
    split
    · exact ⟨rfl, hi⟩
    · exact (Accepts.bind (accepts_updateSubscription _ _ _) fun _ => .pure _).run _ _ hi

theorem accepts_refundIfRequired (result : SettleChargeResult) :
    Accepts refunds p (refundIfRequired result) := by
  unfold refundIfRequired
  split
  · exact .bind (accepts_refund _) fun _ => .pure _
  · exact .pure _

end ZedBot.Stars
