import ZedBot.Payments.Calls
import ZedBot.Referrals.CommissionBooks

/-! The credits and clawbacks of referral commissions keep the books.

    A credit holds the lock of its referral from the first-purchase check to its commit, a clawback
    the locks of its commission and its referral; each leaves exactly one booked commission behind. -/

namespace ZedBot
open ReadCommitted

variable {D : Discipline Row Entry World} {p q o u : ℕ} {r : List AppStore} {s s' : AppStore}
  {t : AppTx} {rows : ∀ k, Row k}

/-! ### The rows of one commission -/

/-- What a transaction has done to the commission of order `o` and the referral of `u`, and to no
    other commission or referral. -/
structure Booking (o : ℕ) (cc : Option (Option ReferralCommission × Option ReferralCommission)) (u : ℕ)
    (rr : Option (Option Referral × Option Referral)) (es : List Entry) (t : AppTx) : Prop where
  commission : t.chg (.commission o) = cc
  commissions : ∀ o', o' ≠ o → t.chg (.commission o') = none
  referral : t.chg (.referral u) = rr
  referrals : ∀ u', u' ≠ u → t.chg (.referral u') = none
  entries : t.entries = es

variable {cc : Option (Option ReferralCommission × Option ReferralCommission)}
  {rr : Option (Option Referral × Option Referral)} {es : List Entry}

theorem Booking.empty (o u : ℕ) : Booking o none u none [] {} :=
  ⟨rfl, fun _ _ => rfl, rfl, fun _ _ => rfl, rfl⟩

theorem Booking.user (h : Booking o cc u rr es t) (id : ℕ) (x : Option User) :
    Booking o cc u rr es (t.write rows ⟨.user id, x⟩) := by
  refine ⟨?_, fun o' ho => ?_, ?_, fun u' hu => ?_, h.entries⟩
  · rw [Tx.chg_write_ne _ (by simp), h.commission]
  · rw [Tx.chg_write_ne _ (by simp), h.commissions o' ho]
  · rw [Tx.chg_write_ne _ (by simp), h.referral]
  · rw [Tx.chg_write_ne _ (by simp), h.referrals u' hu]

theorem Booking.append (h : Booking o cc u rr es t) (js : List Entry) :
    Booking o cc u rr (es ++ js) (t.append js) :=
  ⟨h.commission, h.commissions, h.referral, h.referrals, by rw [Tx.entries_append, h.entries]⟩

theorem Booking.writeCommission (h : Booking o cc u rr es t) (rows : ∀ k, Row k) {b : Option ReferralCommission}
    (hb : t.base rows (.commission o) = b) (x : Option ReferralCommission) :
    Booking o (some (b, x)) u rr es (t.write rows ⟨.commission o, x⟩) := by
  refine ⟨?_, fun o' ho => ?_, ?_, fun u' hu => ?_, h.entries⟩
  · rw [Tx.chg_write_self, hb]
  · rw [Tx.chg_write_ne _ (by simpa using ho), h.commissions o' ho]
  · rw [Tx.chg_write_ne _ (by simp), h.referral]
  · rw [Tx.chg_write_ne _ (by simp), h.referrals u' hu]

theorem Booking.writeReferral (h : Booking o cc u rr es t) (rows : ∀ k, Row k) {b : Option Referral}
    (hb : t.base rows (.referral u) = b) (x : Option Referral) :
    Booking o cc u (some (b, x)) es (t.write rows ⟨.referral u, x⟩) := by
  refine ⟨?_, fun o' ho => ?_, ?_, fun u' hu => ?_, h.entries⟩
  · rw [Tx.chg_write_ne _ (by simp), h.commission]
  · rw [Tx.chg_write_ne _ (by simp), h.commissions o' ho]
  · rw [Tx.chg_write_self, hb]
  · rw [Tx.chg_write_ne _ (by simpa using hu), h.referrals u' hu]

/-- The commission is created where none is seen. -/
theorem Booking.create (h : Booking o none u rr es t)
    (hfree : t.row rows (.commission o) = none) (c : ReferralCommission) :
    Booking o (some (none, some c)) u rr (es ++ [.commission o])
      ((t.write rows ⟨.commission o, some c⟩).append [.commission o]) := by
  have hbase : t.base rows (.commission o) = none := by
    rw [Tx.base_of_chg h.commission]
    rwa [Tx.row_of_chg h.commission] at hfree
  exact (h.writeCommission rows hbase (some c)).append _

/-- A user is locked or written in between. -/
theorem Booking.wp_updateUser (h : Booking o cc u rr es t) {id : ℕ} {cond : User → Bool}
    {data : User → User} {β : Type} {g : ℕ → App β}
    {Q : β → Local Row Entry World → AppStore → Prop}
    (hg : ∀ n t' s', Booking o cc u rr es t' → wp D p (g n) Q ⟨some t', r⟩ s') :
    wp D p (updateUser id cond data >>= g) Q ⟨some t, r⟩ s :=
  (wp_seq _ _).mpr (wp_update_tx fun _ _ _ _ =>
    ⟨fun _ => hg 0 t _ h, fun n _ => hg 1 _ _ (h.user id n)⟩)

/-- The row of a commission or referral as a booking sees it. -/
theorem Booking.row_commission {b n : Option ReferralCommission}
    (h : Booking o (some (b, n)) u rr es t) : t.row rows (.commission o) = n := by
  simp [Tx.row, h.commission]

theorem Booking.base_commission {b n : Option ReferralCommission}
    (h : Booking o (some (b, n)) u rr es t) : t.base rows (.commission o) = b := by
  simp [Tx.base, h.commission]

theorem Booking.row_referral {b n : Option Referral} (h : Booking o cc u (some (b, n)) es t) :
    t.row rows (.referral u) = n := by
  simp [Tx.row, h.referral]

theorem Booking.base_referral {b n : Option Referral} (h : Booking o cc u (some (b, n)) es t) :
    t.base rows (.referral u) = b := by
  simp [Tx.base, h.referral]

theorem Booking.holds_referral {b n : Option Referral} (h : Booking o cc u (some (b, n)) es t) :
    t.Holds (.referral u) := by
  simp [Tx.Holds, h.referral]

/-- What the others do while the referral is locked spares it. -/
theorem Booking.spares {b n : Option Referral} (h : Booking o cc u (some (b, n)) es t)
    (hl : D.Later p t.Holds s s') : D.Later p (· = .referral u) s s' :=
  hl.mono fun _ hk => hk ▸ h.holds_referral

/-- Only locks were taken. -/
theorem Booking.quiet (h : Booking o cc u rr [] t) (hc : ∀ x, cc = some x → x.1 = x.2)
    (hr : ∀ x, rr = some x → ReferralMoves 0 rr) : QuietTx t := by
  refine ⟨fun o' x hx => ?_, by rw [h.entries]; rfl, fun _ _ => by rw [h.entries]; rfl,
    fun u' x hx => ?_⟩
  · rcases eq_or_ne o' o with rfl | hne
    · exact hc x (h.commission.symm.trans hx)
    · rw [h.commissions o' hne] at hx
      cases hx
  · rcases eq_or_ne u' u with rfl | hne
    · rw [h.referral] at hx
      exact .inl (hx ▸ hr x hx)
    · rw [h.referrals u' hne] at hx
      cases hx

/-- The commission was booked. -/
theorem Booking.book {old : Option ReferralCommission} {new : ReferralCommission}
    (h : Booking o (some (old, some new)) u rr es t) (hu : new.referredUserId = u)
    (hr : ReferralMoves (new.net - netOf old) rr) (hform : new.Form)
    (hfresh : old = none → consumesFirstPurchase new.status → 0 < new.net)
    (hsame : ∀ c, old = some c → c.referrerUserId = new.referrerUserId ∧
      c.referredUserId = new.referredUserId ∧ consumesFirstPurchase c.status)
    (hids : commissionIds es = if old = none then [o] else [])
    (hledger : ∀ o' u', keptFor o' u' es =
      if o' = o ∧ u' = new.referrerUserId then new.net - netOf old else 0) :
    BookTx o old new t := by
  refine ⟨h.commission, h.commissions, hform, hfresh, hsame, by rw [h.entries, hids],
    fun o' u' => by rw [h.entries, hledger], fun u' => ?_⟩
  split
  · rename_i heq
    rw [heq, hu, h.referral]
    exact hr
  · rename_i hne
    rw [h.referrals u' fun he => hne (he.trans hu.symm)]
    rfl

/-! ### The ledger row -/

/-- A ledger row of the referral system for an order. -/
structure CommissionRow (type : WalletTransactionType) (o userId : ℕ) (amount : ℤ)
    (w : WalletTransaction) : Prop where
  type : w.type = type
  source : w.source = .REFERRAL
  order : w.relatedOrderId = some o
  user : w.userId = userId
  amount : w.amountToman = amount

theorem CommissionRow.credited {userId : ℕ} {amount : ℤ} {w : WalletTransaction}
    (h : CommissionRow .COMMISSION o userId amount w) (o' u' : ℕ) :
    keptFor o' u' [.wallet w] = if o' = o ∧ u' = userId then amount else 0 := by
  simp only [keptFor, creditedFor, clawedBackFor, movedFor, List.map_cons, List.map_nil,
    List.sum_cons, List.sum_nil, h.type, h.source, h.order, h.user, h.amount, true_and,
    Option.some.injEq, reduceCtorEq, false_and, if_false, add_zero, sub_zero, eq_comm]

theorem CommissionRow.clawedBack {userId : ℕ} {amount : ℤ} {w : WalletTransaction}
    (h : CommissionRow .SYSTEM_ADJUSTMENT o userId amount w) (o' u' : ℕ) :
    keptFor o' u' [.wallet w] = if o' = o ∧ u' = userId then -amount else 0 := by
  simp only [keptFor, creditedFor, clawedBackFor, movedFor, List.map_cons, List.map_nil,
    List.sum_cons, List.sum_nil, h.type, h.source, h.order, h.user, h.amount, true_and,
    Option.some.injEq, reduceCtorEq, false_and, if_false, add_zero, zero_sub, eq_comm]
  split <;> rfl

/-- The credit of the referrer leaves one ledger row. -/
theorem wp_creditReferrer_row {userId : ℕ} {amount price : ℤ} (h : Booking o cc u rr es t) :
    wp D p (creditReferrer o userId amount price) (Returns fun _ t' s' =>
      (∃ w, CommissionRow .COMMISSION o userId amount w ∧ Booking o cc u rr (es ++ [.wallet w]) t') ∧
      D.Later p t.Holds s s') ⟨some t, r⟩ s := by
  refine (wp_seq _ _).mpr (wp_update_tx fun s₁ hl₁ _ _ => ⟨fun _ => trivial, fun n _ => ?_⟩)
  refine (wp_seq _ _).mpr (wp_select _ fun s₂ hl₂ _ => ?_)
  split
  · trivial
  refine (wp_seq _ _).mpr (wp_append_tx fun s₃ hl₃ _ => ?_)
  have hmono : ∀ k, t.Holds k → (t.write s₁.rows ⟨.user userId, n⟩).Holds k :=
    fun k hk => Tx.holds_write.mpr (.inr hk)
  refine ⟨_, rfl, ⟨_, ?_, (h.user userId n).append _⟩,
    hl₁.trans ((hl₂.mono hmono).trans (hl₃.mono hmono))⟩
  exact ⟨rfl, rfl, rfl, rfl, rfl⟩

/-- The debit of the referrer leaves one ledger row. -/
theorem wp_debitReferrer_row {userId : ℕ} {amount : ℤ} (h : Booking o cc u rr es t) :
    wp D p (debitReferrer o userId amount) (Returns fun _ t' _ =>
      ∃ w, CommissionRow .SYSTEM_ADJUSTMENT o userId amount w ∧
        Booking o cc u rr (es ++ [.wallet w]) t') ⟨some t, r⟩ s := by
  refine (wp_seq _ _).mpr (wp_update_tx fun s₁ _ _ _ => ⟨fun _ => trivial, fun n _ => ?_⟩)
  refine (wp_seq _ _).mpr (wp_select _ fun s₂ _ _ => ?_)
  split
  · trivial
  refine (wp_seq _ _).mpr (wp_append_tx fun s₃ _ _ => ?_)
  exact ⟨_, rfl, _, ⟨rfl, rfl, rfl, rfl, rfl⟩, (h.user userId n).append _⟩

/-- `referralCommission.create` inside a transaction. -/
theorem wp_createCommission_free {c : ReferralCommission} {β : Type} {g : Bool → App β}
    {Q : β → Local Row Entry World → AppStore → Prop}
    (hfalse : ∀ s', wp D p (g false) Q ⟨some t, r⟩ s')
    (htrue : ∀ s', D.Later p t.Holds s s' → D.Inv s' → t.row s'.rows (.commission o) = none →
      wp D p (g true) Q ⟨some ((t.write s'.rows ⟨.commission o, some c⟩).append
        [.commission o]), r⟩ s') :
    wp D p (createCommission o c >>= g) Q ⟨some t, r⟩ s := by
  refine (wp_seq _ _).mpr (wp_sql_tx fun s' hl hi _ => ?_)
  simp only [Store.view]
  cases hfree : t.row s'.rows (.commission o) with
  | some _ => simpa [Tx.add] using hfalse s'
  | none => simpa [Tx.add] using htrue s' hl hi hfree

/-! ### Credits -/

variable {first : Bool} {order : Order} {referral : Referral}
  {decision : ReferralCommissionDecision} {r₀ : Referral}

/-- A marker is booked at nothing. -/
theorem Booking.marker {c : ReferralCommission} (h : Booking o (some (none, some c)) u rr
    [.commission o] t) (hu : c.referredUserId = u) (hr : ReferralMoves 0 rr)
    (hstatus : c.status = .CANCELLED) (hamount : c.amountToman = 0) (hrec : c.recoveredToman = 0) :
    BookTx o none c t := by
  have hnet : c.net - netOf none = 0 := by
    simp [ReferralCommission.net, netOf, hamount, hrec]
  refine h.book hu (by rwa [hnet]) (.cancelled hstatus hamount hrec) (fun _ hcons => ?_)
    (fun _ h => by cases h) rfl fun o' u' => ?_
  · rw [hstatus] at hcons
    cases hcons
  · rw [hnet]
    split <;> rfl

theorem wp_markNotFirst_books {percent : ℤ}
    (h : Booking o none order.userId (some (some r₀, some r₀)) [] t) :
    wp D p (markNotFirst o order referral percent) (Returns fun _ t' _ =>
      ∃ c, BookTx o none c t' ∧ t'.Holds (.referral c.referredUserId) ∧
        consumesFirstPurchase c.status = false) ⟨some t, r⟩ s := by
  refine wp_createCommission_free (fun _ => trivial) fun s₁ _ _ hfree => ?_
  have h₁ := h.create hfree
    { referredUserId := order.userId
      referrerUserId := referral.referrerUserId
      amountToman := 0
      percent := percent
      status := .CANCELLED }
  refine ⟨_, rfl, _, h₁.marker rfl ⟨r₀, r₀, rfl, rfl, ?_⟩ rfl rfl rfl, h₁.holds_referral, rfl⟩
  rw [add_zero]

/-- A commission that is not there now was not there before. -/
theorem commission_absent {ks : Key → Prop} (hl : (accounting first).Later p ks s s')
    (hi : (accounting first).Inv s) (h : s'.rows (.commission o) = none) :
    s.rows (.commission o) = none := by
  by_contra hne
  exact hl.stable (P := fun s => s.rows (.commission o) ≠ none)
    (fun _ _ hst => commission_stays hst) hi hne h

/-- The credited commission with its ledger row and the total of its referral. -/
theorem Booking.paid {c : ReferralCommission} {w : WalletTransaction} {r₁ : Referral}
    (h : Booking o (some (none, some c)) u (some (some r₀, some r₁)) [.commission o, .wallet w] t)
    (hw : CommissionRow .COMMISSION o c.referrerUserId c.amountToman w)
    (hu : c.referredUserId = u)
    (hr : r₁.totalCommissionAmountToman = r₀.totalCommissionAmountToman + c.amountToman)
    (hstatus : c.status = .PAID) (hamount : 0 < c.amountToman) (hrec : c.recoveredToman = 0) :
    BookTx o none c t := by
  have hnet : c.net - netOf none = c.amountToman := by
    simp [ReferralCommission.net, netOf, hrec]
  refine h.book hu ⟨r₀, r₁, rfl, rfl, by rw [hr, hnet]⟩ (.paid hstatus hamount hrec) (fun _ _ => ?_)
    (fun _ h => by cases h) rfl fun o' u' => ?_
  · rwa [ReferralCommission.net, hrec, sub_zero]
  · have hsplit : keptFor o' u' [.commission o, .wallet w] = keptFor o' u' [.wallet w] := by
      rw [← List.singleton_append, keptFor_append]
      exact zero_add _
    rw [hsplit, hw.credited, hnet]

/-- The commission, the credit and the counters, where the order has no commission yet. -/
theorem wp_payCommission_books {now : ℕ} (hi : (accounting first).Inv s)
    (hd : 0 < decision.commissionToman)
    (h : Booking o none order.userId (some (some r₀, some r₀)) [] t) :
    wp (accounting first) p (payCommission o order referral decision now)
      (Returns fun _ t' s' => BookTx o none (paidCommission order referral decision now) t' ∧
        s.rows (.commission o) = none ∧
        (accounting first).Later p (· = .referral order.userId) s s' ∧
        t'.Holds (.referral order.userId)) ⟨some t, r⟩ s := by
  refine wp_createCommission_free (fun _ => trivial) fun s₁ hl₁ hi₁ hfree => ?_
  have hnone : s.rows (.commission o) = none := by
    refine commission_absent hl₁ hi ?_
    rwa [Tx.row_of_chg h.commission] at hfree
  have h₁ := h.create hfree (paidCommission order referral decision now)
  refine wp_call (wp_creditReferrer_row h₁) (fun _ _ _ => trivial)
    fun _ t₂ r₂ s₂ h₂ => ?_
  obtain ⟨⟨w, hw, h₂⟩, hl₂⟩ := h₂
  refine (wp_seq _ _).mpr (wp_update_tx fun s₃ hl₃ _ _ => ⟨fun _ => trivial, fun n hn => ?_⟩)
  obtain ⟨r₁, hr₁, -, rfl⟩ := onRow_eq_some.mp hn
  rw [h₂.row_referral] at hr₁
  cases hr₁
  have h₃ := h₂.writeReferral s₃.rows h₂.base_referral
    (some (countCredit o order referral decision now r₀))
  refine ⟨_, rfl, h₃.paid hw rfl rfl rfl hd rfl, hnone, ?_, h₃.holds_referral⟩
  exact (h.spares hl₁).trans ((h₁.spares hl₂).trans (h₂.spares hl₃))

/-- A first-purchase check that finds nothing, where the order itself has no commission. -/
theorem noneConsuming_of_prior (hb : Books s) (ht : ∀ o', t.chg (.commission o') = none)
    (he : t.entries = []) (hnone : s.rows (.commission o) = none)
    (hprior : ¬ 0 < priorCommissions (s.view t) u o) : NoneConsuming u s := by
  intro o' c hc href
  by_contra hcons
  refine hprior (List.countP_pos_iff.mpr ⟨o', ?_, ?_⟩)
  · have hmem := (hb.listed o').mpr (by simp [hc])
    simpa [Store.view, Store.journal, he] using hmem
  · have hne : o' ≠ o := by
      rintro rfl
      rw [hnone] at hc
      cases hc
    have hrow : (s.view t).rows (.commission o') = some c := (Tx.row_of_chg (ht o')).trans hc
    rw [hrow]
    simpa [hne, href] using hcons

/-- The end of a call: no transaction is open and the books are in order. -/
def CallEnded (first : Bool) (l : Local Row Entry World) (s : AppStore) : Prop :=
  l.tx = none ∧ (accounting first).Inv s

/-- A transaction that leaves an accountable change is accepted. -/
theorem wp_accounted {α : Type} {body : App (Except CreditThrow α)}
    (hi : (accounting first).Inv s)
    (h : wp (accounting first) p body (Returns fun _ t s' => ∀ s'',
      (accounting first).Later p t.Holds s' s'' → (accounting first).Inv s'' → t.Held s''.rows →
      Accountable first s'' t) ⟨some {}, r⟩ s) :
    wp (accounting first) p (transaction body) (fun _ l s => CallEnded first l s) ⟨none, r⟩ s := by
  have hbody := wp_frame (K := fun _ => True) (fun _ _ _ => trivial) body hi trivial h
  refine wp_transaction (wp_mono body (fun x l s hx => ?_) hbody)
  obtain ⟨hx, hi, -⟩ := hx
  cases x with
  | error e => exact ⟨rfl, hi⟩
  | ok x =>
    obtain ⟨tx, reads⟩ := l
    obtain ⟨t, rfl, hx⟩ := hx
    intro s' hl hi' hh
    have hc := hx s' hl hi' hh
    exact ⟨hc, rfl, (accounting first).inv_commit (r := reads) hi' hh hc⟩

theorem referral_present {ks : Key → Prop} (hl : (accounting first).Later p ks s s')
    (hi : (accounting first).Inv s) (h : s.rows (.referral u) ≠ none) :
    s'.rows (.referral u) ≠ none :=
  hl.stable (P := fun s => s.rows (.referral u) ≠ none) (fun _ _ hst => referral_stays hst) hi h

/-- The referral whose total a booking moves is there. -/
theorem BookTx.owned {old : Option ReferralCommission} {new : ReferralCommission}
    (h : BookTx o old new t) (hh : t.Held s.rows) (hk : t.Holds (.referral new.referredUserId)) :
    s.rows (.referral new.referredUserId) ≠ none := by
  obtain ⟨⟨a, b⟩, hchg⟩ := Option.ne_none_iff_exists'.mp hk
  have hmoves := h.referral new.referredUserId
  rw [hchg] at hmoves
  obtain ⟨r, r', rfl, -, -⟩ := hmoves
  rw [← hh _ _ _ hchg]
  simp

theorem wp_markNotFirst_accountable {percent : ℤ}
    (h : Booking o none order.userId (some (some r₀, some r₀)) [] t) :
    wp (accounting first) p (markNotFirst o order referral percent) (Returns fun _ t s' => ∀ s'',
      (accounting first).Later p t.Holds s' s'' → (accounting first).Inv s'' → t.Held s''.rows →
      Accountable first s'' t) ⟨some t, r⟩ s := by
  refine wp_mono _ (fun x l s' hx => ?_) (wp_markNotFirst_books h)
  cases x with
  | error e => trivial
  | ok x =>
    obtain ⟨t', ht', c, hbook, hk, hcons⟩ := hx
    refine ⟨t', ht', fun s'' _ _ hh => .inr ⟨o, none, c, hbook, hbook.owned hh hk, fun _ _ hc => ?_⟩⟩
    rw [hcons] at hc
    cases hc

/-- The credit, where no commission of the referral consumes its first purchase or it is not asked
    for. -/
theorem wp_payCommission_accountable {now : ℕ} (hi : (accounting first).Inv s)
    (hd : 0 < decision.commissionToman)
    (h : Booking o none order.userId (some (some r₀, some r₀)) [] t)
    (hnone : first = true → s.rows (.commission o) = none → NoneConsuming order.userId s) :
    wp (accounting first) p (payCommission o order referral decision now)
      (Returns fun _ t s' => ∀ s'', (accounting first).Later p t.Holds s' s'' →
        (accounting first).Inv s'' → t.Held s''.rows → Accountable first s'' t) ⟨some t, r⟩ s := by
  refine wp_mono _ (fun x l s' hx => ?_) (wp_payCommission_books hi hd h)
  cases x with
  | error e => trivial
  | ok x =>
    obtain ⟨t', ht', hbook, habsent, hl, hk⟩ := hx
    refine ⟨t', ht', fun s'' hl' _ hh =>
      .inr ⟨o, none, _, hbook, hbook.owned hh hk, fun ht _ _ => ?_⟩⟩
    have hspared : (accounting first).Later p (· = .referral order.userId) s s'' :=
      hl.trans (hl'.mono fun _ he => he ▸ hk)
    refine hspared.stable_spared (P := NoneConsuming order.userId)
      (fun _ _ hst hrow hn => ?_) hi (hnone ht habsent)
    exact hn.spared hst (hrow _ rfl)

theorem wp_creditTransaction_books {now : ℕ} {firstPurchaseOnly : Bool}
    (hi : (accounting first).Inv s) (hd : 0 < decision.commissionToman)
    (hfirst : first = true → firstPurchaseOnly = true)
    (hu : s.rows (.referral order.userId) ≠ none) :
    wp (accounting first) p (creditTransaction o order referral decision firstPurchaseOnly now)
      (fun _ l s => CallEnded first l s) ⟨none, r⟩ s := by
  refine wp_accounted hi ((wp_seq _ _).mpr (wp_update_tx fun s₁ hl₁ hi₁ _ =>
    ⟨fun hfree => ?_, fun n hn => ?_⟩))
  · -- the referral is still there
    obtain ⟨r₁, hr₁⟩ := Option.ne_none_iff_exists'.mp (referral_present hl₁ hi hu)
    exact absurd (onRow_eq_none.mp hfree r₁ hr₁) (by simp)
  obtain ⟨r₀, hr₀, -, rfl⟩ := onRow_eq_some.mp hn
  have h₁ := (Booking.empty o order.userId).writeReferral s₁.rows (b := some r₀) hr₀
    (some (id r₀))
  split
  · refine (wp_seq _ _).mpr (wp_select _ fun s₂ hl₂ hi₂ => ?_)
    split
    · exact wp_markNotFirst_accountable h₁
    · rename_i hprior
      refine wp_payCommission_accountable hi₂ hd h₁ fun _ hnone => ?_
      refine noneConsuming_of_prior hi₂.1 (fun o' => ?_) h₁.entries hnone hprior
      rw [Tx.chg_write_ne _ (by simp)]
  · rename_i hoff
    exact wp_payCommission_accountable hi₁ hd h₁ fun ht => absurd (hfirst ht) (by simpa using hoff)

/-- `referralCommission.create` outside a transaction. -/
theorem wp_createCommission_alone {c : ReferralCommission}
    {Q : Bool → Local Row Entry World → AppStore → Prop}
    (h : ∀ s', D.Later p (Tx.Holds ({} : AppTx)) s s' → D.Inv s' →
      (s'.rows (.commission o) ≠ none → Q false ⟨none, r⟩ (s'.commit p {})) ∧
      (s'.rows (.commission o) = none →
        let t := (Tx.write {} s'.rows ⟨.commission o, some c⟩).append [.commission o]
        D.Commits p r s' t ∧ Q true ⟨none, r⟩ (s'.commit p t))) :
    wp D p (createCommission o c) Q ⟨none, r⟩ s := by
  intro s' hl hi _
  obtain ⟨h0, h1⟩ := h s' hl hi
  simp only [Store.view, Local.pending, Option.getD_none, Tx.row_empty]
  cases hfree : s'.rows (.commission o) with
  | some _ => simpa [wp, Tx.add] using ⟨D.commits_empty hi, h0 (by simp [hfree])⟩
  | none => simpa [wp, Tx.add] using h1 hfree

/-- A marker outside a transaction. -/
theorem wp_recordNoCommissionMarker_books {percent : ℤ} (hi : (accounting first).Inv s)
    (hu : s.rows (.referral u) ≠ none) :
    wp (accounting first) p (recordNoCommissionMarker o referral u percent)
      (fun _ l s => CallEnded first l s) ⟨none, r⟩ s := by
  refine (wp_seq _ _).mpr (wp_createCommission_alone fun s₁ hl₁ hi₁ => ⟨fun _ => ?_, fun hfree => ?_⟩)
  · exact ⟨rfl, (accounting first).inv_commit (r := r) hi₁ (Tx.Held.empty _)
      ((accounting first).commits_empty hi₁)⟩
  have hmarker := ((Booking.empty o u).create hfree
    { referredUserId := u
      referrerUserId := referral.referrerUserId
      amountToman := 0
      percent := percent
      status := .CANCELLED }).marker rfl rfl rfl rfl rfl
  have hc : Accountable first s₁ _ :=
    .inr ⟨o, none, _, hmarker, referral_present hl₁ hi hu, fun _ _ hcons => nomatch hcons⟩
  exact ⟨hc, rfl, (accounting first).inv_commit (r := r) hi₁ ((Tx.Held.empty _).write _) hc⟩

theorem wp_creditReferral_books {settings : Choice → ReferralConfig}
    (hfirst : first = true → ∀ ch, (settings ch).firstPurchaseOnly = true)
    (hi : (accounting first).Inv s) :
    wp (accounting first) p (creditReferralCommissionForOrder o settings)
      (fun _ l s => CallEnded first l s) ⟨none, r⟩ s := by
  refine (wp_seq _ _).mpr (wp_ask _ fun enabled => ?_)
  split
  · exact ⟨rfl, hi⟩
  refine (wp_seq _ _).mpr (wp_select _ fun s₁ _ hi₁ => ?_)
  split
  case h_2 => exact ⟨rfl, hi₁⟩
  rename_i order _
  split
  · exact ⟨rfl, hi₁⟩
  refine (wp_seq _ _).mpr (wp_ask _ fun within => ?_)
  split
  · exact ⟨rfl, hi₁⟩
  refine (wp_seq _ _).mpr (wp_select _ fun s₂ _ hi₂ => ?_)
  split
  case h_2 => exact ⟨rfl, hi₂⟩
  rename_i referral hfound
  have hu : s₂.rows (.referral order.userId) ≠ none := by
    rw [show s₂.rows (.referral order.userId) = some referral from hfound]
    simp
  have hmarker : ∀ (percent : ℤ) (x : ReferralCreditResult) (r : List AppStore),
      wp (accounting first) p (recordNoCommissionMarker o referral order.userId percent >>=
        fun _ => (pure x : App ReferralCreditResult)) (fun _ l s => CallEnded first l s) ⟨none, r⟩
        s₂ := fun percent x r =>
    (wp_seq _ _).mpr (wp_mono _ (fun _ _ _ hx => hx) (wp_recordNoCommissionMarker_books hi₂ hu))
  split
  · exact hmarker _ _ _
  refine (wp_seq _ _).mpr (wp_ask _ fun representative => ?_)
  split
  · exact hmarker _ _ _
  refine (wp_seq _ _).mpr (wp_ask _ fun ch => ?_)
  dsimp only
  split
  · exact hmarker _ _ _
  rename_i heligible
  refine (wp_seq _ _).mpr (wp_ask _ fun now => ?_)
  refine (wp_seq _ _).mpr (wp_mono _ (fun x l s hx => ?_) (wp_creditTransaction_books hi₂
    (commission_pos (by simpa using heligible)) (fun ht => hfirst ht ch) hu))
  split <;> exact hx

/-! ### Clawbacks -/

/-- What a clawback step takes, and what it leaves owed. -/
theorem planReferralClawback_spec {outstanding balance : ℤ} {neg : Bool} (h : 0 < outstanding) :
    let plan := planReferralClawback outstanding balance neg
    0 ≤ plan.recoverNow ∧ plan.recoverNow + plan.remainingOutstanding = outstanding ∧
      0 ≤ plan.remainingOutstanding ∧
      (plan.fullyRecovered = true ↔ plan.remainingOutstanding = 0) := by
  simp only [planReferralClawback, decide_eq_true_eq, iff_self, and_true]
  split <;> omega

/-- What is owed on an open commission of the books. -/
theorem outstanding_spec {c : ReferralCommission} {outstanding : ℤ} (hf : c.Form)
    (h : outstandingOf c = some outstanding) :
    0 < outstanding ∧ 0 ≤ c.recoveredToman ∧ c.recoveredToman + outstanding = c.amountToman ∧
      consumesFirstPurchase c.status := by
  cases hf with
  | paid status amount recovered =>
    simp only [outstandingOf, status, Option.some.injEq] at h
    exact ⟨by omega, by omega, by omega, by rw [status]; rfl⟩
  | reversalPending status recovered debt owing =>
    simp only [outstandingOf, status, Option.some.injEq] at h
    exact ⟨by omega, by omega, by omega, by rw [status]; rfl⟩
  | reversed status _ _ _ | cancelled status _ _ =>
    rw [outstandingOf, status] at h
    cases h

variable {c : ReferralCommission} {outstanding : ℤ} {plan : ReferralClawbackPlan}

/-- A commission after a partial or full recovery. -/
def recoveredCommission (c : ReferralCommission) (plan : ReferralClawbackPlan) (now : ℕ) :
    ReferralCommission :=
  { c with
    recoveredToman := c.recoveredToman + plan.recoverNow
    recoveryOutstandingToman := plan.remainingOutstanding
    status := if plan.fullyRecovered then .REVERSED else .REVERSAL_PENDING
    reversedAt := if plan.fullyRecovered then some now else c.reversedAt
    reversalRequestedAt := c.reversalRequestedAt.getD now }

theorem recoveredCommission_form {now : ℕ} (hrec : 0 ≤ c.recoveredToman)
    (hsum : c.recoveredToman + outstanding = c.amountToman) (hnow : 0 ≤ plan.recoverNow)
    (hplan : plan.recoverNow + plan.remainingOutstanding = outstanding)
    (hleft : 0 ≤ plan.remainingOutstanding)
    (hfull : plan.fullyRecovered = true ↔ plan.remainingOutstanding = 0) :
    (recoveredCommission c plan now).Form := by
  cases hcase : plan.fullyRecovered with
  | true =>
    have hzero := hfull.mp hcase
    refine .reversed (by simp [recoveredCommission, hcase]) ?_ hzero ?_
    all_goals
      simp only [recoveredCommission]
      omega
  | false =>
    have hne : plan.remainingOutstanding ≠ 0 := fun h0 => by
      rw [hfull.mpr h0] at hcase
      cases hcase
    refine .reversalPending (by simp [recoveredCommission, hcase]) ?_ ?_ ?_
    all_goals
      simp only [recoveredCommission]
      omega

/-- The debit, the total of the referral and the commission are booked together. -/
theorem wp_recoverDebt_books {now : ℕ}
    (h : Booking o (some (some c, some c)) c.referredUserId (some (some r₀, some r₀)) [] t)
    (hform : (recoveredCommission c plan now).Form) (hcons : consumesFirstPurchase c.status) :
    wp D p (recoverDebt o c plan now) (Returns fun _ t' _ =>
      BookTx o (some c) (recoveredCommission c plan now) t' ∧
        t'.Holds (.referral c.referredUserId)) ⟨some t, r⟩ s := by
  refine wp_call (wp_debitReferrer_row h) (fun _ _ _ => trivial) fun _ t₁ r₁ s₁ h₁ => ?_
  obtain ⟨w, hw, h₁⟩ := h₁
  refine (wp_seq _ _).mpr (wp_update_tx fun s₂ _ _ _ => ⟨fun _ => trivial, fun n hn => ?_⟩)
  obtain ⟨r', hr', -, rfl⟩ := onRow_eq_some.mp hn
  rw [h₁.row_referral] at hr'
  cases hr'
  have h₂ := h₁.writeReferral s₂.rows h₁.base_referral
    (some { r₀ with
      totalCommissionAmountToman := r₀.totalCommissionAmountToman - plan.recoverNow })
  refine (wp_seq _ _).mpr (wp_update_tx fun s₃ _ _ _ => ⟨fun _ => trivial, fun n hn => ?_⟩)
  obtain ⟨c', hc', -, rfl⟩ := onRow_eq_some.mp hn
  rw [h₂.row_commission] at hc'
  cases hc'
  have h₃ := h₂.writeCommission s₃.rows h₂.base_commission
    (some (recoveredCommission c plan now))
  have hnet : (recoveredCommission c plan now).net - netOf (some c) = -plan.recoverNow := by
    simp only [ReferralCommission.net, recoveredCommission, netOf, Option.map_some,
      Option.getD_some]
    omega
  refine ⟨_, rfl, h₃.book rfl ⟨r₀, _, rfl, rfl, ?_⟩ hform (fun h => by cases h) ?_ rfl
    fun o' u' => ?_, h₃.holds_referral⟩
  · rw [hnet]
    exact sub_eq_add_neg _ _
  · rintro _ ⟨⟩
    exact ⟨rfl, rfl, hcons⟩
  · rw [List.nil_append, hw.clawedBack, hnet]
    rfl

/-- A debt that is only recorded books the commission at what it was. -/
theorem wp_recordDebt_books {now : ℕ}
    (h : Booking o (some (some c, some c)) c.referredUserId (some (some r₀, some r₀)) [] t)
    (howing : 0 < outstanding) (hrec : 0 ≤ c.recoveredToman)
    (hsum : c.recoveredToman + outstanding = c.amountToman)
    (hcons : consumesFirstPurchase c.status) :
    wp D p (recordDebt o c outstanding now) (Returns fun _ t' _ =>
      ∃ new, BookTx o (some c) new t' ∧ t'.Holds (.referral new.referredUserId)) ⟨some t, r⟩ s := by
  refine (wp_seq _ _).mpr (wp_update_tx fun s₁ _ _ _ => ⟨fun _ => trivial, fun n hn => ?_⟩)
  obtain ⟨c', hc', -, rfl⟩ := onRow_eq_some.mp hn
  rw [h.row_commission] at hc'
  cases hc'
  have h₁ := h.writeCommission s₁.rows h.base_commission
    (some { c with
      recoveryOutstandingToman := outstanding
      status := .REVERSAL_PENDING
      reversalRequestedAt := c.reversalRequestedAt.getD now })
  refine ⟨_, rfl, _, h₁.book rfl ⟨r₀, r₀, rfl, rfl, ?_⟩ (.reversalPending rfl hrec hsum howing)
    (fun h => nomatch h) ?_ rfl fun o' u' => ?_, h₁.holds_referral⟩
  · simp [ReferralCommission.net, netOf]
  · rintro _ ⟨⟩
    exact ⟨rfl, rfl, hcons⟩
  · simp [ReferralCommission.net, netOf]

/-- One step of a clawback on a commission that exists. -/
theorem wp_runClawbackStep_books {now : ℕ} (hi : (accounting first).Inv s)
    (ho : s.rows (.commission o) ≠ none) :
    wp (accounting first) p (runClawbackStep o now) (fun _ l s => CallEnded first l s) ⟨none, r⟩ s := by
  refine wp_accounted hi ((wp_seq _ _).mpr (wp_update_tx fun s₁ hl₁ hi₁ _ =>
    ⟨fun hfree => ?_, fun n hn => ?_⟩))
  · -- the commission is still there
    have hthere := hl₁.stable (P := fun s => s.rows (.commission o) ≠ none)
      (fun _ _ hst => commission_stays hst) hi ho
    obtain ⟨c, hc⟩ := Option.ne_none_iff_exists'.mp hthere
    exact absurd (onRow_eq_none.mp hfree c hc) (by simp)
  obtain ⟨c, hc, -, rfl⟩ := onRow_eq_some.mp hn
  have hrow : s₁.rows (.commission o) = some c := hc
  have h₁ := (Booking.empty o c.referredUserId).writeCommission s₁.rows (b := some c) hc
    (some (id c))
  refine (wp_seq _ _).mpr (wp_select _ fun s₂ hl₂ hi₂ => ?_)
  have hrow₂ : s₂.rows (.commission o) = some c := by
    rw [hl₂.rows_eq (by simp [Tx.Holds, Local.Holds, Local.pending]), hrow]
  have hsees : (({} : AppTx).write s₁.rows ⟨.commission o, some (id c)⟩).row s₂.rows
      (.commission o) = some c := h₁.row_commission
  split
  case h_2 => exact ⟨_, rfl, fun s'' _ _ _ => .inl (h₁.quiet (by rintro _ ⟨⟩; rfl) (by rintro _ ⟨⟩))⟩
  rename_i c' hc'
  obtain rfl : c' = c := Option.some.inj (hc'.symm.trans hsees)
  refine (wp_seq _ _).mpr (wp_update_tx fun s₃ hl₃ hi₃ hh₃ => ⟨fun hfree => ?_, fun n hn => ?_⟩)
  · -- its referral is there too
    have hthere := referral_present hl₃ hi₂ (hi₂.1.owned o c' hrow₂)
    obtain ⟨r₁, hr₁⟩ := Option.ne_none_iff_exists'.mp hthere
    refine absurd (onRow_eq_none.mp hfree r₁ ?_) (by simp)
    rw [Tx.row_of_chg h₁.referral, hr₁]
  obtain ⟨r₀, hr₀, -, rfl⟩ := onRow_eq_some.mp hn
  have h₃ := h₁.writeReferral s₃.rows (b := some r₀)
    ((Tx.base_of_chg h₁.referral).trans ((Tx.row_of_chg h₁.referral).symm.trans hr₀))
    (some (id r₀))
  split
  case h_2 =>
    refine ⟨_, rfl, fun s'' _ _ _ => .inl (h₃.quiet (by rintro _ ⟨⟩; rfl) ?_)⟩
    rintro _ ⟨⟩
    exact ⟨r₀, r₀, rfl, rfl, by rw [add_zero]⟩
  rename_i outstanding hout
  obtain ⟨howing, hrec, hsum, hcons⟩ := outstanding_spec (hi₂.1.form o c' hrow₂) hout
  have hfinish : ∀ (t : AppTx) (s : AppStore) (new : ReferralCommission),
      BookTx o (some c') new t → t.Holds (.referral new.referredUserId) →
      ∀ s'', (accounting first).Later p t.Holds s s'' → (accounting first).Inv s'' →
        t.Held s''.rows → Accountable first s'' t := by
    intro t s new hbook hk s'' _ _ hh
    exact .inr ⟨o, some c', new, hbook, hbook.owned hh hk, fun _ h => by cases h⟩
  refine h₃.wp_updateUser fun n t₄ s₄ h₄ => ?_
  refine (wp_seq _ _).mpr (wp_select _ fun s₅ _ _ => ?_)
  dsimp only
  generalize hplan : planReferralClawback outstanding _ _ = plan
  obtain ⟨hnow, hpaid, hleft, hfull⟩ := hplan ▸ planReferralClawback_spec howing
  split
  · refine wp_call (wp_recoverDebt_books h₄
      (recoveredCommission_form hrec hsum hnow hpaid hleft hfull) hcons) (fun _ _ _ => trivial)
      fun _ t₆ r₆ s₆ h₆ => ?_
    exact ⟨t₆, rfl, hfinish t₆ s₆ _ h₆.1 h₆.2⟩
  · refine wp_call (wp_recordDebt_books h₄ howing hrec hsum hcons) (fun _ _ _ => trivial)
      fun _ t₆ r₆ s₆ h₆ => ?_
    obtain ⟨new, hbook, hk⟩ := h₆
    exact ⟨t₆, rfl, hfinish t₆ s₆ new hbook hk⟩

theorem wp_reverseReferral_books :
    wp (accounting first) p (reverseReferralCommissionForOrder o)
      (fun _ l s => CallEnded first l s) ⟨none, r⟩ s := by
  refine (wp_seq _ _).mpr (wp_ask _ fun now => ?_)
  refine (wp_seq _ _).mpr (wp_select _ fun s₁ _ hi₁ => ?_)
  split
  case h_2 => exact ⟨rfl, hi₁⟩
  rename_i c hc
  have ho : s₁.rows (.commission o) ≠ none := by
    rw [show s₁.rows (.commission o) = some c from hc]
    simp
  split
  · exact ⟨rfl, hi₁⟩
  split
  · exact ⟨rfl, hi₁⟩
  refine (wp_seq _ _).mpr (wp_mono _ (fun x l s₂ hx => ?_) (wp_runClawbackStep_books hi₁ ho))
  split
  · exact hx
  split
  · refine (wp_seq _ _).mpr (wp_select _ fun s₃ _ hi₃ => ?_)
    exact ⟨hx.1, hi₃⟩
  split <;> exact hx

theorem wp_recoverReferral_books :
    wp (accounting first) p (recoverReferralCommissionDebt o)
      (fun _ l s => CallEnded first l s) ⟨none, r⟩ s := by
  refine (wp_seq _ _).mpr (wp_ask _ fun now => ?_)
  refine (wp_seq _ _).mpr (wp_select _ fun s₁ _ hi₁ => ?_)
  split
  case h_2 => exact ⟨rfl, hi₁⟩
  rename_i c hc
  have ho : s₁.rows (.commission o) ≠ none := by
    rw [show s₁.rows (.commission o) = some c from hc]
    simp
  split
  · exact ⟨rfl, hi₁⟩
  refine (wp_seq _ _).mpr (wp_mono _ (fun x l s₂ hx => ?_) (wp_runClawbackStep_books hi₁ ho))
  split
  · exact hx
  split
  · exact hx
  split <;> exact hx

/-! ### Runs -/

/-- One call of the referral system. -/
inductive ReferralCall
  | credit (orderId : ℕ)
  | reverse (orderId : ℕ)
  | recover (orderId : ℕ)

/-- The program of a call, under the settings that the credits read. -/
def ReferralCall.prog (settings : Choice → ReferralConfig) : ReferralCall → App Unit
  | credit orderId => discard (creditReferralCommissionForOrder orderId settings)
  | reverse orderId => discard (reverseReferralCommissionForOrder orderId)
  | recover orderId => discard (recoverReferralCommissionDebt orderId)

/-- A process of the system: any number of calls, or any other program. -/
inductive ReferralProcess (settings : Choice → ReferralConfig) : App Unit → Prop
  | calls (cs : List ReferralCall) : ReferralProcess settings (forEach (ReferralCall.prog settings) cs)
  | other {m : App Unit} (h : m.Each Elsewhere) : ReferralProcess settings m

theorem accepts_referralCall {settings : Choice → ReferralConfig}
    (hfirst : first = true → ∀ ch, (settings ch).firstPurchaseOnly = true) (call : ReferralCall) :
    Accepts (accounting first) p (call.prog settings) := by
  cases call with
  | credit o => exact accepts_discard ⟨fun _ _ hi => wp_creditReferral_books hfirst hi⟩
  | reverse o => exact accepts_discard ⟨fun _ _ _ => wp_reverseReferral_books⟩
  | recover o => exact accepts_discard ⟨fun _ _ _ => wp_recoverReferral_books⟩

theorem good_referrals (first : Bool) {settings : Choice → ReferralConfig} {progs : ℕ → App Unit}
    (hfirst : first = true → ∀ ch, (settings ch).firstPurchaseOnly = true)
    (hp : ∀ p, ReferralProcess settings (progs p)) (hi : (accounting first).Inv s) :
    Good (accounting first) (Config.start s progs) := by
  refine good_start hi fun p => ?_
  have hprog := hp p
  generalize progs p = m at hprog ⊢
  cases hprog with
  | calls cs =>
    exact wp_mono _ (fun _ _ _ _ => trivial)
      ((Accepts.forEach (accepts_referralCall hfirst) cs).run [] s hi)
  | other h =>
    exact wp_mono _ (fun _ _ _ _ => trivial)
      ((elsewhereRules first p).wp_each (l := {}) h hi .empty)

/-- ACCOUNTING: whatever the calls and the other programs do in any order, the books stay in order:
    one commission for each order in one of its four forms, its referrer keeps exactly what is not
    recovered, and a referral counts the sum; and while the settings say so, at most one commission
    of a referral is not cancelled. -/
theorem commissions_accounted {settings : Choice → ReferralConfig} {progs : ℕ → App Unit}
    (hp : ∀ p, ReferralProcess settings (progs p)) {s₀ : AppStore} (h₀ : Books s₀) {c : AppConfig}
    (hrun : Run anyStep (Config.start s₀ progs) c) :
    Books c.store ∧
    (∀ o row, c.store.rows (.commission o) = some row →
      creditedFor o row.referrerUserId c.store.journal -
        clawedBackFor o row.referrerUserId c.store.journal = row.amountToman - row.recoveredToman ∧
      0 ≤ row.amountToman - row.recoveredToman ∧
      row.amountToman - row.recoveredToman ≤ row.amountToman) ∧
    ((∀ ch, (settings ch).firstPurchaseOnly = true) → FirstOnly s₀ → FirstOnly c.store) := by
  have hbooks : Books c.store := by
    have hgood := good_referrals false (fun h => nomatch h) hp ⟨h₀, fun h => nomatch h⟩
    exact (hrun.sound hgood).1.inv.1
  refine ⟨hbooks, fun o row hrow => ⟨hbooks.kept o row hrow, (hbooks.form o row hrow).net_bounds⟩,
    fun hon hfirst => ?_⟩
  have hgood := good_referrals true (fun _ => hon) hp ⟨h₀, fun _ => hfirst⟩
  exact (hrun.sound hgood).1.inv.2 rfl

/-- A completed order of user 2, whom user 1 referred. -/
def referredStore : AppStore where
  rows
    | .user 1 => some { }
    | .order 7 => some
        { userId := 2
          type := .SERVICE_PURCHASE
          status := .COMPLETED
          finalPriceToman := 1000
          completedAt := some 0 }
    | .referral 2 => some { id := 0, referrerUserId := 1 }
    | k => emptyRows k
  world := {}

/-- The referrer spends most of the commission. -/
def spendMost : App Unit := discard (updateUser 1 (fun _ => true) fun u => { u with balanceToman := 40 })

def referredProgs : ℕ → App Unit
  | 0 => forEach (ReferralCall.prog fun _ => {}) [.credit 7]
  | 1 => forEach (ReferralCall.prog fun _ => {}) [.reverse 7]
  | 2 => spendMost
  | _ => forEach (ReferralCall.prog fun _ => {}) []

/-- The commission is credited, partly spent, and then reversed as far as the balance goes. -/
def referredRun : List (Event Choice) :=
  List.replicate 4 (.run 0 {}) ++ List.replicate 12 (.run 0 { flag := false }) ++ [.run 2 {}] ++
    List.replicate 14 (.run 1 {})

theorem referredRun_runs : ((Config.start referredStore referredProgs).exec referredRun).any (fun c =>
    (c.store.rows (.commission 7)).any fun row => row.status = .REVERSAL_PENDING ∧
      row.amountToman = 100 ∧ row.recoveredToman = 40) = true := by decide +kernel

theorem spendMost_elsewhere : spendMost.Each Elsewhere := by
  refine .bind (.update (fun v => ?_) fun v n _ => ?_) fun _ => .pure _
  · exact ⟨by simp, by simp, by simp⟩
  · exact ⟨by simp, by simp, by simp⟩

theorem referredStore_books : Books referredStore := by
  have hnone : ∀ o, referredStore.rows (.commission o) = none := fun _ => rfl
  refine ⟨List.nodup_nil, fun o => ?_, fun o c h => ?_, fun o c h => ?_, fun _ _ _ => rfl,
    fun o c h => ?_, fun u r h => ?_⟩
  · rw [hnone]
    exact ⟨fun h => (List.not_mem_nil h).elim, fun h => absurd rfl h⟩
  · rw [hnone] at h
    cases h
  · rw [hnone] at h
    cases h
  · rw [hnone] at h
    cases h
  · match u, h with
    | 0, h | 1, h | _ + 3, h => cases h
    | 2, h =>
      cases h
      rfl

theorem commissions_accounted_partial : ∃ c : AppConfig, Books c.store ∧ FirstOnly c.store ∧
    ∃ row, c.store.rows (.commission 7) = some row ∧ row.amountToman = 100 ∧
      row.recoveredToman = 40 := by
  obtain ⟨c, hrun, hc⟩ := Run.of_exec_any referredRun_runs
  obtain ⟨row, hrow, -, hcond⟩ : ∃ row, c.store.rows (.commission 7) = some row ∧
      row.status = .REVERSAL_PENDING ∧ row.amountToman = 100 ∧ row.recoveredToman = 40 := by
    simpa [Option.any_eq_true] using hc
  have hprocess : ∀ p, ReferralProcess (fun _ => {}) (referredProgs p)
    | 0 | 1 | _ + 3 => .calls _
    | 2 => .other spendMost_elsewhere
  have hall := commissions_accounted hprocess referredStore_books hrun
  refine ⟨c, hall.1, hall.2.2 (fun _ => rfl) ?_, row, hrow, hcond⟩
  exact fun o o' c c' h => nomatch h

end ZedBot
