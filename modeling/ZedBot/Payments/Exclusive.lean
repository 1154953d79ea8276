import ZedBot.Payments.LedgerSoundness

/-! Exclusive settlement of checkouts over whole runs.

    Whatever the interleaving, a checkout keeps its first owner, has at most one order and credits at
    most one top-up of its price. Its PAID status stays too as long as the two operations that write
    a checkout by its id alone, the rejection and the cancellation of superseded checkouts, hit
    unowned checkouts only; a stale read before their write breaks that. -/

namespace ZedBot
open ReadCommitted RunningBalance

/-! ### What is claimed of a later state -/

/-- The top-up rows of the payments of a checkout. -/
def creditsOf (s : AppStore) (checkoutId : ℕ) : List WalletTransaction :=
  s.journal.filterMap fun
    | .wallet w => match w.relatedPaymentId with
      | none => none
      | some pid => match s.rows (.payment pid) with
        | none => none
        | some q =>
          if q.checkoutSessionId = some checkoutId ∧ w.reason = .WALLET_TOPUP_CARD_TO_CARD then some w
          else none
    | .draft _ | .openPayment _ | .commission _ => none

/-- An owned checkout is PAID. -/
def OwnedPaid (s : AppStore) : Prop :=
  ∀ c row, s.rows (.checkout c) = some row → row.settledByPaymentId ≠ none → row.status = .PAID

/-- Settlement is exclusive and permanent from `s` to the later state `s'`. -/
structure Exclusive (s s' : AppStore) : Prop where
  /-- An owner stays the owner. -/
  owner : ∀ c row pid, s.rows (.checkout c) = some row → row.settledByPaymentId = some pid →
    ∃ row', s'.rows (.checkout c) = some row' ∧ row'.settledByPaymentId = some pid
  paid : OwnedPaid s'
  order : ∀ c id id' o o', s'.rows (.order id) = some o → s'.rows (.order id') = some o' →
    o.checkoutSessionId = some c → o'.checkoutSessionId = some c → id = id'
  /-- One credit at most, to the user of the checkout and of its price. -/
  credit : ∀ c row, s'.rows (.checkout c) = some row → (creditsOf s' c).length ≤ 1 ∧
    ∀ w ∈ creditsOf s' c, w.userId = row.userId ∧ w.amountToman = row.finalPriceToman
  /-- No balance moves but with its ledger rows. -/
  ledger : ∃ js, LedgerGrew s s' js

/-! ### What holds in every run -/

variable {dm : ℕ → Bool} {s s' : AppStore} {p : ℕ} {r : List AppStore}

theorem MoneyInv.one_order (hi : MoneyInv s) {c id id' : ℕ} {o o' : Order}
    (ho : s.rows (.order id) = some o) (ho' : s.rows (.order id') = some o')
    (hc : o.checkoutSessionId = some c) (hc' : o'.checkoutSessionId = some c) : id = id' := by
  have h := hi.indexed id o c ho hc
  rw [hi.indexed id' o' c ho' hc'] at h
  exact (Option.some.inj h).symm

theorem mem_creditsOf {c : ℕ} {w : WalletTransaction} :
    w ∈ creditsOf s c ↔ ∃ pid q, w ∈ topupsOf pid s.journal ∧ s.rows (.payment pid) = some q ∧
      q.checkoutSessionId = some c := by
  simp only [creditsOf, topupsOf, List.mem_filterMap]
  constructor
  · rintro ⟨⟨w'⟩ | _ | _, hmem, hw⟩
    case mp.draft | mp.openPayment | mp.commission => cases hw
    simp only at hw
    split at hw
    · cases hw
    rename_i pid hpid
    split at hw
    · cases hw
    rename_i q hq
    split at hw
    · rename_i hcond
      cases hw
      exact ⟨pid, q, ⟨.wallet w, hmem, by simp [hpid, hcond.2]⟩, hq, hcond.1⟩
    · cases hw
  · rintro ⟨pid, q, ⟨⟨w'⟩ | _ | _, hmem, hw⟩, hq, hc⟩
    case mpr.draft | mpr.openPayment | mpr.commission => cases hw
    simp only at hw
    split at hw
    · rename_i hcond
      cases hw
      exact ⟨.wallet w, hmem, by simp [hcond.1, hcond.2, hq, hc]⟩
    · cases hw

/-- A credited payment owns its checkout. -/
theorem MoneyInv.credit_owner (hi : MoneyInv s) {c pid : ℕ} {q : Payment} {w : WalletTransaction}
    (hw : w ∈ topupsOf pid s.journal) (hq : s.rows (.payment pid) = some q)
    (hc : q.checkoutSessionId = some c) : topupsOf pid s.journal = [w] ∧
    ∃ row, s.rows (.checkout c) = some row ∧ row.settledByPaymentId = some pid ∧
      w.userId = row.userId ∧ w.amountToman = row.finalPriceToman := by
  obtain ⟨hone, c', row, hrow, hpid, hu, ha⟩ := hi.topup pid w hw
  obtain ⟨q', hq', _, _, hc'⟩ := hi.owner c' row pid hrow hpid
  rw [hq] at hq'; cases hq'
  rw [hc] at hc'; cases hc'
  exact ⟨hone, row, hrow, hpid, hu, ha⟩

theorem MoneyInv.one_credit (hi : MoneyInv s) {c : ℕ} {row : CheckoutSession}
    (hrow : s.rows (.checkout c) = some row) : (creditsOf s c).length ≤ 1 ∧
    ∀ w ∈ creditsOf s c, w.userId = row.userId ∧ w.amountToman = row.finalPriceToman := by
  have hall : ∀ w ∈ creditsOf s c, w.userId = row.userId ∧ w.amountToman = row.finalPriceToman := by
    intro w hw
    obtain ⟨pid, q, hw, hq, hc⟩ := mem_creditsOf.mp hw
    obtain ⟨_, row', hrow', _, hu, ha⟩ := hi.credit_owner hw hq hc
    rw [hrow] at hrow'; cases hrow'
    exact ⟨hu, ha⟩
  refine ⟨?_, hall⟩
  rcases List.eq_nil_or_concat (creditsOf s c) with hnil | ⟨ws, w, hcat⟩
  · simp [hnil]
  have hw : w ∈ creditsOf s c := by rw [hcat]; simp
  obtain ⟨pid, q, hw, hq, hc⟩ := mem_creditsOf.mp hw
  obtain ⟨hone, row₁, hrow₁, hpid, _⟩ := hi.credit_owner hw hq hc
  -- all credits of the checkout are those of its one owner
  have hsame : creditsOf s c = topupsOf pid s.journal := by
    refine List.filterMap_congr fun e he => ?_
    obtain ⟨x⟩ | _ | _ := e
    case draft | openPayment | commission => rfl
    simp only
    split
    · rename_i hn; simp [hn]
    rename_i pid' hpid'
    by_cases hr : x.reason = .WALLET_TOPUP_CARD_TO_CARD
    · by_cases hpp : pid' = pid
      · subst hpp; simp [hpid', hr, hq, hc]
      · have hno : ∀ q', s.rows (.payment pid') = some q' → q'.checkoutSessionId ≠ some c := by
          intro q' hq' hc'
          have hx : x ∈ topupsOf pid' s.journal :=
            List.mem_filterMap.mpr ⟨.wallet x, he, by simp [hpid', hr]⟩
          obtain ⟨_, row₂, hrow₂, hpid₂, _⟩ := hi.credit_owner hx hq' hc'
          rw [hrow₁] at hrow₂; cases hrow₂
          rw [hpid] at hpid₂; exact hpp (Option.some.inj hpid₂).symm
        rw [if_neg (by rw [hpid']; simp [hpp])]
        split
        · rfl
        · rename_i q' hq'; rw [if_neg]; simp [hno q' hq']
    · simp only [hr, and_false, if_false]
      split <;> rfl
  rw [hsame, hone]; simp

/-- The owner of a checkout stays. -/
theorem owner_step {c pid : ℕ} (hst : (money dm).Step p r s s')
    (h : ∃ row, s.rows (.checkout c) = some row ∧ row.settledByPaymentId = some pid) :
    ∃ row, s'.rows (.checkout c) = some row ∧ row.settledByPaymentId = some pid := by
  cases hst with
  | act w h => exact h.elim
  | commit t hh hc =>
    obtain ⟨row, hrow, hpid⟩ := h
    obtain ⟨row', hrow', hle⟩ := fwd_checkout (p := p) hc.1 hh hrow
    exact ⟨row', hrow', by rw [hle.owner (by simp [hpid]), hpid]⟩

/-! ### The PAID status -/

/-- A rejection or a cancellation moves unowned checkouts only. -/
def DemotesUnowned (calls : ℕ → Option PaymentCall) : StepCond Row Entry World :=
  fun p _ s s' => demoters calls p = true → ∀ c o n, s.rows (.checkout c) = some o →
    s'.rows (.checkout c) = some n → n.status ≠ o.status → o.settledByPaymentId = none

theorem ownedPaid_step {calls : ℕ → Option PaymentCall}
    (hst : (money (demoters calls)).Step p r s s') (hC : DemotesUnowned calls p r s s')
    (h : OwnedPaid s) : OwnedPaid s' := by
  cases hst with
  | act w h => exact h.elim
  | commit t hh hc =>
    intro c row hrow howned
    rcases s.commit_rows p hh (.checkout c) with ⟨he, _⟩ | hch
    · exact h c row (by rw [← he, hrow]) howned
    · have hs := hc.1.checkout c _ _ hch
      rw [hrow] at hs
      cases ho : s.rows (.checkout c) with
      | none => rw [ho] at hs; exact hs howned
      | some o =>
        rw [ho] at hs
        by_cases hsame : row.settledByPaymentId = o.settledByPaymentId
        · have hpaid := h c o ho (by rw [← hsame]; exact howned)
          rcases hs.status with hst | ⟨_, hst⟩ | ⟨hd, _⟩
          · rw [hst, hpaid]
          · exact hst
          · by_contra hne
            have := hC hd c o row ho hrow (by rw [hpaid]; exact hne)
            rw [hsame] at howned; exact howned this
        · exact hs.paid hsame

/-- A database without orders and ledger rows, in which nothing is settled yet. -/
theorem MoneyInv.of_fresh (hcheckout : ∀ c row, s.rows (.checkout c) = some row →
      row.settledByPaymentId = none)
    (hpayment : ∀ pid q, s.rows (.payment pid) = some q → q.settlementStatus = .UNSETTLED)
    (hbelongs : ∀ pid q c, s.rows (.payment pid) = some q → q.checkoutSessionId = some c →
      ∃ row, s.rows (.checkout c) = some row ∧ row.userId = q.userId)
    (hamount : ∀ pid q, s.rows (.payment pid) = some q → 0 ≤ q.amountToman)
    (horder : ∀ id, s.rows (.order id) = none) (hlog : s.log = []) : MoneyInv s where
  owner c row pid hrow hpid := by rw [hcheckout c row hrow] at hpid; cases hpid
  settled pid q hq hs := by rw [hpayment pid q hq] at hs; cases hs
  belongs := hbelongs
  amount := hamount
  filed pid q hq hs := by rw [hpayment pid q hq] at hs; cases hs
  indexed id row c hrow := by rw [horder id] at hrow; cases hrow
  topup pid w hw := by rw [Store.journal, hlog] at hw; cases hw

/-- Beside the gateway payment of the top-up, a card payment with its receipt in review. -/
def raceRows : ∀ k, Row k
  | .payment 2 =>
    some
      { userId := 1
        checkoutSessionId := some 1
        purpose := .WALLET_CHARGE
        status := .PENDING_REVIEW
        amountToman := 500
        payableAmountToman := 500
        provider := some .CARD_TO_CARD }
  | .receipts 2 => [.PENDING_REVIEW]
  | k => topupRows (some .SUCCESS) k

def raceStore : AppStore := { rows := raceRows, world := {} }

theorem raceStore_payment {pid : ℕ} {q : Payment} (h : raceStore.rows (.payment pid) = some q) :
    q.checkoutSessionId = some 1 ∧ q.userId = 1 ∧ q.amountToman = 500 ∧
      q.settlementStatus = .UNSETTLED := by
  match pid, h with
  | 1, h => cases h; exact ⟨rfl, rfl, rfl, rfl⟩
  | 2, h => cases h; exact ⟨rfl, rfl, rfl, rfl⟩

theorem raceStore_checkout {c : ℕ} {row : CheckoutSession}
    (h : raceStore.rows (.checkout c) = some row) : row.settledByPaymentId = none := by
  match c, h with
  | 1, h => cases h; rfl

theorem raceStore_ownedPaid : OwnedPaid raceStore := by
  intro c row hrow howned
  exact absurd (raceStore_checkout hrow) howned

theorem raceStore_inv : MoneyInv raceStore :=
  .of_fresh (fun _ _ h => raceStore_checkout h) (fun _ _ h => (raceStore_payment h).2.2.2)
    (fun _ q c hq hc => by
      obtain ⟨h, hu, _⟩ := raceStore_payment hq
      rw [h] at hc; cases hc
      exact ⟨_, rfl, hu.symm⟩)
    (fun _ q hq => by rw [(raceStore_payment hq).2.2.1]; decide) (fun _ => rfl) rfl

/-- The settlement alone, and raced by a rejection of the receipt. -/
def settleCalls : ℕ → Option PaymentCall := oneCall (.settleGatewayPayment 1)

def raceCalls (p : ℕ) : Option PaymentCall :=
  match p with
  | 0 => some (.rejectReceiptPayment 2 9 "x")
  | 1 => some (.settleGatewayPayment 1)
  | _ => none

/-- The rejection reads, the settlement runs, the rejection writes. -/
def raceRun : List (Event Choice) :=
  List.replicate 4 (.run 0 { now := 1 }) ++ List.replicate 13 (.run 1 { flag := false }) ++
    List.replicate 5 (.run 0 {})

theorem settleCalls_runs : ((Config.start raceStore (pool settleCalls)).exec topupRun).any (fun c =>
    (c.store.rows (.checkout 1)).any fun row => row.settledByPaymentId = some 1) = true := by
  decide +kernel

theorem raceRun_runs : ((Config.start raceStore (pool raceCalls)).exec raceRun).any (fun c =>
    (c.store.rows (.checkout 1)).any fun row =>
      row.settledByPaymentId = some 1 ∧ row.status = .EXPIRED) = true := by
  decide +kernel

end ZedBot
