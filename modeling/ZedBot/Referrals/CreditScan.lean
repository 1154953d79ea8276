import ZedBot.ReadCommitted.Answers
import ZedBot.Referrals.Commissions
import ZedBot.Referrals.PayoutWindows

/-! The durable credit scan of the worker, and why it converges.

    The scan asks the database for completed orders inside the payout windows that have no commission;
    the credit decides each order in its own order of checks. Both are stated as the code has them, and
    a discipline on one order connects the two: whatever the credit decides on an order that the scan
    selects, it leaves a commission behind, and it commits nothing on any other order. -/

namespace ZedBot
open ReadCommitted

/-! ### The scan -/

def REFERRAL_SCAN_BATCH : ℕ := 500

/-- One condition on `completedAt`: `gte` a bound, and `lte` another where there is one. -/
structure CompletedRange where
  gte : ℤ
  lte : Option ℤ
  deriving DecidableEq, Repr

/-- SQL's answer; a null is in no range. -/
def CompletedRange.holds (range : CompletedRange) : Option ℕ → Bool
  | none => false
  | some (completedAt : ℕ) =>
    decide (range.gte ≤ completedAt) && range.lte.all fun t => (completedAt : ℤ) ≤ t

/-- One range for each window. -/
def windowRanges (windows : List ReferralPayoutWindow) : List CompletedRange :=
  windows.map fun w => { gte := w.fromMs, lte := w.toMs }

/-- The `where` of the scan on one order. -/
def isCandidate (ranges : List CompletedRange) (v : AppView) (orderId : ℕ) : Bool :=
  match v.rows (.order orderId) with
  | none => false
  | some order =>
    decide (order.status = .COMPLETED) && (ranges.any fun r => r.holds order.completedAt) &&
      (v.rows (.referral order.userId)).isSome && (v.rows (.commission orderId)).isNone

def completedAtOf (v : AppView) (orderId : ℕ) : ℕ :=
  ((v.rows (.order orderId)).bind (·.completedAt)).getD 0

/-- The candidates of a table, oldest first, one page of them. -/
def creditScanPage (ranges : List CompletedRange) (table : List ℕ) (v : AppView) : List ℕ :=
  ((table.filter (isCandidate ranges v)).mergeSort
    fun a b => completedAtOf v a ≤ completedAtOf v b).take REFERRAL_SCAN_BATCH

/-- Adds one job for each order; an addition that fails is left out. -/
def enqueueCredits : List ℕ → App (List ℕ)
  | [] => return []
  | orderId :: orderIds => do
    let added ← external
    let jobs ← enqueueCredits orderIds
    return if added then orderId :: jobs else jobs

structure CreditScanResult where
  scanned : ℕ
  enqueued : ℕ
  jobs : List ℕ
  deriving DecidableEq, Repr

/-- Enqueues a credit for every order on the page; `table` lists the ids of the orders. -/
def runReferralCreditScan (payouts : ReferralPayoutSettings) (table : List ℕ) :
    App CreditScanResult := do
  if ¬ payouts.isEnabled then
    return ⟨0, 0, []⟩
  let windows := getReferralPayoutWindows payouts
  if windows = [] then
    return ⟨0, 0, []⟩
  let orders ← select (creditScanPage (windowRanges windows) table)
  let jobs ← enqueueCredits orders
  return ⟨orders.length, jobs.length, jobs⟩

/-- The check of the credit; a null completion is in no window. -/
def completedWithin (windows : List ReferralPayoutWindow) (completedAt : Option ℕ) : Bool :=
  completedAt.any fun t => isWithinReferralPayoutWindows t windows

/-- The credit of an order under payout settings that stay. -/
def creditUnder (payouts : ReferralPayoutSettings) (settings : Choice → ReferralConfig)
    (orderId : ℕ) : App ReferralCreditResult :=
  creditReferralCommissionForOrder orderId settings (fun _ => payouts.isEnabled)
    fun completedAt _ => completedWithin (getReferralPayoutWindows payouts) completedAt

/-- The two spellings of the windows agree: the ranges of the scan, the loop of the credit. -/
theorem any_windowRanges (windows : List ReferralPayoutWindow) (completedAt : Option ℕ) :
    ((windowRanges windows).any fun r => r.holds completedAt) = completedWithin windows completedAt := by
  cases completedAt with
  | none => simp [completedWithin, CompletedRange.holds]
  | some t =>
    simp only [completedWithin, isWithinReferralPayoutWindows, windowRanges, List.any_map]
    congr 1
    funext w
    cases w with
    | mk fromMs toMs => cases toMs <;> rfl

/-! ### What the filter reads -/

variable {payouts : ReferralPayoutSettings} {o : ℕ}

/-- The scan selects the order: it is not switched off, and the order is a candidate. -/
def ScanSelects (payouts : ReferralPayoutSettings) (s : AppStore) (orderId : ℕ) : Prop :=
  payouts.isEnabled = true ∧
    isCandidate (windowRanges (getReferralPayoutWindows payouts)) (s.view {}) orderId = true

instance (payouts : ReferralPayoutSettings) (s : AppStore) (orderId : ℕ) :
    Decidable (ScanSelects payouts s orderId) :=
  inferInstanceAs (Decidable (_ ∧ _))

/-- What the filter reads of the row of an order. -/
def scanFacts (order : Order) : ℕ × OrderStatus × Option ℕ :=
  (order.userId, order.status, order.completedAt)

/-- The order is completed inside a window, and its buyer was referred. -/
structure Payable (payouts : ReferralPayoutSettings) (rows : ∀ k, Row k) (orderId : ℕ)
    (order : Order) : Prop where
  row : rows (.order orderId) = some order
  enabled : payouts.isEnabled = true
  completed : order.status = .COMPLETED
  within : completedWithin (getReferralPayoutWindows payouts) order.completedAt = true
  referred : rows (.referral order.userId) ≠ none

theorem scanSelects_iff {s : AppStore} : ScanSelects payouts s o ↔
    (∃ order, Payable payouts s.rows o order) ∧ s.rows (.commission o) = none := by
  have hview : ∀ k, (s.view ({} : AppTx)).rows k = s.rows k := fun _ => rfl
  unfold ScanSelects isCandidate
  rw [hview]
  cases horder : s.rows (.order o) with
  | none =>
    simp only [Bool.false_eq_true, and_false, false_iff]
    rintro ⟨⟨order, h⟩, -⟩
    rw [h.row] at horder
    cases horder
  | some order =>
    simp only [hview, any_windowRanges, Bool.and_eq_true, decide_eq_true_eq, Option.isSome_iff_ne_none,
      Option.isNone_iff_eq_none]
    constructor
    · rintro ⟨he, ⟨⟨hc, hw⟩, hr⟩, hfree⟩
      exact ⟨⟨order, horder, he, hc, hw, hr⟩, hfree⟩
    · rintro ⟨⟨order', h⟩, hfree⟩
      rw [h.row] at horder
      cases horder
      exact ⟨h.enabled, ⟨⟨h.completed, h.within⟩, h.referred⟩, hfree⟩

/-- A candidate has no commission. -/
theorem free_of_candidate {ranges : List CompletedRange} {s : AppStore}
    (h : isCandidate ranges (s.view {}) o = true) : s.rows (.commission o) = none := by
  unfold isCandidate at h
  split at h
  · cases h
  · exact Option.isNone_iff_eq_none.mp (Bool.and_eq_true_iff.mp h).2

/-- A page holds orders that the scan selects. -/
theorem mem_creditScanPage {s : AppStore} {table : List ℕ} (henabled : payouts.isEnabled = true)
    (h : o ∈ creditScanPage (windowRanges (getReferralPayoutWindows payouts)) table (s.view {})) :
    ScanSelects payouts s o := by
  have hmem := List.mem_of_mem_take h
  rw [List.mem_mergeSort, List.mem_filter] at hmem
  exact ⟨henabled, hmem.2⟩

theorem wp_enqueueCredits {D : Discipline Row Entry World} {p : ℕ} {l : Local Row Entry World}
    {s : AppStore} {Q : List ℕ → Local Row Entry World → AppStore → Prop} (ids : List ℕ)
    (h : ∀ jobs, jobs ⊆ ids → Q jobs l s) : wp D p (enqueueCredits ids) Q l s := by
  induction ids generalizing Q with
  | nil => exact h [] (List.Subset.refl _)
  | cons id ids ih =>
    refine (wp_seq _ _).mpr (wp_ask _ fun added => (wp_seq _ _).mpr (ih fun jobs hjobs => ?_))
    refine h _ ?_
    split
    · exact List.cons_subset_cons _ hjobs
    · exact List.subset_cons_of_subset _ hjobs

/-- ENQUEUED: whatever happens around a scan, each of its jobs is for an order that was selected in the
    state the scan read. -/
theorem wp_runReferralCreditScan {D : Discipline Row Entry World} {p : ℕ} {r : List AppStore}
    {s : AppStore} {table : List ℕ} :
    wp D p (runReferralCreditScan payouts table)
      (fun x l _ => ∀ id ∈ x.jobs, ∃ s₁ ∈ l.reads, ScanSelects payouts s₁ id) ⟨none, r⟩ s := by
  have hnone : ∀ id ∈ ([] : List ℕ), ∃ s₁ ∈ r, ScanSelects payouts s₁ id := fun _ h => nomatch h
  unfold runReferralCreditScan
  split
  · exact hnone
  rename_i hon
  dsimp only
  split
  · exact hnone
  refine (wp_seq _ _).mpr (wp_select _ fun s₁ _ _ => ?_)
  refine (wp_seq _ _).mpr (wp_enqueueCredits _ fun jobs hjobs id hid => ?_)
  exact ⟨s₁, List.mem_cons_self, mem_creditScanPage (by simpa using hon) (hjobs hid)⟩

/-- As the filter sees the order nothing has changed, and a commission it has is still there. -/
structure Spared (o : ℕ) (rows rows' : ∀ k, Row k) : Prop where
  order : (rows' (.order o)).map scanFacts = (rows (.order o)).map scanFacts
  referral : ∀ u, (rows' (.referral u)).isSome = (rows (.referral u)).isSome
  commission : rows (.commission o) ≠ none → rows' (.commission o) ≠ none

namespace Spared

variable {rows rows' rows'' : ∀ k, Row k}

theorem refl : Spared o rows rows := ⟨rfl, fun _ => rfl, id⟩

theorem trans (h : Spared o rows rows') (h' : Spared o rows' rows'') : Spared o rows rows'' :=
  ⟨h'.order.trans h.order, fun u => (h'.referral u).trans (h.referral u),
    fun hc => h'.commission (h.commission hc)⟩

end Spared

/-! ### The discipline on one order -/

/-- Creates the commission: paid, or a marker of nothing. -/
def CreatesCommission (o : ℕ) (t : AppTx) : Prop :=
  ∃ row, t.chg (.commission o) = some (none, some row) ∧
    (row.status = .PAID ∨ row.status = .CANCELLED ∧ row.amountToman = 0)

/-- The other processes spare the order. Process `me` commits nothing, or the commission of an order
    that the scan selects in `s₀`. -/
def creditOf (payouts : ReferralPayoutSettings) (me o : ℕ) (s₀ : AppStore) :
    Discipline Row Entry World where
  Inv s := Spared o s₀.rows s.rows
  Commits q _ s t := Spared o s.rows (fun k => t.row s.rows k) ∧
    (q = me → t = {} ∨ ScanSelects payouts s₀ o ∧ CreatesCommission o t)
  Acts _ _ _ _ := True
  commits_empty _ := ⟨.refl, fun _ => .inl rfl⟩
  inv_commit hi _ h := hi.trans h.1
  inv_act hi _ := hi

variable {me p : ℕ} {s₀ s s' : AppStore} {t : AppTx} {r : List AppStore} {c c' : AppConfig}

theorem Spared.step (h : (creditOf payouts me o s₀).Step p r s s') : Spared o s.rows s'.rows := by
  cases h with
  | commit t _ h => exact h.1
  | act w _ => exact .refl

/-- A commission that is there stays. -/
theorem commission_kept {q : ℕ} {r : List AppStore} {s s' : AppStore}
    (_ : (creditOf payouts me o s₀).Inv s) (h : (creditOf payouts me o s₀).Step q r s s')
    (hc : s.rows (.commission o) ≠ none) : s'.rows (.commission o) ≠ none :=
  (Spared.step h).commission hc

/-- A statement of another program: the order, the presence of referrals and a commission of the order
    stay as the filter sees them. -/
def SparesOrder (o : ℕ) : StmtCond Row Entry := fun v writes _ =>
  (∀ n, ⟨.order o, n⟩ ∈ writes → n.map scanFacts = (v.rows (.order o)).map scanFacts) ∧
    (∀ u n, ⟨.referral u, n⟩ ∈ writes → n.isSome = (v.rows (.referral u)).isSome) ∧
    ∀ n, ⟨.commission o, n⟩ ∈ writes → n ≠ none

/-- Every change of a transaction spares the order. -/
structure SparingTx (o : ℕ) (rows : ∀ k, Row k) (t : AppTx) : Prop where
  order : ∀ a b, t.chg (.order o) = some (a, b) → b.map scanFacts = (rows (.order o)).map scanFacts
  referral : ∀ u a b, t.chg (.referral u) = some (a, b) → b.isSome = (rows (.referral u)).isSome
  commission : ∀ a b, t.chg (.commission o) = some (a, b) → b ≠ none

/-- The row that a change has written. -/
theorem row_of_change {rows : ∀ k, Row k} {k : Key} {a b : Row k} (h : t.chg k = some (a, b)) :
    t.row rows k = b := by
  simp [Tx.row, h]

namespace SparingTx

variable {rows rows' : ∀ k, Row k}

theorem empty : SparingTx o rows {} := by
  refine ⟨fun a b h => ?_, fun u a b h => ?_, fun a b h => ?_⟩ <;> cases h

theorem spared (h : SparingTx o rows t) : Spared o rows fun k => t.row rows k := by
  refine ⟨?_, fun u => ?_, fun hc => ?_⟩
  · cases hchg : t.chg (.order o) with
    | none => rw [Tx.row_of_chg hchg]
    | some x => rw [row_of_change hchg, h.order _ _ hchg]
  · cases hchg : t.chg (.referral u) with
    | none => rw [Tx.row_of_chg hchg]
    | some x => rw [row_of_change hchg, h.referral u _ _ hchg]
  · cases hchg : t.chg (.commission o) with
    | none => rwa [Tx.row_of_chg hchg]
    | some x => rw [row_of_change hchg]; exact h.commission _ _ hchg

/-- It spares the order of a later state as well. -/
theorem later (h : SparingTx o rows t) (hs : Spared o rows rows') : SparingTx o rows' t :=
  ⟨fun a b hx => (h.order a b hx).trans hs.order.symm,
    fun u a b hx => (h.referral u a b hx).trans (hs.referral u).symm, h.commission⟩

theorem add {β : Type} {e : Effect Row Entry β} (h : SparingTx o s.rows t)
    (he : SparesOrder o (s.view t) e.writes e.entries) : SparingTx o s.rows (t.add s.rows e) := by
  obtain ⟨horder, href, hcom⟩ := he
  refine ⟨fun a b hx => ?_, fun u a b hx => ?_, fun a b hx => ?_⟩
  · rcases Tx.chg_add hx with hx | ⟨-, hmem⟩
    · exact h.order a b hx
    · exact (horder b hmem).trans h.spared.order
  · rcases Tx.chg_add hx with hx | ⟨-, hmem⟩
    · exact h.referral u a b hx
    · exact (href u b hmem).trans (h.spared.referral u)
  · rcases Tx.chg_add hx with hx | ⟨-, hmem⟩
    · exact h.commission a b hx
    · exact hcom b hmem

end SparingTx

/-- The other programs are accepted. -/
theorem sparesRules (hp : p ≠ me) : StmtRules (creditOf payouts me o s₀) p (SparesOrder o)
    (fun _ _ => True) fun s t => SparingTx o s.rows t where
  start _ := .empty
  env _ hst h := h.later (Spared.step hst)
  add _ h he := h.add he
  commits _ _ h := ⟨h.spared, fun he => absurd he hp⟩
  acts _ _ := trivial

/-! ### The credit -/

/-- The order's commission a credit ends with. -/
def SettledRow (row : ReferralCommission) : Prop :=
  row.status = .PAID ∨ row.status = .CANCELLED ∧ row.amountToman = 0

/-- The credit transaction so far: the order is untouched, referrals stay, and `x` is the change of
    the commission. -/
structure Crediting (o : ℕ) (x : Option (Option ReferralCommission × Option ReferralCommission))
    (t : AppTx) : Prop where
  order : t.chg (.order o) = none
  referral : ∀ u a b, t.chg (.referral u) = some (a, b) → a.isSome = b.isSome
  commission : t.chg (.commission o) = x

namespace Crediting

variable {rows : ∀ k, Row k} {x : Option (Option ReferralCommission × Option ReferralCommission)}

theorem empty : Crediting o none {} := by
  refine ⟨rfl, fun u a b h => ?_, rfl⟩
  cases h

theorem writeUser (h : Crediting o x t) (u : ℕ) (n : Option User) :
    Crediting o x (t.write rows ⟨.user u, n⟩) := by
  refine ⟨?_, fun u' a b hx => h.referral u' a b ?_, ?_⟩
  · rw [Tx.chg_write_ne _ (by simp)]; exact h.order
  · rwa [Tx.chg_write_ne _ (by simp)] at hx
  · rw [Tx.chg_write_ne _ (by simp)]; exact h.commission

theorem writeReferral (h : Crediting o x t) {u : ℕ} {q : Referral} (n : Referral)
    (hrow : t.row rows (.referral u) = some q) :
    Crediting o x (t.write rows ⟨.referral u, some n⟩) := by
  refine ⟨?_, fun u' a b hx => ?_, ?_⟩
  · rw [Tx.chg_write_ne _ (by simp)]; exact h.order
  · rcases eq_or_ne u' u with rfl | hne
    · rw [Tx.chg_write_self] at hx
      cases hx
      cases hchg : t.chg (.referral u') with
      | none =>
        rw [Tx.row_of_chg hchg] at hrow
        rw [Tx.base_of_chg hchg, hrow]
        rfl
      | some y =>
        obtain ⟨a, b⟩ := y
        rw [row_of_change hchg] at hrow
        have hbase : t.base rows (.referral u') = a := by simp [Tx.base, hchg]
        rw [hbase, h.referral u' a b hchg, hrow]
        rfl
    · rw [Tx.chg_write_ne _ (by simpa using hne)] at hx
      exact h.referral u' a b hx
  · rw [Tx.chg_write_ne _ (by simp)]; exact h.commission

/-- The commission is created where there is none. -/
theorem create (h : Crediting o none t) (row : ReferralCommission)
    (hfree : rows (.commission o) = none) :
    Crediting o (some (none, some row)) (t.write rows ⟨.commission o, some row⟩) := by
  refine ⟨?_, fun u a b hx => h.referral u a b ?_, ?_⟩
  · rw [Tx.chg_write_ne _ (by simp)]; exact h.order
  · rwa [Tx.chg_write_ne _ (by simp)] at hx
  · rw [Tx.chg_write_self, Tx.base_of_chg h.commission, hfree]

theorem append (h : Crediting o x t) (js : List Entry) : Crediting o x (t.append js) :=
  ⟨h.order, h.referral, h.commission⟩

/-- A finished transaction spares the order. -/
theorem sparing {row : ReferralCommission} (h : Crediting o (some (none, some row)) t)
    (hh : t.Held rows) : SparingTx o rows t := by
  refine ⟨fun a b hx => ?_, fun u a b hx => ?_, fun a b hx => ?_⟩
  · rw [h.order] at hx
    cases hx
  · rw [← hh _ _ _ hx, h.referral u a b hx]
  · rw [h.commission] at hx
    cases hx
    exact Option.some_ne_none _

end Crediting

section Credit

variable {D : Discipline Row Entry World} {orderId u : ℕ} {order : Order} {referral : Referral}
  {decision : ReferralCommissionDecision} {percent : ℤ} {now : ℕ}

/-- How the body of a credit ends: the commission is created, it was there before, or the rest
    failed. -/
def BodyEnded (o : ℕ) {α : Type} (x : Except CreditThrow α) (l : Local Row Entry World)
    (s : AppStore) : Prop :=
  match x with
  | .ok _ => ∃ t row, l.tx = some t ∧ Crediting o (some (none, some row)) t ∧ SettledRow row
  | .error .p2002 => s.rows (.commission o) ≠ none
  | .error .crash => True

/-- The insert of a commission inside the transaction. -/
theorem wp_createCommission_in {row : ReferralCommission}
    {Q : Bool → Local Row Entry World → AppStore → Prop} (h : Crediting o none t)
    (htaken : ∀ s', s'.rows (.commission o) ≠ none → Q false ⟨some t, r⟩ s')
    (hfree : ∀ s' t', Crediting o (some (none, some row)) t' → Q true ⟨some t', r⟩ s') :
    wp D p (createCommission o row) Q ⟨some t, r⟩ s := by
  refine wp_sql_tx fun s' _ _ _ => ?_
  simp only [Store.view, Tx.row_of_chg h.commission]
  cases hrow : s'.rows (.commission o) with
  | some q =>
    have hnoop : t.add s'.rows ({ result := false } : Effect Row Entry Bool) = t := by simp [Tx.add]
    rw [hnoop]
    exact htaken s' (by rw [hrow]; exact Option.some_ne_none _)
  | none =>
    refine hfree s' _ ?_
    simpa [Tx.add] using (h.create row hrow).append [.commission o]

theorem wp_markNotFirst_ends (h : Crediting o none t) :
    wp D p (markNotFirst o order referral percent) (BodyEnded o) ⟨some t, r⟩ s := by
  refine (wp_seq _ _).mpr (wp_createCommission_in h (fun s' hs => ?_) fun s' t' h' => ?_)
  · exact hs
  · exact ⟨t', _, rfl, h', .inr ⟨rfl, rfl⟩⟩

theorem wp_creditReferrer_keeps {amount price : ℤ}
    {x : Option (Option ReferralCommission × Option ReferralCommission)} (h : Crediting o x t) :
    wp D p (creditReferrer orderId u amount price) (fun y l _ => match y with
      | .ok _ => ∃ t', l.tx = some t' ∧ Crediting o x t'
      | .error e => e = .crash) ⟨some t, r⟩ s := by
  refine (wp_seq _ _).mpr (wp_update_tx fun s₁ _ _ _ => ⟨fun _ => rfl, fun n _ => ?_⟩)
  refine (wp_seq _ _).mpr (wp_select _ fun s₂ _ _ => ?_)
  split
  · exact rfl
  · refine (wp_seq _ _).mpr (wp_append_tx fun s₃ _ _ => ?_)
    exact ⟨_, rfl, (h.writeUser u n).append _⟩

theorem wp_payCommission_ends (h : Crediting o none t) :
    wp D p (payCommission o order referral decision now) (BodyEnded o) ⟨some t, r⟩ s := by
  refine (wp_seq _ _).mpr (wp_createCommission_in h (fun s' hs => ?_) fun s' t' h' => ?_)
  · exact hs
  refine (wp_seq _ _).mpr (wp_mono _ (fun y l s₂ hy => ?_) (wp_creditReferrer_keeps h'))
  cases y with
  | error e =>
    cases hy
    trivial
  | ok y =>
    obtain ⟨tx, reads⟩ := l
    obtain ⟨t₂, rfl, h₂⟩ := hy
    refine (wp_seq _ _).mpr (wp_update_tx fun s₃ _ _ _ => ⟨fun _ => trivial, fun n hn => ?_⟩)
    obtain ⟨q, hq, -, rfl⟩ := onRow_eq_some.mp hn
    exact ⟨_, _, rfl, h₂.writeReferral _ hq, .inl rfl⟩

end Credit

/-- What a call has done when it ends in a state: it has left a commission, and it has created one
    only if the scan had selected the order. -/
structure CreditEnded (payouts : ReferralPayoutSettings) (me o : ℕ) (s₀ : AppStore)
    (created failed : Prop) (l : Local Row Entry World) (s : AppStore) : Prop where
  closed : l.tx = none
  inv : (creditOf payouts me o s₀).Inv s
  left : ¬ failed → s.rows (.commission o) ≠ none
  selected : created → ScanSelects payouts s₀ o

section Calls

variable {order : Order} {referral : Referral} {decision : ReferralCommissionDecision}
  {percent : ℤ} {now : ℕ} {first : Bool}

/-- A commission that is created where the discipline stands was missing from the start. -/
theorem selects_of_free (hpay : ∃ order, Payable payouts s₀.rows o order)
    (hi : (creditOf payouts me o s₀).Inv s) (hfree : s.rows (.commission o) = none) :
    ScanSelects payouts s₀ o := by
  refine scanSelects_iff.mpr ⟨hpay, ?_⟩
  by_contra hc
  exact hi.commission hc hfree

/-- A commit that creates the commission of a payable order. -/
theorem ended_of_create {row : ReferralCommission} (hpay : ∃ order, Payable payouts s₀.rows o order)
    (hi : (creditOf payouts me o s₀).Inv s) (hh : t.Held s.rows)
    (h : Crediting o (some (none, some row)) t) (hrow : SettledRow row) {created failed : Prop} :
    (creditOf payouts me o s₀).Commits me r s t ∧
      CreditEnded payouts me o s₀ created failed ⟨none, r⟩ (s.commit me t) := by
  have hsel := selects_of_free hpay hi (hh _ _ _ h.commission).symm
  have hc : (creditOf payouts me o s₀).Commits me r s t :=
    ⟨(h.sparing hh).spared, fun _ => .inr ⟨hsel, row, h.commission, hrow⟩⟩
  refine ⟨hc, rfl, (creditOf payouts me o s₀).inv_commit hi hh hc, fun _ => ?_, fun _ => hsel⟩
  simp [Store.commit, Tx.row, h.commission]

theorem wp_recordNoCommissionMarker_ends (hpay : ∃ order, Payable payouts s₀.rows o order) {u : ℕ} :
    wp (creditOf payouts me o s₀) me (recordNoCommissionMarker o referral u percent)
      (fun _ l s => CreditEnded payouts me o s₀ False False l s) ⟨none, r⟩ s := by
  refine (wp_seq _ _).mpr (wp_createCommission_alone fun s' _ hi => ⟨fun hc => ?_, fun hfree => ?_⟩)
  · have hnoop : (creditOf payouts me o s₀).Commits me r s' {} :=
      (creditOf payouts me o s₀).commits_empty hi
    exact ⟨rfl, (creditOf payouts me o s₀).inv_commit hi (Tx.Held.empty _) hnoop, fun _ => hc,
      False.elim⟩
  · have hcreated := (Crediting.empty.create
      { referredUserId := u
        referrerUserId := referral.referrerUserId
        amountToman := 0
        percent := percent
        status := .CANCELLED } hfree).append [.commission o]
    refine ended_of_create hpay hi ?_ hcreated (.inr ⟨rfl, rfl⟩)
    exact (Tx.Held.empty _).write _

theorem wp_creditBody_ends :
    wp (creditOf payouts me o s₀) me
      (do
        let _ ← lockReferral order.userId
        if first then
          let prior ← select fun v => priorCommissions v order.userId o
          if 0 < prior then
            markNotFirst o order referral decision.percent
          else
            payCommission o order referral decision now
        else
          payCommission o order referral decision now) (BodyEnded o) ⟨some {}, r⟩ s := by
  have hgo : ∀ (t : AppTx) (r : List AppStore) (s : AppStore), Crediting o none t →
      wp (creditOf payouts me o s₀) me
        (if first then do
          let prior ← select fun v => priorCommissions v order.userId o
          if 0 < prior then
            markNotFirst o order referral decision.percent
          else
            payCommission o order referral decision now
        else
          payCommission o order referral decision now) (BodyEnded o) ⟨some t, r⟩ s := by
    intro t r s h
    split
    · refine (wp_seq _ _).mpr (wp_select _ fun s₂ _ _ => ?_)
      split
      · exact wp_markNotFirst_ends h
      · exact wp_payCommission_ends h
    · exact wp_payCommission_ends h
  refine (wp_seq _ _).mpr (wp_update_tx fun s₁ _ _ _ => ⟨fun _ => hgo _ _ _ .empty, fun n hn => ?_⟩)
  obtain ⟨q, hq, -, rfl⟩ := onRow_eq_some.mp hn
  exact hgo _ _ _ (Crediting.empty.writeReferral _ hq)

theorem wp_creditTransaction_ends (hpay : ∃ order, Payable payouts s₀.rows o order)
    (hi : (creditOf payouts me o s₀).Inv s) :
    wp (creditOf payouts me o s₀) me (creditTransaction o order referral decision first now)
      (fun x l s => CreditEnded payouts me o s₀ (∃ y, x = .ok y) (x = .error .crash) l s)
      ⟨none, r⟩ s := by
  refine wp_transaction (wp_mono _ (fun x l s₁ hx => ?_)
    (wp_frame (K := fun _ => True) (fun _ _ _ => trivial) _ hi trivial wp_creditBody_ends))
  obtain ⟨hx, hi₁, -⟩ := hx
  match x with
  | .ok y =>
    intro s₂ _ hi₂ hh
    obtain ⟨tx, reads⟩ := l
    obtain ⟨t, row, rfl, h, hrow⟩ := hx
    exact ended_of_create hpay hi₂ hh h hrow
  | .error .p2002 => exact ⟨rfl, hi₁, fun _ => hx, fun ⟨y, hy⟩ => nomatch hy⟩
  | .error .crash => exact ⟨rfl, hi₁, fun hne => (hne rfl).elim, fun ⟨y, hy⟩ => nomatch hy⟩

end Calls

/-! ### The call -/

/-- The order as the call read it is the order of the start. -/
theorem Spared.order_eq {rows rows' : ∀ k, Row k} (h : Spared o rows rows') {order : Order}
    (hrow : rows' (.order o) = some order) :
    ∃ order', rows (.order o) = some order' ∧ scanFacts order' = scanFacts order := by
  have hfacts := h.order
  rw [hrow] at hfacts
  exact Option.map_eq_some_iff.mp hfacts.symm

theorem Spared.symm_order {rows rows' : ∀ k, Row k} (h : Spared o rows rows') {order : Order}
    (hrow : rows (.order o) = some order) :
    ∃ order', rows' (.order o) = some order' ∧ scanFacts order' = scanFacts order := by
  have hfacts := h.order
  rw [hrow] at hfacts
  exact Option.map_eq_some_iff.mp hfacts

/-- What a call that returns `x` has done. -/
abbrev CallCredited (payouts : ReferralPayoutSettings) (me o : ℕ) (s₀ : AppStore)
    (x : ReferralCreditResult) : Local Row Entry World → AppStore → Prop :=
  CreditEnded payouts me o s₀ (∃ n, x = .credited n)
    (x = .threw ∨ ¬ ∃ order, Payable payouts s₀.rows o order)

theorem wp_creditUnder_ends {settings : Choice → ReferralConfig}
    (hi : (creditOf payouts me o s₀).Inv s) :
    wp (creditOf payouts me o s₀) me (creditUnder payouts settings o)
      (CallCredited payouts me o s₀) ⟨none, r⟩ s := by
  have hunpayable : ∀ (x : ReferralCreditResult) (r : List AppStore) (s : AppStore),
      (creditOf payouts me o s₀).Inv s → (∀ n, x ≠ .credited n) →
      (∀ order, ¬ Payable payouts s₀.rows o order) →
      CallCredited payouts me o s₀ x ⟨none, r⟩ s := by
    refine fun x r s hi hx hnot => ⟨rfl, hi, fun h => (h (.inr ?_)).elim, ?_⟩
    · rintro ⟨order, hp⟩
      exact hnot order hp
    · rintro ⟨n, hn⟩
      exact absurd hn (hx n)
  refine (wp_seq _ _).mpr (wp_ask _ fun _ => ?_)
  split
  · rename_i hoff
    exact hunpayable _ _ _ hi (by rintro _ ⟨⟩) fun order h => hoff h.enabled
  rename_i hon
  refine (wp_seq _ _).mpr (wp_select _ fun s₁ _ hi₁ => ?_)
  split
  case h_2 hmissing =>
    refine hunpayable _ _ _ hi₁ (by rintro _ ⟨⟩) fun order h => ?_
    obtain ⟨order', hrow, -⟩ := Spared.symm_order hi₁ h.row
    exact hmissing _ hrow
  rename_i order hrow
  obtain ⟨order₀, hrow₀, hfacts⟩ := Spared.order_eq hi₁ hrow
  simp only [scanFacts, Prod.mk.injEq] at hfacts
  obtain ⟨huser, hstatus, hcompleted⟩ := hfacts
  have horder : ∀ order', Payable payouts s₀.rows o order' → order' = order₀ := fun order' h =>
    Option.some.inj (h.row.symm.trans hrow₀)
  split
  · rename_i hnot
    refine hunpayable _ _ _ hi₁ (by rintro _ ⟨⟩) fun order' h => ?_
    obtain rfl := horder order' h
    rcases hnot with hnot | hnull
    · exact hnot (hstatus ▸ h.completed)
    · have hin := h.within
      rw [hcompleted, hnull] at hin
      cases hin
  rename_i hcompleted'
  refine (wp_seq _ _).mpr (wp_ask _ fun _ => ?_)
  split
  · rename_i hout
    refine hunpayable _ _ _ hi₁ (by rintro _ ⟨⟩) fun order' h => ?_
    obtain rfl := horder order' h
    exact hout (hcompleted ▸ h.within)
  rename_i hin
  refine (wp_seq _ _).mpr (wp_select _ fun s₂ _ hi₂ => ?_)
  split
  case h_2 hmissing =>
    refine hunpayable _ _ _ hi₂ (by rintro _ ⟨⟩) fun order' h => ?_
    obtain rfl := horder order' h
    have hsome := hi₂.referral order.userId
    rw [← huser, Option.isSome_iff_ne_none.mpr h.referred] at hsome
    obtain ⟨referral, hreferral⟩ := Option.isSome_iff_exists.mp hsome
    exact hmissing referral (huser ▸ hreferral)
  rename_i referral hreferral
  have hpay : ∃ order, Payable payouts s₀.rows o order := by
    push Not at hcompleted'
    refine ⟨order₀, hrow₀, by simpa using hon, hstatus ▸ hcompleted'.1, ?_, ?_⟩
    · rw [hcompleted]
      simpa using hin
    · have hsome := hi₂.referral order.userId
      rw [show s₂.rows (.referral order.userId) = some referral from hreferral] at hsome
      rw [huser]
      exact Option.isSome_iff_ne_none.mp hsome.symm
  have hmarker : ∀ (u : ℕ) (percent : ℤ) (x : ReferralCreditResult) (r : List AppStore)
      (s : AppStore), (∀ n, x ≠ .credited n) →
      wp (creditOf payouts me o s₀) me (recordNoCommissionMarker o referral u percent >>= fun _ =>
        (pure x : App ReferralCreditResult)) (CallCredited payouts me o s₀) ⟨none, r⟩ s := by
    intro u percent x r s hx
    refine (wp_seq _ _).mpr (wp_mono _ (fun _ l s h => ?_) (wp_recordNoCommissionMarker_ends hpay))
    refine ⟨h.closed, h.inv, fun _ => h.left id, ?_⟩
    rintro ⟨n, hn⟩
    exact absurd hn (hx n)
  split
  · exact hmarker _ _ _ _ _ (by rintro _ ⟨⟩)
  refine (wp_seq _ _).mpr (wp_ask _ fun _ => ?_)
  split
  · exact hmarker _ _ _ _ _ (by rintro _ ⟨⟩)
  refine (wp_seq _ _).mpr (wp_ask _ fun _ => ?_)
  dsimp only
  split
  · exact hmarker _ _ _ _ _ (by rintro _ ⟨⟩)
  refine (wp_seq _ _).mpr (wp_ask _ fun now => ?_)
  refine (wp_seq _ _).mpr (wp_mono _ (fun x l s h => ?_) (wp_creditTransaction_ends hpay hi₂))
  cases x with
  | ok y => exact ⟨h.closed, h.inv, fun _ => h.left (by rintro ⟨⟩), fun _ => h.selected ⟨y, rfl⟩⟩
  | error e =>
    cases e with
    | p2002 => exact ⟨h.closed, h.inv, fun _ => h.left (by rintro ⟨⟩), by rintro ⟨n, ⟨⟩⟩⟩
    | crash => exact ⟨h.closed, h.inv, fun hne => (hne (.inl rfl)).elim, by rintro ⟨n, ⟨⟩⟩⟩

end ZedBot
