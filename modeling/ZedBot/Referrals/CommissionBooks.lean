import Mathlib.Algebra.BigOperators.Group.List.Basic
import Mathlib.Algebra.Order.Ring.Int
import ZedBot.Payments.Adjustments
import ZedBot.ReadCommitted.Statements

/-! The books of the referral commissions.

    A commission is worth what was credited for its order less what was clawed back, and a referral
    counts what its commissions are worth. A transaction books one commission, with its ledger row and
    its referral, or none. -/

namespace ZedBot
open ReadCommitted

/-! ### The books -/

/-- What a commission is still worth to its referrer. -/
def ReferralCommission.net (c : ReferralCommission) : ℤ := c.amountToman - c.recoveredToman

/-- The four forms of a commission. -/
inductive ReferralCommission.Form (c : ReferralCommission) : Prop
  | paid (status : c.status = .PAID) (amount : 0 < c.amountToman) (recovered : c.recoveredToman = 0)
  | reversalPending (status : c.status = .REVERSAL_PENDING) (recovered : 0 ≤ c.recoveredToman)
      (debt : c.recoveredToman + c.recoveryOutstandingToman = c.amountToman)
      (owing : 0 < c.recoveryOutstandingToman)
  | reversed (status : c.status = .REVERSED) (recovered : c.recoveredToman = c.amountToman)
      (debt : c.recoveryOutstandingToman = 0) (amount : 0 ≤ c.amountToman)
  | cancelled (status : c.status = .CANCELLED) (amount : c.amountToman = 0)
      (recovered : c.recoveredToman = 0)

theorem ReferralCommission.Form.net_bounds {c : ReferralCommission} (h : c.Form) :
    0 ≤ c.net ∧ c.net ≤ c.amountToman := by
  unfold ReferralCommission.net
  cases h <;> omega

/-- The ledger rows of one type of the referral system for an order and a user, summed. -/
def movedFor (type : WalletTransactionType) (orderId userId : ℕ) (journal : List Entry) : ℤ :=
  (journal.map fun
    | .wallet w =>
      if w.type = type ∧ w.source = .REFERRAL ∧ w.relatedOrderId = some orderId ∧ w.userId = userId
      then w.amountToman else 0
    | .draft _ | .openPayment _ | .commission _ => 0).sum

/-- The sum credited to a user for an order. -/
def creditedFor : ℕ → ℕ → List Entry → ℤ := movedFor .COMMISSION

/-- The sum clawed back from a user for an order. -/
def clawedBackFor : ℕ → ℕ → List Entry → ℤ := movedFor .SYSTEM_ADJUSTMENT

def keptFor (orderId userId : ℕ) (journal : List Entry) : ℤ :=
  creditedFor orderId userId journal - clawedBackFor orderId userId journal

theorem keptFor_append (o u : ℕ) (js ks : List Entry) :
    keptFor o u (js ++ ks) = keptFor o u js + keptFor o u ks := by
  simp only [keptFor, creditedFor, clawedBackFor, movedFor, List.map_append, List.sum_append]
  omega

@[simp] theorem keptFor_nil (o u : ℕ) : keptFor o u [] = 0 := rfl

theorem commissionIds_append (js ks : List Entry) :
    commissionIds (js ++ ks) = commissionIds js ++ commissionIds ks := List.filterMap_append ..

/-- What the commission row of an order counts for a referral. -/
def netAt (referredUserId : ℕ) : Option ReferralCommission → ℤ
  | some c => if c.referredUserId = referredUserId then c.net else 0
  | none => 0

/-- What the commissions of a referral are worth together. -/
def netsOf (referredUserId : ℕ) (s : AppStore) : ℤ :=
  ((commissionIds s.journal).map fun o => netAt referredUserId (s.rows (.commission o))).sum

/-- The books are in order. -/
structure Books (s : AppStore) : Prop where
  /-- Each order has at most one commission, and the listing names them all. -/
  once : (commissionIds s.journal).Nodup
  listed : ∀ o, o ∈ commissionIds s.journal ↔ s.rows (.commission o) ≠ none
  form : ∀ o c, s.rows (.commission o) = some c → c.Form
  kept : ∀ o c, s.rows (.commission o) = some c → keptFor o c.referrerUserId s.journal = c.net
  silent : ∀ o u, s.rows (.commission o) = none → keptFor o u s.journal = 0
  owned : ∀ o c, s.rows (.commission o) = some c → s.rows (.referral c.referredUserId) ≠ none
  total : ∀ u r, s.rows (.referral u) = some r → r.totalCommissionAmountToman = netsOf u s

/-- No two commissions of a referral consume its first purchase. -/
def FirstOnly (s : AppStore) : Prop :=
  ∀ o o' c c', s.rows (.commission o) = some c → s.rows (.commission o') = some c' →
    c.referredUserId = c'.referredUserId → consumesFirstPurchase c.status →
    consumesFirstPurchase c'.status → o = o'

/-! ### What a transaction books -/

/-- The total of a referral moves by `d`. -/
def ReferralMoves (d : ℤ) : Option (Option Referral × Option Referral) → Prop
  | none => d = 0
  | some (o, n) => ∃ r r', o = some r ∧ n = some r' ∧
      r'.totalCommissionAmountToman = r.totalCommissionAmountToman + d

/-- A transaction that books nothing: rows are locked, referrals are created empty. -/
structure QuietTx (t : AppTx) : Prop where
  commission : ∀ o x, t.chg (.commission o) = some x → x.1 = x.2
  ids : commissionIds t.entries = []
  ledger : ∀ o u, keptFor o u t.entries = 0
  referral : ∀ u x, t.chg (.referral u) = some x → ReferralMoves 0 (some x) ∨
    x.1 = none ∧ ∃ r, x.2 = some r ∧ r.totalCommissionAmountToman = 0

/-- The net of a row that may be missing. -/
def netOf (c : Option ReferralCommission) : ℤ := (c.map (·.net)).getD 0

/-- A transaction that books the commission of order `o`. -/
structure BookTx (o : ℕ) (old : Option ReferralCommission) (new : ReferralCommission)
    (t : AppTx) : Prop where
  commission : t.chg (.commission o) = some (old, some new)
  others : ∀ o', o' ≠ o → t.chg (.commission o') = none
  form : new.Form
  /-- A commission is created before anything was recovered, and changed only while it is open. -/
  fresh : old = none → consumesFirstPurchase new.status → 0 < new.net
  same : ∀ c, old = some c → c.referrerUserId = new.referrerUserId ∧
    c.referredUserId = new.referredUserId ∧ consumesFirstPurchase c.status
  ids : commissionIds t.entries = if old = none then [o] else []
  ledger : ∀ o' u, keptFor o' u t.entries =
    if o' = o ∧ u = new.referrerUserId then new.net - netOf old else 0
  referral : ∀ u, ReferralMoves (if u = new.referredUserId then new.net - netOf old else 0)
    (t.chg (.referral u))

/-! ### The books after a commit -/

/-- A sum over a list without repetitions, where one element counts differently. -/
theorem sum_map_replace {l : List ℕ} (hl : l.Nodup) {f g : ℕ → ℤ} {o : ℕ} (ho : o ∈ l)
    (h : ∀ x, x ≠ o → g x = f x) : (l.map g).sum = (l.map f).sum + (g o - f o) := by
  induction l with
  | nil => cases ho
  | cons x xs ih =>
    rw [List.nodup_cons] at hl
    simp only [List.map_cons, List.sum_cons]
    rcases List.mem_cons.mp ho with rfl | hmem
    · have hrest : xs.map g = xs.map f :=
        List.map_congr_left fun y hy => h y fun he => hl.1 (he ▸ hy)
      rw [hrest]
      omega
    · rw [ih hl.2 hmem, h x fun he => hl.1 (he ▸ hmem)]
      omega

variable {s : AppStore} {t : AppTx} {p o u : ℕ} {old : Option ReferralCommission}
  {new : ReferralCommission}

/-- A referral whose total moves is there before and after. -/
theorem ReferralMoves.row {d : ℤ} (h : ReferralMoves d (t.chg (.referral u)))
    (hh : t.Held s.rows) {r' : Referral} (hr : (s.commit p t).rows (.referral u) = some r') :
    ∃ r, s.rows (.referral u) = some r ∧
      r'.totalCommissionAmountToman = r.totalCommissionAmountToman + d := by
  cases hchg : t.chg (.referral u) with
  | none =>
    rw [hchg] at h
    rw [Store.commit_rows_of_free _ _ (by simp [Tx.Holds, hchg])] at hr
    exact ⟨r', hr, by rw [show d = 0 from h, add_zero]⟩
  | some x =>
    obtain ⟨a, b⟩ := x
    rw [hchg] at h
    obtain ⟨r, r'', rfl, rfl, htotal⟩ := h
    have hold := hh _ _ _ hchg
    simp only [Store.commit, Tx.row, hchg] at hr
    cases hr
    exact ⟨r, hold.symm, htotal⟩

theorem ReferralMoves.stays {d : ℤ} (h : ReferralMoves d (t.chg (.referral u)))
    (hr : s.rows (.referral u) ≠ none) : (s.commit p t).rows (.referral u) ≠ none := by
  cases hchg : t.chg (.referral u) with
  | none => rwa [Store.commit_rows_of_free _ _ (by simp [Tx.Holds, hchg])]
  | some x =>
    obtain ⟨a, b⟩ := x
    rw [hchg] at h
    obtain ⟨r, r', -, rfl, -⟩ := h
    simp [Store.commit, Tx.row, hchg]

theorem QuietTx.commission_row (h : QuietTx t) (hh : t.Held s.rows) (o : ℕ) :
    (s.commit p t).rows (.commission o) = s.rows (.commission o) := by
  rcases s.commit_rows p hh (.commission o) with ⟨he, -⟩ | hchg
  · exact he
  · exact (h.commission o _ hchg).symm

theorem QuietTx.referral_stays (h : QuietTx t) (hr : s.rows (.referral u) ≠ none) :
    (s.commit p t).rows (.referral u) ≠ none := by
  cases hchg : t.chg (.referral u) with
  | none => rwa [Store.commit_rows_of_free _ _ (by simp [Tx.Holds, hchg])]
  | some x =>
    obtain ⟨a, b⟩ := x
    have hb : ∃ r, b = some r := by
      rcases h.referral u _ hchg with ⟨_, r, -, hb, -⟩ | ⟨-, r, hb, -⟩ <;> exact ⟨r, hb⟩
    obtain ⟨r, rfl⟩ := hb
    simp [Store.commit, Tx.row, hchg]

theorem QuietTx.netsOf_eq (h : QuietTx t) (hh : t.Held s.rows) (u : ℕ) :
    netsOf u (s.commit p t) = netsOf u s := by
  simp only [netsOf, Store.journal_commit, commissionIds_append, h.ids, List.append_nil,
    h.commission_row hh]

theorem Books.quiet (hb : Books s) (hh : t.Held s.rows) (h : QuietTx t) :
    Books (s.commit p t) := by
  have hids : commissionIds (s.commit p t).journal = commissionIds s.journal := by
    rw [Store.journal_commit, commissionIds_append, h.ids, List.append_nil]
  have hkept : ∀ o u, keptFor o u (s.commit p t).journal = keptFor o u s.journal := by
    intro o u
    rw [Store.journal_commit, keptFor_append, h.ledger, add_zero]
  refine ⟨hids ▸ hb.once, fun o => ?_, fun o c hc => ?_, fun o c hc => ?_, fun o u hc => ?_,
    fun o c hc => ?_, fun u r hr => ?_⟩
  · rw [hids, h.commission_row hh]
    exact hb.listed o
  · exact hb.form o c (h.commission_row hh o ▸ hc)
  · rw [hkept]
    exact hb.kept o c (h.commission_row hh o ▸ hc)
  · rw [hkept]
    exact hb.silent o u (h.commission_row hh o ▸ hc)
  · exact h.referral_stays (hb.owned o c (h.commission_row hh o ▸ hc))
  · rw [h.netsOf_eq hh]
    cases hchg : t.chg (.referral u) with
    | none =>
      rw [Store.commit_rows_of_free _ _ (by simp [Tx.Holds, hchg])] at hr
      exact hb.total u r hr
    | some x =>
      rcases h.referral u x hchg with hmoves | ⟨hnone, r', hnew, hzero⟩
      · obtain ⟨r₀, hr₀, htotal⟩ := ReferralMoves.row (hchg ▸ hmoves) hh hr
        rw [htotal, add_zero]
        exact hb.total u r₀ hr₀
      · -- a new referral has no commissions
        have hrow : s.rows (.referral u) = none := (hh _ _ _ hchg).symm.trans hnone
        have hzeros : ∀ o, netAt u (s.rows (.commission o)) = 0 := by
          intro o
          cases hc : s.rows (.commission o) with
          | none => rfl
          | some c =>
            refine if_neg fun he => hb.owned o c hc ?_
            rw [he, hrow]
        obtain ⟨a, b⟩ := x
        dsimp only at hnew
        subst hnew
        simp only [Store.commit, Tx.row, hchg] at hr
        cases hr
        rw [hzero, netsOf]
        simp [hzeros]

theorem BookTx.row (h : BookTx o old new t) : (s.commit p t).rows (.commission o) = some new := by
  simp [Store.commit, Tx.row, h.commission]

theorem BookTx.other_row (h : BookTx o old new t) {o' : ℕ} (ho : o' ≠ o) :
    (s.commit p t).rows (.commission o') = s.rows (.commission o') :=
  Store.commit_rows_of_free _ _ (by simp [Tx.Holds, h.others o' ho])

theorem BookTx.netsOf_eq (h : BookTx o old new t) (hh : t.Held s.rows) (hb : Books s) (u : ℕ) :
    netsOf u (s.commit p t) =
      netsOf u s + if u = new.referredUserId then new.net - netOf old else 0 := by
  have hold : s.rows (.commission o) = old := (hh _ _ _ h.commission).symm
  have hne : ∀ x, x ≠ o → netAt u ((s.commit p t).rows (.commission x)) =
      netAt u (s.rows (.commission x)) := fun x hx => by rw [h.other_row hx]
  simp only [netsOf, Store.journal_commit, commissionIds_append, h.ids]
  cases old with
  | none =>
    have hnot : o ∉ commissionIds s.journal := fun hmem => (hb.listed o).mp hmem hold
    have hrest : ((commissionIds s.journal).map fun x =>
        netAt u ((s.commit p t).rows (.commission x))) =
        (commissionIds s.journal).map fun x => netAt u (s.rows (.commission x)) :=
      List.map_congr_left fun x hx => hne x fun he => hnot (he ▸ hx)
    rw [if_pos rfl, List.map_append, List.sum_append, hrest]
    simp only [List.map_cons, List.map_nil, List.sum_cons, List.sum_nil, h.row, netAt, netOf,
      Option.map_none, Option.getD_none, sub_zero, add_zero, eq_comm]
  | some c =>
    have hmem : o ∈ commissionIds s.journal := (hb.listed o).mpr (by simp [hold])
    obtain ⟨-, hreferred, -⟩ := h.same c rfl
    simp only [reduceCtorEq, if_false, List.append_nil]
    rw [sum_map_replace hb.once hmem hne, h.row, hold]
    simp only [netAt, netOf, hreferred, Option.map_some, Option.getD_some, eq_comm]
    split <;> omega

theorem Books.book (hb : Books s) (hh : t.Held s.rows) (h : BookTx o old new t)
    (howned : s.rows (.referral new.referredUserId) ≠ none) : Books (s.commit p t) := by
  have hold : s.rows (.commission o) = old := (hh _ _ _ h.commission).symm
  have hkept : ∀ o' u, keptFor o' u (s.commit p t).journal = keptFor o' u s.journal +
      if o' = o ∧ u = new.referrerUserId then new.net - netOf old else 0 := by
    intro o' u
    rw [Store.journal_commit, keptFor_append, h.ledger]
  have hids : commissionIds (s.commit p t).journal =
      commissionIds s.journal ++ if old = none then [o] else [] := by
    rw [Store.journal_commit, commissionIds_append, h.ids]
  refine ⟨?_, fun o' => ?_, fun o' c hc => ?_, fun o' c hc => ?_, fun o' u hc => ?_,
    fun o' c hc => ?_, fun u r hr => ?_⟩
  · rw [hids]
    split
    · rename_i hnone
      refine List.nodup_append.mpr ⟨hb.once, by simp, fun x hx y hy => ?_⟩
      rw [List.mem_singleton] at hy
      rintro rfl
      exact (hb.listed x).mp hx (by rw [hy, hold, hnone])
    · rw [List.append_nil]
      exact hb.once
  · rw [hids, List.mem_append, hb.listed]
    rcases eq_or_ne o' o with rfl | hne
    · simp only [h.row, ne_eq, reduceCtorEq, not_false_eq_true, iff_true]
      by_cases hnone : old = none
      · exact .inr (by simp [hnone])
      · exact .inl (by rwa [hold])
    · rw [h.other_row hne]
      refine or_iff_left ?_
      split <;> simp [hne]
  · rcases eq_or_ne o' o with rfl | hne
    · rw [h.row] at hc
      cases hc
      exact h.form
    · exact hb.form o' c (h.other_row hne ▸ hc)
  · rw [hkept]
    rcases eq_or_ne o' o with rfl | hne
    · rw [h.row] at hc
      cases hc
      rw [if_pos ⟨rfl, rfl⟩]
      cases old with
      | none =>
        rw [hb.silent _ _ hold]
        simp [netOf]
      | some c₀ =>
        obtain ⟨hreferrer, -, -⟩ := h.same c₀ rfl
        rw [← hreferrer, hb.kept _ c₀ hold]
        simp [netOf]
    · rw [if_neg fun he => hne he.1, add_zero]
      exact hb.kept o' c (h.other_row hne ▸ hc)
  · rcases eq_or_ne o' o with rfl | hne
    · rw [h.row] at hc
      cases hc
    · rw [hkept, if_neg fun he => hne he.1, add_zero]
      exact hb.silent o' u (h.other_row hne ▸ hc)
  · rcases eq_or_ne o' o with rfl | hne
    · rw [h.row] at hc
      cases hc
      exact (h.referral _).stays howned
    · exact (h.referral _).stays (hb.owned o' c (h.other_row hne ▸ hc))
  · obtain ⟨r₀, hr₀, htotal⟩ := (h.referral u).row hh hr
    rw [h.netsOf_eq hh hb, htotal, hb.total u r₀ hr₀]

/-! ### The discipline -/

/-- No commission of the referral consumes its first purchase. -/
def NoneConsuming (u : ℕ) (s : AppStore) : Prop :=
  ∀ o c, s.rows (.commission o) = some c → c.referredUserId = u →
    consumesFirstPurchase c.status = false

theorem QuietTx.empty : QuietTx {} where
  commission _ _ h := nomatch h
  ids := rfl
  ledger _ _ := rfl
  referral _ _ h := nomatch h

theorem FirstOnly.quiet (hf : FirstOnly s) (hh : t.Held s.rows) (h : QuietTx t) :
    FirstOnly (s.commit p t) := by
  intro o o' c c' hc hc'
  rw [h.commission_row hh] at hc hc'
  exact hf o o' c c' hc hc'

theorem FirstOnly.book (hf : FirstOnly s) (hh : t.Held s.rows) (h : BookTx o old new t)
    (hfirst : old = none → consumesFirstPurchase new.status →
      NoneConsuming new.referredUserId s) : FirstOnly (s.commit p t) := by
  have hold : s.rows (.commission o) = old := (hh _ _ _ h.commission).symm
  -- every other consuming commission is of another referral
  have hother : ∀ o' c', o' ≠ o → s.rows (.commission o') = some c' →
      consumesFirstPurchase c'.status → consumesFirstPurchase new.status →
      c'.referredUserId ≠ new.referredUserId := by
    intro o' c' hne hc' hcons hnew href
    cases hcase : old with
    | none =>
      rw [hfirst hcase hnew o' c' hc' href] at hcons
      cases hcons
    | some c =>
      obtain ⟨-, hreferred, hc⟩ := h.same c hcase
      exact hne (hf o' o c' c hc' (hold.trans hcase) (href.trans hreferred.symm) hcons hc)
  intro o₁ o₂ c₁ c₂ h₁ h₂ href hcons₁ hcons₂
  rcases eq_or_ne o o₁ with rfl | hne₁ <;> rcases eq_or_ne o o₂ with rfl | hne₂
  · rfl
  · rw [h.row] at h₁
    cases h₁
    rw [h.other_row hne₂.symm] at h₂
    exact absurd href.symm (hother o₂ c₂ hne₂.symm h₂ hcons₂ hcons₁)
  · rw [h.row] at h₂
    cases h₂
    rw [h.other_row hne₁.symm] at h₁
    exact absurd href (hother o₁ c₁ hne₁.symm h₁ hcons₁ hcons₂)
  · rw [h.other_row hne₁.symm] at h₁
    rw [h.other_row hne₂.symm] at h₂
    exact hf o₁ o₂ c₁ c₂ h₁ h₂ href hcons₁ hcons₂

/-- What a transaction commits: nothing booked, or one commission of a referral that exists; where
    `first` holds, no second one that consumes the first purchase. -/
def Accountable (first : Bool) (s : AppStore) (t : AppTx) : Prop :=
  QuietTx t ∨ ∃ o old new, BookTx o old new t ∧ s.rows (.referral new.referredUserId) ≠ none ∧
    (first = true → old = none → consumesFirstPurchase new.status →
      NoneConsuming new.referredUserId s)

/-- The rules of the referral commissions. -/
def accounting (first : Bool) : Discipline Row Entry World where
  Inv s := Books s ∧ (first = true → FirstOnly s)
  Commits _ _ s t := Accountable first s t
  Acts _ _ _ _ := True
  commits_empty _ := .inl .empty
  inv_commit := by
    rintro _ _ s t ⟨hb, hf⟩ hh (h | ⟨o, old, new, h, howned, hfirst⟩)
    · exact ⟨hb.quiet hh h, fun ht => (hf ht).quiet hh h⟩
    · exact ⟨hb.book hh h howned, fun ht => (hf ht).book hh h (hfirst ht)⟩
  inv_act hi _ := ⟨⟨hi.1.once, hi.1.listed, hi.1.form, hi.1.kept, hi.1.silent, hi.1.owned,
    hi.1.total⟩, hi.2⟩

/-! ### What the steps leave -/

variable {first : Bool} {q : ℕ} {r : List AppStore} {s' : AppStore}

/-- A commission is never deleted. -/
theorem commission_stays (hst : (accounting first).Step q r s s')
    (h : s.rows (.commission o) ≠ none) : s'.rows (.commission o) ≠ none := by
  cases hst with
  | act w _ => exact h
  | commit t hh hc =>
    rcases hc with hq | ⟨o', old, new, hbook, -, -⟩
    · rwa [hq.commission_row hh]
    · rcases eq_or_ne o o' with rfl | hne
      · simp [hbook.row]
      · rwa [hbook.other_row hne]

theorem referral_stays (hst : (accounting first).Step q r s s')
    (h : s.rows (.referral u) ≠ none) : s'.rows (.referral u) ≠ none := by
  cases hst with
  | act w _ => exact h
  | commit t hh hc =>
    rcases hc with hq | ⟨o', old, new, hbook, -, -⟩
    · exact hq.referral_stays h
    · exact (hbook.referral u).stays h

/-- While a referral is locked nobody else creates a commission that consumes its first purchase:
    such a commission is worth something, so it moves the total of the referral. -/
theorem NoneConsuming.spared (h : NoneConsuming u s) (hst : (accounting first).Step q r s s')
    (hrow : s'.rows (.referral u) = s.rows (.referral u)) : NoneConsuming u s' := by
  cases hst with
  | act w _ => exact h
  | commit t hh hc =>
    rcases hc with hq | ⟨o', old, new, hbook, -, -⟩
    · intro o c hc
      rw [hq.commission_row hh] at hc
      exact h o c hc
    intro o c hc href
    rcases eq_or_ne o o' with rfl | hne
    · rw [hbook.row] at hc
      cases hc
      rw [Bool.eq_false_iff]
      intro hcons
      have hold : s.rows (.commission o) = old := (hh _ _ _ hbook.commission).symm
      cases hcase : old with
      | some c =>
        obtain ⟨-, hreferred, hc⟩ := hbook.same c hcase
        rw [h o c (hold.trans hcase) (hreferred.trans href)] at hc
        cases hc
      | none =>
        have hpos := hbook.fresh hcase hcons
        have hmoves := hbook.referral u
        rw [if_pos href.symm, hcase] at hmoves
        cases hchg : t.chg (.referral u) with
        | none =>
          rw [hchg] at hmoves
          have hzero : new.net - netOf none = 0 := hmoves
          simp only [netOf, Option.map_none, Option.getD_none] at hzero
          omega
        | some x =>
          obtain ⟨a, b⟩ := x
          rw [hchg] at hmoves
          obtain ⟨r₁, r₂, rfl, rfl, htotal⟩ := hmoves
          rw [← hh _ _ _ hchg] at hrow
          simp only [Store.commit, Tx.row, hchg, Option.some.injEq] at hrow
          rw [hrow] at htotal
          simp only [netOf, Option.map_none, Option.getD_none] at htotal
          omega
    · rw [hbook.other_row hne] at hc
      exact h o c hc href

/-! ### Everything else -/

/-- The rows that only the referral system appends. -/
def Entry.isReferral : Entry → Bool
  | .wallet w => w.source = .REFERRAL
  | .commission _ => true
  | .draft _ | .openPayment _ => false

/-- A statement of any other program: it writes no commission, creates referrals empty, and moves no
    wallet in the name of the referral system. -/
def Elsewhere : StmtCond Row Entry := fun v writes entries =>
  (∀ o x, ⟨.commission o, x⟩ ∉ writes) ∧
  (∀ u x, ⟨.referral u, x⟩ ∈ writes →
    v.rows (.referral u) = none ∧ ∃ r, x = some r ∧ r.totalCommissionAmountToman = 0) ∧
  ∀ e ∈ entries, e.isReferral = false

theorem keptFor_of_other {es : List Entry} (h : ∀ e ∈ es, e.isReferral = false) (o u : ℕ) :
    keptFor o u es = 0 := by
  have hzero : ∀ type, movedFor type o u es = 0 := by
    intro type
    refine List.sum_eq_zero fun x hx => ?_
    obtain ⟨e, he, rfl⟩ := List.mem_map.mp hx
    have hother := h e he
    cases e with
    | wallet w =>
      simp only [Entry.isReferral, decide_eq_false_iff_not] at hother
      exact if_neg fun hw => hother hw.2.1
    | draft _ | openPayment _ | commission _ => rfl
  simp [keptFor, creditedFor, clawedBackFor, hzero]

theorem commissionIds_of_other {es : List Entry} (h : ∀ e ∈ es, e.isReferral = false) :
    commissionIds es = [] := by
  rw [commissionIds, List.filterMap_eq_nil_iff]
  intro e he
  have hother := h e he
  cases e with
  | commission _ => cases hother
  | wallet _ | draft _ | openPayment _ => rfl

theorem QuietTx.add {β : Type} {e : Effect Row Entry β} (h : QuietTx t)
    (he : Elsewhere (s.view t) e.writes e.entries) : QuietTx (t.add s.rows e) := by
  obtain ⟨hcom, href, hentries⟩ := he
  refine ⟨fun o x hx => ?_, ?_, fun o u => ?_, fun u x hx => ?_⟩
  · obtain ⟨a, b⟩ := x
    rcases Tx.chg_add hx with hx | ⟨-, hmem⟩
    · exact h.commission o _ hx
    · exact absurd hmem (hcom o b)
  · rw [Tx.entries_add, commissionIds_append, h.ids, commissionIds_of_other hentries]
    rfl
  · rw [Tx.entries_add, keptFor_append, h.ledger, keptFor_of_other hentries]
    rfl
  · obtain ⟨a, b⟩ := x
    rcases Tx.chg_add hx with hx | ⟨rfl, hmem⟩
    · exact h.referral u _ hx
    · obtain ⟨hnone, r, rfl, hzero⟩ := href u b hmem
      refine .inr ⟨?_, r, rfl, hzero⟩
      cases hchg : t.chg (.referral u) with
      | none =>
        have hrow : s.rows (.referral u) = none := (Tx.row_of_chg hchg).symm.trans hnone
        rw [Tx.base_of_chg hchg, hrow]
      | some x =>
        -- what it has written is a row
        obtain ⟨a, b⟩ := x
        have hb : ∃ r, b = some r := by
          rcases h.referral u _ hchg with ⟨_, r, -, hb, -⟩ | ⟨-, r, hb, -⟩ <;> exact ⟨r, hb⟩
        obtain ⟨r', rfl⟩ := hb
        simp [Store.view, Tx.row, hchg] at hnone

/-- Every other program keeps the books. -/
theorem elsewhereRules (first : Bool) (p : ℕ) :
    StmtRules (accounting first) p Elsewhere (fun _ _ => True) fun _ t => QuietTx t where
  start _ := .empty
  env _ _ h := h
  add _ h he := h.add he
  commits _ _ h := .inl h
  acts _ _ := trivial

end ZedBot
