import Mathlib.Algebra.BigOperators.Group.List.Basic
import ZedBot.Trials.Eligibility

/-! What is announced is reserved.

    The transaction of a claim sees the tables of the calculator and its own claim, which it does not
    count; so it takes the first entitlement that was counted, or a unit of the default allowance. -/

namespace ZedBot.Trials
open ReadCommitted

variable {p claimId userId now : ℕ} {s : TrialStore} {t : TrialTx} {c : FreeTrialClaim}
  {unit panelId : Option ℕ} {v : TrialView}

/-! ### Counting -/

/-- What an entitlement contributes to the remaining allowance. -/
def unitsLeft (userId now : ℕ) (panelId : Option ℕ) : Option FreeTrialEntitlement → ℤ
  | some e => if isUsable userId now panelId e ∧ e.consumed < e.allowance then e.allowance - e.consumed else 0
  | none => 0

theorem sum_usable : ((usableEntitlements userId now panelId v).map fun row =>
      row.2.allowance - row.2.consumed).sum =
    ((entitlementIds v.journal).map fun id => unitsLeft userId now panelId (v.rows (.entitlement id))).sum := by
  rw [usableEntitlements, orderEntitlementsForConsumption,
    ((List.mergeSort_perm _ _).map _).sum_eq]
  induction entitlementIds v.journal with
  | nil => rfl
  | cons id ids ih =>
    rw [List.map_cons, List.sum_cons, ← ih, List.filterMap_cons]
    cases hrow : v.rows (.entitlement id) with
    | none => exact (Int.zero_add _).symm
    | some e =>
      by_cases he : isUsable userId now panelId e = true ∧ e.consumed < e.allowance
      · rw [Option.filter_some, if_pos (decide_eq_true he), unitsLeft, if_pos he]
        rfl
      · rw [Option.filter_some, if_neg (by simpa using he), unitsLeft, if_neg he]
        exact (Int.zero_add _).symm

theorem mem_usable {row : ℕ × FreeTrialEntitlement} (h : row ∈ usableEntitlements userId now panelId v) :
    row.1 ∈ entitlementIds v.journal ∧ v.rows (.entitlement row.1) = some row.2 ∧
      isUsable userId now panelId row.2 = true ∧ row.2.consumed < row.2.allowance := by
  rw [usableEntitlements, orderEntitlementsForConsumption, List.mem_mergeSort] at h
  obtain ⟨id, hid, hrow⟩ := List.mem_filterMap.mp h
  obtain ⟨e, he, rfl⟩ := Option.map_eq_some_iff.mp hrow
  obtain ⟨hrow, hcond⟩ := Option.filter_eq_some_iff.mp he
  obtain ⟨husable, hleft⟩ := of_decide_eq_true hcond
  exact ⟨hid, hrow, husable, hleft⟩

theorem unitsLeft_nonneg (o : Option FreeTrialEntitlement) : 0 ≤ unitsLeft userId now panelId o := by
  cases o with
  | none => exact Int.le_refl 0
  | some e =>
    rw [unitsLeft]
    split
    · omega
    · exact Int.le_refl 0

/-- One unit less, once it is taken. -/
theorem unitsLeft_taken {x : FreeTrialEntitlement} (hx : isUsable userId now panelId x = true)
    (hleft : x.consumed < x.allowance) :
    unitsLeft userId now panelId (some x.taken) = unitsLeft userId now panelId (some x) - 1 := by
  have hbefore : unitsLeft userId now panelId (some x) = x.allowance - x.consumed :=
    if_pos ⟨hx, hleft⟩
  have hallowance : x.taken.allowance = x.allowance := rfl
  have hconsumed : x.taken.consumed = x.consumed + 1 := rfl
  by_cases hlast : x.consumed + 1 ≥ x.allowance
  · have hafter : unitsLeft userId now panelId (some x.taken) = 0 := if_neg fun h => by omega
    omega
  · have hsame : isUsable userId now panelId x.taken = true := by
      simpa [isUsable, FreeTrialEntitlement.taken, hlast] using hx
    have hafter : unitsLeft userId now panelId (some x.taken) = x.taken.allowance - x.taken.consumed :=
      if_pos ⟨hsame, by omega⟩
    omega

/-- A sum that changes at one place. -/
theorem sum_moved {ids : List ℕ} (hids : ids.Nodup) {a : ℕ} (ha : a ∈ ids) {f g : ℕ → ℤ} {d : ℤ}
    (hd : g a = f a + d) (h : ∀ b, b ≠ a → g b = f b) : (ids.map g).sum = (ids.map f).sum + d := by
  have hperm := List.perm_cons_erase ha
  have hrest : (ids.erase a).map g = (ids.erase a).map f :=
    List.map_congr_left fun b hb => h b (hids.mem_erase_iff.mp hb).1
  rw [(hperm.map g).sum_eq, (hperm.map f).sum_eq, List.map_cons, List.map_cons, List.sum_cons,
    List.sum_cons, hrest, hd]
  omega

/-! ### What the transaction sees -/

theorem entitlementIds_inserted (h : InsertTx t claimId c unit) :
    entitlementIds (s.view t).journal = entitlementIds s.journal := by
  rw [Store.view, h.entries, entitlementIds, List.filterMap_append]
  exact List.append_nil _

/-- An entitlement that gives no unit is seen as before. -/
theorem row_inserted (h : InsertTx t claimId c unit) {e : ℕ} (he : unit ≠ some e) :
    (s.view t).rows (.entitlement e) = s.rows (.entitlement e) :=
  Tx.row_of_chg (h.units.others e he)

theorem usable_inserted (h : InsertTx t claimId c none) :
    usableEntitlements userId now panelId (s.view t) =
      usableEntitlements userId now panelId (s.view {}) := by
  have hids : entitlementIds (s.view t).journal = entitlementIds (s.view {}).journal := by
    rw [entitlementIds_inserted h, Store.view, List.append_nil]
    rfl
  rw [usableEntitlements, usableEntitlements, hids]
  congr 1
  refine List.filterMap_congr fun id _ => ?_
  rw [row_inserted h (fun h => by cases h)]
  rfl

/-- A claim that counts against the default allowance. -/
def countsDefault (userId : ℕ) (c : FreeTrialClaim) : Bool :=
  c.userId = userId ∧ c.entitlementId = none ∧ c.status ∈ CONSUMING_CLAIM_STATUSES

theorem countDefaultConsumed_eq (excluded : Option ℕ) (v : TrialView) :
    countDefaultConsumed userId excluded v = (claimIds v.journal).countP fun id =>
      decide (some id ≠ excluded) && (v.rows (.claim id)).any (countsDefault userId) :=
  List.countP_filter

/-- The inserted claim is counted, unless it is the one that is being funded. -/
theorem countDefaultConsumed_inserted (hfresh : claimId ∉ claimIds s.journal)
    (h : InsertTx t claimId c unit) {excluded : Option ℕ}
    (hexcluded : excluded = none ∨ excluded = some claimId) :
    countDefaultConsumed userId excluded (s.view t) = countDefaultConsumed userId none (s.view {}) +
      if countsDefault userId c ∧ excluded = none then 1 else 0 := by
  have hids : claimIds (s.view t).journal = claimIds s.journal ++ [claimId] := by
    rw [Store.view, h.entries, claimIds_append]
    rfl
  have hids' : claimIds (s.view {}).journal = claimIds s.journal := by
    rw [Store.view, List.append_nil]
    rfl
  have hrow : (s.view t).rows (.claim claimId) = some c := h.row
  have hold : ∀ id ∈ claimIds s.journal,
      ((decide (some id ≠ excluded) && ((s.view t).rows (.claim id)).any (countsDefault userId)) = true ↔
        (decide (some id ≠ none) && ((s.view {}).rows (.claim id)).any (countsDefault userId)) = true) := by
    intro id hid
    have hne : id ≠ claimId := fun he => hfresh (he ▸ hid)
    have hother : (s.view t).rows (.claim id) = (s.view {}).rows (.claim id) :=
      Tx.row_of_chg (h.others id hne)
    rw [hother]
    rcases hexcluded with rfl | rfl <;> simp [hne]
  rw [countDefaultConsumed_eq, countDefaultConsumed_eq, hids, hids', List.countP_append,
    List.countP_congr hold, List.countP_singleton, hrow, Option.any_some]
  congr 1
  rcases hexcluded with rfl | rfl <;> simp

/-! ### The lone run -/

variable {settings : TrialSettings} {user : TrialUser} {x : FreeTrialEntitlement} {e : ℕ}
  {σ : Solo TrialRow TrialEntry TrialWorld}

/-- The oracle of a run in which nothing changes: the clock stands, and the settings are these. -/
def TrialSettings.answers (settings : TrialSettings) : ℕ → TrialChoice :=
  fun _ => { defaultAllowance := settings.setting }

/-- Inside a transaction over the tables `s`. -/
structure Inside (s : TrialStore) (t : TrialTx) (σ : Solo TrialRow TrialEntry TrialWorld) : Prop where
  store : σ.store = s
  tx : σ.tx = some t

theorem Inside.view (h : Inside s t σ) : σ.view = s.view t := by
  rw [Solo.view, h.store, h.tx, Option.getD_some]

/-- One row is written. -/
theorem Inside.wrote {β : Type} (h : Inside s t σ) (b : β) (k : TrialKey) (n : TrialRow k) :
    Inside s (t.write s.rows ⟨k, n⟩)
      (σ.apply p ({ result := b, writes := [⟨k, n⟩] } : Effect TrialRow TrialEntry β)).tick where
  store := by rw [Solo.tick_store, Solo.apply_of_tx h.tx, h.store]
  tx := by
    rw [Solo.tick_tx, Solo.apply_of_tx h.tx, h.store]
    simp [Tx.add]

/-- A transaction that sees the allowance of a user as the calculator does. -/
structure Unspent (s : TrialStore) (claimId userId : ℕ) (t : TrialTx) : Prop where
  entitlements : ∀ e, t.chg (.entitlement e) = none
  listed : entitlementIds (s.view t).journal = entitlementIds (s.view {}).journal
  counted : countDefaultConsumed userId (some claimId) (s.view t) =
    countDefaultConsumed userId none (s.view {})

theorem Unspent.empty (hfresh : claimId ∉ claimIds s.journal) : Unspent s claimId userId {} := by
  refine ⟨fun _ => rfl, rfl, ?_⟩
  have hids : claimIds (s.view {}).journal = claimIds s.journal := by
    rw [Store.view, List.append_nil]
    rfl
  rw [countDefaultConsumed_eq, countDefaultConsumed_eq, hids]
  refine List.countP_congr fun id hid => ?_
  have hne : id ≠ claimId := fun he => hfresh (he ▸ hid)
  simp [hne]

theorem Unspent.inserted (hfresh : claimId ∉ claimIds s.journal) (h : InsertTx t claimId c none) :
    Unspent s claimId userId t := by
  refine ⟨fun e => h.units.others e (fun h => nomatch h), ?_, ?_⟩
  · rw [entitlementIds_inserted h, Store.view, List.append_nil]
    rfl
  · rw [countDefaultConsumed_inserted hfresh h (.inr rfl)]
    simp

theorem Unspent.locked (h : Unspent s claimId userId t) (n : ℕ) :
    Unspent s claimId userId (t.write s.rows ⟨.userLock userId, n⟩) := by
  refine ⟨fun e => (Tx.chg_write_ne _ TrialKey.noConfusion).trans (h.entitlements e), h.listed, ?_⟩
  have hclaim : ∀ id, (s.view (t.write s.rows ⟨.userLock userId, n⟩)).rows (.claim id) =
      (s.view t).rows (.claim id) := fun id => Tx.row_write_ne _ _ TrialKey.noConfusion
  rw [← h.counted, countDefaultConsumed_eq, countDefaultConsumed_eq]
  refine List.countP_congr fun id _ => ?_
  rw [hclaim]

theorem Unspent.usable (h : Unspent s claimId userId t) :
    usableEntitlements userId now panelId (s.view t) =
      usableEntitlements userId now panelId (s.view {}) := by
  rw [usableEntitlements, usableEntitlements, h.listed]
  congr 1
  refine List.filterMap_congr fun id _ => ?_
  have hrow : (s.view t).rows (.entitlement id) = (s.view {}).rows (.entitlement id) :=
    Tx.row_of_chg (h.entitlements id)
  rw [hrow]

/-- The first entitlement is taken, where it still is as it was read. -/
theorem soloWp_takeFirst {ch : ℕ → TrialChoice} {rest : List (ℕ × FreeTrialEntitlement)}
    (h : Inside s t σ) (hnone : t.chg (.entitlement e) = none)
    (hrow : s.rows (.entitlement e) = some x)
    (husable : isUsable userId now panelId x = true) (hleft : x.consumed < x.allowance) :
    soloWp p ch (takeFirst now ((e, x) :: rest)) (fun taken σ' => taken = some e ∧
      Inside s (t.write s.rows ⟨.entitlement e, some x.taken⟩) σ') σ := by
  obtain ⟨-, hactive, hstarts, hexpires, -⟩ := of_decide_eq_true husable
  have hseen : t.row s.rows (.entitlement e) = some x := (Tx.row_of_chg hnone).trans hrow
  refine (soloWp_seq _ _).mpr (soloWp_update (n := some x.taken) ?_ ?_)
  · rw [h.view]
    change onSome _ _ (t.row s.rows (.entitlement e)) = _
    rw [hseen, onSome, if_pos (decide_eq_true ⟨hactive, hleft, hstarts, hexpires⟩)]
  · exact soloWp_pure _ ⟨rfl, h.wrote 1 _ _⟩

theorem sum_remaining_nonneg {rows : List (ℕ × FreeTrialEntitlement)}
    (h : ∀ row ∈ rows, row.2.consumed < row.2.allowance) :
    0 ≤ (rows.map fun row => row.2.allowance - row.2.consumed).sum := by
  induction rows with
  | nil => exact Int.le_refl 0
  | cons row rows ih =>
    have hrow := h row List.mem_cons_self
    have hrest := ih fun r hr => h r (List.mem_cons_of_mem _ hr)
    rw [List.map_cons, List.sum_cons]
    omega

theorem totalRemaining_eq :
    (computeTrialAllowance settings userId user panelId now v).totalRemaining =
      (effectiveDefaultAllowance settings.setting user).map fun n : ℕ =>
        max 0 ((n : ℤ) - countDefaultConsumed userId none v) +
          ((usableEntitlements userId now panelId v).map fun row => row.2.allowance - row.2.consumed).sum :=
  Option.map_map ..

/-- Nothing remains exactly where no entitlement is usable and the default allowance is used up. -/
theorem exhausted_iff : (computeTrialAllowance settings userId user panelId now v).totalRemaining.any
      (· ≤ 0) = true ↔ usableEntitlements userId now panelId v = [] ∧
    ∃ n, effectiveDefaultAllowance settings.setting user = some n ∧
      n ≤ countDefaultConsumed userId none v := by
  have hleft : ∀ row ∈ usableEntitlements userId now panelId v, row.2.consumed < row.2.allowance :=
    fun row hrow => (mem_usable hrow).2.2.2
  rw [totalRemaining_eq]
  cases effectiveDefaultAllowance settings.setting user with
  | none => simp
  | some n =>
    rw [Option.map_some, Option.any_some, decide_eq_true_iff]
    cases hrows : usableEntitlements userId now panelId v with
    | nil =>
      rw [List.map_nil, List.sum_nil]
      constructor
      · intro h
        exact ⟨rfl, n, rfl, by omega⟩
      · rintro ⟨-, m, hm, hle⟩
        cases hm
        omega
    | cons row rows =>
      rw [hrows] at hleft
      have hrow := hleft row List.mem_cons_self
      have hrest := sum_remaining_nonneg fun r hr => hleft r (List.mem_cons_of_mem _ hr)
      rw [List.map_cons, List.sum_cons]
      constructor
      · intro h
        omega
      · rintro ⟨h, -⟩
        cases h

section Reserve

variable {α : Type} {ch : ℕ → TrialChoice} {Q : α → Solo TrialRow TrialEntry TrialWorld → Prop}

theorem soloWp_clock {Q : ℕ → Solo TrialRow TrialEntry TrialWorld → Prop} (hσ : Inside s t σ)
    (h : ∀ σ', Inside s t σ' → Q s.world.now σ') : soloWp p ch clock Q σ := by
  refine soloWp_ext _ ?_
  rw [hσ.store]
  exact h _ ⟨rfl, hσ.tx⟩

theorem soloWp_lockUser {Q : Unit → Solo TrialRow TrialEntry TrialWorld → Prop} (hσ : Inside s t σ)
    (h : ∀ (n : ℕ) σ', Inside s (t.write s.rows ⟨.userLock userId, n⟩) σ' → Q () σ') :
    soloWp p ch (lockUser userId) Q σ :=
  soloWp_sql _ (h _ _ (hσ.wrote () _ _))

theorem soloWp_read {f : TrialView → α} (hσ : Inside s t σ)
    (h : ∀ σ', Inside s t σ' → Q (f (s.view t)) σ') : soloWp p ch (select f) Q σ := by
  refine soloWp_select _ ?_
  rw [hσ.view]
  exact h _ ⟨hσ.store, hσ.tx⟩

end Reserve

/-- The reservation takes the unit that the calculator counts first. -/
theorem soloWp_reserve (h : Unspent s claimId userId t) (hσ : Inside s t σ) (panelId : ℕ) :
    let allowance := computeTrialAllowance settings userId user (some panelId) s.world.now (s.view {})
    soloWp p settings.answers (reserveTrialAllowance user userId panelId claimId)
      (fun reservation σ' => ∃ n : ℕ,
        if allowance.totalRemaining.any (· ≤ 0) then
          reservation = .noAllowance ∧ Inside s (t.write s.rows ⟨.userLock userId, n⟩) σ'
        else
          match allowance.usableEntitlements.head? with
          | some (e, x) => reservation = .ok (some e) ∧ Inside s
              ((t.write s.rows ⟨.userLock userId, n⟩).write s.rows ⟨.entitlement e, some x.taken⟩) σ'
          | none => reservation = .ok none ∧ Inside s (t.write s.rows ⟨.userLock userId, n⟩) σ') σ := by
  intro allowance
  refine (soloWp_seq _ _).mpr (soloWp_clock hσ fun σ₁ hσ₁ => ?_)
  refine (soloWp_seq _ _).mpr (soloWp_lockUser hσ₁ fun n σ₂ hσ₂ => ?_)
  have hlocked := h.locked n
  refine (soloWp_seq _ _).mpr (soloWp_read hσ₂ fun σ₃ hσ₃ => ?_)
  rw [hlocked.usable]
  have hexhausted := @exhausted_iff userId s.world.now (some panelId) (s.view {}) settings user
  have husable : allowance.usableEntitlements =
      usableEntitlements userId s.world.now (some panelId) (s.view {}) := rfl
  refine (soloWp_seq _ _).mpr ?_
  cases hrows : usableEntitlements userId s.world.now (some panelId) (s.view {}) with
  | cons row rest =>
    obtain ⟨e, x⟩ := row
    obtain ⟨-, hrow, hx, hleft⟩ := mem_usable (hrows ▸ List.mem_cons_self)
    have hsome : ¬ allowance.totalRemaining.any (· ≤ 0) = true := fun hno => by
      have hnil := (hexhausted.mp hno).1
      rw [hrows] at hnil
      cases hnil
    refine soloWp_mono _ ?_ (soloWp_takeFirst hσ₃ (hlocked.entitlements e) hrow hx hleft)
    rintro taken σ₄ ⟨rfl, hσ₄⟩
    refine soloWp_pure _ ⟨n, ?_⟩
    rw [if_neg hsome, husable, hrows]
    exact ⟨rfl, hσ₄⟩
  | nil =>
    refine soloWp_pure _ ((soloWp_seq _ _).mpr (soloWp_ask _ ?_))
    have hσ₄ : Inside s (t.write s.rows ⟨.userLock userId, n⟩) σ₃.tick := ⟨hσ₃.store, hσ₃.tx⟩
    rw [hrows] at hexhausted husable
    rw [show (settings.answers σ₃.time).defaultAllowance = settings.setting from rfl]
    cases heff : effectiveDefaultAllowance settings.setting user with
    | none =>
      have hsome : ¬ allowance.totalRemaining.any (· ≤ 0) = true := fun hno => by
        obtain ⟨-, m, hm, -⟩ := hexhausted.mp hno
        rw [heff] at hm
        cases hm
      refine soloWp_pure _ ⟨n, ?_⟩
      rw [if_neg hsome, husable]
      exact ⟨rfl, hσ₄⟩
    | some d =>
      refine (soloWp_seq _ _).mpr (soloWp_read hσ₄ fun σ₅ hσ₅ => soloWp_pure _ ⟨n, ?_⟩)
      rw [hlocked.counted, husable]
      by_cases hless : countDefaultConsumed userId none (s.view {}) < d
      · have hsome : ¬ allowance.totalRemaining.any (· ≤ 0) = true := fun hno => by
          obtain ⟨-, m, hm, hle⟩ := hexhausted.mp hno
          rw [heff] at hm
          cases hm
          omega
        rw [if_neg hsome, if_pos hless]
        exact ⟨rfl, hσ₅⟩
      · have hnone : allowance.totalRemaining.any (· ≤ 0) = true :=
          hexhausted.mpr ⟨rfl, d, heff, by omega⟩
        rw [if_pos hnone, if_neg hless]
        exact ⟨rfl, hσ₅⟩

/-! ### The claim -/

/-- The row that `insertClaim` stores. -/
def claimRow (userId : ℕ) (panel : TrialPanel) (now : ℕ) (unit : Option ℕ) : FreeTrialClaim :=
  { userId
    panelId := panel.id
    durationMinutes := panel.testDurationMinutes
    entitlementId := unit
    createdAt := now
    updatedAt := now }

/-- What a claim has committed: it holds the unit that was counted first. -/
structure Claimed (s : TrialStore) (claimId userId : ℕ) (claim : FreeTrialClaim)
    (first : Option (ℕ × FreeTrialEntitlement)) (t : TrialTx) : Prop where
  insert : InsertTx t claimId claim (first.map (·.1))
  taken : ∀ row, first = some row →
    t.chg (.entitlement row.1) = some (some row.2, some row.2.taken)
  user : t.chg (.user userId) = none

/-- A claim is inserted where its user has no live one. -/
theorem soloWp_createClaim {ch : ℕ → TrialChoice} (row : FreeTrialClaim)
    (hnone : s.rows (.claim claimId) = none)
    (hlive : claimsWhere (fun c => c.userId = row.userId ∧ c.status ∈ USER_LIVE_STATUSES)
      (s.view {}) = []) (hσ : Inside s {} σ) :
    soloWp p ch (createClaim claimId row) (fun created σ' => created = true ∧
      Inside s (Tx.add {} s.rows (⟨true, [⟨.claim claimId, some row⟩], [.claim claimId]⟩ :
        Effect TrialRow TrialEntry Bool)) σ') σ := by
  refine soloWp_sql _ ?_
  have hseen : (s.view {}).rows (.claim claimId) = none := hnone
  dsimp only
  rw [hσ.view, hlive, hseen]
  refine ⟨rfl, ?_, ?_⟩
  · rw [Solo.tick_store, Solo.apply_of_tx hσ.tx, hσ.store]
  · rw [Solo.tick_tx, Solo.apply_of_tx hσ.tx, hσ.store]
    rfl

/-- No claim of the user is live, as the unique index means it. -/
theorem Unbarred.slotFree (h : Unbarred userId user now v) :
    claimsWhere (fun c => c.userId = userId ∧ c.status ∈ USER_LIVE_STATUSES) v = [] := by
  have hlive := List.filter_eq_nil_iff.mp h.noLive
  have hactive := List.filter_eq_nil_iff.mp h.noActive
  refine List.filter_eq_nil_iff.mpr fun id hid hany => ?_
  obtain ⟨c, hc, hstatus⟩ := (Option.any_eq_true _ _).mp hany
  obtain ⟨hu, hin⟩ := of_decide_eq_true hstatus
  by_cases hs : c.status = .ACTIVE
  · exact hactive id hid ((Option.any_eq_true _ _).mpr ⟨c, hc, decide_eq_true ⟨hu, hs⟩⟩)
  · refine hlive id hid ((Option.any_eq_true _ _).mpr ⟨c, hc, decide_eq_true ⟨hu, ?_⟩⟩)
    simp only [USER_LIVE_STATUSES, LIVE_CLAIM_STATUSES, List.mem_cons, List.not_mem_nil,
      or_false] at hin ⊢
    tauto

/-- The transaction of `insertClaim` reserves what the calculator counts first, or is denied. -/
theorem soloWp_insertWithUnit (panel : TrialPanel) (hnone : s.rows (.claim claimId) = none)
    (hfresh : claimId ∉ claimIds s.journal) (huser : s.rows (.user userId) = some user)
    (hbar : Unbarred userId user s.world.now (s.view {})) (hstore : σ.store = s) :
    let allowance := computeTrialAllowance settings userId user (some panel.id) s.world.now (s.view {})
    soloWp p settings.answers (insertWithUnit claimId userId panel s.world.now) (fun r σ' =>
      if allowance.totalRemaining.any (· ≤ 0) then r = .error "no-allowance" ∧ σ'.store = s
      else
        let first := allowance.usableEntitlements.head?
        let claim := claimRow userId panel s.world.now (first.map (·.1))
        r = .ok claim ∧ ∃ t, σ'.store = s.commit p t ∧ Claimed s claimId userId claim first t) σ := by
  intro allowance
  refine soloWp_transaction _ ?_
  have hinside : Inside s {} (Solo.tick { σ with tx := some {} }) := ⟨hstore, rfl⟩
  refine (soloWp_seq _ _).mpr (soloWp_mono _ ?_ (soloWp_createClaim
    (claimRow userId panel s.world.now none) hnone hbar.slotFree hinside))
  rintro created σ₁ ⟨rfl, hσ₁⟩
  have hinsert := @InsertTx.created claimId s (claimRow userId panel s.world.now none) hnone
    rfl rfl rfl
  have husers : ∀ u, (Tx.add {} s.rows (⟨true, [⟨.claim claimId,
      some (claimRow userId panel s.world.now none)⟩], [.claim claimId]⟩ :
        Effect TrialRow TrialEntry Bool)).chg (.user u) = none := fun u => by simp [Tx.add]
  generalize Tx.add {} s.rows (⟨true, [⟨.claim claimId,
      some (claimRow userId panel s.world.now none)⟩], [.claim claimId]⟩ :
        Effect TrialRow TrialEntry Bool) = t at *
  rw [if_neg (by simp)]
  refine (soloWp_seq _ _).mpr (soloWp_read hσ₁ fun σ₂ hσ₂ => ?_)
  have hseen : (s.view t).rows (.user userId) = some user :=
    (Tx.row_of_chg (husers userId)).trans huser
  rw [hseen]
  dsimp only
  rw [if_neg (by simp [hbar.active]), if_neg (by simp [hbar.notRevoked, hbar.notDenied]),
    if_neg hbar.noCooldown]
  refine (soloWp_seq _ _).mpr (soloWp_mono _ ?_
    (soloWp_reserve (.inserted hfresh hinsert) hσ₂ panel.id))
  rintro reservation σ₃ ⟨n, hreserved⟩
  have hlocked : InsertTx (t.write s.rows ⟨.userLock userId, n⟩) claimId _ none :=
    hinsert.lockedUser userId n
  have huserLock : (t.write s.rows ⟨.userLock userId, n⟩).chg (.user userId) = none :=
    (Tx.chg_write_ne _ TrialKey.noConfusion).trans (husers userId)
  by_cases hleft : allowance.totalRemaining.any (· ≤ 0) = true
  · rw [if_pos hleft] at hreserved
    obtain ⟨rfl, hσ₃⟩ := hreserved
    refine soloWp_pure _ ?_
    dsimp only
    rw [if_pos hleft]
    exact ⟨rfl, hσ₃.store⟩
  rw [if_neg hleft] at hreserved
  simp only [if_neg hleft]
  cases hfirst : allowance.usableEntitlements.head? with
  | none =>
    simp only [allowance] at hfirst
    rw [hfirst] at hreserved
    obtain ⟨rfl, hσ₃⟩ := hreserved
    refine soloWp_pure _ ⟨rfl, _, ?_, hlocked, fun row h => (by cases h), huserLock⟩
    rw [Solo.tick_store, hσ₃.store, hσ₃.tx, Option.getD_some]
  | some row =>
    obtain ⟨e, x⟩ := row
    have hmem := mem_usable (List.mem_of_head? hfirst)
    simp only [allowance] at hfirst
    rw [hfirst] at hreserved
    obtain ⟨rfl, hσ₃⟩ := hreserved
    obtain ⟨-, hx, husable, hunits⟩ := hmem
    have hrow : s.rows (.entitlement e) = some x := hx
    have hentitlement : (t.write s.rows ⟨.userLock userId, n⟩).chg (.entitlement e) = none :=
      hlocked.units.others e (fun h => by cases h)
    have hactive : x.status = .ACTIVE := (of_decide_eq_true husable).2.1
    have htaken := hlocked.taken (s := s) (y := x.taken) ((Tx.row_of_chg hentitlement).trans hrow)
      (if_pos ⟨hactive, hunits⟩)
    have hlinked : InsertTx _ claimId (claimRow userId panel s.world.now (some e)) (some e) :=
      htaken.linked (s := s) rfl rfl rfl
    refine (soloWp_seq _ _).mpr ((soloWp_seq _ _).mpr (soloWp_clock hσ₃ fun σ₄ hσ₄ =>
      soloWp_update (n := some (claimRow userId panel s.world.now (some e))) ?_ (soloWp_pure _ ?_)))
    · rw [hσ₄.view]
      exact congrArg (onSome _ _) htaken.row
    · have hσ₅ := hσ₄.wrote (p := p) 1 (.claim claimId)
        (some (claimRow userId panel s.world.now (some e)))
      refine ⟨rfl, _, ?_, hlinked, fun row h => ?_, ?_⟩
      · rw [Solo.tick_store, hσ₅.store, hσ₅.tx, Option.getD_some]
      · cases h
        rw [Tx.chg_write_ne _ TrialKey.noConfusion, Tx.chg_write_self, Tx.base_of_chg hentitlement, hrow]
      · rw [Tx.chg_write_ne _ TrialKey.noConfusion, Tx.chg_write_ne _ TrialKey.noConfusion, huserLock]

/-! ### The remaining allowance afterwards -/

/-- The remaining allowance of a user for a panel, as it is computed from the tables. -/
def totalRemaining (settings : TrialSettings) (userId : ℕ) (panelId : Option ℕ) (s : TrialStore) :
    Option (Option ℤ) :=
  (s.rows (.user userId)).map fun user =>
    (computeTrialAllowance settings userId user panelId s.world.now (s.view {})).totalRemaining

/-- The inserted claim of a default unit is counted, and one with an entitlement is not. -/
theorem countDefaultConsumed_claimed {claim : FreeTrialClaim}
    {first : Option (ℕ × FreeTrialEntitlement)} (hfresh : claimId ∉ claimIds s.journal)
    (hclaim : claim.userId = userId ∧ claim.entitlementId = first.map (·.1))
    (h : Claimed s claimId userId claim first t) :
    countDefaultConsumed userId none (s.view t) = countDefaultConsumed userId none (s.view {}) +
      if first = none then 1 else 0 := by
  rw [countDefaultConsumed_inserted hfresh h.insert (.inl rfl)]
  congr 1
  refine if_congr ?_ rfl rfl
  rw [countsDefault, decide_eq_true_iff, hclaim.2, h.insert.status]
  simp [hclaim.1, CONSUMING_CLAIM_STATUSES]

/-- The units of the entitlements go down by the one that was taken. -/
theorem sum_claimed {claim : FreeTrialClaim} {first : Option (ℕ × FreeTrialEntitlement)}
    (hlisted : (entitlementIds s.journal).Nodup)
    (hfirst : first = (usableEntitlements userId now panelId (s.view {})).head?)
    (h : Claimed s claimId userId claim first t) :
    ((usableEntitlements userId now panelId (s.view t)).map fun row =>
        row.2.allowance - row.2.consumed).sum =
      ((usableEntitlements userId now panelId (s.view {})).map fun row =>
        row.2.allowance - row.2.consumed).sum + if first = none then 0 else -1 := by
  have hids : entitlementIds (s.view {}).journal = entitlementIds s.journal := by
    rw [Store.view, List.append_nil]
    rfl
  cases first with
  | none =>
    rw [usable_inserted h.insert]
    exact (Int.add_zero _).symm
  | some row =>
    obtain ⟨e, x⟩ := row
    obtain ⟨hmem, hrow, husable, hleft⟩ := mem_usable (List.mem_of_head? hfirst.symm)
    rw [hids] at hmem
    rw [sum_usable, sum_usable, entitlementIds_inserted h.insert, hids]
    refine sum_moved hlisted hmem ?_ fun id hid => ?_
    · have hafter : (s.view t).rows (.entitlement e) = some x.taken := by
        change t.row s.rows (.entitlement e) = _
        rw [Tx.row, h.taken _ rfl]
      dsimp only
      rw [hafter, hrow, unitsLeft_taken husable hleft]
      rfl
    · rw [row_inserted h.insert fun he => hid (Option.some.inj he).symm]
      rfl

/-- One unit less remains after a claim, unless there is no limit. -/
theorem totalRemaining_claimed {claim : FreeTrialClaim} {first : Option (ℕ × FreeTrialEntitlement)}
    (hfresh : claimId ∉ claimIds s.journal) (hlisted : (entitlementIds s.journal).Nodup)
    (huser : s.rows (.user userId) = some user)
    (hclaim : claim.userId = userId ∧ claim.entitlementId = first.map (·.1))
    (hfirst : first = (usableEntitlements userId s.world.now panelId (s.view {})).head?)
    (hleft : ¬ (computeTrialAllowance settings userId user panelId s.world.now
      (s.view {})).totalRemaining.any (· ≤ 0) = true)
    (h : Claimed s claimId userId claim first t) :
    totalRemaining settings userId panelId (s.commit p t) =
      (totalRemaining settings userId panelId s).map (Option.map (· - 1)) := by
  have hsame : (s.commit p t).rows (.user userId) = some user := (row_of_none h.user).trans huser
  have hcount := countDefaultConsumed_claimed hfresh hclaim h
  have hsum := sum_claimed hlisted hfirst h
  rw [exhausted_iff] at hleft
  rw [totalRemaining, totalRemaining, hsame, huser, Option.map_some, Option.map_some, Option.map_some,
    totalRemaining_eq, totalRemaining_eq, Store.view_commit]
  cases heff : effectiveDefaultAllowance settings.setting user with
  | none => rfl
  | some n =>
    rw [Option.map_some, Option.map_some, Option.map_some]
    change some (some (_ + ((usableEntitlements userId s.world.now panelId (s.view t)).map _).sum)) = _
    rw [hsum, hcount]
    congr 2
    cases first with
    | some row =>
      simp only [reduceCtorEq, if_false]
      omega
    | none =>
      have hnil : usableEntitlements userId s.world.now panelId (s.view {}) = [] :=
        List.head?_eq_none_iff.mp hfirst.symm
      have hmore : countDefaultConsumed userId none (s.view {}) < n := by
        by_contra hno
        exact hleft ⟨hnil, n, heff, not_lt.mp hno⟩
      simp only [if_true]
      omega

/-! ### The agreement -/

/-- What the calculator announces is what the transaction of a claim does in the same state. -/
theorem eligibility_agrees (settings : TrialSettings) (panel : TrialPanel)
    (hnone : s.rows (.claim claimId) = none) (hfresh : claimId ∉ claimIds s.journal)
    (hlisted : (entitlementIds s.journal).Nodup) (huser : s.rows (.user userId) = some user) :
    let now := s.world.now
    let answer := computeTrialEligibility settings userId user (some panel.id) now (s.view {})
    let allowance := computeTrialAllowance settings userId user (some panel.id) now (s.view {})
    let unit := allowance.usableEntitlements.head?.map (·.1)
    let inserted := (insertWithUnit claimId userId panel now).solo p settings.answers { store := s }
    let reserved := (reserveTrialAllowance user userId panel.id claimId).solo p settings.answers
      { store := s, tx := some {} }
    (answer.eligible = true → inserted.1 = .ok (claimRow userId panel now unit) ∧
      inserted.2.store.rows (.claim claimId) = some (claimRow userId panel now unit) ∧
      totalRemaining settings userId (some panel.id) inserted.2.store =
        (totalRemaining settings userId (some panel.id) s).map (Option.map (· - 1))) ∧
    ∀ reason, reason = .NO_ALLOWANCE ∨ reason = .ENTITLEMENT_EXPIRED ∨ reason = .PANEL_NOT_ALLOWED →
      answer.denialReason = some reason →
        reserved.1 = .noAllowance ∧ inserted.1 = .error "no-allowance" ∧ inserted.2.store = s := by
  intro now answer allowance unit inserted reserved
  have hrun (hbar : Unbarred userId user s.world.now (s.view {})) :=
    @soloWp_insertWithUnit p claimId userId s settings user { store := s } panel hnone hfresh huser hbar rfl
  refine ⟨fun heligible => ?_, fun reason hreason hdenied => ?_⟩
  · obtain ⟨hbar, hleft⟩ := unbarred_of_eligible heligible
    have hrun := hrun hbar
    simp only [soloWp] at hrun
    rw [if_neg hleft] at hrun
    obtain ⟨hok, t, hstore, hclaimed⟩ := hrun
    refine ⟨hok, ?_, ?_⟩
    · rw [hstore]
      exact row_of_some hclaimed.insert.claim
    · rw [hstore]
      exact totalRemaining_claimed hfresh hlisted huser ⟨rfl, rfl⟩ rfl hleft hclaimed
  · obtain ⟨hbar, hleft⟩ := unbarred_of_exhausted (decide_eq_true hreason) hdenied
    have hrun := hrun hbar
    simp only [soloWp] at hrun
    rw [if_pos hleft] at hrun
    obtain ⟨n, hreserve⟩ := @soloWp_reserve p claimId userId s {} settings user
      { store := s, tx := some {} } (.empty hfresh) ⟨rfl, rfl⟩ panel.id
    rw [if_pos hleft] at hreserve
    exact ⟨hreserve.1, hrun⟩

def openSettings : TrialSettings := { freeTrialEnabled := true }

/-- A granted unit and the default one; the grant is taken first. -/
theorem eligibility_agrees_one :
    let inserted := (insertWithUnit 1 1 onePanel 0).solo 0 openSettings.answers { store := oneUnit }
    inserted.1 = .ok (claimRow 1 onePanel 0 (some 1)) ∧
      totalRemaining openSettings 1 (some 1) inserted.2.store = some (some 1) := by
  have hremaining : (totalRemaining openSettings 1 (some 1) oneUnit).map (Option.map (· - 1)) =
      some (some 1) := by decide +kernel
  obtain ⟨hok, -, hafter⟩ := (@eligibility_agrees 0 1 1 oneUnit {} openSettings onePanel rfl
    List.not_mem_nil (List.nodup_singleton 1) rfl).1 (by decide +kernel)
  have hunit : (computeTrialAllowance openSettings 1 {} (some 1) 0
      (oneUnit.view {})).usableEntitlements.head?.map (·.1) = some 1 := by decide +kernel
  exact ⟨hok.trans (by rw [← hunit]; rfl), hafter.trans hremaining⟩

end ZedBot.Trials
