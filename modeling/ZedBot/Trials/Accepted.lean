import ZedBot.Trials.ClaimRules

/-! The functions of the trials, under any discipline with the rules of a trial. -/

namespace ZedBot.Trials
open ReadCommitted

/-! ### Statements -/

variable {p id claimId : ℕ} {s : TrialStore} {t : TrialTx} {E : TrialEntry → Prop}
  {r : List TrialStore} {Φ : StmtCond TrialRow TrialEntry}

/-- The clock does not go back. -/
def onward (w w' : TrialWorld) : Prop := w.now ≤ w'.now

theorem each_clock : clock.Each Φ onward := .ext fun _ w => Nat.le_refl w.now

theorem onSome_eq {α : Type} {cond : α → Bool} {data : α → α} {x n : Option α}
    (h : onSome cond data x = some n) : ∃ a, x = some a ∧ cond a = true ∧ n = some (data a) := by
  cases x with
  | none => cases h
  | some a =>
    rw [onSome] at h
    split at h
    · cases h
      exact ⟨a, rfl, ‹_›, rfl⟩
    · cases h

theorem each_writeClaim {cond : FreeTrialClaim → Bool} {data : FreeTrialClaim → FreeTrialClaim}
    (h : ∀ c, cond c = true → ClaimMove c (data c)) :
    (update (.claim id) (onSome cond data) : Trials ℕ).Each (ClaimsStmt E) onward := by
  refine .update (fun v => .nothing v) fun v n hn => ?_
  obtain ⟨c, hrow, hc, rfl⟩ := onSome_eq hn
  exact .of_claim hrow (h c hc)

theorem each_updateClaim {cond : FreeTrialClaim → Bool} {data : FreeTrialClaim → FreeTrialClaim}
    (h : ∀ c now, cond c = true → ClaimMove c { data c with updatedAt := now }) :
    (updateClaim id cond data).Each (ClaimsStmt E) onward :=
  .bind each_clock fun now => each_writeClaim fun c hc => h c now hc

theorem each_updateUser (data : TrialUser → TrialUser) (h0 : ∀ v, Φ v [] [])
    (h : ∀ v n, Φ v [⟨.user id, n⟩] []) : (updateUser id data).Each Φ onward :=
  .update h0 fun v n _ => h v n

/-- Entitlements end. -/
theorem each_endEntitlements {cond : FreeTrialEntitlement → Bool}
    {data : FreeTrialEntitlement → FreeTrialEntitlement}
    (h : ∀ e, cond e = true → EntitlementMove e (data e)) :
    (endEntitlements cond data).Each EntitlementsStmt onward := by
  refine .sql fun v => ⟨fun id n hmem => ?_, fun id n hmem => ?_, fun _ h => (nomatch h)⟩
  · obtain ⟨e, -, he⟩ := List.mem_filterMap.mp hmem
    obtain ⟨x, -, hx⟩ := Option.map_eq_some_iff.mp he
    cases hx
  · obtain ⟨e, -, he⟩ := List.mem_filterMap.mp hmem
    obtain ⟨x, hx, hw⟩ := Option.map_eq_some_iff.mp he
    cases hw
    obtain ⟨hrow, hc⟩ := Option.filter_eq_some_iff.mp hx
    exact .inl ⟨x, data x, hrow, rfl, h x hc⟩

theorem each_createEntitlement {row : FreeTrialEntitlement} (h : NewEntitlement row) :
    (createEntitlement id row).Each EntitlementsStmt onward := by
  refine .sql fun v => ?_
  split
  · rename_i hnone
    refine ⟨fun id' n hmem => ?_, fun id' n hmem => ?_, fun j hj => ?_⟩
    · cases List.mem_singleton.mp hmem
    · cases List.mem_singleton.mp hmem
      exact .inr ⟨hnone, row, rfl, h⟩
    · exact ⟨id, List.mem_singleton.mp hj⟩
  · exact .nothing v

theorem each_lockUser (userId : ℕ) (h : ∀ v n, Φ v [⟨.userLock userId, n⟩] []) :
    (lockUser userId).Each Φ onward := .sql fun v => h v _

/-! ### Moves of the source -/

theorem live_of_open {c : FreeTrialClaim} (h : c.status = .CLAIMED ∨ c.status = .PROVISIONING) :
    c.status ∈ LIVE_CLAIM_STATUSES := by
  rcases h with h | h <;> rw [h] <;> decide

theorem live_of_unsettled {c : FreeTrialClaim} (h : isUnsettled c = true) :
    c.status ∈ LIVE_CLAIM_STATUSES := by
  rcases of_decide_eq_true h with h | h <;> rw [h] <;> decide

theorem each_expireRows (now : ℕ) : (endEntitlements
    (fun e => e.status = .ACTIVE ∧ e.expiresAt.any (· ≤ now))
    fun e => { e with status := .EXPIRED }).Each EntitlementsStmt onward :=
  each_endEntitlements fun _ h => ⟨rfl, rfl, .inr ⟨(of_decide_eq_true h).1, .inl rfl⟩⟩

/-! ### Transactions -/

theorem UnitTx.empty (f : FreeTrialEntitlement → Option FreeTrialEntitlement)
    (h : ∀ e, t.chg (.entitlement e) = none) : UnitTx t none f :=
  ⟨fun _ h => (nomatch h), fun e _ => h e⟩

/-- A unit is moved on one entitlement that the transaction had not changed. -/
theorem UnitTx.moved {f : FreeTrialEntitlement → Option FreeTrialEntitlement} {e : ℕ}
    {x y : FreeTrialEntitlement} (h : UnitTx t none f)
    (hrow : t.row s.rows (.entitlement e) = some x) (hf : f x = some y) :
    UnitTx (t.write s.rows ⟨.entitlement e, some y⟩) (some e) f := by
  refine ⟨fun e' he => ?_, fun e' he => ?_⟩
  · cases he
    have hnone := h.others e (fun h => nomatch h)
    refine ⟨x, y, ?_, hf⟩
    rw [Tx.chg_write_self, Tx.base_of_chg hnone, ← hrow, Tx.row_of_chg hnone]
  · rw [Tx.chg_write_ne _ (fun h => he (by cases h; rfl))]
    exact h.others e' (fun h => nomatch h)

theorem UnitTx.elsewhere {f : FreeTrialEntitlement → Option FreeTrialEntitlement}
    {unit : Option ℕ} {k : TrialKey} (h : UnitTx t unit f) (hk : ∀ e, .entitlement e ≠ k)
    (n : TrialRow k) : UnitTx (t.write s.rows ⟨k, n⟩) unit f :=
  ⟨fun e he => by rw [Tx.chg_write_ne n (hk e)]; exact h.row e he,
    fun e he => by rw [Tx.chg_write_ne n (hk e)]; exact h.others e he⟩

section Insert

variable {c : FreeTrialClaim} {unit : Option ℕ}

/-- The claim is inserted. -/
theorem InsertTx.created {row : FreeTrialClaim} (hnone : s.rows (.claim id) = none)
    (hs : row.status = .CLAIMED) (hr : row.allowanceReleasedAt = none)
    (hf : row.usernameSnapshot = none) :
    InsertTx (Tx.add {} s.rows
      (⟨true, [⟨.claim id, some row⟩], [.claim id]⟩ : Effect TrialRow TrialEntry Bool)) id row none := by
  refine ⟨?_, fun id' hid => ?_, hs, hr, hf, .empty _ fun e => ?_, fun username => ?_, rfl⟩
  · simp [Tx.add, hnone]
  · simp [Tx.add, hid]
  · simp [Tx.add]
  · simp [Tx.add]

/-- The lock of the user is taken. -/
theorem InsertTx.lockedUser (h : InsertTx t id c unit) (userId n : ℕ) :
    InsertTx (t.write s.rows ⟨.userLock userId, n⟩) id c unit where
  claim := (Tx.chg_write_ne _ TrialKey.noConfusion).trans h.claim
  others id' hid := (Tx.chg_write_ne _ TrialKey.noConfusion).trans (h.others id' hid)
  status := h.status
  unreleased := h.unreleased
  unfrozen := h.unfrozen
  units := h.units.elsewhere (fun _ => TrialKey.noConfusion) _
  services username := (Tx.chg_write_ne _ TrialKey.noConfusion).trans (h.services username)
  entries := h.entries

theorem InsertTx.taken {e : ℕ} {x y : FreeTrialEntitlement} (h : InsertTx t id c none)
    (hrow : t.row s.rows (.entitlement e) = some x) (htake : take x = some y) :
    InsertTx (t.write s.rows ⟨.entitlement e, some y⟩) id c (some e) where
  claim := (Tx.chg_write_ne _ TrialKey.noConfusion).trans h.claim
  others id' hid := (Tx.chg_write_ne _ TrialKey.noConfusion).trans (h.others id' hid)
  status := h.status
  unreleased := h.unreleased
  unfrozen := h.unfrozen
  units := h.units.moved hrow htake
  services username := (Tx.chg_write_ne _ TrialKey.noConfusion).trans (h.services username)
  entries := h.entries

/-- The inserted claim is linked to its entitlement. -/
theorem InsertTx.linked {c' : FreeTrialClaim} (h : InsertTx t id c unit)
    (hs : c'.status = c.status) (hr : c'.allowanceReleasedAt = c.allowanceReleasedAt)
    (hf : c'.usernameSnapshot = c.usernameSnapshot) : InsertTx (t.write s.rows ⟨.claim id, some c'⟩) id c' unit where
  claim := by
    have hbase : t.base s.rows (.claim id) = none := by simp [Tx.base, h.claim]
    rw [Tx.chg_write_self, hbase]
  others id' hid := by
    rw [Tx.chg_write_ne _ (fun he => hid (by cases he; rfl))]
    exact h.others id' hid
  status := hs.trans h.status
  unreleased := hr.trans h.unreleased
  unfrozen := hf.trans h.unfrozen
  units := h.units.elsewhere (fun _ => TrialKey.noConfusion) _
  services username := (Tx.chg_write_ne _ TrialKey.noConfusion).trans (h.services username)
  entries := h.entries

theorem InsertTx.row (h : InsertTx t id c unit) : t.row s.rows (.claim id) = some c := by
  simp [Tx.row, h.claim]

end Insert

/-! ### The insert -/

section Rules

variable {D : Discipline TrialRow TrialEntry TrialWorld}

/-- The clock is read. -/
theorem wp_clock (hact : ∀ {r s}, D.Inv s → D.Acts p r s s.world)
    {l : Local TrialRow TrialEntry TrialWorld}
    {Q : ℕ → Local TrialRow TrialEntry TrialWorld → TrialStore → Prop}
    (h : ∀ s', D.Later p l.Holds s s' → D.Inv s' → Q s'.world.now l s') : wp D p clock Q l s :=
  wp_ext _ fun s' hl hi _ => ⟨hact hi, h s' hl hi⟩

/-! A claim is inserted with its unit. -/

section Insert

variable (hact : ∀ {r s}, D.Inv s → D.Acts p r s s.world)

/-- The unit is taken from the first entitlement that still has one. -/
theorem wp_takeFirst {c : FreeTrialClaim} (now : ℕ) (h : InsertTx t claimId c none) :
    ∀ rows, wp D p (takeFirst now rows)
      (fun x l _ => ∃ t', l.tx = some t' ∧ InsertTx t' claimId c x) ⟨some t, r⟩ s := by
  intro rows
  induction rows generalizing s with
  | nil => exact ⟨t, rfl, h⟩
  | cons head rest ih =>
    refine (wp_seq _ _).mpr (wp_update_tx fun s' _ _ _ => ⟨fun _ => ih, fun n hn => ?_⟩)
    obtain ⟨x, hrow, hc, rfl⟩ := onSome_eq hn
    obtain ⟨hactive, hrest, -⟩ := of_decide_eq_true hc
    refine ⟨_, rfl, h.taken hrow ?_⟩
    rw [take, if_pos ⟨hactive, hrest⟩]

include hact

theorem wp_reserve {c : FreeTrialClaim} (user : TrialUser) (userId panelId : ℕ)
    (h : InsertTx t claimId c none) :
    wp D p (reserveTrialAllowance user userId panelId claimId)
      (fun x l _ => ∃ t', l.tx = some t' ∧ ∀ unit, x = .ok unit → InsertTx t' claimId c unit)
      ⟨some t, r⟩ s := by
  refine (wp_seq _ _).mpr (wp_clock hact fun s₁ _ _ => ?_)
  refine (wp_seq _ _).mpr (wp_sql_tx fun s₂ _ _ _ => ?_)
  have hlocked : InsertTx (t.add s₂.rows ({ result := (), writes := [⟨.userLock userId,
      ((s₂.view t).rows (.userLock userId) + 1 : ℕ)⟩] } : Effect TrialRow TrialEntry Unit))
      claimId c none := by
    simpa [Tx.add] using h.lockedUser userId _
  refine (wp_seq _ _).mpr (wp_select _ fun s₃ _ _ => ?_)
  refine (wp_seq _ _).mpr (wp_mono _ (fun x l s hx => ?_) (wp_takeFirst _ hlocked _))
  obtain ⟨tx, reads⟩ := l
  obtain ⟨t', rfl, hx⟩ := hx
  cases x with
  | some e =>
    refine ⟨t', rfl, fun unit he => ?_⟩
    cases he
    exact hx
  | none =>
    refine (wp_seq _ _).mpr (wp_ask _ fun setting => ?_)
    split
    · refine ⟨t', rfl, fun unit he => ?_⟩
      cases he
      exact hx
    · refine (wp_seq _ _).mpr (wp_select _ fun s₄ _ _ => ⟨t', rfl, fun unit he => ?_⟩)
      split at he
      · cases he
        exact hx
      · cases he

omit hact in
/-- The claim is inserted, or its row is there or its user has a live one. -/
theorem wp_createClaim {row : FreeTrialClaim} (hs : row.status = .CLAIMED)
    (hr : row.allowanceReleasedAt = none) (hf : row.usernameSnapshot = none) :
    wp D p (createClaim claimId row)
      (fun x l s => ∃ t, l = ⟨some t, r⟩ ∧ t.Held s.rows ∧ (x = true → InsertTx t claimId row none))
      ⟨some {}, r⟩ s := by
  refine wp_sql_tx fun s₁ _ _ hheld => ⟨_, rfl, hheld.add _, fun hx => ?_⟩
  dsimp only at hx ⊢
  split at hx
  · rename_i hnone
    split at hx
    · rename_i hfree
      simp only [hfree, if_true]
      exact .created hnone hs hr hf
    · cases hx
  · cases hx

/-- An insert of a claim that commits has inserted it, and has read while it was not there. -/
theorem wp_insertWithUnit (userId : ℕ) (panel : TrialPanel) (now : ℕ) (hi : D.Inv s)
    (hcommit : ∀ {r s t c}, D.Inv s → t.Held s.rows → InsertTx t claimId c c.entitlementId →
      D.Commits p r s t) :
    wp D p (insertWithUnit claimId userId panel now) (fun x l s => l.tx = none ∧ D.Inv s ∧
      ∀ c, x = .ok c → c.usernameSnapshot = none ∧
        (∃ c', s.rows (.claim claimId) = some c' ∧ c'.panelId = c.panelId) ∧
        ∃ x ∈ l.reads, x.rows (.claim claimId) = none) ⟨none, r⟩ s := by
  refine wp_transaction (wp_mono _ (Q := fun x l s => D.Inv s ∧ match x with
    | .ok c => c.usernameSnapshot = none ∧ (∃ x ∈ l.reads, x.rows (.claim claimId) = none) ∧
      ∃ t c', l.tx = some t ∧ c'.panelId = c.panelId ∧ InsertTx t claimId c' c'.entitlementId
    | .error _ => True) (fun x l s hx => ?_) ?_)
  · obtain ⟨tx, reads⟩ := l
    cases x with
    | error e => exact ⟨rfl, hx.1, fun c hc => nomatch hc⟩
    | ok claim =>
      obtain ⟨-, hfresh, hread, t, c, rfl, hpanel, h⟩ := hx
      intro s' _ hi' hheld
      have hc := hcommit (r := reads) hi' hheld h
      refine ⟨hc, rfl, D.inv_commit hi' hheld hc, fun c' he => ?_⟩
      cases he
      exact ⟨hfresh, ⟨c, h.row, hpanel⟩, hread⟩
  refine wp_mono _ (fun x l s hx => ⟨hx.2.1, hx.1⟩) (wp_frame (K := fun _ => True)
    (fun _ _ _ => trivial) _ hi trivial ?_)
  refine (wp_seq _ _).mpr (wp_mono _ (fun x l s₁ hx => ?_) (wp_createClaim rfl rfl rfl))
  obtain ⟨t, rfl, hheld₁, hx⟩ := hx
  split
  · trivial
  · rename_i hcreated
    have hins := hx (not_not.mp hcreated)
    refine (wp_seq _ _).mpr (wp_select _ fun s₂ hl₂ _ => ?_)
    split
    · trivial
    rename_i user _
    split
    · trivial
    split
    · trivial
    split
    · trivial
    have hnone : s₂.rows (.claim claimId) = none :=
      (hl₂.rows_eq (by simp [Local.Holds, Local.pending, Tx.Holds, hins.claim])).trans
        (hheld₁ _ _ _ hins.claim).symm
    refine (wp_seq _ _).mpr (wp_mono _ (fun x l s hx => ?_) (wp_reads _ (List.mem_cons_self ..)
      (wp_reserve hact user userId panel.id hins)))
    obtain ⟨tx, reads⟩ := l
    obtain ⟨⟨t', rfl, hx⟩, hread⟩ := hx
    split
    · trivial
    · exact ⟨rfl, ⟨s₂, hread, hnone⟩, t', _, rfl, rfl, hx none rfl⟩
    · rename_i e
      refine (wp_seq _ _).mpr ((wp_seq _ _).mpr (wp_clock hact fun s₃ _ _ => wp_update_tx
        fun s₄ _ _ _ => ⟨fun hno => ?_, fun n hn => ?_⟩))
      · rw [(hx (some e) rfl).row] at hno
        cases hno
      · obtain ⟨c, hc, -, rfl⟩ := onSome_eq hn
        rw [(hx (some e) rfl).row] at hc
        cases hc
        refine ⟨rfl, ⟨s₂, hread, hnone⟩, _, _, rfl, ?_, (hx (some e) rfl).linked rfl rfl rfl⟩
        rfl

end Insert

/-! ### Programs -/

variable {Idle : FreeTrialClaim → Prop} {Limit : ℕ → ℕ → Prop}

theorem TrialRules.claimRules (R : TrialRules D p Idle Limit) :
    StmtRules D p (ClaimsStmt fun _ => False) onward fun _ t => ClaimsTx (fun _ => False) t where
  start _ := .empty
  env _ _ h := h
  add _ h he := h.add he
  commits hi hheld h := R.movesClaims hi hheld h
  acts hi h := R.acts hi h

theorem TrialRules.entitlementRules (R : TrialRules D p Idle Limit) :
    StmtRules D p EntitlementsStmt onward fun _ t => EntitlementsTx t where
  start _ := .empty
  env _ _ h := h
  add _ h he := h.add he
  commits hi hheld h := R.movesEntitlements hi hheld h
  acts hi h := R.acts hi h

variable (R : TrialRules D p Idle Limit)
include R

theorem TrialRules.clock_acts {r : List TrialStore} (hi : D.Inv s) : D.Acts p r s s.world :=
  R.acts hi (Nat.le_refl _)

theorem TrialRules.accepts_clock : Accepts D p clock := R.claimRules.accepts_ext each_clock

theorem TrialRules.accepts_updateClaim {cond : FreeTrialClaim → Bool}
    {data : FreeTrialClaim → FreeTrialClaim}
    (h : ∀ c now, cond c = true → ClaimMove c { data c with updatedAt := now }) :
    Accepts D p (updateClaim id cond data) :=
  .bind R.accepts_clock fun now => R.claimRules.accepts_stmt (each_writeClaim fun c hc => h c now hc)

/-! A claim that came to nothing gives its unit back. -/

omit R in
theorem GiveBackTx.stamped {c : FreeTrialClaim} {now now' : ℕ}
    (hrow : s.rows (.claim id) = some c) (hc : isReleasable c = true) :
    GiveBackTx (Tx.write {} s.rows ⟨.claim id,
      some { c with allowanceReleasedAt := some now, updatedAt := now' }⟩) id c
      { c with allowanceReleasedAt := some now, updatedAt := now' } none where
  claim := by rw [Tx.chg_write_self, Tx.base_empty, hrow]
  others id' hid := Tx.chg_write_ne _ fun he => hid (by cases he; rfl)
  releasable := hc
  stamp := ⟨now, rfl⟩
  units := .empty _ fun e => Tx.chg_write_ne _ TrialKey.noConfusion
  entries := rfl

omit R in
theorem GiveBackTx.givenBack {c c' : FreeTrialClaim} {e : ℕ} {x : FreeTrialEntitlement}
    (h : GiveBackTx t id c c' none) (hrow : t.row s.rows (.entitlement e) = some x)
    (hx : 0 < x.consumed) :
    GiveBackTx (t.write s.rows ⟨.entitlement e, some x.givenBack⟩) id c c' (some e) where
  claim := (Tx.chg_write_ne _ TrialKey.noConfusion).trans h.claim
  others id' hid := (Tx.chg_write_ne _ TrialKey.noConfusion).trans (h.others id' hid)
  releasable := h.releasable
  stamp := h.stamp
  units := h.units.moved hrow (by rw [giveBack, if_pos hx])
  entries := h.entries

theorem TrialRules.accepts_release (claimId : ℕ) : Accepts D p (releaseClaimAllowance claimId) := by
  refine .transaction fun r s _ => (wp_seq _ _).mpr (wp_clock R.clock_acts fun s₁ _ _ => ?_)
  refine (wp_seq _ _).mpr ((wp_seq _ _).mpr (wp_clock R.clock_acts fun s₂ _ _ => wp_update_tx
    fun s₃ _ _ _ => ⟨fun _ => ?_, fun n hn => ?_⟩))
  · exact ⟨{}, rfl, fun s' _ hi _ => D.commits_empty hi⟩
  obtain ⟨c, hrow, hc, rfl⟩ := onSome_eq hn
  have hstamped : GiveBackTx (Tx.write {} s₃.rows ⟨.claim claimId, some { c with
      allowanceReleasedAt := some s₁.world.now, updatedAt := s₂.world.now }⟩) claimId c _ none :=
    .stamped hrow hc
  refine (wp_seq _ _).mpr (wp_select _ fun s₄ _ _ => ?_)
  have hseen : (s₄.view (Tx.write {} s₃.rows ⟨.claim claimId, some { c with
      allowanceReleasedAt := some s₁.world.now, updatedAt := s₂.world.now }⟩)).rows (.claim claimId) =
      some { c with allowanceReleasedAt := some s₁.world.now, updatedAt := s₂.world.now } :=
    Tx.row_write_self ..
  simp only [Local.pending, Option.getD_some, hseen, Option.bind_some]
  split
  · rename_i he
    exact ⟨_, rfl, fun s' _ hi hheld => R.givesBack hi hheld hstamped (.inl he.symm)⟩
  · rename_i e he
    refine (wp_seq _ _).mpr (wp_update_tx fun s₅ _ hi₅ hheld₅ => ⟨fun hno => ?_, fun n hn => ?_⟩)
    · -- no unit is there to give back
      refine ⟨_, rfl, fun s' _ hi hheld => R.givesBack hi hheld hstamped (.inr ?_)⟩
      refine R.idle hi₅ (hheld₅ _ _ _ hstamped.claim).symm hc he fun x hx hpos => ?_
      rw [Tx.row_of_chg (hstamped.units.others e (fun h => by cases h)), hx, onSome,
        if_pos (decide_eq_true hpos)] at hno
      cases hno
    · obtain ⟨x, hx, hpos, rfl⟩ := onSome_eq hn
      exact ⟨_, rfl, fun s' _ hi hheld => R.givesBack hi hheld
        (hstamped.givenBack hx (of_decide_eq_true hpos)) (.inl he.symm)⟩

/-! Entitlements are created and end. -/

theorem TrialRules.accepts_expireTrialEntitlements : Accepts D p expireTrialEntitlements :=
  .bind R.accepts_clock fun now => R.entitlementRules.accepts_stmt (each_expireRows now)

theorem TrialRules.accepts_grant (id userId : ℕ) (count : ℤ) (panelId expiresAt : Option ℕ)
    (source : FreeTrialEntitlementSource) :
    Accepts D p (grantTrialAllowance id userId count panelId expiresAt source) := by
  rw [grantTrialAllowance]
  split
  · exact .pure _
  · rename_i hcount
    refine .bind R.accepts_clock fun now => .bind (R.entitlementRules.accepts_stmt
      (each_createEntitlement ⟨rfl, ?_, fun h => nomatch h⟩)) fun _ => .pure _
    change 0 ≤ count
    omega

theorem TrialRules.accepts_setEffectiveRemaining (id userId : ℕ) (desired : ℤ) :
    Accepts D p (setEffectiveRemaining id userId desired) := by
  rw [setEffectiveRemaining]
  split
  · exact .pure _
  rename_i hdesired
  refine .bind R.accepts_clock fun now => .bind (R.entitlementRules.accepts_transaction
    (.bind (each_lockUser userId fun v n => .of_elsewhere n trivial) fun _ => .bind
      (each_endEntitlements fun e h => ⟨rfl, rfl, .inr ⟨(of_decide_eq_true h).2, .inr rfl⟩⟩)
      fun _ => .bind (.select _) fun consumed => .bind (each_updateUser _ (fun v => .nothing v)
        fun v n => .of_elsewhere n trivial) fun _ => ?_)) fun _ => .pure _
  split
  · rename_i hpos
    refine .bind (each_createEntitlement ⟨rfl, Int.le_of_lt hpos, fun h => nomatch h⟩)
      fun created => ?_
    split <;> exact .pure _
  · exact .pure _

/-! Claims move on. -/

theorem TrialRules.accepts_cancelClaimSafely (claimId : ℕ) (reason : String) :
    Accepts D p (cancelClaimSafely claimId reason) := by
  refine .bind (R.accepts_updateClaim fun c now h =>
    ⟨rfl, rfl, rfl, rfl, .inr (.inl (live_of_open (of_decide_eq_true h)))⟩) fun cancelled => ?_
  split
  · exact .bind (R.accepts_release claimId) fun _ => .pure _
  · exact .pure _

theorem TrialRules.accepts_insertClaim (claimId userId : ℕ) (panel : TrialPanel)
    (hlimit : ∀ limit, panel.testMaxConcurrentAccounts = some limit → Limit panel.id limit) :
    Accepts D p (insertClaim claimId userId panel) := by
  refine ⟨fun r s _ => (wp_seq _ _).mpr (wp_clock R.clock_acts fun s₁ _ hi₁ => ?_)⟩
  refine (wp_seq _ _).mpr (wp_mono _ (fun x l s₂ hx => ?_)
    (wp_frame (K := fun s => s₁.world.now ≤ s.world.now)
      (fun _ hst h => Nat.le_trans h (R.advances hst)) _ hi₁ (Nat.le_refl _)
      (wp_insertWithUnit R.clock_acts userId panel s₁.world.now hi₁ R.inserts)))
  obtain ⟨tx, reads⟩ := l
  obtain ⟨⟨rfl, hi₂, hx⟩, -, hnow⟩ := hx
  cases x with
  | error code => exact ⟨rfl, hi₂⟩
  | ok claim =>
    dsimp only
    split
    · exact ⟨rfl, hi₂⟩
    · rename_i limit hsome
      refine (wp_seq _ _).mpr (wp_mono _ (fun y l s₃ hy => ?_)
        (R.decides hi₂ ((hx claim rfl).2.1.imp fun _ h => h.1) hnow (hlimit limit hsome)))
      obtain ⟨tx, reads⟩ := l
      obtain ⟨rfl, hi₃⟩ := hy
      split
      · exact (Accepts.bind (R.accepts_release claimId) fun _ => .pure _).run _ _ hi₃
      · exact ⟨rfl, hi₃⟩
      · exact ⟨rfl, hi₃⟩

theorem TrialRules.accepts_persistTrialService (claimId : ℕ) (claim : FreeTrialClaim)
    (username : String) (expiresAt : ℕ) :
    Accepts D p (persistTrialService claimId claim username expiresAt) := by
  refine .bind R.accepts_clock fun now => R.claimRules.accepts_transaction
    (.bind (.sql fun v => ?_) fun created => .ite (fun _ => .pure _) fun _ => .bind
      (each_updateClaim fun c now h => ⟨rfl, rfl, rfl, rfl, .inr (.inl (live_of_unsettled h))⟩)
      fun activated => .ite (fun _ => .bind (each_updateUser _ (fun v => .nothing v)
        fun v n => .of_elsewhere n trivial) fun _ => .pure _) fun _ => .pure _)
  split
  · exact .of_elsewhere _ trivial
  · exact .nothing v

theorem TrialRules.accepts_freezeIdentity (claimId : ℕ) (claim : FreeTrialClaim) :
    Accepts D p (freezeIdentity claimId claim) := by
  rw [freezeIdentity]
  split
  · exact .pure _
  refine .bind (.ask _) fun resolved => ?_
  split
  · exact .bind (R.accepts_cancelClaimSafely claimId _) fun _ => .pure _
  · refine .bind (R.accepts_updateClaim fun c now h => ⟨rfl, rfl, rfl, rfl, .inl ⟨rfl, rfl⟩⟩)
      fun frozen => ?_
    split
    · exact .bind (.select _) fun fresh => .pure _
    · exact .pure _

theorem TrialRules.accepts_finishCreate (claimId : ℕ) (claim : FreeTrialClaim) (rem : Remote)
    (expiresAt : ℕ) (answer : CreateAnswer) :
    Accepts D p (finishCreate claimId claim rem expiresAt answer) := by
  cases answer with
  | uncertain => exact .pure _
  | rejected =>
    refine .bind (R.accepts_updateClaim fun c now h => ⟨rfl, rfl, rfl, rfl,
      .inr (.inl (live_of_open (.inr (of_decide_eq_true h))))⟩) fun failed => ?_
    split
    · exact .bind (R.accepts_release claimId) fun _ => .pure _
    · exact .pure _
  | ok => exact .bind (R.accepts_persistTrialService claimId claim _ _) fun _ => .pure _

/-- Only the panel and the locks are acted on. -/
theorem TrialRules.accepts_panel {β : Type} {f : TrialChoice → TrialWorld → β × TrialWorld}
    (h : ∀ c w, (f c w).2.now = w.now) :
    Accepts D p (ext f : Trials β) :=
  R.claimRules.accepts_ext (.ext fun c w => Nat.le_of_eq (h c w).symm)

theorem TrialRules.accepts_provisionTrialClaim (claimId : ℕ) (claim : FreeTrialClaim) :
    Accepts D p (provisionTrialClaim claimId claim) := by
  refine .bind (R.accepts_freezeIdentity claimId claim) fun username => ?_
  split
  · exact .pure _
  refine .bind (R.accepts_updateClaim fun c now h => ⟨rfl, rfl, rfl, rfl,
    .inr (.inl (live_of_open (of_decide_eq_true h)))⟩) fun _ => ?_
  refine .bind (R.accepts_panel fun c w => ?_) fun lock => ?_
  · split
    · rfl
    · split <;> rfl
  split
  · split
    · exact R.accepts_cancelClaimSafely claimId _
    · exact .pure _
  · refine .bind R.accepts_clock fun now => .bind (R.accepts_panel fun c w => rfl) fun _ => .bind
      (R.accepts_panel fun c w => ?_) fun answer => .bind (R.accepts_finishCreate claimId claim _ _ _)
        fun _ => R.accepts_panel fun c w => rfl
    split
    · rw [TrialWorld.land]
      split <;> rfl
    · rfl
    · split <;> rfl

theorem TrialRules.accepts_reconcileTrialClaim (claimId : ℕ) :
    Accepts D p (reconcileTrialClaim claimId) := by
  refine .bind (.select _) fun claim => ?_
  split
  · refine .bind (R.accepts_panel fun c w => rfl) fun remote => ?_
    split
    · refine .bind (.ask _) fun reported => .bind (R.accepts_persistTrialService _ _ _ _)
        fun persisted => ?_
      split <;> exact .pure _
    · refine .bind (R.accepts_updateClaim fun c now h => ⟨rfl, rfl, rfl, rfl,
        .inr (.inl (live_of_unsettled h))⟩) fun failed => ?_
      split
      · exact .bind (R.accepts_release claimId) fun _ => .pure _
      · exact .pure _
    · exact .pure _
  · exact .pure _

theorem TrialRules.accepts_expireClaim (now claimId : ℕ) : Accepts D p (expireClaim now claimId) := by
  refine .bind (.select _) fun claim => .bind (.select _) fun service => .bind
    (R.accepts_updateClaim fun c now h => ⟨rfl, rfl, rfl, rfl,
      .inr (.inr ⟨of_decide_eq_true h, rfl⟩)⟩) fun _ => ?_
  split
  · split
    · exact .bind (R.claimRules.accepts_stmt (.update (fun v => .nothing v)
        fun v n _ => .of_elsewhere n trivial)) fun _ => .pure _
    · exact .pure _
  · exact .pure _

theorem TrialRules.accepts_sweepProvisioning (now : ℕ) (claim : ℕ × FreeTrialClaim) :
    Accepts D p (sweepProvisioning now claim) := by
  refine .bind (R.accepts_reconcileTrialClaim claim.1) fun outcome => ?_
  split
  · exact .bind (R.accepts_updateClaim fun c now h => ⟨rfl, rfl, rfl, rfl,
      .inr (.inl (live_of_open (.inr (of_decide_eq_true h))))⟩) fun _ => .pure _
  · exact .pure _

theorem TrialRules.accepts_forceClaimNotCreated (claimId : ℕ) :
    Accepts D p (forceClaimNotCreated claimId) := by
  refine .bind (.select _) fun claim => ?_
  split
  · refine .bind (R.accepts_updateClaim fun c now h => ⟨rfl, rfl, rfl, rfl,
      .inr (.inl (live_of_unsettled h))⟩) fun cancelled => ?_
    split
    · exact .bind (R.accepts_release claimId) fun _ => .pure _
    · exact .pure _
  · exact .pure _

/-- The panels of the process have limits that the discipline knows. -/
def TrialProcess.Within (Limit : ℕ → ℕ → Prop) : TrialProcess → Prop
  | .claimFreeTrial _ _ panel =>
    ∀ limit, panel.testMaxConcurrentAccounts = some limit → Limit panel.id limit
  | _ => True

theorem TrialRules.accepts_process {process : TrialProcess} (h : process.Within Limit) :
    Accepts D p process.program := by
  cases process with
  | claimFreeTrial claimId userId panel =>
    refine .bind (R.accepts_insertClaim claimId userId panel h) fun inserted => ?_
    split
    · exact .pure _
    · exact R.accepts_provisionTrialClaim _ _
  | provision claimId =>
    refine .bind (.select _) fun claim => ?_
    split
    · exact .pure _
    · exact R.accepts_provisionTrialClaim _ _
  | reconcile claimId => exact .bind (R.accepts_reconcileTrialClaim claimId) fun _ => .pure _
  | sweep =>
    exact .bind R.accepts_clock fun now => .bind R.accepts_expireTrialEntitlements fun _ =>
      .bind (.select _) fun expiring => .bind (.forEach (R.accepts_expireClaim now) _) fun _ =>
        .bind (.select _) fun stale => .bind
          (.forEach (fun id => R.accepts_cancelClaimSafely id _) _) fun _ =>
            .bind (.select _) fun provisioning => .forEach (R.accepts_sweepProvisioning now) _
  | release claimId => exact .bind (R.accepts_release claimId) fun _ => .pure _
  | forceNotCreated claimId => exact R.accepts_forceClaimNotCreated claimId
  | expire => exact R.accepts_expireTrialEntitlements
  | grant id userId count panelId expiresAt source =>
    exact R.accepts_grant id userId count panelId expiresAt source
  | setRemaining id userId desired => exact R.accepts_setEffectiveRemaining id userId desired
  | editUser id row =>
    exact R.claimRules.accepts_stmt (.sql fun v => .of_elsewhere _ trivial)
  | tick => exact R.claimRules.accepts_ext (.ext fun c w => Nat.le_add_right ..)
  | land rem =>
    refine R.accepts_panel fun c w => ?_
    rw [TrialWorld.land]
    split <;> rfl
  | drop rem => exact R.accepts_panel fun c w => rfl

end Rules

end ZedBot.Trials
