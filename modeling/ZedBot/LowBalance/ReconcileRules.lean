import ZedBot.LowBalance.AlertRules
import ZedBot.LowBalance.Reconcile

/-! What a pass of the reconciliation sweep does.

    A unit keeps the users and never drops a state row; the initialisation reaches its end exactly when
    the missing users run out before a batch of failing units; and the batches of the repair together
    read one page of the table. -/

namespace ZedBot.LowBalance
open ReadCommitted KeysetSweep

variable {config : FrozenConfig} {userId : ℕ} {s s' s'' : AlertStore} {db db' : SweepDb}

/-! ### Units -/

/-- What a unit leaves: the users, the other state rows, and its own state row if it was there. -/
structure UnitLeft (userId : ℕ) (s s' : AlertStore) : Prop where
  users : ∀ u, s'.rows (.user u) = s.rows (.user u)
  ids : userIds s'.journal = userIds s.journal
  others : ∀ u, u ≠ userId → s'.rows (.alertState u) = s.rows (.alertState u)
  kept : s.rows (.alertState userId) ≠ none → s'.rows (.alertState userId) ≠ none

theorem UnitLeft.refl : UnitLeft userId s s := ⟨fun _ => rfl, rfl, fun _ _ => rfl, id⟩

/-- The commit of a unit that had nothing to do. -/
theorem UnitLeft.of_rows (hrows : s'.rows = s.rows) (hjournal : s'.journal = s.journal) :
    UnitLeft userId s s' := by
  refine ⟨fun u => ?_, ?_, fun u _ => ?_, fun h => ?_⟩
  · rw [hrows]
  · rw [hjournal]
  · rw [hrows]
  · rwa [hrows]

/-- Nothing happens around the observation of a lone process. -/
theorem rows_of_applied {input : LowBalanceObservationInput} {t : AlertTx}
    {s₀ s₁ s₂ s₃ s₄ s₅ : AlertStore} {base : Option LowBalanceAlertState}
    {st st' : LowBalanceAlertState} {t' t'' : AlertTx} {notified : Option ℕ} {o : Observation}
    (happ : Applied (lone 0) 0 input t s₀ s₁ s₂ s₃ s₄ s₅ base st st' t' t'' notified o) :
    s₅.rows = s₀.rows ∧ s₅.journal = s₀.journal := by
  obtain ⟨h₁, j₁⟩ := lone_later happ.waits
  obtain ⟨h₂, j₂⟩ := lone_later happ.reads
  obtain ⟨h₃, j₃⟩ := lone_later happ.moves.asks
  obtain ⟨h₄, j₄⟩ := lone_later happ.moves.inserts
  obtain ⟨h₅, j₅⟩ := lone_later happ.moves.ends
  exact ⟨by rw [h₅, h₄, h₃, h₂, h₁], by rw [j₅, j₄, j₃, j₂, j₁]⟩

/-- The commit of an observation. -/
theorem UnitLeft.of_applied {input : LowBalanceObservationInput} {s₀ s₁ s₂ s₃ s₄ s₅ s₆ : AlertStore}
    {base : Option LowBalanceAlertState} {st st' : LowBalanceAlertState} {t' t'' : AlertTx}
    {notified : Option ℕ} {o : Observation}
    (happ : Applied (lone 0) 0 input {} s₀ s₁ s₂ s₃ s₄ s₅ base st st' t' t'' notified o)
    (hrows : s₆.rows = s.rows) (hjournal : s₆.journal = s.journal) :
    UnitLeft input.userId s (s₆.commit 0 t'') ∧
      (s₆.commit 0 t'').rows (.alertState input.userId) ≠ none := by
  have hstate : (s₆.commit 0 t'').rows (.alertState input.userId) = some st' := by
    have hchg : t''.chg (.alertState input.userId) = some (base, some st') := by
      rw [happ.tx]
      exact happ.moves.holding.state
    simp only [Store.commit, Tx.row, hchg]
  have hother : ∀ k, ¬ IsAlertOf input.userId k → (s₆.commit 0 t'').rows k = s.rows k := by
    intro k hk
    have hchg : t''.chg k = none := happ.chg hk
    rw [← hrows]
    simp only [Store.commit, Tx.row, hchg]
  refine ⟨⟨fun u => hother _ (by simp [IsAlertOf]), ?_, fun u hu => hother _ (by simp [IsAlertOf, hu]),
    fun _ => ?_⟩, ?_⟩
  · rw [Store.journal_commit, hjournal, happ.tx, Tx.entries_append, happ.moves.holding.entries]
    simp [userIds]
  · rw [hstate]
    exact Option.some_ne_none _
  · rw [hstate]
    exact Option.some_ne_none _

/-- How a unit ends: it leaves the users alone, and an ACTIVE user has a state row. -/
structure UnitEnded (userId : ℕ) (s : AlertStore)
    (x : Except ObservationThrow (Option LowBalanceObservationOutcome)) (s' : AlertStore) :
    Prop where
  left : UnitLeft userId s s'
  active : ∀ user, s.rows (.user userId) = some user → user.status = .ACTIVE →
    (∃ outcome, x = .ok (some outcome)) ∧ s'.rows (.alertState userId) ≠ none

theorem solo_processOne (ch : ℕ → AlertChoice) :
    soloWp 0 ch (processOne config userId) (fun x σ => UnitEnded userId s x σ.store)
      { store := s } := by
  refine soloWp_of_wp (D := lone 0) (Q := fun x _ σ => UnitEnded userId s x σ) _ trivial ?_ ?_
  · exact Tx.Held.empty _
  refine wp_transaction ((wp_seq _ _).mpr (wp_select _ fun s₀ hl₀ _ => ?_))
  obtain ⟨hrows₀, hjournal₀⟩ := lone_later hl₀
  have hidle : ∀ s' : AlertStore, (lone 0).Later 0 (Tx.Holds ({} : AlertTx)) s₀ s' →
      UnitLeft userId s (s'.commit 0 {}) := by
    intro s' hl
    obtain ⟨hrows, hjournal⟩ := lone_later hl
    exact .of_rows (hrows.trans hrows₀) ((Store.journal_commit ..).trans
      ((List.append_nil _).trans (hjournal.trans hjournal₀)))
  dsimp only [Local.pending, Local.read, Option.getD_some, Store.view]
  rw [Tx.row_empty, hrows₀]
  cases hlive : s.rows (.user userId) with
  | none =>
    refine fun s' hl _ _ => ⟨.inl rfl, hidle s' hl, fun user hu => ?_⟩
    rw [hlive] at hu
    cases hu
  | some live =>
    dsimp only
    split
    · rename_i hinactive
      refine fun s' hl _ _ => ⟨.inl rfl, hidle s' hl, fun user hu hactive => ?_⟩
      rw [hlive] at hu
      cases hu
      exact absurd hactive hinactive
    refine (wp_seq _ _).mpr (wp_applyLowBalanceObservation (fun _ _ => rfl) (fun e l s' hv => ?_) ?_)
    · -- nobody is there to remove the state
      obtain ⟨s₁, -, hthere, hl, hgone⟩ := hv
      rw [(lone_later hl).1] at hgone
      exact absurd hgone hthere
    · intro s₁ s₂ s₃ s₄ s₅ base st st' t' t'' notified o outcome r' happ _ _ _ s₆ hl₆ _ _
      obtain ⟨hrows₅, hjournal₅⟩ := rows_of_applied happ
      obtain ⟨hrows₆, hjournal₆⟩ := lone_later hl₆
      obtain ⟨hleft, hthere⟩ := UnitLeft.of_applied happ (hrows₆.trans (hrows₅.trans hrows₀))
        (hjournal₆.trans (hjournal₅.trans hjournal₀))
      exact ⟨.inl rfl, hleft, fun _ _ _ => ⟨⟨outcome, rfl⟩, hthere⟩⟩

/-! ### The rows of a state -/

/-- The users as they were, and state rows for `created` besides those that were there. -/
structure Grown (created : List ℕ) (s s' : AlertStore) : Prop where
  users : ∀ u, s'.rows (.user u) = s.rows (.user u)
  ids : userIds s'.journal = userIds s.journal
  states : ∀ u, s'.rows (.alertState u) ≠ none ↔ s.rows (.alertState u) ≠ none ∨ u ∈ created

theorem Grown.refl : Grown [] s s := ⟨fun _ => rfl, rfl, fun _ => by simp⟩

theorem Grown.trans {a b : List ℕ} (h : Grown a s s') (h' : Grown b s' s'') :
    Grown (a ++ b) s s'' := by
  refine ⟨fun u => (h'.users u).trans (h.users u), h'.ids.trans h.ids, fun u => ?_⟩
  rw [h'.states, h.states, List.mem_append, or_assoc]

section Rows

variable {rowId : ℕ → ℕ} {created : List ℕ}

theorem view_rows (k : AlertKey) : (s.view ({} : AlertTx)).rows k = s.rows k := rfl

theorem view_journal : (s.view ({} : AlertTx)).journal = s.journal := List.append_nil _

theorem isSome_repairRow {u : ℕ} : (repairRow rowId (s.view {}) u).isSome ↔
    s.rows (.alertState u) ≠ none ∧ s.rows (.user u) ≠ none := by
  unfold repairRow
  rw [view_rows, view_rows]
  cases s.rows (.alertState u) <;> cases s.rows (.user u) <;> simp

theorem stateUsers_nodup : (stateUsers rowId (s.view {})).Nodup :=
  (((List.perm_insertionSort ..).nodup_iff).mpr (List.nodup_dedup _)).filter _

theorem stateRowIds_sorted (hinj : Function.Injective rowId) :
    (stateRowIds rowId (s.view {})).Pairwise (· < ·) := by
  have hle : (stateUsers rowId (s.view {})).Pairwise fun a b => rowId a ≤ rowId b := by
    refine List.Pairwise.filter _ ?_
    exact List.pairwise_insertionSort (fun a b => rowId a ≤ rowId b) _
  rw [stateRowIds, List.pairwise_map]
  refine (hle.and stateUsers_nodup).imp fun h => ?_
  exact lt_of_le_of_ne h.1 fun he => h.2 (hinj he)

/-- The state rows of a grown state. -/
theorem Grown.stateUsers_subset (h : Grown created s s') :
    stateUsers rowId (s.view {}) ⊆ stateUsers rowId (s'.view {}) := by
  intro u hu
  obtain ⟨hmem, hrow⟩ := List.mem_filter.mp hu
  rw [isSome_repairRow] at hrow
  refine List.mem_filter.mpr ⟨?_, ?_⟩
  · rw [view_journal, h.ids]
    rwa [view_journal] at hmem
  · rw [isSome_repairRow, h.states, h.users]
    exact ⟨.inl hrow.1, hrow.2⟩

/-- Where nothing was created the same users have state rows. -/
theorem Grown.stateUsers_eq (h : Grown [] s s') :
    stateUsers rowId (s'.view {}) = stateUsers rowId (s.view {}) := by
  unfold stateUsers
  rw [view_journal, view_journal, h.ids]
  refine List.filter_congr fun u _ => ?_
  rw [Bool.eq_iff_iff, isSome_repairRow, isSome_repairRow, h.states, h.users]
  simp

theorem Grown.stateRowIds_eq (h : Grown [] s s') :
    stateRowIds rowId (s'.view {}) = stateRowIds rowId (s.view {}) := by
  rw [stateRowIds, h.stateUsers_eq, stateRowIds]

theorem Grown.stateRowIds_subset (h : Grown created s s') :
    stateRowIds rowId (s.view {}) ⊆ stateRowIds rowId (s'.view {}) :=
  List.map_subset _ h.stateUsers_subset

/-- The users that miss a state row in a grown state. -/
theorem Grown.missingUsers_eq (h : Grown created s s') :
    missingUsers (s'.view {}) = (missingUsers (s.view {})).filter (· ∉ created) := by
  unfold missingUsers usersById
  rw [view_journal, view_journal, h.ids, List.filter_filter]
  refine List.filter_congr fun u _ => ?_
  have hstates := h.states u
  simp only [isMissing, view_rows, h.users]
  cases hold : s.rows (.alertState u) <;> cases hnew : s'.rows (.alertState u) <;>
    simp_all

/-- The ids of a page are the page of the ids. -/
theorem map_findRepairPage (hinj : Function.Injective rowId) (cursor : Option ℕ) :
    (findRepairPage rowId cursor (s.view {})).map (·.id) =
      page LOW_BALANCE_RECONCILE_BATCH (stateRowIds rowId (s.view {})) cursor := by
  have hmap : ∀ users : List ℕ, users ⊆ stateUsers rowId (s.view {}) →
      (users.filterMap (repairRow rowId (s.view {}))).map (·.id) = users.map rowId := by
    intro users hsub
    induction users with
    | nil => rfl
    | cons u us ih =>
      obtain ⟨row, hrow⟩ := Option.isSome_iff_exists.mp (List.mem_filter.mp (hsub List.mem_cons_self)).2
      have hid : row.id = rowId u := by
        unfold repairRow at hrow
        split at hrow
        · cases hrow
          rfl
        · cases hrow
      rw [List.filterMap_cons_some hrow, List.map_cons, List.map_cons, hid,
        ih fun x hx => hsub (List.mem_cons_of_mem _ hx)]
  cases cursor with
  | none =>
    refine (hmap _ fun x hx => List.mem_of_mem_take hx).trans ?_
    rw [List.map_take]
    rfl
  | some c =>
    by_cases hc : c ∈ stateRowIds rowId (s.view {})
    · have hids : ((stateUsers rowId (s.view {})).filter fun id => c ≤ rowId id).map rowId =
          (stateRowIds rowId (s.view {})).filter (c ≤ ·) := by
        rw [stateRowIds, List.filter_map]
        rfl
      simp only [findRepairPage, page, ahead, if_pos hc]
      rw [hmap, List.map_take, List.map_drop, hids,
        filter_le_eq_cons (stateRowIds_sorted hinj) hc, List.drop_succ_cons, List.drop_zero]
      exact fun x hx => (List.mem_filter.mp (List.mem_of_mem_drop (List.mem_of_mem_take hx))).1
    · simp only [findRepairPage, page, ahead, if_neg hc, List.take_nil]
      rfl

/-- The users of a page have a state row. -/
theorem mem_findRepairPage {cursor : Option ℕ} {row : RepairRow}
    (h : row ∈ findRepairPage rowId cursor (s.view {})) :
    s.rows (.alertState row.userId) ≠ none := by
  obtain ⟨u, -, hu⟩ := List.mem_filterMap.mp h
  have hsome : (repairRow rowId (s.view {}) u).isSome := by rw [hu]; rfl
  have huser : row.userId = u := by
    unfold repairRow at hu
    split at hu
    · cases hu
      rfl
    · cases hu
  rw [huser]
  exact (isSome_repairRow.mp hsome).1

end Rows

/-! ### Units, one after another -/

/-- A unit leaves the control row, and everything if it fails. -/
theorem runUnit_spec (config : FrozenConfig) (now : ℕ) (fails : Bool) (u : ℕ) (db : SweepDb) :
    (runUnit config now fails u db).2.control = db.control ∧
      UnitLeft u db.alerts (runUnit config now fails u db).2.alerts ∧
      (fails = true → (runUnit config now fails u db).1 = none ∧
        (runUnit config now fails u db).2 = db) ∧
      (fails = false → ∀ user, db.alerts.rows (.user u) = some user → user.status = .ACTIVE →
        (runUnit config now fails u db).1.isSome ∧
          (runUnit config now fails u db).2.alerts.rows (.alertState u) ≠ none) := by
  unfold runUnit
  cases fails with
  | true => exact ⟨rfl, .refl, fun _ => ⟨rfl, rfl⟩, nofun⟩
  | false =>
    have hunit : UnitEnded u db.alerts
        ((processOne config u).solo 0 (fun _ => { now := now }) { store := db.alerts }).1
        ((processOne config u).solo 0 (fun _ => { now := now }) { store := db.alerts }).2.store :=
      solo_processOne _
    obtain ⟨hleft, hactive⟩ := hunit
    simp only [Bool.false_eq_true, if_false]
    split
    · rename_i outcome heq
      refine ⟨rfl, hleft, nofun, fun _ user hu ha => ?_⟩
      obtain ⟨⟨x, hx⟩, hthere⟩ := hactive user hu ha
      obtain rfl := Except.ok.inj (heq.symm.trans hx)
      exact ⟨rfl, hthere⟩
    · rename_i e heq
      refine ⟨rfl, hleft, nofun, fun _ user hu ha => ?_⟩
      obtain ⟨⟨x, hx⟩, -⟩ := hactive user hu ha
      exact nomatch heq.symm.trans hx

/-- A unit of an ACTIVE user creates its state row, unless it fails. -/
theorem UnitLeft.grown {u : ℕ} (h : UnitLeft u s s') (hthere : s'.rows (.alertState u) ≠ none) :
    Grown [u] s s' := by
  refine ⟨h.users, h.ids, fun v => ?_⟩
  rw [List.mem_singleton]
  rcases eq_or_ne v u with rfl | hne
  · exact ⟨fun _ => .inr rfl, fun _ => hthere⟩
  · rw [h.others v hne]
    exact ⟨.inl, fun hv => hv.resolve_right hne⟩

/-- A unit of a user with a state row creates nothing. -/
theorem UnitLeft.same {u : ℕ} (h : UnitLeft u s s') (hthere : s.rows (.alertState u) ≠ none) :
    Grown [] s s' := by
  refine ⟨h.users, h.ids, fun v => ?_⟩
  rcases eq_or_ne v u with rfl | hne
  · exact ⟨fun _ => .inl hthere, fun _ => h.kept hthere⟩
  · rw [h.others v hne]
    simp

variable {o : PassOracle}

/-- The units of a batch: each that does not fail makes progress and leaves a state row. -/
theorem initialiseUsers_spec (o : PassOracle) (config : FrozenConfig) (ids : List ℕ) (progressed : ℕ) (counts : SweepCounts) (db : SweepDb)
    (hactive : ∀ u ∈ ids, ∃ user, db.alerts.rows (.user u) = some user ∧ user.status = .ACTIVE) :
    (initialiseUsers o config ids progressed counts db).1 =
        progressed + (ids.filter fun u => ¬ o.initFails u).length ∧
      (initialiseUsers o config ids progressed counts db).2.2.control = db.control ∧
      Grown (ids.filter fun u => ¬ o.initFails u) db.alerts
        (initialiseUsers o config ids progressed counts db).2.2.alerts := by
  induction ids generalizing progressed counts db with
  | nil => exact ⟨rfl, rfl, .refl⟩
  | cons u us ih =>
    obtain ⟨hcontrol, hleft, hfails, hworks⟩ :=
      runUnit_spec config (o.unitAt u) (o.initFails u) u db
    obtain ⟨user, huser, hstatus⟩ := hactive u List.mem_cons_self
    have hrest : ∀ v ∈ us, ∃ user,
        (runUnit config (o.unitAt u) (o.initFails u) u db).2.alerts.rows (.user v) = some user ∧
          user.status = .ACTIVE := by
      intro v hv
      rw [hleft.users]
      exact hactive v (List.mem_cons_of_mem _ hv)
    cases hfail : o.initFails u with
    | true =>
      obtain ⟨hnone, hsame⟩ := hfails hfail
      rw [hfail] at hnone hsame
      have hstep : initialiseUsers o config (u :: us) progressed counts db =
          initialiseUsers o config us progressed counts db := by
        rw [initialiseUsers, hfail, ← Prod.mk.eta (p := runUnit config (o.unitAt u) true u db), hnone,
          hsame]
      rw [hstep, List.filter_cons_of_neg (by simp [hfail])]
      exact ih _ _ _ fun v hv => hactive v (List.mem_cons_of_mem _ hv)
    | false =>
      rw [hfail] at hcontrol hleft hrest hworks
      obtain ⟨hsome, hthere⟩ := hworks rfl user huser hstatus
      obtain ⟨outcome, houtcome⟩ := Option.isSome_iff_exists.mp hsome
      have hstep : initialiseUsers o config (u :: us) progressed counts db =
          initialiseUsers o config us (progressed + 1) (counts.initialise outcome)
            (runUnit config (o.unitAt u) false u db).2 := by
        rw [initialiseUsers, hfail, ← Prod.mk.eta (p := runUnit config (o.unitAt u) false u db),
          houtcome]
      obtain ⟨hcount, hcontrol', hgrown⟩ := ih (progressed + 1) (counts.initialise outcome) _ hrest
      rw [hstep, List.filter_cons_of_pos (by simp [hfail])]
      refine ⟨?_, hcontrol'.trans hcontrol, (hleft.grown hthere).trans hgrown⟩
      rw [hcount, List.length_cons]
      omega

/-! ### The initialisation -/

/-- Whether the missing users run out within so many batches: none of them is left, or a batch is short;
    and no batch consists of users whose unit fails. -/
def drains (fails : ℕ → Bool) : ℕ → List ℕ → Bool
  | 0, _ => false
  | n + 1, missing =>
    let users := missing.take LOW_BALANCE_RECONCILE_BATCH
    if missing = [] then true
    else if users.all fails then false
    else if missing.length < LOW_BALANCE_RECONCILE_BATCH then true
    else drains fails n (users.filter fails ++ missing.drop LOW_BALANCE_RECONCILE_BATCH)

/-- The lease is held under a token, with a repair cursor. -/
def Leased (token : ℕ) (cursor : Option ℕ) (db : SweepDb) : Prop :=
  ∃ row, db.control = some row ∧ row.ownerToken = some token ∧ row.repairCursorId = cursor

/-- A phase has run to its end with the lease. -/
def PhaseEnd.ended (e : PhaseEnd) : Prop := e = .done ∨ e = .stopped

/-- An update of the control row that matched. -/
theorem updateControl_eq {cond : LowBalanceReconciliationState → Bool}
    {data : LowBalanceReconciliationState → LowBalanceReconciliationState}
    (hok : (updateControl cond data db).1 = true) :
    ∃ row, db.control = some row ∧ cond row = true ∧
      (updateControl cond data db).2 = { db with control := some (data row) } := by
  unfold updateControl at hok ⊢
  cases hrow : db.control with
  | none => simp [hrow] at hok
  | some row =>
    simp only [hrow] at hok ⊢
    split at hok
    · rename_i hcond
      exact ⟨row, rfl, hcond, by rw [if_pos hcond]⟩
    · cases hok

theorem renewLease_spec {token now : ℕ} {cursor : Option ℕ} (h : Leased token cursor db)
    (hok : (renewLease token now db).1 = true) :
    Leased token cursor (renewLease token now db).2 ∧
      (renewLease token now db).2.alerts = db.alerts := by
  obtain ⟨row, hrow, htoken, hcursor⟩ := h
  obtain ⟨row', hrow', -, heq⟩ := updateControl_eq hok
  obtain rfl : row = row' := Option.some.inj (hrow.symm.trans hrow')
  rw [renewLease, heq]
  exact ⟨⟨_, rfl, htoken, hcursor⟩, rfl⟩

theorem saveProgress_spec {token id : ℕ} {cursor : Option ℕ} (h : Leased token cursor db)
    (hok : (saveProgress token id db).1 = true) :
    Leased token (some id) (saveProgress token id db).2 ∧
      (saveProgress token id db).2.alerts = db.alerts := by
  obtain ⟨row, hrow, htoken, -⟩ := h
  obtain ⟨row', hrow', -, heq⟩ := updateControl_eq hok
  obtain rfl : row = row' := Option.some.inj (hrow.symm.trans hrow')
  rw [saveProgress, heq]
  exact ⟨⟨_, rfl, htoken, rfl⟩, rfl⟩

/-- The users without a state row are ACTIVE. -/
theorem missingUsers_active {u : ℕ} (h : u ∈ missingUsers (s.view {})) :
    ∃ user, s.rows (.user u) = some user ∧ user.status = .ACTIVE := by
  obtain ⟨-, hmissing⟩ := List.mem_filter.mp h
  rw [isMissing, Bool.and_eq_true, view_rows] at hmissing
  obtain ⟨user, huser, hactive⟩ := Option.any_eq_true _ _ |>.mp hmissing.1
  exact ⟨user, huser, of_decide_eq_true hactive⟩

theorem missingUsers_nodup : (missingUsers (s.view {})).Nodup :=
  (((List.perm_insertionSort ..).nodup_iff).mpr (List.nodup_dedup _)).filter _

/-- The missing users after a batch. -/
theorem filter_created {missing : List ℕ} (hnodup : missing.Nodup) (n : ℕ) (fails : ℕ → Bool) :
    missing.filter (· ∉ (missing.take n).filter fun u => ¬ fails u) =
      (missing.take n).filter fails ++ missing.drop n := by
  have hsplit : missing.take n ++ missing.drop n = missing := List.take_append_drop ..
  rw [← hsplit, List.nodup_append] at hnodup
  conv_lhs => rw [← hsplit]
  rw [List.filter_append, hsplit]
  congr 1
  · refine List.filter_congr fun u hu => ?_
    cases hf : fails u <;> simp [hf, hu]
  · refine List.filter_eq_self.mpr fun u hu => ?_
    have hnot : u ∉ missing.take n := fun hmem => hnodup.2.2 u hmem u hu rfl
    simp [hnot]

/-- What the initialisation leaves. -/
structure Initialised (o : PassOracle) (batches : ℕ) (cursor : Option ℕ) (db : SweepDb)
    (ending : PhaseEnd) (db' : SweepDb) : Prop where
  leased : Leased o.ownerToken cursor db'
  grown : ∃ created, Grown created db.alerts db'.alerts
  done_iff : ending = .done ↔
    drains o.initFails batches (missingUsers (db.alerts.view {})) = true

/-- INITIALISATION: batches that end with the lease reach the end of the missing users exactly when
    these drain. -/
theorem initialiseBatches_spec (config : FrozenConfig) {cursor : Option ℕ} (n batch : ℕ) (counts : SweepCounts)
    (db : SweepDb) (hleased : Leased o.ownerToken cursor db)
    (hended : (initialiseBatches o config n batch counts db).1.ended) :
    Initialised o n cursor db (initialiseBatches o config n batch counts db).1
      (initialiseBatches o config n batch counts db).2.2 := by
  induction n generalizing batch counts db with
  | zero => exact ⟨hleased, ⟨_, .refl⟩, by simp [initialiseBatches, drains]⟩
  | succ n ih =>
    have hbatch : 0 < LOW_BALANCE_RECONCILE_BATCH := by decide
    have hactive : ∀ u ∈ (missingUsers (db.alerts.view {})).take LOW_BALANCE_RECONCILE_BATCH,
        ∃ user, db.alerts.rows (.user u) = some user ∧ user.status = .ACTIVE := fun u hu =>
      missingUsers_active (List.mem_of_mem_take hu)
    obtain ⟨hprogress, hcontrol, hgrown⟩ := initialiseUsers_spec o config _ 0 counts db hactive
    have hmissing := hgrown.missingUsers_eq
    rw [filter_created missingUsers_nodup] at hmissing
    unfold initialiseBatches at hended ⊢
    by_cases hthrows : o.initThrows batch = true
    · rw [if_pos hthrows] at hended
      exact absurd hended (by simp [PhaseEnd.ended])
    rw [if_neg hthrows] at hended ⊢
    dsimp only at hended ⊢
    by_cases hnone : ((missingUsers (db.alerts.view {})).take LOW_BALANCE_RECONCILE_BATCH).length = 0
    · rw [if_pos hnone]
      have hempty : missingUsers (db.alerts.view {}) = [] := by
        rw [List.length_take] at hnone
        exact List.length_eq_zero_iff.mp (by omega)
      exact ⟨hleased, ⟨_, .refl⟩, by simp [drains, hempty]⟩
    have hsome : missingUsers (db.alerts.view {}) ≠ [] := by
      intro hempty
      rw [hempty] at hnone
      exact hnone rfl
    rw [if_neg hnone] at hended ⊢
    generalize hx : initialiseUsers o config
      ((missingUsers (db.alerts.view {})).take LOW_BALANCE_RECONCILE_BATCH) 0 counts db = x at *
    obtain ⟨progressed, counts₁, db₁⟩ := x
    dsimp only at *
    have hleased₁ : Leased o.ownerToken cursor db₁ := by
      obtain ⟨row, hrow, hrest⟩ := hleased
      exact ⟨row, hcontrol.trans hrow, hrest⟩
    -- nobody of the batch made progress, or somebody did
    have hall : progressed = 0 ↔ ((missingUsers (db.alerts.view {})).take
        LOW_BALANCE_RECONCILE_BATCH).all o.initFails = true := by
      rw [hprogress, Nat.zero_add, List.length_eq_zero_iff, List.filter_eq_nil_iff, List.all_eq_true]
      simp
    by_cases hstuck : progressed = 0
    · rw [if_pos hstuck]
      refine ⟨hleased₁, ⟨_, hgrown⟩, ?_⟩
      rw [drains, if_neg hsome, if_pos (hall.mp hstuck)]
      simp
    rw [if_neg hstuck] at hended ⊢
    cases hrenewed : (renewLease o.ownerToken (o.initRenewedAt batch) db₁).1 with
    | false =>
      rw [if_pos (by simp [hrenewed])] at hended
      exact absurd hended (by simp [PhaseEnd.ended])
    | true =>
      obtain ⟨hleased₂, halerts⟩ := renewLease_spec hleased₁ hrenewed
      rw [if_neg (by simp [hrenewed])] at hended ⊢
      by_cases hshort : ((missingUsers (db.alerts.view {})).take
          LOW_BALANCE_RECONCILE_BATCH).length < LOW_BALANCE_RECONCILE_BATCH
      · rw [if_pos hshort]
        have hlength : (missingUsers (db.alerts.view {})).length < LOW_BALANCE_RECONCILE_BATCH := by
          rw [List.length_take] at hshort
          omega
        refine ⟨hleased₂, ⟨_, halerts ▸ hgrown⟩, ?_⟩
        rw [drains, if_neg hsome, if_neg fun h => hstuck (hall.mpr h), if_pos hlength]
        simp
      · rw [if_neg hshort] at hended ⊢
        have hlength : ¬ (missingUsers (db.alerts.view {})).length < LOW_BALANCE_RECONCILE_BATCH := by
          rw [List.length_take] at hshort
          omega
        obtain ⟨hleased₃, ⟨created, hgrown'⟩, hdone⟩ := ih (batch + 1) counts₁ _ hleased₂ hended
        rw [halerts] at hgrown' hdone
        refine ⟨hleased₃, ⟨_, hgrown.trans hgrown'⟩, ?_⟩
        rw [hdone, hmissing, drains, if_neg hsome, if_neg fun h => hstuck (hall.mpr h),
          if_neg hlength]

/-! ### The repair -/

/-- The units of a page whose users have state rows create nothing. -/
theorem repairUsers_spec (o : PassOracle) (config : FrozenConfig) (rows : List RepairRow)
    (counts : SweepCounts) (db : SweepDb)
    (hthere : ∀ row ∈ rows, db.alerts.rows (.alertState row.userId) ≠ none) :
    (repairUsers o config rows counts db).2.control = db.control ∧
      Grown [] db.alerts (repairUsers o config rows counts db).2.alerts := by
  induction rows generalizing counts db with
  | nil => exact ⟨rfl, .refl⟩
  | cons row rows ih =>
    unfold repairUsers
    split
    · exact ih _ _ fun x hx => hthere x (List.mem_cons_of_mem _ hx)
    obtain ⟨hcontrol, hleft, -, -⟩ := runUnit_spec config (o.unitAt row.userId)
      (o.repairFails row.userId) row.userId db
    have hsame := hleft.same (hthere row List.mem_cons_self)
    have hrest : ∀ x ∈ rows, (runUnit config (o.unitAt row.userId) (o.repairFails row.userId)
        row.userId db).2.alerts.rows (.alertState x.userId) ≠ none := fun x hx =>
      (hsame.states _).mpr (.inl (hthere x (List.mem_cons_of_mem _ hx)))
    generalize runUnit config (o.unitAt row.userId) (o.repairFails row.userId) row.userId db = x at *
    obtain ⟨outcome, db₁⟩ := x
    have hstep : ∀ counts, (repairUsers o config rows counts db₁).2.control = db.control ∧
        Grown [] db.alerts (repairUsers o config rows counts db₁).2.alerts := fun counts =>
      ⟨(ih counts db₁ hrest).1.trans hcontrol, hsame.trans (ih counts db₁ hrest).2⟩
    cases outcome with
    | none => exact hstep counts
    | some outcome => exact hstep _

/-- What the repair leaves: so many batches have read one page of their common size. -/
structure Repaired (rowId : ℕ → ℕ) (o : PassOracle) (batches : ℕ) (cursor saved : Option ℕ)
    (examined : List ℕ) (db : SweepDb) (r : RepairResult) : Prop where
  leased : Leased o.ownerToken ((page (batches * LOW_BALANCE_RECONCILE_BATCH)
    (stateRowIds rowId (db.alerts.view {})) cursor).getLast?.or saved) r.db
  same : Grown [] db.alerts r.db.alerts
  examined_eq : r.examined = examined ++ page (batches * LOW_BALANCE_RECONCILE_BATCH)
    (stateRowIds rowId (db.alerts.view {})) cursor
  done_iff : r.ending = .done ↔ (ahead (stateRowIds rowId (db.alerts.view {})) cursor).length <
    batches * LOW_BALANCE_RECONCILE_BATCH

/-- REPAIR: batches that end with the lease walk on behind the cursor. -/
theorem repairBatches_spec {rowId : ℕ → ℕ} (hinj : Function.Injective rowId)
    (config : FrozenConfig) (n batch : ℕ)
    (cursor saved : Option ℕ) (examined : List ℕ) (counts : SweepCounts) (db : SweepDb)
    (hleased : Leased o.ownerToken saved db)
    (hended : (repairBatches rowId o config n batch cursor examined counts db).ending.ended) :
    Repaired rowId o n cursor saved examined db
      (repairBatches rowId o config n batch cursor examined counts db) := by
  induction n generalizing batch cursor saved examined counts db with
  | zero =>
    refine ⟨?_, .refl, ?_, ?_⟩
    · simpa [page, repairBatches] using hleased
    · simp [page, repairBatches]
    · simp [repairBatches]
  | succ n ih =>
    have hbatch : 0 < LOW_BALANCE_RECONCILE_BATCH := by decide
    have hids := map_findRepairPage hinj (s := db.alerts) cursor
    have hsorted := stateRowIds_sorted hinj (s := db.alerts)
    have hthere : ∀ row ∈ findRepairPage rowId cursor (db.alerts.view {}),
        db.alerts.rows (.alertState row.userId) ≠ none := fun row hrow => mem_findRepairPage hrow
    have hsize : (n + 1) * LOW_BALANCE_RECONCILE_BATCH =
        LOW_BALANCE_RECONCILE_BATCH + n * LOW_BALANCE_RECONCILE_BATCH := by
      rw [Nat.succ_mul, Nat.add_comm]
    unfold repairBatches at hended ⊢
    by_cases hthrows : o.repairThrows batch = true
    · rw [if_pos hthrows] at hended
      exact absurd hended (by simp [PhaseEnd.ended])
    rw [if_neg hthrows] at hended ⊢
    dsimp only at hended ⊢
    generalize findRepairPage rowId cursor (db.alerts.view {}) = rows at *
    have hlength : rows.length = (page LOW_BALANCE_RECONCILE_BATCH
        (stateRowIds rowId (db.alerts.view {})) cursor).length := by
      rw [← hids, List.length_map]
    cases hlast : rows.getLast? with
    | none =>
      have hempty : ahead (stateRowIds rowId (db.alerts.view {})) cursor = [] := by
        rw [List.getLast?_eq_none_iff.mp hlast, page, List.length_take] at hlength
        refine List.length_eq_zero_iff.mp ?_
        rw [List.length_nil] at hlength
        omega
      refine ⟨?_, .refl, ?_, ?_⟩
      · simpa [page, hempty] using hleased
      · simp [page, hempty]
      · simp [hempty, hbatch]
    | some last =>
      have hlastId : (page LOW_BALANCE_RECONCILE_BATCH (stateRowIds rowId (db.alerts.view {}))
          cursor).getLast? = some last.id := by
        rw [← hids, List.getLast?_map, hlast, Option.map_some]
      simp only [hlast] at hended ⊢
      obtain ⟨hcontrol, hsame⟩ := repairUsers_spec o config rows
        { counts with examined := counts.examined + rows.length } db hthere
      generalize repairUsers o config rows
        { counts with examined := counts.examined + rows.length } db = x at *
      obtain ⟨counts₁, db₁⟩ := x
      dsimp only at *
      have hleased₁ : Leased o.ownerToken saved db₁ := by
        obtain ⟨row, hrow, hrest⟩ := hleased
        exact ⟨row, hcontrol.trans hrow, hrest⟩
      cases hsaved : (saveProgress o.ownerToken last.id db₁).1 with
      | false =>
        rw [if_pos (by simp [hsaved])] at hended
        exact absurd hended (by simp [PhaseEnd.ended])
      | true =>
      obtain ⟨hleased₂, halerts₂⟩ := saveProgress_spec hleased₁ hsaved
      rw [if_neg (by simp [hsaved])] at hended ⊢
      generalize (saveProgress o.ownerToken last.id db₁).2 = db₂ at *
      cases hrenewed : (renewLease o.ownerToken (o.repairRenewedAt batch) db₂).1 with
      | false =>
        rw [if_pos (by simp [hrenewed])] at hended
        exact absurd hended (by simp [PhaseEnd.ended])
      | true =>
      obtain ⟨hleased₃, halerts₃⟩ := renewLease_spec hleased₂ hrenewed
      rw [if_neg (by simp [hrenewed])] at hended ⊢
      generalize (renewLease o.ownerToken (o.repairRenewedAt batch) db₂).2 = db₃ at *
      have hsame₃ : Grown [] db.alerts db₃.alerts := by
        rw [halerts₃, halerts₂]
        exact hsame
      by_cases hshort : rows.length < LOW_BALANCE_RECONCILE_BATCH
      · rw [if_pos hshort]
        -- a short page is all there is behind the cursor
        have hend : (ahead (stateRowIds rowId (db.alerts.view {})) cursor).length <
            LOW_BALANCE_RECONCILE_BATCH := by
          rw [hlength, page, List.length_take] at hshort
          omega
        have hpage : page ((n + 1) * LOW_BALANCE_RECONCILE_BATCH)
            (stateRowIds rowId (db.alerts.view {})) cursor =
            page LOW_BALANCE_RECONCILE_BATCH (stateRowIds rowId (db.alerts.view {})) cursor := by
          rw [page, page, List.take_of_length_le (by omega), List.take_of_length_le (by omega)]
        refine ⟨?_, hsame₃, ?_, ?_⟩
        · rw [hpage, hlastId]
          exact hleased₃
        · rw [hpage, hids]
        · exact ⟨fun _ => by omega, fun _ => rfl⟩
      · rw [if_neg hshort] at hended ⊢
        have hrows : stateRowIds rowId _ = stateRowIds rowId _ := hsame₃.stateRowIds_eq
        obtain ⟨hleased₄, hsame₄, hexamined, hdone⟩ := ih (batch + 1) (some last.id) (some last.id)
          _ _ db₃ hleased₃ hended
        rw [hrows] at hleased₄ hexamined hdone
        have hfull : LOW_BALANCE_RECONCILE_BATCH ≤
            (ahead (stateRowIds rowId (db.alerts.view {})) cursor).length := by
          rw [hlength, page, List.length_take] at hshort
          omega
        refine ⟨?_, hsame₃.trans hsame₄, ?_, ?_⟩
        · rw [hsize, page_add hsorted hlastId, List.getLast?_append, hlastId, Option.or_assoc,
            Option.some_or]
          exact hleased₄
        · rw [hexamined, hsize, page_add hsorted hlastId, hids, List.append_assoc]
        · rw [hdone, ahead_last hsorted hlastId, List.length_drop, hsize]
          omega

/-! ### The pass -/

/-- The rows one pass can examine. -/
def passCapacity : ℕ := LOW_BALANCE_RECONCILE_MAX_BATCHES * LOW_BALANCE_RECONCILE_BATCH

/-- The cursor between two passes. -/
def cursorOf (db : SweepDb) : Option ℕ := db.control.bind (·.repairCursorId)

/-- The pass has run to its end without losing the lease. -/
def PassResult.Ended (r : PassResult) : Prop :=
  ∃ init repair, r.phases = some (init, repair) ∧ init.ended ∧ repair.ended

/-- The missing users of a pass drain. -/
def PassDrains (o : PassOracle) (db : SweepDb) : Bool :=
  drains o.initFails LOW_BALANCE_RECONCILE_MAX_BATCHES (missingUsers (db.alerts.view {}))

theorem cursorOf_leased {token : ℕ} {cursor : Option ℕ} (h : Leased token cursor db) :
    cursorOf db = cursor := by
  obtain ⟨row, hrow, -, hcursor⟩ := h
  rw [cursorOf, hrow, Option.bind_some, hcursor]

theorem acquireLease_spec {token now : ℕ} {lease : ReconciliationLease}
    (h : (acquireLease token now db).1 = some lease) :
    lease.repairCursorId = cursorOf db ∧ Leased token (cursorOf db) (acquireLease token now db).2 ∧
      (acquireLease token now db).2.alerts = db.alerts := by
  have hcursor : (db.control.getD {}).repairCursorId = cursorOf db := by
    rw [cursorOf]
    cases db.control <;> rfl
  unfold acquireLease updateControl ensureRow at h ⊢
  dsimp only at h ⊢
  by_cases hfree : (db.control.getD {}).isFree now = true
  · simp only [hfree, if_true, not_true_eq_false, if_false, ne_eq] at h ⊢
    cases h
    exact ⟨hcursor, ⟨_, rfl, rfl, hcursor⟩, trivial⟩
  · simp [hfree] at h

theorem releaseLease_spec {token : ℕ} (now : ℕ) (completed : Bool) {cursor : Option ℕ}
    (h : Leased token cursor db) :
    cursorOf (releaseLease token now completed db) = (if completed then none else cursor) ∧
      (releaseLease token now completed db).alerts = db.alerts := by
  obtain ⟨row, hrow, htoken, hcursor⟩ := h
  simp only [releaseLease, updateControl, hrow, htoken, decide_true, if_true, cursorOf]
  cases completed with
  | true => exact ⟨rfl, trivial⟩
  | false => exact ⟨hcursor, trivial⟩

theorem not_ended_threw : ¬ PhaseEnd.ended .threw := by simp [PhaseEnd.ended]

theorem not_ended_lostLease : ¬ PhaseEnd.ended .lostLease := by simp [PhaseEnd.ended]

/-- A pass whose phases have run to their end. -/
theorem runPhases_eq {rowId : ℕ → ℕ} {lease : ReconciliationLease}
    (hended : (runPhases rowId o config lease db).Ended) :
    ∃ init counts db₁, initialiseMissingStates o config db = (init, counts, db₁) ∧ init.ended ∧
      ∃ r, repairInconsistentStates rowId o config lease.repairCursorId counts db₁ = r ∧
        r.ending.ended ∧ runPhases rowId o config lease db =
          { stats := { counts := r.counts, completed := init = .done ∧ r.ending = .done }
            phases := some (init, r.ending)
            examined := r.examined
            db := r.db } := by
  obtain ⟨init, repair, hphases, hi, hr⟩ := hended
  rcases hinit : initialiseMissingStates o config db with ⟨ending, counts, db₁⟩
  refine ⟨ending, counts, db₁, rfl, ?_⟩
  rcases hrepair : repairInconsistentStates rowId o config lease.repairCursorId counts db₁ with
    ⟨ending', examined, counts', db₂⟩
  rw [runPhases, hinit] at hphases ⊢
  cases ending <;> cases ending' <;> simp only [hrepair] at hphases ⊢ <;> cases hphases <;>
    first
    | exact absurd hi not_ended_threw
    | exact absurd hi not_ended_lostLease
    | exact absurd hr not_ended_threw
    | exact absurd hr not_ended_lostLease
    | exact ⟨hi, _, rfl, hr, rfl⟩

/-- What the two phases leave. -/
structure PhasesEnded (rowId : ℕ → ℕ) (o : PassOracle) (db : SweepDb) (r : PassResult) : Prop where
  grown : ∃ created, Grown created db.alerts r.db.alerts
  examined_eq : r.examined =
    page passCapacity (stateRowIds rowId (r.db.alerts.view {})) (cursorOf db)
  leased : Leased o.ownerToken ((page passCapacity (stateRowIds rowId (r.db.alerts.view {}))
    (cursorOf db)).getLast?.or (cursorOf db)) r.db
  completed_iff : r.stats.completed = true ↔
    (ahead (stateRowIds rowId (r.db.alerts.view {})) (cursorOf db)).length < passCapacity ∧
      PassDrains o db = true

/-- PHASES: the initialisation may add state rows, and the repair reads the page behind the cursor. -/
theorem runPhases_spec {rowId : ℕ → ℕ} (hinj : Function.Injective rowId)
    {lease : ReconciliationLease} (hlease : lease.repairCursorId = cursorOf db)
    (hleased : Leased o.ownerToken (cursorOf db) db)
    (hended : (runPhases rowId o config lease db).Ended) :
    PhasesEnded rowId o db (runPhases rowId o config lease db) := by
  obtain ⟨init, counts, db₁, hinit, hi, r, hrepair, hr, heq⟩ := runPhases_eq hended
  have hinitialised := initialiseBatches_spec (o := o) config
    LOW_BALANCE_RECONCILE_MAX_BATCHES 0 {} db hleased
  rw [initialiseMissingStates] at hinit
  rw [hinit] at hinitialised
  obtain ⟨hleased₁, ⟨created, hgrown⟩, hdone⟩ := hinitialised hi
  have hrepaired := repairBatches_spec (o := o) hinj config
    LOW_BALANCE_RECONCILE_MAX_BATCHES 0 (cursorOf db) (cursorOf db) [] counts db₁ hleased₁
  rw [repairInconsistentStates, hlease] at hrepair
  rw [hrepair] at hrepaired
  obtain ⟨hleased₂, hsame, hexamined, hend⟩ := hrepaired hr
  have hrows : stateRowIds rowId _ = stateRowIds rowId _ := hsame.stateRowIds_eq
  rw [← hrows] at hleased₂ hexamined hend
  rw [heq]
  refine ⟨⟨_, hgrown.trans hsame⟩, hexamined.trans (List.nil_append _), hleased₂, ?_⟩
  exact decide_eq_true_iff.trans ((and_congr hdone hend).trans and_comm)

/-- PASS: what a pass examines is the next page of the state rows it leaves, and the cursor wraps where
    the page reaches the end and the missing users drain. -/
theorem pass_spec {rowId : ℕ → ℕ} (hinj : Function.Injective rowId)
    (hended : (runLowBalanceReconciliation rowId o db).Ended) :
    (runLowBalanceReconciliation rowId o db).examined = page passCapacity
        (stateRowIds rowId ((runLowBalanceReconciliation rowId o db).db.alerts.view {}))
        (cursorOf db) ∧
      cursorOf (runLowBalanceReconciliation rowId o db).db = nextCursor passCapacity (PassDrains o db)
        (stateRowIds rowId ((runLowBalanceReconciliation rowId o db).db.alerts.view {}))
        (cursorOf db) ∧
      stateRowIds rowId (db.alerts.view {}) ⊆
        stateRowIds rowId ((runLowBalanceReconciliation rowId o db).db.alerts.view {}) := by
  unfold runLowBalanceReconciliation at hended ⊢
  cases hconfig : o.config with
  | none =>
    obtain ⟨init, repair, hphases, -⟩ := hended
    simp [hconfig] at hphases
  | some config =>
    simp only [hconfig] at hended ⊢
    have hacquired := @acquireLease_spec db o.ownerToken o.acquiredAt
    generalize acquireLease o.ownerToken o.acquiredAt db = x at *
    obtain ⟨lease, db₁⟩ := x
    cases lease with
    | none =>
      obtain ⟨init, repair, hphases, -⟩ := hended
      simp at hphases
    | some lease =>
      obtain ⟨hlease, hleased, halerts⟩ := hacquired rfl
      have hcursor := cursorOf_leased hleased
      rw [← hcursor] at hlease hleased
      obtain ⟨⟨created, hgrown⟩, hexamined, hleft, hcompleted⟩ :=
        runPhases_spec hinj hlease hleased hended
      rw [hcursor] at hexamined hleft hcompleted
      obtain ⟨hreleased, hsame⟩ := releaseLease_spec o.releasedAt
        (runPhases rowId o config lease db₁).stats.completed hleft
      have hdrains : PassDrains o db₁ = PassDrains o db := by rw [PassDrains, PassDrains, halerts]
      dsimp only at halerts ⊢
      rw [hsame, hreleased, nextCursor]
      refine ⟨hexamined, ?_, ?_⟩
      · rw [← hdrains]
        exact if_congr hcompleted rfl rfl
      · rw [← halerts]
        exact hgrown.stateRowIds_subset

end ZedBot.LowBalance
