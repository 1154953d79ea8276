import ZedBot.LowBalance.Estimate

/-! A worker on an undisturbed population follows the rules of the estimate.

    A unit judges its user on the locked state: nobody else writes a message of the user while the
    state is locked, because a message moves the state with it. -/

namespace ZedBot.LowBalance
open ReadCommitted

variable {s₀ s s' : AlertStore} {runId userId p : ℕ} {config : FrozenConfig} {t t' : AlertTx}
  {r : List AlertStore} {row : LowBalanceBackfillRun} {cursor : Option ℕ} {user : User}

/-! ### What the locks keep -/

/-- The messages of a user whose state is locked stay. -/
theorem messages_later {ks : AlertKey → Prop} (hl : (estimating s₀ runId config).Later p ks s s')
    (hi : Undisturbed s₀ runId config s) (hks : ks (.alertState userId)) (cycle : ℕ) :
    s'.rows (.notification userId cycle) = s.rows (.notification userId cycle) := by
  refine hl.stable_spared (P := fun x => x.rows (.notification userId cycle) =
    s.rows (.notification userId cycle)) (fun _ _ hst hspared hx => ?_) hi rfl
  have hstate := hspared _ hks
  cases hst with
  | act w h => exact h.elim
  | commit t hh ht =>
    refine Eq.trans ?_ hx
    by_contra hne
    exact ht.messages userId cycle hne hstate

/-- What an observation decides on the locked state: it opens a cycle exactly where the cycle of the
    state has no message yet. -/
theorem Applied.opened_iff {s₁ s₂ s₃ s₄ : AlertStore} {base : Option LowBalanceAlertState}
    {st st' : LowBalanceAlertState} {t'' : AlertTx} {notified : Option ℕ} {o : Observation}
    (ha : Applied (estimating s₀ runId config) p (backfillInput config userId user.balanceToman) t s
      s₁ s₂ s₃ s₄ s' base st st' t' t'' notified o)
    (hbalance : o.balanceToman = user.balanceToman)
    (hlow : user.balanceToman ≤ config.thresholdToman)
    (hproper : config.thresholdToman ≤ config.rearmBoundaryToman) :
    o.opened.isSome = !alreadyNotified s₃.rows userId base := by
  have hasked : st.state = .ALERTED →
      o.opened.isSome = !(0 < st.alertCycle ∧
        (s₃.rows (.notification userId st.alertCycle)).isSome) := by
    intro hst
    obtain ⟨v, hv, hans⟩ := ha.moves.asked hst (by rw [hbalance]; exact hlow.trans hproper)
      (by rw [hbalance]; exact hlow) rfl
    have hv : ∀ cycle, v.rows (.notification userId cycle) =
      s₃.rows (.notification userId cycle) := hv
    rw [← hans]
    simp only [backfillInput, hasNotificationForCycle, hv]
    rcases Nat.eq_zero_or_pos st.alertCycle with hzero | hpos
    · simp [hzero]
    · cases s₃.rows (.notification userId st.alertCycle) <;>
        simp [hpos, Nat.pos_iff_ne_zero.mp hpos]
  have hseeded := ha.seeded
  generalize o.created = created at hseeded
  cases hseeded with
  | found =>
    cases hst : st.state with
    | ALERTED => simpa [alreadyNotified, hst] using hasked hst
    | ARMED =>
      have hopened : o.opened.isSome = true := by
        have hmoved := ha.moves.moved
        rw [hbalance] at hmoved
        generalize o.opened = opened at hmoved
        cases hmoved with
        | opened => rfl
        | kept _ harmed =>
          have : config.thresholdToman < user.balanceToman := harmed hst
          omega
        | rearmed _ halerted => rw [hst] at halerted; cases halerted
      simp [alreadyNotified, hst, hopened]
  | created now =>
    -- the seeded baseline is ALERTED in cycle 0
    have hseed : (seedState (backfillInput config userId user.balanceToman) now).state = .ALERTED :=
      if_pos hlow
    rw [hasked hseed]
    simp [alreadyNotified, seedState]

/-- A unit is queued exactly where its observation opened a cycle. -/
theorem Applied.queued_iff {s₁ s₂ s₃ s₄ : AlertStore} {base : Option LowBalanceAlertState}
    {st st' : LowBalanceAlertState} {t'' : AlertTx} {notified : Option ℕ} {o : Observation}
    {outcome : LowBalanceObservationOutcome}
    (ha : Applied (estimating s₀ runId config) p (backfillInput config userId user.balanceToman) t s
      s₁ s₂ s₃ s₄ s' base st st' t' t'' notified o) (hi : Undisturbed s₀ runId config s₄)
    (hopened : o.opened = outcome.openedCycle)
    (hrep : Reported (estimating s₀ runId config) p (backfillInput config userId user.balanceToman)
      t s₄ notified outcome) :
    (match outcome with
      | .alerted _ (some _) => UnitResult.queued
      | _ => .skipped) = .queued ↔ o.opened.isSome = true := by
  rw [hopened]
  rcases outcome with c | c | ⟨c, _ | id⟩ | c | c
  case alerted.none =>
    rcases hrep c rfl with helig | ⟨hnone, s₅, hl, hgone⟩
    · cases helig
    · -- the message was there when it was inserted
      rcases ha.moves.silent c hopened hnone with helig | htaken
      · cases helig
      · exact (htaken ((messages_later hl hi (.inr rfl) c).symm.trans hgone)).elim
  all_goals simp [LowBalanceObservationOutcome.openedCycle]

/-- A message is written together with the next cycle of its user's state. -/
theorem Applied.messages {D : Discipline AlertRow AlertEntry Unit}
    {input : LowBalanceObservationInput} {s₁ s₂ s₃ s₄ x : AlertStore}
    {base : Option LowBalanceAlertState}
    {st st' : LowBalanceAlertState} {t'' : AlertTx} {notified : Option ℕ} {o : Observation}
    (ha : Applied D p input t s s₁ s₂ s₃ s₄ s' base st st' t' t'' notified o)
    (hh : t''.Held x.rows) (cycle : ℕ)
    (hne : t''.row x.rows (.notification input.userId cycle) ≠
      x.rows (.notification input.userId cycle)) :
    t''.row x.rows (.alertState input.userId) ≠ x.rows (.alertState input.userId) := by
  have hstate : t''.chg (.alertState input.userId) = some (base, some st') := by
    rw [ha.tx]
    exact ha.moves.holding.state
  have hsent : notified = some cycle := by
    by_contra hsilent
    have hchg : t''.chg (.notification input.userId cycle) = none := by
      rw [ha.tx]
      exact ha.moves.holding.silent cycle hsilent
    exact hne (Tx.row_of_chg hchg)
  have hopened := (ha.moves.notifies cycle hsent).1
  have hmoved := ha.moves.moved
  rw [hopened] at hmoved
  rw [← hh _ _ _ hstate, Tx.row, hstate]
  have hseeded := ha.seeded
  generalize o.created = created at hseeded
  cases hmoved with
  | opened now =>
    intro he
    cases hseeded with
    | created => cases he
    | found =>
      have := congrArg LowBalanceAlertState.alertCycle (Option.some.inj he)
      simp [alertedIn, touched] at this

/-! ### Commits -/

theorem isLow_of_mem_page {take : ℕ} {id : ℕ} (hi : Undisturbed s₀ runId config s)
    (h : id ∈ pageAfter cursor take (candidates config.thresholdToman (s.view {}))) :
    IsLow s₀ config id := by
  have hmem : id ∈ candidates config.thresholdToman (s.view {}) := by
    cases cursor with
    | none => exact List.mem_of_mem_take h
    | some c => exact (List.mem_filter.mp (List.mem_of_mem_drop (List.mem_of_mem_take h))).1
  rw [IsLow, ← hi.users id]
  exact (mem_candidates.mp hmem).2

/-- An update that keeps the cursor. -/
theorem EstimateTx.of_update {row' : LowBalanceBackfillRun} {rows : ∀ k, AlertRow k}
    (hrow : s.rows (.backfillRun runId) = some row)
    (h : row'.frozenConfig = row.frozenConfig ∧ row'.cursorUserId = row.cursorUserId) :
    EstimateTx s₀ runId config p s (Tx.write {} rows ⟨.backfillRun runId, some row'⟩) := by
  refine ⟨fun id => Tx.chg_write_ne _ (by simp), rfl, fun x hx => ?_,
    fun id hid => Tx.chg_write_ne _ (by simpa using hid), fun id cycle hne => ?_,
    fun id k hk hheld => ?_, fun _ _ _ _ h => (nomatch h), fun _ _ _ _ h => (nomatch h)⟩
  · cases hrow.symm.trans hx
    exact ⟨row', Tx.row_write_self .., h.1, .inl h.2⟩
  · exact (hne (Tx.row_of_chg (Tx.chg_write_ne _ (by simp)))).elim
  · have hkey : k ≠ .backfillRun runId := by rcases hk with rfl | ⟨cycle, rfl⟩ <;> simp
    exact (hheld (Tx.chg_write_ne _ hkey)).elim

/-- The progress of a unit. -/
theorem EstimateTx.of_progress {result : UnitResult} {rows : ∀ k, AlertRow k}
    (ht : UnitTx runId userId t) (hlisted : userIds t.entries = [])
    (hrow : s.rows (.backfillRun runId) = some row) (hlow : IsLow s₀ config userId)
    (hmessages : ∀ cycle, t.row s.rows (.notification userId cycle) ≠
      s.rows (.notification userId cycle) →
      t.row s.rows (.alertState userId) ≠ s.rows (.alertState userId))
    (hunit : result ≠ .failed → (result = .queued ↔ isRecipient s.rows userId = true)) :
    EstimateTx s₀ runId config p s (progressTx rows p runId userId result row t) := by
  have hother : ∀ k, k ≠ .backfillRun runId →
      (progressTx rows p runId userId result row t).chg k = t.chg k := fun k hk => by
    rw [progressTx, Tx.chg_append, Tx.chg_write_ne _ hk]
  have hsame : ∀ k, k ≠ .backfillRun runId →
      (progressTx rows p runId userId result row t).row s.rows k = t.row s.rows k := fun k hk => by
    rw [Tx.row, hother k hk, Tx.row]
  have hentries : (progressTx rows p runId userId result row t).entries =
      t.entries ++ [.unit runId p userId result] := rfl
  have hown : ∀ e ∈ t.entries, ∀ id, e.ofRun id = false := by
    intro e he id
    by_contra hne
    have hmem : e ∈ runEntries id t.entries :=
      List.mem_filter.mpr ⟨he, by simpa using hne⟩
    rw [ht.entries id] at hmem
    cases hmem
  refine ⟨fun id => ?_, ?_, fun x hx => ?_, fun id hid => ?_, fun id cycle hne => ?_,
    fun id k hk hheld => ?_, fun id q u res he => ?_, fun id q cur ids he => ?_⟩
  · rw [hother _ (by simp)]
    exact ht.users id
  · rw [hentries, userIds_append, hlisted]
    rfl
  · cases hrow.symm.trans hx
    refine ⟨row.record userId result, Tx.row_write_self ..,
      LowBalanceBackfillRun.record_frozenConfig, .inr ?_⟩
    rintro c hc
    cases LowBalanceBackfillRun.record_cursorUserId.symm.trans hc
    exact hlow
  · rw [hother _ (by simpa using hid)]
    exact ht.runs id hid
  · rw [hsame _ (by simp)] at hne ⊢
    have hheld : t.Holds (.notification id cycle) := by
      intro hnone
      exact hne (Tx.row_of_chg hnone)
    obtain rfl := ht.alerts id _ (by simp) hheld
    exact hmessages cycle hne
  · have hkey : k ≠ .backfillRun runId := by rcases hk with rfl | ⟨cycle, rfl⟩ <;> simp
    rw [Tx.Holds, hother k hkey] at hheld
    obtain rfl := ht.alerts id k hk hheld
    exact ⟨result, by simp [hentries]⟩
  · rw [hentries, List.mem_append, List.mem_singleton] at he
    rcases he with he | he
    · have := hown _ he id
      simp [AlertEntry.ofRun] at this
    · cases he
      exact ⟨rfl, hlow, hunit⟩
  · rw [hentries, List.mem_append, List.mem_singleton] at he
    rcases he with he | he
    · have := hown _ he id
      simp [AlertEntry.ofRun] at this
    · cases he

/-! ### Programs -/

theorem accepts_updateRun {cond : LowBalanceBackfillRun → Bool}
    {data : LowBalanceBackfillRun → LowBalanceBackfillRun}
    (hdata : ∀ row, (data row).frozenConfig = row.frozenConfig ∧
      (data row).cursorUserId = row.cursorUserId) :
    Accepts (estimating s₀ runId config) p (updateRun runId cond data) := by
  refine .update fun r s n hi hn => ?_
  obtain ⟨row, hrow, -, rfl⟩ := onRow_eq_some.mp hn
  exact .of_update hrow (hdata row)

/-- A unit that failed is recorded, or the claim is gone. -/
theorem accepts_recordFailure_low (hlow : IsLow s₀ config userId)
    {cond : LowBalanceBackfillRun → Bool} :
    Accepts (estimating s₀ runId config) p (recordUnit runId p userId .failed cond) := by
  refine .sql fun r s hi => ?_
  simp only [Store.view, Tx.row_empty]
  cases hn : onRow cond (·.record userId .failed) (s.rows (.backfillRun runId)) with
  | none => exact .empty
  | some n =>
    obtain ⟨row, hrow, -, rfl⟩ := onRow_eq_some.mp hn
    exact .of_progress .empty rfl hrow hlow (fun _ hne => (hne rfl).elim) fun hne => (hne rfl).elim

theorem wp_findPage_low (hcursor : CursorLow s₀ config cursor)
    {Q : List ℕ → AlertLocal → AlertStore → Prop}
    (hQ : ∀ ids s', (∀ id ∈ ids, IsLow s₀ config id) → Undisturbed s₀ runId config s' →
      Q ids ⟨none, r⟩ s') :
    wp (estimating s₀ runId config) p (findPage runId p cursor config) Q ⟨none, r⟩ s := by
  refine wp_sql fun s' _ hi => ?_
  have hcommit : EstimateTx s₀ runId config p s' ({ entries := [.page runId p cursor
      (pageAfter cursor LOW_BALANCE_BACKFILL_BATCH
        (candidates config.thresholdToman (s'.view {})))] } : AlertTx) := by
    refine ⟨fun _ => rfl, rfl, fun row hrow => ⟨row, hrow, rfl, .inl rfl⟩, fun _ _ => rfl,
      fun _ _ hne => (hne rfl).elim, fun _ _ _ hk => (hk rfl).elim, fun _ _ _ _ he => ?_,
      fun _ _ _ _ he => ?_⟩
    · cases List.mem_singleton.mp he
    · cases List.mem_singleton.mp he
      exact hcursor
  exact ⟨hcommit, hQ _ _ (fun id hid => isLow_of_mem_page hi hid) (hi.commit hcommit)⟩

/-- Who gets an observation is a recipient unless the message is there. -/
theorem isRecipient_of_receives (hrow : s.rows (.user userId) = some user)
    (h : receivesUnit config user = true) :
    isRecipient s.rows userId = !alreadyNotified s.rows userId (s.rows (.alertState userId)) := by
  simp only [receivesUnit, evaluateEligibility, decide_eq_true_eq] at h
  simp [isRecipient, hrow, h.2.2.1, h.2.2.2]

theorem not_isRecipient_of_not_receives (hrow : s.rows (.user userId) = some user)
    (hlow : isCandidate config.thresholdToman user = true) (h : receivesUnit config user = false) :
    isRecipient s.rows userId = false := by
  have hactive : user.status = .ACTIVE := by
    simp only [isCandidate, decide_eq_true_eq] at hlow
    exact hlow.1
  have hout : ¬ (user.lowBalanceNotificationsEnabled = true ∧
      user.paymentNotificationsEnabled = true) := by
    rintro ⟨hb, hp⟩
    simp [receivesUnit, evaluateEligibility, hlow, hactive, hb, hp] at h
  simp only [isRecipient, hrow, Option.any_some, decide_eq_false_iff_not]
  exact fun h => hout ⟨h.1, h.2.1⟩

theorem alreadyNotified_congr {rows rows' : ∀ k, AlertRow k} (base : Option LowBalanceAlertState)
    (h : ∀ cycle, rows (.notification userId cycle) = rows' (.notification userId cycle)) :
    alreadyNotified rows userId base = alreadyNotified rows' userId base := by
  cases base with
  | none => rfl
  | some st => simp only [alreadyNotified, h]

theorem holds_progress {result : UnitResult} {rows : ∀ k, AlertRow k} {k : AlertKey}
    (h : t.Holds k) : (progressTx rows p runId userId result row t).Holds k := by
  rcases eq_or_ne k (.backfillRun runId) with rfl | hne
  · simp [Tx.Holds, progressTx]
  · rwa [Tx.Holds, progressTx, Tx.chg_append, Tx.chg_write_ne _ hne]

/-- The rest of the transaction is held while its progress is. -/
theorem LockedUnit.held_of_progress {result : UnitResult} {rows : ∀ k, AlertRow k}
    (h : LockedUnit runId userId row t)
    (hh : (progressTx rows p runId userId result row t).Held s.rows) : t.Held s.rows := by
  intro k o n hk
  rcases eq_or_ne k (.backfillRun runId) with rfl | hne
  · rw [h.run] at hk
    cases hk
    exact (h.row_held hh).symm
  · refine hh k o n ?_
    rwa [progressTx, Tx.chg_append, Tx.chg_write_ne _ hne]

/-- A unit that has observed its user: the state stays locked from the question to the commit. -/
theorem EstimateTx.of_observed {s₁ s₂ s₃ s₄ x : AlertStore} {base : Option LowBalanceAlertState}
    {st st' : LowBalanceAlertState} {t'' : AlertTx} {notified : Option ℕ} {o : Observation}
    {result : UnitResult} {rows : ∀ k, AlertRow k}
    (ha : Applied (estimating s₀ runId config) p (backfillInput config userId user.balanceToman) t s
      s₁ s₂ s₃ s₄ s' base st st' t' t'' notified o)
    (hlock : LockedUnit runId userId row t) (hentries : t.entries = [])
    (hi : Undisturbed s₀ runId config s) (huser : s₀.rows (.user userId) = some user)
    (hreceives : receivesUnit config user = true)
    (hproper : config.thresholdToman ≤ config.rearmBoundaryToman)
    (hresult : Undisturbed s₀ runId config s₄ → (result = .queued ↔ o.opened.isSome = true))
    (hl : (estimating s₀ runId config).Later p t''.Holds s' x) (hx : Undisturbed s₀ runId config x)
    (hh : (progressTx rows p runId userId result row t'').Held x.rows) :
    EstimateTx s₀ runId config p x (progressTx rows p runId userId result row t'') := by
  have hlock' : LockedUnit runId (backfillInput config userId user.balanceToman).userId row t :=
    hlock
  have ht'' : LockedUnit runId userId row t'' := hlock'.observed ha
  have hheld := ht''.held_of_progress hh
  have hi₂ := ha.reads.inv (ha.waits.inv hi)
  have hi₃ := ha.moves.asks.inv hi₂
  have hcandidate : isCandidate config.thresholdToman user = true := by
    simp only [receivesUnit, decide_eq_true_eq] at hreceives
    exact hreceives.1
  have hbelow : user.balanceToman ≤ config.thresholdToman := by
    simp only [isCandidate, decide_eq_true_eq] at hcandidate
    exact hcandidate.2
  have hbalance : o.balanceToman = user.balanceToman := by
    have hrow : t.row s₂.rows (.user userId) = some user :=
      (Tx.row_of_chg (hlock.users userId)).trans ((hi₂.users userId).trans huser)
    simpa [backfillInput, hrow] using ha.balance
  have hstate : t''.chg (.alertState userId) = some (base, some st') := by
    rw [ha.tx]
    exact ha.moves.holding.state
  have hlater : (estimating s₀ runId config).Later p (· = .alertState userId) s₃ x := by
    refine ((ha.moves.inserts.trans ha.moves.ends).mono ?_).trans (hl.mono ?_)
    · rintro k rfl
      exact .inr rfl
    · rintro k rfl
      simp [Tx.Holds, hstate]
  have hbase : base = x.rows (.alertState userId) := hheld _ _ _ hstate
  have hlow : IsLow s₀ config userId := by
    rw [IsLow, huser]
    exact hcandidate
  refine .of_progress ht''.toUnitTx ?_ (ht''.row_held hh) hlow (ha.messages hheld) fun _ => ?_
  · rw [ha.tx, Tx.entries_append, ha.moves.holding.entries, hentries]
    rfl
  · rw [hresult (ha.moves.inserts.inv hi₃), ha.opened_iff hbalance hbelow hproper,
      isRecipient_of_receives ((hx.users userId).trans huser) hreceives, ← hbase,
      alreadyNotified_congr base (messages_later hlater hi₃ rfl)]

/-- UNIT: queued for a recipient and for nobody else. -/
theorem accepts_unitTransaction_low (hproper : config.thresholdToman ≤ config.rearmBoundaryToman)
    (hlow : IsLow s₀ config userId) :
    Accepts (estimating s₀ runId config) p (unitTransaction runId p userId config) := by
  refine .transaction_pending fun r s _ => (wp_seq _ _).mpr (wp_ask _ fun c => ?_)
  split
  · trivial
  refine (wp_seq _ _).mpr (wp_selectForUpdate_tx fun s₁ _ _ _ =>
    ⟨fun hnone => ?_, fun hsome => ?_⟩)
  · refine (wp_seq _ _).mpr (wp_ask _ fun c => ?_)
    rw [Option.isSome_eq_false_iff, Option.isNone_iff_eq_none] at hnone
    rw [hnone]
    exact fun s' _ _ _ => .empty
  refine (wp_seq _ _).mpr (wp_ask _ fun c => ?_)
  obtain ⟨row, hrow⟩ := Option.isSome_iff_exists.mp hsome
  have hrow₁ : s₁.rows (.backfillRun runId) = some row := hrow
  have hlock := LockedUnit.of_lock userId hrow₁
  rw [hrow]
  simp only [Option.any]
  split
  · -- the claim is gone: the lock is given back
    exact fun s' _ _ hh => .of_update (hh _ _ _ hlock.run).symm ⟨rfl, rfl⟩
  refine (wp_seq _ _).mpr (wp_select _ fun s₂ _ hi₂ => ?_)
  obtain ⟨user, huser, hcandidate⟩ := (Option.any_eq_true _ _).mp hlow
  have hread : (s₂.view (Tx.write {} s₁.rows ⟨.backfillRun runId, some row⟩)).rows (.user userId) =
      some user := (Tx.row_of_chg (hlock.users userId)).trans ((hi₂.users userId).trans huser)
  dsimp only [Local.pending, Local.read, Option.getD_some]
  rw [hread]
  rcases Bool.eq_false_or_eq_true (receivesUnit config user) with hreceives | hreceives
  · rw [Option.filter_some_pos hreceives]
    have hfree : ∀ k, IsAlertOf userId k →
        (Tx.write ({} : AlertTx) s₁.rows ⟨.backfillRun runId, some row⟩).chg k = none := by
      rintro k (rfl | ⟨cycle, rfl⟩) <;> exact Tx.chg_write_ne _ (by simp)
    refine (wp_seq _ _).mpr (wp_applyLowBalanceObservation hfree (fun _ _ _ _ => trivial) ?_)
    intro s₁' s₂' s₃ s₄ s₅ base st st' t' t'' notified o outcome r' ha hopened hrep _
    have hlock' : LockedUnit runId (backfillInput config userId user.balanceToman).userId row _ :=
      hlock
    refine (wp_seq _ _).mpr (wp_recordProgress (hlock'.observed ha) fun s₆ hl₆ s' hl hi hh => ?_)
    refine .of_observed ha hlock rfl hi₂ huser hreceives hproper
      (fun hi₄ => ha.queued_iff hi₄ hopened hrep) (hl₆.trans (hl.mono fun k hk => ?_)) hi hh
    exact holds_progress hk
  · rw [Option.filter_some_neg (by simpa using hreceives)]
    refine (wp_seq _ _).mpr (wp_recordProgress hlock fun s₃ _ s' _ hi hh => ?_)
    refine .of_progress hlock.toUnitTx rfl (hlock.row_held hh) hlow (fun cycle hne => ?_)
      fun _ => ?_
    · exact (hne (Tx.row_of_chg (Tx.chg_write_ne _ (by simp)))).elim
    · rw [not_isRecipient_of_not_receives ((hi.users userId).trans huser) hcandidate hreceives]
      simp

theorem accepts_processOneUser_low (hproper : config.thresholdToman ≤ config.rearmBoundaryToman)
    (hlow : IsLow s₀ config userId) :
    Accepts (estimating s₀ runId config) p (processOneUser runId p userId config) := by
  refine .bind (accepts_unitTransaction_low hproper hlow) fun unit => ?_
  cases unit with
  | ok outcome => exact .pure _
  | error e =>
    refine .bind (.ask _) fun throws => ?_
    split
    · exact .pure _
    · exact .bind (accepts_recordFailure_low hlow) fun _ => .pure _

theorem accepts_processPage (hproper : config.thresholdToman ≤ config.rearmBoundaryToman)
    {ids : List ℕ} (hlow : ∀ id ∈ ids, IsLow s₀ config id) : ∀ {counts : BatchCounts},
    Accepts (estimating s₀ runId config) p (processPage runId p config ids counts) := by
  induction ids with
  | nil => exact .pure _
  | cons id ids ih =>
    intro counts
    refine .bind (accepts_processOneUser_low hproper (hlow id (.head _))) fun result => ?_
    rcases result with e | _ | _ | _
    · exact .pure _
    · exact ih fun i hi => hlow i (.tail _ hi)
    · exact ih fun i hi => hlow i (.tail _ hi)
    · exact .pure _

/-- A batch goes on from a candidate. -/
theorem wp_advanceOneBatch_low (hproper : config.thresholdToman ≤ config.rearmBoundaryToman)
    (hcursor : CursorLow s₀ config cursor) (hi : Undisturbed s₀ runId config s) :
    wp (estimating s₀ runId config) p (advanceOneBatch runId p cursor config)
      (fun x l s => l.tx = none ∧ Undisturbed s₀ runId config s ∧
        ∀ b, x = .ok b → CursorLow s₀ config b.cursor) ⟨none, r⟩ s := by
  refine (wp_seq _ _).mpr (wp_ask _ fun c => ?_)
  split
  · exact ⟨rfl, hi, (by rintro _ ⟨⟩)⟩
  refine (wp_seq _ _).mpr (wp_findPage_low hcursor fun ids s₁ hlow hi₁ => ?_)
  split
  · refine ⟨rfl, hi₁, ?_⟩
    rintro b ⟨⟩ c hc
    cases hc
  refine (wp_seq _ _).mpr (wp_mono _ (fun x l s₂ hx => ?_)
    ((accepts_processPage hproper hlow).run r s₁ hi₁))
  rcases x with e | ⟨counts, lost⟩
  · exact ⟨hx.1, hx.2, (by rintro _ ⟨⟩)⟩
  cases lost with
  | true =>
    refine ⟨hx.1, hx.2, ?_⟩
    rintro b ⟨⟩
    exact hcursor
  | false =>
    refine ⟨hx.1, hx.2, ?_⟩
    rintro b ⟨⟩ c hc
    exact hlow c (List.mem_of_getLast? hc)

theorem accepts_runBatches (hproper : config.thresholdToman ≤ config.rearmBoundaryToman) (n : ℕ) :
    ∀ {cursor : Option ℕ} {counts : BatchCounts}, CursorLow s₀ config cursor →
      Accepts (estimating s₀ runId config) p (runBatches runId p config n cursor counts) := by
  induction n with
  | zero => exact fun _ => .pure _
  | succ n ih =>
    intro cursor counts hcursor
    refine .bind (.ask _) fun throws => ?_
    split
    · exact .pure _
    refine .bind (.select _) fun live => ?_
    split
    · exact .pure _
    refine ⟨fun r s hi => (wp_seq _ _).mpr (wp_mono _ (fun x l s₁ hx => ?_)
      (wp_advanceOneBatch_low hproper hcursor hi))⟩
    obtain ⟨tx, reads⟩ := l
    obtain ⟨rfl, hi₁, hnext⟩ := hx
    suffices hrest : Accepts (estimating s₀ runId config) p _ from hrest.run reads s₁ hi₁
    rcases x with e | b
    · exact .pure _
    dsimp only
    split
    · exact .pure _
    refine .bind (.ask _) fun throws => ?_
    split
    · exact .pure _
    refine .bind (.ask _) fun now => ?_
    split
    · exact .bind (accepts_updateRun fun _ => ⟨rfl, rfl⟩) fun _ => .pure _
    refine .bind (accepts_updateRun fun _ => ⟨rfl, rfl⟩) fun renewed => ?_
    split
    · exact .pure _
    · exact ih (hnext b rfl)

theorem accepts_release {α : Type} (x : α) :
    Accepts (estimating s₀ runId config) p (do
      let _ ← updateRun runId (·.ownedBy p) (·.release)
      return x) := .bind (accepts_updateRun fun _ => ⟨rfl, rfl⟩) fun _ => .pure _

/-- No other run is found to work on. -/
theorem eq_of_mem_activeRuns {id : ℕ} (hi : Undisturbed s₀ runId config s)
    (h : id ∈ activeRuns (s.view {})) : id = runId := by
  by_contra hne
  obtain ⟨row, hrow, hactive⟩ := (Option.any_eq_true _ _).mp (List.mem_filter.mp h).2
  rw [hi.others id hne row hrow] at hactive
  cases hactive

/-- TICK: a worker works on this run by the rules. -/
theorem accepts_runLowBalanceBackfillTick
    (hproper : config.thresholdToman ≤ config.rearmBoundaryToman) :
    Accepts (estimating s₀ runId config) p (runLowBalanceBackfillTick p) := by
  refine .bind (.ask _) fun now => ⟨fun r s hi => (wp_seq _ _).mpr (wp_select _ fun s₁ _ hi₁ => ?_)⟩
  suffices hrest : Accepts (estimating s₀ runId config) p _ from hrest.run _ s₁ hi₁
  cases hcandidate : (activeRuns (s₁.view {})).minOn? fun id =>
      (((s₁.view {}).rows (.backfillRun id)).map (·.createdAt)).getD 0 with
  | none =>
    dsimp only [Local.pending, Option.getD_none]
    rw [hcandidate]
    exact .pure _
  | some id =>
    obtain rfl := eq_of_mem_activeRuns hi₁ (List.minOn?_mem hcandidate)
    dsimp only [Local.pending, Option.getD_none]
    rw [hcandidate]
    refine .bind (accepts_updateRun fun _ => ⟨rfl, rfl⟩) fun claimed => ?_
    split
    · exact .pure _
    refine ⟨fun r s hi => (wp_seq _ _).mpr (wp_select _ fun s₂ _ hi₂ => ?_)⟩
    suffices hrest : Accepts (estimating s₀ id config) p _ from hrest.run _ s₂ hi₂
    split
    · exact .pure _
    · rename_i run hrun
      obtain ⟨row, hrow, rfl, hcursor⟩ := hi₂.run
      obtain ⟨hrun, -⟩ := Option.filter_eq_some_iff.mp hrun
      obtain rfl : row = run := Option.some.inj (hrow.symm.trans hrun)
      refine .bind (accepts_runBatches hproper _ hcursor) fun result => ?_
      rcases result with e | result
      · refine .bind (.ask _) fun throws => ?_
        split
        · exact .bind (accepts_updateRun fun _ => ⟨rfl, rfl⟩) fun _ => accepts_release _
        · exact accepts_release _
      · exact accepts_release _

end ZedBot.LowBalance
