import ZedBot.LowBalance.BackfillRules

/-! Every program of the backfill follows its rules.

    A worker carries what it knows of its run from statement to statement: the cursor, and the ids
    of its page that are still to process. A unit judges the claim under the lock of the run, so
    that knowledge is good when the unit commits. -/

namespace ZedBot.LowBalance
open ReadCommitted

variable {worker : ℕ → Prop} {p : ℕ} {r : List AlertStore} {s s' : AlertStore} {t t' : AlertTx}
  {runId userId : ℕ} {config : FrozenConfig} {cursor : Option ℕ} {page : Option Page}
  {row row' : LowBalanceBackfillRun}

/-- A commit about one run. -/
theorem BackfillTx.of_move {n : Option LowBalanceBackfillRun}
    (hrow : t.row s.rows (.backfillRun runId) = n)
    (hmove : RunMove p runId s (s.rows (.backfillRun runId)) n (runEntries runId t.entries))
    (hruns : ∀ id, id ≠ runId → t.chg (.backfillRun id) = none ∧ runEntries id t.entries = [])
    (husers : ∀ id, t.chg (.user id) = none)
    (halerts : ∀ userId k, IsAlertOf userId k → t.Holds k →
      ∃ runId result, .unit runId p userId result ∈ t.entries) : BackfillTx worker p s t := by
  refine ⟨fun id => ?_, fun id o n h => ?_, fun _ => halerts⟩
  · rcases eq_or_ne id runId with rfl | hne
    · rw [hrow]
      exact hmove
    · obtain ⟨hchg, hes⟩ := hruns id hne
      rw [Tx.row_of_chg hchg, hes]
      exact .idle _
  · rw [husers id] at h
    cases h

/-- A commit of one statement that writes a run, with no entry about a run. -/
theorem BackfillTx.of_write {rows : ∀ k, AlertRow k} {es : List AlertEntry}
    (hmove : RunMove p runId s (s.rows (.backfillRun runId)) (some row') [])
    (hes : ∀ id, runEntries id es = []) :
    BackfillTx worker p s ((Tx.write {} rows ⟨.backfillRun runId, some row'⟩).append es) := by
  have hchg : ∀ k, k ≠ .backfillRun runId →
      ((Tx.write {} rows ⟨.backfillRun runId, some row'⟩).append es).chg k = none :=
    fun k hk => Tx.chg_write_ne _ hk
  refine .of_move (Tx.row_write_self ..) ?_ (fun id hid => ⟨hchg _ (by simpa using hid), hes id⟩)
    (fun id => hchg _ (by simp)) ?_
  · rw [Tx.entries_append, Tx.entries_write, List.nil_append, hes runId]
    exact hmove
  · rintro userId k (rfl | ⟨cycle, rfl⟩) hk <;> exact (hk (hchg _ (by simp))).elim

theorem BackfillTx.of_update {rows : ∀ k, AlertRow k}
    (hmove : RunMove p runId s (s.rows (.backfillRun runId)) (some row') []) :
    BackfillTx worker p s (Tx.write {} rows ⟨.backfillRun runId, some row'⟩) := by
  rw [← Tx.append_nil (Tx.write {} rows _)]
  exact .of_write hmove fun _ => rfl

/-- A commit that leaves the runs, by a process that is not a tick. -/
theorem BackfillTx.of_outside (hw : ¬ worker p) (hruns : ∀ id, t.chg (.backfillRun id) = none)
    (hentries : ∀ id, runEntries id t.entries = [])
    (husers : ∀ id o n, t.chg (.user id) = some (o, n) →
      n ≠ none ∧ (o = none → .user id ∈ t.entries)) : BackfillTx worker p s t := by
  refine ⟨fun id => ?_, husers, fun h => (hw h).elim⟩
  rw [Tx.row_of_chg (hruns id), hentries id]
  exact .idle _

/-- An `UPDATE` of a run outside a transaction. -/
theorem wp_updateRun {cond : LowBalanceBackfillRun → Bool}
    {data : LowBalanceBackfillRun → LowBalanceBackfillRun} {Q : ℕ → AlertLocal → AlertStore → Prop}
    (hmiss : ∀ s', (backfill worker).Later p (Tx.Holds ({} : AlertTx)) s s' →
      Q 0 ⟨none, r⟩ (s'.commit p {}))
    (hmatch : ∀ s' row, (backfill worker).Later p (Tx.Holds ({} : AlertTx)) s s' →
      s'.rows (.backfillRun runId) = some row → cond row = true →
      RunMove p runId s' (some row) (some (data row)) [] ∧
        Q 1 ⟨none, r⟩ (s'.commit p (Tx.write {} s'.rows ⟨.backfillRun runId, some (data row)⟩))) :
    wp (backfill worker) p (updateRun runId cond data) Q ⟨none, r⟩ s := by
  refine wp_update fun s' hl _ => ⟨fun _ => hmiss s' hl, fun n hn => ?_⟩
  obtain ⟨row, hrow, hcond, rfl⟩ := onRow_eq_some.mp hn
  obtain ⟨hmove, hQ⟩ := hmatch s' row hl hrow hcond
  refine ⟨.of_update ?_, hQ⟩
  rw [hrow]
  exact hmove

/-- A worker's own update that keeps its run and its cursor. -/
theorem Mine.update (h : Mine p runId config cursor page s)
    (hrow : s.rows (.backfillRun runId) = some row) (hconfig : row'.frozenConfig = row.frozenConfig)
    (hown : row'.ownedBy p = true → row.ownedBy p = true ∧ row'.cursorUserId = row.cursorUserId) :
    Mine p runId config cursor page
      (s.commit p (Tx.write {} s.rows ⟨.backfillRun runId, some row'⟩)) := by
  obtain ⟨x, hx, hxc, hxo⟩ := h
  obtain rfl : row = x := Option.some.inj (hrow.symm.trans hx)
  refine ⟨row', Tx.row_write_self .., hconfig.trans hxc, fun h => ?_⟩
  obtain ⟨h, hcursor⟩ := hown h
  rw [hcursor, Store.journal_commit]
  simpa [Tx.entries] using hxo h

/-! ### Units -/

/-- A transaction that has changed nothing but one run and alerts of one user. -/
structure UnitTx (runId userId : ℕ) (t : AlertTx) : Prop where
  runs : ∀ id, id ≠ runId → t.chg (.backfillRun id) = none
  users : ∀ id, t.chg (.user id) = none
  alerts : ∀ id k, IsAlertOf id k → t.Holds k → id = userId
  entries : ∀ id, runEntries id t.entries = []

/-- The transaction of a unit before its progress: the run is locked as it was. -/
structure LockedUnit (runId userId : ℕ) (row : LowBalanceBackfillRun) (t : AlertTx) : Prop
    extends UnitTx runId userId t where
  run : t.chg (.backfillRun runId) = some (some row, some row)

/-- The transaction of a unit with its progress. -/
def progressTx (rows : ∀ k, AlertRow k) (p runId userId : ℕ) (result : UnitResult)
    (row : LowBalanceBackfillRun) (t : AlertTx) : AlertTx :=
  (t.write rows ⟨.backfillRun runId, some (row.record userId result)⟩).append
    [.unit runId p userId result]

/-- The lock alone. -/
theorem LockedUnit.of_lock (userId : ℕ) (hrow : s.rows (.backfillRun runId) = some row) :
    LockedUnit runId userId row (Tx.write {} s.rows ⟨.backfillRun runId, some row⟩) where
  run := by rw [Tx.chg_write_self, Tx.base_of_chg rfl, hrow]
  runs id hid := Tx.chg_write_ne _ (by simpa using hid)
  users id := Tx.chg_write_ne _ (by simp)
  alerts := by rintro id k (rfl | ⟨cycle, rfl⟩) hk <;> exact (hk (Tx.chg_write_ne _ (by simp))).elim
  entries _ := rfl

/-- An observation of the user keeps it so. -/
theorem LockedUnit.observed {D : Discipline AlertRow AlertEntry Unit} {input : LowBalanceObservationInput}
    {s₁ s₂ s₃ s₄ : AlertStore} {base : Option LowBalanceAlertState} {st st' : LowBalanceAlertState}
    {t'' : AlertTx} {notified : Option ℕ} {o : Observation}
    (h : LockedUnit runId input.userId row t)
    (ha : Applied D p input t s s₁ s₂ s₃ s₄ s' base st st' t' t'' notified o) :
    LockedUnit runId input.userId row t'' := by
  have hchg : ∀ k, ¬ IsAlertOf input.userId k → t''.chg k = t.chg k := by
    rw [ha.tx]
    exact ha.moves.holding.others
  refine ⟨⟨fun id hid => ?_, fun id => ?_, fun id k hk hheld => ?_, fun id => ?_⟩, ?_⟩
  · rw [hchg _ (by simp [IsAlertOf]), h.runs id hid]
  · rw [hchg _ (by simp [IsAlertOf]), h.users id]
  · by_contra hne
    have hother : ¬ IsAlertOf input.userId k := by
      rcases hk with rfl | ⟨cycle, rfl⟩ <;> simp [IsAlertOf, hne]
    rw [Tx.Holds, hchg k hother] at hheld
    exact hne (h.alerts id k hk hheld)
  · have := h.entries id
    rw [ha.tx, Tx.entries_append, ha.moves.holding.entries]
    simpa [runEntries, AlertEntry.ofRun] using this
  · rw [hchg _ (by simp [IsAlertOf]), h.run]

/-- UNIT: on a run it owns a worker may commit its next unit, and knows what is left. -/
theorem UnitTx.commits {rest : List ℕ} {page : Page} {result : UnitResult} {rows : ∀ k, AlertRow k}
    (h : UnitTx runId userId t) (hrow : s.rows (.backfillRun runId) = some row)
    (hown : row.ownedBy p = true) (hm : Mine p runId config cursor (some page) s)
    (hrest : page.rest = userId :: rest) (hcursor : ∀ c, cursor = some c → c < userId) :
    BackfillTx worker p s (progressTx rows p runId userId result row t) ∧
      Mine p runId config (some userId) (some { page with rest := rest })
        (s.commit p (progressTx rows p runId userId result row t)) := by
  obtain ⟨x, hx, hxc, hxo⟩ := hm
  obtain rfl : row = x := Option.some.inj (hrow.symm.trans hx)
  obtain ⟨hxcursor, hxpage⟩ := hxo hown
  have hnew : (progressTx rows p runId userId result row t).row s.rows (.backfillRun runId) =
      some (row.record userId result) := Tx.row_write_self ..
  have hentries : ∀ id, runEntries id (progressTx rows p runId userId result row t).entries =
      if id = runId then [.unit runId p userId result] else [] := by
    intro id
    have := h.entries id
    rcases eq_or_ne id runId with rfl | hne
    · simpa [progressTx, runEntries, AlertEntry.ofRun] using this
    · simpa [progressTx, runEntries, AlertEntry.ofRun, hne, hne.symm] using this
  refine ⟨.of_move hnew ?_ (fun id hid => ⟨?_, ?_⟩) (fun id => ?_) ?_, ?_⟩
  · rw [hrow, hentries runId, if_pos rfl]
    exact .unit row page userId rest result hown hxpage hrest fun c hc =>
      hcursor c (hxcursor.symm.trans hc)
  · rw [progressTx, Tx.chg_append, Tx.chg_write_ne _ (by simpa using hid)]
    exact h.runs id hid
  · rw [hentries id, if_neg hid]
  · rw [progressTx, Tx.chg_append, Tx.chg_write_ne _ (by simp)]
    exact h.users id
  · intro id k hk hheld
    have hkey : k ≠ .backfillRun runId := by rcases hk with rfl | ⟨cycle, rfl⟩ <;> simp
    rw [Tx.Holds, progressTx, Tx.chg_append, Tx.chg_write_ne _ hkey] at hheld
    obtain rfl := h.alerts id k hk hheld
    exact ⟨runId, result, by simp [progressTx]⟩
  · refine ⟨_, hnew, LowBalanceBackfillRun.record_frozenConfig.trans hxc, fun _ => ?_⟩
    refine ⟨LowBalanceBackfillRun.record_cursorUserId, ?_⟩
    rw [Store.journal_commit, pageOf_append, hentries runId, if_pos rfl, hxpage]
    simp [Page.step, hrest]

theorem wp_recordProgress {D : Discipline AlertRow AlertEntry Unit} {owner : ℕ}
    {result : UnitResult} (h : LockedUnit runId userId row t)
    {Q : Unit → AlertLocal → AlertStore → Prop} (hQ : ∀ s', D.Later p t.Holds s s' →
      Q () ⟨some (progressTx s'.rows owner runId userId result row t), r⟩ s') :
    wp D p (recordProgress runId owner userId result) Q ⟨some t, r⟩ s := by
  refine (wp_seq _ _).mpr (wp_sql_tx fun s' hl _ _ => ?_)
  have hrow : t.row s'.rows (.backfillRun runId) = some row := by simp [Tx.row, h.run]
  simp only [Store.view, hrow, onRow, if_true]
  exact hQ s' hl

/-- The locked run is as it was when the unit commits. -/
theorem LockedUnit.row_held {result : UnitResult} {rows : ∀ k, AlertRow k}
    (h : LockedUnit runId userId row t) (hh : (progressTx rows p runId userId result row t).Held s.rows) :
    s.rows (.backfillRun runId) = some row := by
  have hchg : (progressTx rows p runId userId result row t).chg (.backfillRun runId) =
      some (some row, some (row.record userId result)) := by
    rw [progressTx, Tx.chg_append, Tx.chg_write_self]
    simp [Tx.base, h.run]
  exact (hh _ _ _ hchg).symm

/-- What a worker knows when the transaction of a unit has ended. -/
def AfterUnit (p runId userId : ℕ) (config : FrozenConfig) (cursor : Option ℕ) (page : Page)
    (rest : List ℕ) : Except ObservationThrow UnitOutcome → AlertLocal → AlertStore → Prop
  | .error _, l, s => l.tx = none ∧ Mine p runId config cursor (some page) s
  | .ok .lostClaim, l, _ => l.tx = none
  | .ok _, l, s =>
    l.tx = none ∧ Mine p runId config (some userId) (some { page with rest := rest }) s

/-- PROGRESS: the claim was judged under the lock, and the lock carries it to the commit. -/
theorem wp_progress {rest : List ℕ} {page : Page} {result : UnitResult} {x : UnitOutcome}
    (hm : Mine p runId config cursor (some page) s) (ht : LockedUnit runId userId row t)
    (hown : row.ownedBy p = true) (hrest : page.rest = userId :: rest)
    (hcursor : ∀ c, cursor = some c → c < userId) (hx : x ≠ .lostClaim) :
    wp (backfill worker) p
      (do recordProgress runId p userId result; return (.ok x : Except ObservationThrow UnitOutcome))
      (fun x l s => match x with
        | .ok _ => ∀ s', (backfill worker).Later p l.Holds s s' → (backfill worker).Inv s' →
          l.pending.Held s'.rows → (backfill worker).Commits p l.reads s' l.pending ∧
            AfterUnit p runId userId config cursor page rest x ⟨none, l.reads⟩ (s'.commit p l.pending)
        | .error _ => AfterUnit p runId userId config cursor page rest x ⟨none, l.reads⟩ s)
      ⟨some t, r⟩ s := by
  refine (wp_seq _ _).mpr (wp_recordProgress ht fun s₁ hl₁ => ?_)
  intro s₂ hl₂ _ hh
  obtain ⟨hc, hm₂⟩ := ht.commits (ht.row_held hh) hown ((hm.later hl₁).later hl₂) hrest hcursor
  refine ⟨hc, ?_⟩
  cases x with
  | lostClaim => exact absurd rfl hx
  | queued | skipped => exact ⟨rfl, hm₂⟩

theorem wp_unitTransaction {rest : List ℕ} {page : Page}
    (hm : Mine p runId config cursor (some page) s) (hrest : page.rest = userId :: rest)
    (hcursor : ∀ c, cursor = some c → c < userId) :
    wp (backfill worker) p (unitTransaction runId p userId config)
      (AfterUnit p runId userId config cursor page rest) ⟨none, r⟩ s := by
  refine wp_transaction ((wp_seq _ _).mpr (wp_ask _ fun c => ?_))
  split
  · exact ⟨rfl, hm⟩
  refine (wp_seq _ _).mpr (wp_selectForUpdate_tx fun s₁ hl₁ _ _ => ⟨fun hnone => ?_, fun hsome => ?_⟩)
  · -- the run is gone: nothing is locked and nothing changes
    refine (wp_seq _ _).mpr (wp_ask _ fun c => ?_)
    rw [Option.isSome_eq_false_iff, Option.isNone_iff_eq_none] at hnone
    rw [hnone]
    exact fun s' _ _ _ => ⟨(backfill worker).commits_empty (r := r) trivial, rfl⟩
  refine (wp_seq _ _).mpr (wp_ask _ fun c => ?_)
  obtain ⟨row, hrow⟩ := Option.isSome_iff_exists.mp hsome
  have hrow₁ : s₁.rows (.backfillRun runId) = some row := hrow
  have hlock := LockedUnit.of_lock userId hrow₁
  have hm₁ := hm.later hl₁
  rw [hrow]
  simp only [Option.any]
  split
  · -- the claim is gone: the lock is given back
    refine fun s' _ _ hh => ⟨BackfillTx.of_update ?_, rfl⟩
    rw [← hh _ _ _ hlock.run]
    exact .idle _
  rename_i hlease
  rw [not_not, LowBalanceBackfillRun.holdsLease, decide_eq_true_eq] at hlease
  refine (wp_seq _ _).mpr (wp_select _ fun s₂ hl₂ _ => ?_)
  have hm₂ := hm₁.later hl₂
  split
  · exact wp_progress hm₂ hlock hlease.1 hrest hcursor (by rintro ⟨⟩)
  rename_i user _
  refine (wp_seq _ _).mpr (wp_applyLowBalanceObservation ?_ (fun e l s' hl => ⟨rfl, hm₂.later hl.later⟩) ?_)
  · rintro k (rfl | ⟨cycle, rfl⟩) <;> exact Tx.chg_write_ne _ (by simp)
  intro s₁' s₂' s₃ s₄ s' base st st' t' t'' notified o outcome r' ha _ _ _
  have hlock' : LockedUnit runId (backfillInput config userId user.balanceToman).userId row _ := hlock
  have ht'' : LockedUnit runId userId row t'' := hlock'.observed ha
  have hm' : Mine p runId config cursor (some page) s' :=
    (((((hm₂.later ha.waits).later ha.reads).later ha.moves.asks).later ha.moves.inserts).later
      ha.moves.ends)
  refine wp_progress hm' ht'' hlease.1 hrest hcursor ?_
  split <;> rintro ⟨⟩

/-- What a worker knows after a unit: where the claim stands, the unit is behind it. -/
def AfterUser (p runId userId : ℕ) (config : FrozenConfig) (page : Page) (rest : List ℕ) :
    Except Unit UnitOutcome → AlertLocal → AlertStore → Prop
  | .ok .queued, l, s | .ok .skipped, l, s =>
    l.tx = none ∧ Mine p runId config (some userId) (some { page with rest := rest }) s
  | _, l, _ => l.tx = none

theorem UnitTx.empty : UnitTx runId userId {} where
  runs _ _ := rfl
  users _ := rfl
  alerts _ _ _ h := (h rfl).elim
  entries _ := rfl

/-- A unit that failed is recorded where the worker still owns the run. -/
theorem wp_recordFailure {rest : List ℕ} {page : Page} {Q : ℕ → AlertLocal → AlertStore → Prop}
    (hm : Mine p runId config cursor (some page) s) (hrest : page.rest = userId :: rest)
    (hcursor : ∀ c, cursor = some c → c < userId)
    (hQ : ∀ n s', Mine p runId config (some userId) (some { page with rest := rest }) s' →
      Q n ⟨none, r⟩ s') :
    wp (backfill worker) p (recordUnit runId p userId .failed (·.ownedBy p)) Q ⟨none, r⟩ s := by
  intro s' hl _ _
  have hm' := hm.later hl
  obtain ⟨row, hrow, hconfig, hown⟩ := hm'
  simp only [Store.view, Local.pending, Option.getD_none, Tx.row_empty, hrow, onRow]
  rcases Bool.eq_false_or_eq_true (row.ownedBy p) with h | h
  · have hcommit : BackfillTx worker p s' (progressTx s'.rows p runId userId .failed row {}) ∧ _ :=
      UnitTx.empty.commits hrow h ⟨row, hrow, hconfig, hown⟩ hrest hcursor
    simp only [h, if_true]
    exact ⟨hcommit.1, hQ _ _ hcommit.2⟩
  · simp only [h]
    refine ⟨(backfill worker).commits_empty trivial, hQ _ _ ⟨row, hrow, hconfig, fun ho => ?_⟩⟩
    rw [h] at ho
    cases ho

theorem wp_processOneUser {rest : List ℕ} {page : Page}
    (hm : Mine p runId config cursor (some page) s) (hrest : page.rest = userId :: rest)
    (hcursor : ∀ c, cursor = some c → c < userId) :
    wp (backfill worker) p (processOneUser runId p userId config)
      (AfterUser p runId userId config page rest) ⟨none, r⟩ s := by
  refine (wp_seq _ _).mpr (wp_mono _ (fun x l s₁ hx => ?_) (wp_unitTransaction hm hrest hcursor))
  obtain ⟨tx, reads⟩ := l
  cases x with
  | ok outcome => cases outcome <;> exact hx
  | error e =>
    obtain ⟨rfl, hm₁⟩ := hx
    refine (wp_seq _ _).mpr (wp_ask _ fun c => ?_)
    split
    · exact rfl
    · exact (wp_seq _ _).mpr (wp_recordFailure hm₁ hrest hcursor fun n s' hm' => ⟨rfl, hm'⟩)

/-! ### Batches -/

theorem wp_findPage {Q : List ℕ → AlertLocal → AlertStore → Prop}
    (hm : Mine p runId config cursor page s)
    (hQ : ∀ ids s', ids.Pairwise (· < ·) → (∀ c, cursor = some c → ∀ v ∈ ids, c < v) →
      Mine p runId config cursor (some { cursor := cursor, ids := ids, rest := ids }) s' →
      Q ids ⟨none, r⟩ s') :
    wp (backfill worker) p (findPage runId p cursor config) Q ⟨none, r⟩ s := by
  intro s' hl _ _
  have hm' := hm.later hl
  obtain ⟨row, hrow, hconfig, hown⟩ := hm'
  have hthreshold : config.thresholdToman = row.thresholdToman := by rw [← hconfig]; rfl
  have hsorted := candidates_pairwise row.thresholdToman (s'.view {})
  simp only [Local.pending, Option.getD_none, hthreshold]
  have hmove : RunMove p runId s' (some row) (some row) _ := .read row cursor fun h => (hown h).1
  have hcommit : ∀ es, RunMove p runId s' (some row) (some row) (runEntries runId es) →
      (∀ id, id ≠ runId → runEntries id es = []) →
      BackfillTx worker p s' ({ entries := es } : AlertTx) := fun es hmove hes =>
    .of_move hrow (hrow ▸ hmove) (fun id hid => ⟨rfl, hes id hid⟩) (fun _ => rfl)
      fun _ k _ h => (h rfl).elim
  refine ⟨hcommit _ ?_ fun id hid => ?_, hQ _ _ (pageAfter_pairwise hsorted) ?_ ?_⟩
  · simpa [runEntries, AlertEntry.ofRun] using hmove
  · simp [runEntries, AlertEntry.ofRun, hid.symm]
  · rintro c rfl v hv
    exact lt_of_mem_pageAfter hsorted hv
  · refine ⟨row, hrow, hconfig, fun h => ⟨(hown h).1, ?_⟩⟩
    rw [Store.journal_commit, pageOf_append]
    simp [runEntries, AlertEntry.ofRun, Tx.add, Page.step]

/-- What a worker knows after the units of a page, unless it lost the claim. -/
def AfterPage (p runId : ℕ) (config : FrozenConfig) (page : Page) (cursor : Option ℕ) :
    Except Unit (BatchCounts × Bool) → AlertLocal → AlertStore → Prop
  | .ok (_, false), l, s =>
    l.tx = none ∧ Mine p runId config cursor (some { page with rest := [] }) s
  | _, l, _ => l.tx = none

theorem wp_processPage {ids : List ℕ} : ∀ (page : Page) {cursor : Option ℕ} {counts : BatchCounts}
    {r : List AlertStore} {s : AlertStore}, Mine p runId config cursor (some page) s →
    page.rest = ids → ids.Pairwise (· < ·) → (∀ c, cursor = some c → ∀ v ∈ ids, c < v) →
    wp (backfill worker) p (processPage runId p config ids counts)
      (AfterPage p runId config page (ids.getLast?.or cursor)) ⟨none, r⟩ s := by
  induction ids with
  | nil =>
    rintro page cursor counts r s hm hrest - -
    have hpage : { page with rest := [] } = page := by rw [← hrest]
    exact ⟨rfl, by rw [hpage]; exact hm⟩
  | cons u ids ih =>
    intro page cursor counts r s hm hrest hsorted hcursor
    obtain ⟨hu, hsorted⟩ := List.pairwise_cons.mp hsorted
    have hlast : ids.getLast?.or (some u) = (u :: ids).getLast?.or cursor := by
      rw [List.getLast?_cons]
      cases ids.getLast? <;> rfl
    refine (wp_seq _ _).mpr (wp_mono _ (fun x l s₁ hx => ?_)
      (wp_processOneUser hm hrest fun c hc => hcursor c hc u (.head _)))
    obtain ⟨tx, reads⟩ := l
    have hnext : ∀ c, some u = some c → ∀ v ∈ ids, c < v := by
      rintro c ⟨⟩
      exact hu
    rcases x with e | outcome
    · exact hx
    cases outcome with
    | lostClaim => exact hx
    | queued | skipped =>
      obtain ⟨rfl, hm₁⟩ := hx
      rw [← hlast]
      exact ih { page with rest := ids } hm₁ rfl hsorted hnext

/-- What a worker knows after a batch, unless it lost the claim. -/
def AfterBatch (p runId : ℕ) (config : FrozenConfig) :
    Except Unit BatchResult → AlertLocal → AlertStore → Prop
  | .ok b, l, s => l.tx = none ∧ (b.lostClaim = false → ∃ page cursor,
      Mine p runId config cursor (some page) s ∧ page.rest = [] ∧
      (b.isDone = true → page.ids.length < LOW_BALANCE_BACKFILL_BATCH) ∧
      (b.isDone = false → cursor = b.cursor))
  | .error _, l, _ => l.tx = none

theorem wp_advanceOneBatch (hm : Mine p runId config cursor page s) :
    wp (backfill worker) p (advanceOneBatch runId p cursor config) (AfterBatch p runId config)
      ⟨none, r⟩ s := by
  refine (wp_seq _ _).mpr (wp_ask _ fun c => ?_)
  split
  · exact rfl
  refine (wp_seq _ _).mpr (wp_findPage hm fun ids s₁ hsorted hcursor hm₁ => ?_)
  split
  · rename_i hempty
    refine ⟨rfl, fun _ => ⟨_, cursor, hm₁, List.length_eq_zero_iff.mp hempty, fun _ => ?_, (by rintro ⟨⟩)⟩⟩
    dsimp only
    rw [hempty]
    decide
  rename_i hsome
  refine (wp_seq _ _).mpr (wp_mono _ (fun x l s₂ hx => ?_)
    (wp_processPage _ hm₁ rfl hsorted hcursor))
  rcases x with e | ⟨counts, lost⟩
  · exact hx
  cases lost with
  | true => exact ⟨hx, (by rintro ⟨⟩)⟩
  | false =>
    obtain ⟨htx, hm₂⟩ := hx
    refine ⟨htx, fun _ => ⟨_, _, hm₂, rfl, fun hdone => by simpa using hdone, fun _ => ?_⟩⟩
    cases hids : ids.getLast? with
    | some v => rfl
    | none =>
      rw [List.getLast?_eq_none_iff.mp hids] at hsome
      exact absurd rfl hsome

/-- The lease is renewed by its owner. -/
theorem LowBalanceBackfillRun.ownedBy_of_holdsLease {now : ℕ} (h : row.holdsLease p now = true) :
    row.ownedBy p = true := by
  rw [holdsLease, decide_eq_true_eq] at h
  exact h.1

theorem wp_runBatches (n : ℕ) : ∀ {cursor : Option ℕ} {page : Option Page} {counts : BatchCounts}
    {r : List AlertStore} {s : AlertStore}, Mine p runId config cursor page s →
    wp (backfill worker) p (runBatches runId p config n cursor counts) (fun _ l _ => l.tx = none)
      ⟨none, r⟩ s := by
  induction n with
  | zero => exact fun _ => rfl
  | succ n ih =>
    intro cursor page counts r s hm
    refine (wp_seq _ _).mpr (wp_ask _ fun c => ?_)
    split
    · exact rfl
    refine (wp_seq _ _).mpr (wp_select _ fun s₁ hl₁ _ => ?_)
    have hm₁ := hm.later hl₁
    split
    · exact rfl
    refine (wp_seq _ _).mpr (wp_mono _ (fun x l s₂ hx => ?_) (wp_advanceOneBatch hm₁))
    obtain ⟨tx, reads⟩ := l
    rcases x with e | b
    · exact hx
    obtain ⟨rfl, hknown⟩ := hx
    dsimp only
    split
    · exact rfl
    rename_i hlost
    obtain ⟨pg, cur, hm₂, hrest, hdone, hcur⟩ := hknown (by simpa using hlost)
    refine (wp_seq _ _).mpr (wp_ask _ fun c => ?_)
    split
    · exact rfl
    refine (wp_seq _ _).mpr (wp_ask _ fun c => ?_)
    split
    · rename_i hisDone
      refine (wp_seq _ _).mpr (wp_updateRun (fun _ _ => rfl) fun s₃ row hl₃ hrow hown => ⟨?_, rfl⟩)
      obtain ⟨x, hx, -, hxo⟩ := hm₂.later hl₃
      obtain rfl : row = x := Option.some.inj (hrow.symm.trans hx)
      exact .completed row c.now pg hown (hxo hown).2 hrest (hdone hisDone)
    · rename_i hnot
      refine (wp_seq _ _).mpr (wp_updateRun (fun _ _ => rfl) fun s₃ row hl₃ hrow hlease => ?_)
      have hown := LowBalanceBackfillRun.ownedBy_of_holdsLease hlease
      have hm₃ : Mine p runId config cur (some pg)
          (s₃.commit p (Tx.write {} s₃.rows ⟨.backfillRun runId, some (row.renew c.now)⟩)) :=
        (hm₂.later hl₃).update hrow rfl fun h => ⟨h, rfl⟩
      rw [hcur (by simpa using hnot)] at hm₃
      exact ⟨.renewed row c.now hown, ih hm₃⟩

/-! ### Ticks -/

/-- The `finally` of a tick. -/
theorem wp_release {α : Type} (x : α) :
    wp (backfill worker) p (do
      let _ ← updateRun runId (·.ownedBy p) (·.release)
      return x) (fun _ l _ => l.tx = none) ⟨none, r⟩ s :=
  (wp_seq _ _).mpr (wp_updateRun (fun _ _ => rfl) fun _ row _ _ hown => ⟨.released row hown, rfl⟩)

theorem Mine.of_claim {now : ℕ} (h : Unborn p s) (hrow : s.rows (.backfillRun runId) = some row) :
    Mine p runId row.frozenConfig row.cursorUserId none
      (s.commit p (Tx.write {} s.rows ⟨.backfillRun runId, some (row.claim p now)⟩)) := by
  have hm : Mine p runId row.frozenConfig row.cursorUserId none s :=
    ⟨row, hrow, rfl, fun _ => ⟨rfl, h.page runId⟩⟩
  refine ⟨row.claim p now, Tx.row_write_self .., rfl, fun _ => ⟨rfl, ?_⟩⟩
  rw [Store.journal_commit]
  simpa using h.page runId

theorem wp_runLowBalanceBackfillTick (h : Unborn p s) :
    wp (backfill worker) p (runLowBalanceBackfillTick p) (fun _ l _ => l.tx = none) ⟨none, r⟩ s := by
  refine (wp_seq _ _).mpr (wp_ask _ fun c => (wp_seq _ _).mpr (wp_select _ fun s₁ hl₁ _ => ?_))
  have h₁ := h.later hl₁
  split
  · exact rfl
  rename_i runId _
  refine (wp_seq _ _).mpr (wp_updateRun (fun _ _ => rfl) fun s₂ row hl₂ hrow hclaim => ?_)
  have h₂ := h₁.later hl₂
  refine ⟨.claimed row c.now hclaim (h₂.page runId), (wp_seq _ _).mpr (wp_select _ fun s₃ hl₃ _ => ?_)⟩
  have hm := (Mine.of_claim h₂ hrow).later hl₃
  split
  · exact rfl
  rename_i run hrun
  obtain ⟨hrun, -⟩ := Option.filter_eq_some_iff.mp hrun
  obtain ⟨x, hx, hxc, hxo⟩ := hm
  obtain rfl : run = x := Option.some.inj (hrun.symm.trans hx)
  have hm₃ : Mine p runId run.frozenConfig run.cursorUserId none s₃ :=
    ⟨run, hx, rfl, fun ho => ⟨rfl, (hxo ho).2⟩⟩
  refine (wp_seq _ _).mpr (wp_mono _ (fun y l s₄ hy => ?_) (wp_runBatches BATCHES_PER_TICK hm₃))
  obtain ⟨tx, reads⟩ := l
  obtain rfl : tx = none := hy
  rcases y with e | result
  · refine (wp_seq _ _).mpr (wp_ask _ fun c => ?_)
    split
    · refine (wp_seq _ _).mpr (wp_updateRun (fun s' _ => wp_release _) fun s' row _ _ _ => ?_)
      exact ⟨.batchFailed row, wp_release _⟩
    · exact wp_release _
  · exact wp_release _

/-! ### The other programs -/

theorem wp_createRun {id : ℕ} {row : LowBalanceBackfillRun}
    {Q : Bool → AlertLocal → AlertStore → Prop} (hfalse : ∀ s', Q false ⟨some {}, r⟩ s')
    (htrue : ∀ s', s'.rows (.backfillRun id) = none → Q true
      ⟨some ((Tx.write {} s'.rows ⟨.backfillRun id, some row⟩).append [.backfillRun id]), r⟩ s') :
    wp (backfill worker) p (createRun id row) Q ⟨some {}, r⟩ s := by
  refine wp_sql_tx fun s' _ _ _ => ?_
  simp only [Store.view, Tx.row_empty]
  cases hfree : s'.rows (.backfillRun id) with
  | some _ => simpa [Tx.add] using hfalse s'
  | none => split <;> simpa [Tx.add, Tx.append] using (by first | exact htrue s' hfree | exact hfalse s')

theorem accepts_startLowBalanceBackfill (config : AlertChoice → Option FrozenConfig) :
    Accepts (backfill worker) p (startLowBalanceBackfill config) := by
  refine .transaction fun r s _ => (wp_seq _ _).mpr (wp_ask _ fun c => ?_)
  split
  · exact ⟨_, rfl, fun s' _ _ _ => (backfill worker).commits_empty (r := r) trivial⟩
  rename_i cfg _
  refine (wp_seq _ _).mpr (wp_ask _ fun c₁ => (wp_seq _ _).mpr (wp_ask _ fun c₂ => ?_))
  refine (wp_seq _ _).mpr (wp_createRun (fun _ => trivial) fun s₁ hfree => ?_)
  refine ⟨_, rfl, fun s' _ _ hh => .of_write ?_ fun id => rfl⟩
  have hrow : s'.rows (.backfillRun c₂.id) = none :=
    (hh _ _ _ (Tx.chg_write_self ..)).symm.trans hfree
  rw [hrow]
  exact .created cfg c₁.now

/-- What a cancellation writes: the active runs, cancelled. -/
theorem chg_cancel {now id : ℕ} {o n : Option LowBalanceBackfillRun}
    (h : (Tx.add ({} : AlertTx) s.rows
      { result := (activeRuns (s.view {})).length
        writes := (activeRuns (s.view {})).map fun id =>
          ⟨.backfillRun id, ((s.view {}).rows (.backfillRun id)).map (·.cancel now)⟩ }).chg
      (.backfillRun id) = some (o, n)) :
    ∃ row, s.rows (.backfillRun id) = some row ∧ row.isActive = true ∧
      n = some (row.cancel now) := by
  obtain ⟨-, hmem⟩ := Tx.chg_add_empty h
  obtain ⟨id', hid, he⟩ := List.mem_map.mp hmem
  cases he
  obtain ⟨row, hrow, hact⟩ := (Option.any_eq_true _ _).mp (List.mem_filter.mp hid).2
  simp only [Store.view, Tx.row_empty] at hrow ⊢
  exact ⟨row, hrow, hact, by rw [hrow]; rfl⟩

theorem accepts_cancelLowBalanceBackfill :
    Accepts (backfill worker) p cancelLowBalanceBackfill := by
  refine .bind (.ask _) fun now => .bind (.sql fun r s _ => ?_) fun _ => .pure _
  have hother : ∀ k, (∀ id, k ≠ .backfillRun id) → (Tx.add ({} : AlertTx) s.rows
      { result := (activeRuns (s.view {})).length
        writes := (activeRuns (s.view {})).map fun id =>
          ⟨.backfillRun id, ((s.view {}).rows (.backfillRun id)).map (·.cancel now)⟩ }).chg k =
        none := by
    intro k hk
    refine Tx.chg_add_of_notMem fun hmem => ?_
    obtain ⟨w, hw, rfl⟩ := List.mem_map.mp hmem
    obtain ⟨id, -, rfl⟩ := List.mem_map.mp hw
    exact hk id rfl
  refine ⟨fun id => ?_, fun id o n h => ?_, fun _ userId k hk hheld => ?_⟩
  · rcases hchg : (Tx.add ({} : AlertTx) s.rows _).chg (.backfillRun id) with _ | ⟨o, n⟩
    · rw [Tx.row_of_chg hchg]
      simpa [runEntries] using RunMove.idle (s.rows (.backfillRun id))
    · obtain ⟨row, hrow, hact, rfl⟩ := chg_cancel hchg
      rw [hrow, Tx.row, hchg]
      simpa [runEntries] using RunMove.cancelled row now hact
  · rw [hother _ (by simp)] at h
    cases h
  · rcases hk with rfl | ⟨cycle, rfl⟩ <;> exact (hheld (hother _ (by simp))).elim

/-- An observation leaves the runs and the users. -/
theorem Applied.outside {D : Discipline AlertRow AlertEntry Unit} {input : LowBalanceObservationInput}
    {s₁ s₂ s₃ s₄ : AlertStore} {base : Option LowBalanceAlertState} {st st' : LowBalanceAlertState}
    {t'' : AlertTx} {notified : Option ℕ} {o : Observation}
    (ha : Applied D p input t s s₁ s₂ s₃ s₄ s' base st st' t' t'' notified o) (hw : ¬ worker p)
    (hruns : ∀ id, t.chg (.backfillRun id) = none) (hentries : t.entries = [])
    (husers : ∀ id o n, t.chg (.user id) = some (o, n) → n ≠ none ∧ o ≠ none) (s₀ : AlertStore) :
    BackfillTx worker p s₀ t'' := by
  have hchg : ∀ k, ¬ IsAlertOf input.userId k → t''.chg k = t.chg k := by
    rw [ha.tx]
    exact ha.moves.holding.others
  refine .of_outside hw (fun id => ?_) (fun id => ?_) fun id o n h => ?_
  · rw [hchg _ (by simp [IsAlertOf]), hruns id]
  · rw [ha.tx, Tx.entries_append, ha.moves.holding.entries, hentries]
    rfl
  · rw [hchg _ (by simp [IsAlertOf])] at h
    obtain ⟨hn, ho⟩ := husers id o n h
    exact ⟨hn, fun he => (ho he).elim⟩

theorem accepts_mutate (hw : ¬ worker p) (config : AlertChoice → Option FrozenConfig) (userId : ℕ)
    (delta : ℤ) : Accepts (backfill worker) p (walletMutation config userId delta) := by
  have husers : ∀ (s : AlertStore) u, s.rows (.user userId) = some u → ∀ id o n,
      (mutationTx s.rows userId delta u).chg (.user id) = some (o, n) → n ≠ none ∧ o ≠ none := by
    intro s u hu id o n h
    rcases eq_or_ne id userId with rfl | hne
    · rw [mutationTx, Tx.chg_write_self, Tx.base_of_chg rfl, hu] at h
      cases h
      exact ⟨nofun, nofun⟩
    · rw [mutationTx, Tx.chg_write_ne _ (by simpa using hne)] at h
      cases h
  have hruns : ∀ (s : AlertStore) u id,
      (mutationTx s.rows userId delta u).chg (.backfillRun id) = none :=
    fun s u id => Tx.chg_write_ne _ (by simp)
  refine accepts_walletMutation (fun c s u _ hu _ s' r _ _ _ => ?_) ?_
  · refine .of_outside hw (hruns s u) (fun id => rfl) fun id o n h => ?_
    obtain ⟨hn, ho⟩ := husers s u hu id o n h
    exact ⟨hn, fun he => (ho he).elim⟩
  · intro c cfg s₀ u s s₁ s₂ s₃ s₄ s' base st st' t' t'' notified o _ hu _ _ ha s'' r _ _ _
    exact ha.outside hw (hruns s₀ u) rfl (husers s₀ u hu) s''

theorem accepts_sweep (hw : ¬ worker p) (config : FrozenConfig) (userId : ℕ) :
    Accepts (backfill worker) p (processOne config userId) := by
  refine accepts_processOne (fun s _ s' r _ _ _ => (backfill worker).commits_empty (r := r) trivial) ?_
  intro s₀ live s₁ s₂ s₃ s₄ s' base st st' t' t'' notified o _ _ ha s'' r _ _ _
  exact ha.outside hw (fun _ => rfl) rfl (fun _ _ _ h => by cases h) s''

theorem accepts_register (hw : ¬ worker p) (id : ℕ) (row : User) :
    Accepts (backfill worker) p (createUser id row) := by
  refine .sql fun r s _ => ?_
  simp only [Store.view, Tx.row_empty]
  cases s.rows (.user id) with
  | some _ => exact (backfill worker).commits_empty (r := r) trivial
  | none =>
    refine .of_outside hw (fun _ => ?_) (fun _ => rfl) fun id' o n h => ?_
    · exact Tx.chg_add_of_notMem (by simp)
    · obtain ⟨-, hmem⟩ := Tx.chg_add_empty h
      simp only [List.mem_singleton, Sigma.mk.injEq, AlertKey.user.injEq] at hmem
      obtain ⟨rfl, hn⟩ := hmem
      cases hn
      exact ⟨(by rintro ⟨⟩), fun _ => .head _⟩

theorem accepts_edit (hw : ¬ worker p) (id : ℕ) (status : UserStatus) (lowBalance payment : Bool) :
    Accepts (backfill worker) p (editUser id status lowBalance payment) := by
  refine .bind (.update fun r s n _ hn => ?_) fun _ => .pure _
  obtain ⟨u, hu, -, rfl⟩ := onRow_eq_some.mp hn
  refine .of_outside hw (fun _ => Tx.chg_write_ne _ (by simp)) (fun _ => rfl) fun id' o n h => ?_
  rcases eq_or_ne id' id with rfl | hne
  · rw [Tx.chg_write_self, Tx.base_of_chg rfl, hu] at h
    cases h
    exact ⟨nofun, nofun⟩
  · rw [Tx.chg_write_ne _ (by simpa using hne)] at h
    cases h

/-! ### The system -/

/-- Before any backfill: no run and no entry about one, and the users are listed. -/
structure Initial (s : AlertStore) : Prop where
  runs : ∀ id, s.rows (.backfillRun id) = none
  entries : ∀ id, runEntries id s.journal = []
  users : ∀ id, s.rows (.user id) ≠ none → .user id ∈ s.journal

theorem Initial.unborn (h : Initial s) (p : ℕ) : Unborn p s where
  token id row hrow := by rw [h.runs id] at hrow; cases hrow
  page id := by
    rw [pageOf, foldl_runEntries, h.entries id]
    rfl

/-- Whether process `p` is a tick. -/
def isTick (procs : ℕ → BackfillProcess) (p : ℕ) : Prop := procs p = .tick

theorem wp_program (procs : ℕ → BackfillProcess) (h : Initial s) (p : ℕ) :
    wp (backfill (isTick procs)) p ((procs p).program p) (fun _ _ _ => True) {} s := by
  have accepted : ∀ {α : Type} {m : Alerts α}, Accepts (backfill (isTick procs)) p m →
      wp (backfill (isTick procs)) p (do let _ ← m; return ()) (fun _ _ _ => True) {} s :=
    fun hm => (wp_seq _ _).mpr (wp_mono _ (fun _ _ _ _ => trivial) (hm.run [] s trivial))
  cases hp : procs p with
  | tick =>
    exact (wp_seq _ _).mpr (wp_mono _ (fun _ _ _ _ => trivial)
      (wp_runLowBalanceBackfillTick (h.unborn p)))
  | start config => exact accepted (accepts_startLowBalanceBackfill config)
  | cancel => exact accepted accepts_cancelLowBalanceBackfill
  | mutate config userId delta =>
    exact accepted (accepts_mutate (by simp [isTick, hp]) config userId delta)
  | sweep config userId => exact accepted (accepts_sweep (by simp [isTick, hp]) config userId)
  | register id row => exact accepted (accepts_register (by simp [isTick, hp]) id row)
  | edit id status lowBalance payment =>
    exact wp_mono _ (fun _ _ _ _ => trivial)
      ((accepts_edit (by simp [isTick, hp]) id status lowBalance payment).run [] s trivial)

theorem backfill_good (procs : ℕ → BackfillProcess) (h : Initial s) :
    Good (backfill (isTick procs)) (Config.start s fun p => (procs p).program p) :=
  good_start trivial (wp_program procs h)

end ZedBot.LowBalance
