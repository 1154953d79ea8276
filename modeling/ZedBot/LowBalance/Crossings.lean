import ZedBot.LowBalance.CrossingRules

/-! The low-balance alerts over whole runs: wallet mutations, sweeps and forced units in any order make
    a history of readings of each user's machine. -/

namespace ZedBot.LowBalance
open ReadCommitted

variable {b : Hysteresis.Band ℤ} {p q : ℕ} {r : List AlertStore} {s s' : AlertStore}
  {t t' t'' : AlertTx} {userId : ℕ}

/-! ### Commits -/

/-- A commit that leaves the alerts and the balances. -/
theorem CrossingTx.quiet (hheld : t.Held s.rows) (hentries : ∀ id, observationsOf id t.entries = [])
    (halerts : ∀ id k, IsAlertOf id k → t.chg k = none)
    (husers : ∀ id u n, t.chg (.user id) = some (some u, n) →
      ∃ u', n = some u' ∧ u'.balanceToman = u.balanceToman) : CrossingTx b p s t := by
  refine ⟨fun id => ?_, fun id u hu => ?_⟩
  · rw [hentries id]
    exact .idle (Tx.row_of_chg (halerts id _ isAlertOf_state)) fun cycle =>
      congrArg Option.isSome (Tx.row_of_chg (halerts id _ (isAlertOf_notification cycle)))
  · rcases s.commit_rows p hheld (.user id) with ⟨he, -⟩ | hchg
    · exact ⟨u, he.trans hu, .inl rfl⟩
    · rw [hu] at hchg
      obtain ⟨u', hn, hbalance⟩ := husers id u _ hchg
      exact ⟨u', hn, .inl hbalance⟩

/-- A commit with one observation, whose user alone may have a new balance. -/
theorem CrossingTx.of_move {o : Observation} (hheld : t.Held s.rows)
    (hmove : AlertMove b userId s (s.commit p t) [o])
    (hentries : ∀ id, observationsOf id t.entries = if id = userId then [o] else [])
    (halerts : ∀ id k, id ≠ userId → IsAlertOf id k → t.chg k = none)
    (husers : ∀ id u n, t.chg (.user id) = some (some u, n) →
      ∃ u', n = some u' ∧ (u'.balanceToman = u.balanceToman ∨ id = userId)) :
    CrossingTx b p s t := by
  refine ⟨fun id => ?_, fun id u hu => ?_⟩
  · rw [hentries id]
    rcases eq_or_ne id userId with rfl | hne
    · rw [if_pos rfl]
      exact hmove
    · rw [if_neg hne]
      exact .idle (Tx.row_of_chg (halerts id _ hne isAlertOf_state)) fun cycle =>
        congrArg Option.isSome (Tx.row_of_chg (halerts id _ hne (isAlertOf_notification cycle)))
  · rcases s.commit_rows p hheld (.user id) with ⟨he, -⟩ | hchg
    · exact ⟨u, he.trans hu, .inl rfl⟩
    · rw [hu] at hchg
      obtain ⟨u', hn, hbalance⟩ := husers id u _ hchg
      refine ⟨u', hn, hbalance.imp_right ?_⟩
      rintro rfl
      cases hmove with
      | observed _ _ _ hread =>
        obtain ⟨st, hst, -⟩ := exists_row_of_machine hread
        simp [hst]

variable {input : LowBalanceObservationInput} {s₁ s₂ s₃ s₄ : AlertStore}
  {base : Option LowBalanceAlertState} {st st' : LowBalanceAlertState} {notified : Option ℕ}
  {o : Observation}

/-- What an observation lists. -/
theorem Applied.observationsOf {D : Discipline AlertRow AlertEntry Unit}
    (h : Applied D p input t s s₁ s₂ s₃ s₄ s' base st st' t' t'' notified o) (ht : t.entries = [])
    (id : ℕ) : observationsOf id t''.entries = if id = input.userId then [o] else [] := by
  rw [h.tx, Tx.entries_append, h.moves.holding.entries, ht]
  rcases eq_or_ne id input.userId with rfl | hne
  · simp [LowBalance.observationsOf, h.input.1]
  · simp [LowBalance.observationsOf, h.input.1, hne, hne.symm]

/-! ### The programs -/

/-- The marks of a configuration. -/
def FrozenConfig.band (config : FrozenConfig)
    (h : config.thresholdToman ≤ config.rearmBoundaryToman) : Hysteresis.Band ℤ where
  low := config.thresholdToman
  high := config.rearmBoundaryToman
  low_le_high := h

variable {config : FrozenConfig} {hband : config.thresholdToman ≤ config.rearmBoundaryToman}

theorem accepts_mutation (userId : ℕ) (delta : ℤ) :
    Accepts (crossings (config.band hband)) p
      (walletMutation (fun _ => some config) userId delta) := by
  refine accepts_walletMutation (fun _ _ _ hc => by cases hc) ?_
  intro c cfg s₀ u s s₁ s₂ s₃ s₄ s' base st st' t' t'' notified o hc hu hi hl₀ ha s₅ r hl _ hheld
  cases hc
  have hfree : ∀ k, k ≠ .user userId → (mutationTx s₀.rows userId delta u).chg k = none :=
    fun k hk => Tx.chg_write_ne _ hk
  have halerts : ∀ id k, IsAlertOf id k → (mutationTx s₀.rows userId delta u).chg k = none := by
    rintro id k (rfl | ⟨cycle, rfl⟩) <;> exact hfree _ (by simp)
  refine .of_move hheld (ha.move (hl₀.inv hi) (hl.mono fun _ hk => ha.holds (halerts userId) hk) hheld
    (fun _ _ => rfl) rfl rfl (fun hf => by cases hf) (fun hb => by cases hb)
    (fun hf => by cases hf)) (ha.observationsOf rfl) (fun id k hne hk => ?_) fun id v n hchg => ?_
  · rw [ha.chg (not_isAlertOf_of_ne hne hk)]
    exact halerts id k hk
  · rw [ha.chg (by simp [IsAlertOf])] at hchg
    rcases eq_or_ne id userId with rfl | hne
    · rw [mutationTx, Tx.chg_write_self] at hchg
      obtain ⟨-, rfl⟩ := Prod.mk.inj (Option.some.inj hchg)
      exact ⟨_, rfl, .inr rfl⟩
    · rw [hfree _ (by simpa using hne)] at hchg
      cases hchg

/-- The balance that an observation without a witnessed edge sees first is the one it was begun with:
    no balance moves before the state row is there. -/
theorem Applied.first_balance {u : User}
    (h : Applied (crossings b) p input t s s₁ s₂ s₃ s₄ s' base st st' t' t'' notified o)
    (hi : NotificationsOpened s) (hu : s.rows (.user input.userId) = some u)
    (ht : t.chg (.user input.userId) = none)
    (hbefore : input.balanceBeforeToman = none) (hcreated : o.created = true) :
    o.balanceToman = u.balanceToman := by
  have hseeded := h.seeded
  rw [hcreated] at hseeded
  have hbase : base = none := by cases hseeded; rfl
  have hnone : s₂.rows (.alertState input.userId) = none := by
    rw [h.reads.rows_eq (.inr rfl), h.base_eq, hbase]
  have hkept := balanceKept_later hu (h.waits.trans
    (h.reads.mono fun _ hk => .inl hk)) hi hnone
  rw [h.balance, hbefore, Tx.row_of_chg ht, hkept]
  rfl

theorem accepts_sweepUnit (userId : ℕ) :
    Accepts (crossings (config.band hband)) p (processOne config userId) := by
  refine accepts_processOne
    (fun s _ s' r _ hi' _ => (crossings _).commits_empty (r := r) hi') ?_
  intro s₀ live s₁ s₂ s₃ s₄ s' base st st' t' t'' notified o hlive hi ha s₅ r hl _ hheld
  refine .of_move hheld (ha.move hi (hl.mono fun _ hk => ha.holds (fun _ _ => rfl) hk) hheld
    (fun _ _ => rfl) rfl rfl (fun hf => by cases hf) (fun _ => ha.first_balance hi hlive rfl rfl)
    (fun hf => by cases hf)) (ha.observationsOf rfl) (fun id k hne hk => ?_) fun id v n hchg => ?_
  · rw [ha.chg (not_isAlertOf_of_ne hne hk)]
  · rw [ha.chg (by simp [IsAlertOf])] at hchg
    cases hchg

/-! A unit of the backfill: its run is locked, and its progress commits with the observation. -/

/-- Changes of runs and entries of units are nothing to the alerts. -/
theorem quiet_runs (hheld : t.Held s.rows) (hentries : ∀ id, observationsOf id t.entries = [])
    (hchg : ∀ k, (∀ id, k ≠ .backfillRun id) → t.chg k = none) : CrossingTx b p s t := by
  refine .quiet hheld hentries (fun id k hk => hchg k ?_) fun id u n h => ?_
  · rcases hk with rfl | ⟨cycle, rfl⟩ <;> simp
  · rw [hchg _ (by simp)] at h
    cases h

theorem accepts_recordFailure (runId ownerToken userId : ℕ) (cond : LowBalanceBackfillRun → Bool) :
    Accepts (crossings b) p (recordUnit runId ownerToken userId .failed cond) := by
  refine .sql fun r s hi => ?_
  cases hrow : onRow cond (·.record userId .failed)
      ((s.view ({} : AlertTx)).rows (.backfillRun runId)) with
  | none => exact (crossings b).commits_empty (r := r) hi
  | some row =>
    refine quiet_runs ((Tx.Held.empty _).add _) (fun id => rfl) fun k hk => ?_
    exact Tx.chg_add_of_notMem (by simpa using hk runId)

theorem wp_progressOfUnit {runId ownerToken : ℕ} {result : UnitResult}
    {D : Discipline AlertRow AlertEntry Unit} {Q : Unit → AlertLocal → AlertStore → Prop}
    (hQ : ∀ s' t', D.Later p t.Holds s s' → (∀ k, (∀ id, k ≠ .backfillRun id) → t'.chg k = t.chg k) →
      (∀ id, observationsOf id t'.entries = observationsOf id t.entries) →
      (∀ k, t.Holds k → t'.Holds k) → Q () ⟨some t', r⟩ s') :
    wp D p (recordProgress runId ownerToken userId result) Q ⟨some t, r⟩ s := by
  refine (wp_seq _ _).mpr (wp_sql_tx fun s' hl _ _ => ?_)
  simp only [Store.view]
  cases hrow : onRow (fun _ => true) (·.record userId result)
      (t.row s'.rows (.backfillRun runId)) with
  | none => simpa [Tx.add, wp_pure] using hQ s' t hl (fun _ _ => rfl) (fun _ => rfl) fun _ h => h
  | some row =>
    have h := hQ s' ((t.write s'.rows ⟨.backfillRun runId, row⟩).append
      [.unit runId ownerToken userId result]) hl (fun k hk => Tx.chg_write_ne _ (hk runId))
      (fun id => ?_) fun k hk => ?_
    · simpa [Tx.add, Tx.append, wp_pure] using h
    · rw [Tx.entries_append, Tx.entries_write, observationsOf_append]
      simp [observationsOf]
    · rw [Tx.Holds, Tx.chg_append]
      exact Tx.holds_write.mpr (.inr hk)

theorem accepts_unitTransaction (runId ownerToken userId : ℕ) :
    Accepts (crossings (config.band hband)) p
      (unitTransaction runId ownerToken userId config) := by
  refine EndsCommittable.accepts fun r s _ => (wp_seq _ _).mpr (wp_ask _ fun c => ?_)
  split
  · trivial
  refine (wp_seq _ _).mpr (wp_selectForUpdate_tx fun s₁ _ hi₁ _ => ⟨fun hnone => ?_, fun hsome => ?_⟩)
  · refine (wp_seq _ _).mpr (wp_ask _ fun c => ?_)
    rw [Option.isSome_eq_false_iff, Option.isNone_iff_eq_none] at hnone
    rw [hnone]
    exact ⟨_, rfl, fun s' r' _ hi' _ => (crossings _).commits_empty (r := r') hi'⟩
  refine (wp_seq _ _).mpr (wp_ask _ fun c => ?_)
  obtain ⟨row, hrow⟩ := Option.isSome_iff_exists.mp hsome
  rw [hrow]
  -- the run is locked: nothing else has changed
  have hlock : ∀ k, (∀ id, k ≠ .backfillRun id) →
      (Tx.write ({} : AlertTx) s₁.rows ⟨.backfillRun runId, some row⟩).chg k = none :=
    fun k hk => Tx.chg_write_ne _ (hk runId)
  split
  · exact ⟨_, rfl, fun s' r' _ _ hheld => quiet_runs hheld (fun _ => rfl) hlock⟩
  refine (wp_seq _ _).mpr (wp_select _ fun s₂ _ hi₂ => ?_)
  dsimp only [Local.pending, Local.read, Option.getD_some, Store.view]
  rw [Tx.row_of_chg (hlock (.user userId) (by simp))]
  split
  · refine (wp_seq _ _).mpr (wp_progressOfUnit fun s₃ t₃ _ hchg hobs _ => ⟨t₃, rfl, ?_⟩)
    intro s' r' _ _ hheld
    exact quiet_runs hheld (fun id => (hobs id).trans rfl) fun k hk => (hchg k hk).trans (hlock k hk)
  rename_i user huser
  obtain ⟨hlive, hreceives⟩ := Option.filter_eq_some_iff.mp huser
  have hfree : ∀ k, IsAlertOf userId k →
      (Tx.write ({} : AlertTx) s₁.rows ⟨.backfillRun runId, some row⟩).chg k = none := by
    rintro k (rfl | ⟨cycle, rfl⟩) <;> exact hlock _ (by simp)
  refine (wp_seq _ _).mpr (wp_applyLowBalanceObservation hfree (fun _ _ _ _ => trivial) ?_)
  intro s₁' s₂' s₃ s₄ s' base st st' t' t'' notified o outcome r' ha _ _ _
  refine (wp_seq _ _).mpr (wp_progressOfUnit fun s₅ t₅ hl₅ hchg hobs hholds => ⟨t₅, rfl, ?_⟩)
  intro s₆ r'' hl₆ _ hheld
  have hlow : user.balanceToman ≤ config.thresholdToman := by
    simp only [receivesUnit, isCandidate, decide_eq_true_eq] at hreceives
    exact hreceives.1.2
  have hvalue : o.created = true → o.balanceToman = user.balanceToman :=
    ha.first_balance hi₂ hlive (hlock _ (by simp)) rfl
  have hl : (crossings (config.band hband)).Later p
      (LocksOf (Tx.write {} s₁.rows ⟨.backfillRun runId, some row⟩) userId) s' s₆ :=
    (hl₅.mono fun _ hk => ha.holds hfree hk).trans (hl₆.mono fun k hk => hholds k (ha.holds hfree hk))
  refine .of_move hheld (ha.move hi₂ hl hheld (fun k hk => hchg k ?_) rfl rfl (fun _ _ _ => rfl)
    (fun _ => hvalue) (fun _ => ⟨rfl, fun hc => (hvalue hc).trans_le hlow⟩))
    (fun id => (hobs id).trans (ha.observationsOf rfl id)) (fun id k hne hk => ?_) fun id v n h => ?_
  · rcases hk with rfl | ⟨cycle, rfl⟩ <;> simp
  · have hkey : ∀ id', k ≠ .backfillRun id' := by rcases hk with rfl | ⟨cycle, rfl⟩ <;> simp
    rw [hchg k hkey, ha.chg (not_isAlertOf_of_ne hne hk), hlock k hkey]
  · rw [hchg _ (by simp), ha.chg (by simp [IsAlertOf]), hlock _ (by simp)] at h
    cases h

theorem accepts_processOneUser (runId ownerToken userId : ℕ) :
    Accepts (crossings (config.band hband)) p
      (processOneUser runId ownerToken userId config) := by
  refine .bind (accepts_unitTransaction runId ownerToken userId) fun unit => ?_
  cases unit with
  | ok outcome => exact .pure _
  | error e =>
    refine .bind (.ask _) fun throws => ?_
    split
    · exact .pure _
    · exact .bind (accepts_recordFailure runId ownerToken userId _) fun _ => .pure _

theorem accepts_createUser (id : ℕ) (row : User) :
    Accepts (crossings b) p (createUser id row) := by
  refine .sql fun r s hi => ?_
  cases hrow : (s.view ({} : AlertTx)).rows (.user id) with
  | some u => exact (crossings b).commits_empty (r := r) hi
  | none =>
    have hrow' : s.rows (.user id) = none := hrow
    refine .quiet ((Tx.Held.empty _).add _) (fun _ => rfl) (fun id' k hk => ?_) fun id' u n h => ?_
    · refine Tx.chg_add_of_notMem ?_
      rcases hk with rfl | ⟨cycle, rfl⟩ <;> simp
    · obtain ⟨ho, hmem⟩ := Tx.chg_add_empty h
      simp only [List.mem_singleton, Sigma.mk.injEq, AlertKey.user.injEq] at hmem
      obtain ⟨rfl, -⟩ := hmem
      rw [hrow'] at ho
      cases ho

theorem accepts_editUser (id : ℕ) (status : UserStatus) (lowBalance payment : Bool) :
    Accepts (crossings b) p (editUser id status lowBalance payment) := by
  refine .bind (.update fun r s n _ hn => ?_) fun _ => .pure _
  obtain ⟨u, hu, -, rfl⟩ := onRow_eq_some.mp hn
  refine .quiet ((Tx.Held.empty _).write _) (fun _ => rfl) (fun id' k hk => ?_) fun id' v n h => ?_
  · refine Tx.chg_write_ne _ ?_
    rcases hk with rfl | ⟨cycle, rfl⟩ <;> simp
  · rcases eq_or_ne id' id with rfl | hne
    · rw [Tx.chg_write_self, Tx.base_of_chg rfl, hu] at h
      cases h
      exact ⟨_, rfl, rfl⟩
    · rw [Tx.chg_write_ne _ (by simpa using hne)] at h
      cases h

/-! ### The system -/

/-- What makes observations or changes a user. -/
inductive ObservingProcess
  | mutate (userId : ℕ) (delta : ℤ)
  | sweep (userId : ℕ)
  | unit (runId ownerToken userId : ℕ)
  | register (id : ℕ) (row : User)
  | edit (id : ℕ) (status : UserStatus) (lowBalance payment : Bool)

def ObservingProcess.program (config : FrozenConfig) : ObservingProcess → Alerts Unit
  | .mutate userId delta => do
    let _ ← walletMutation (fun _ => some config) userId delta
    return ()
  | .sweep userId => do let _ ← processOne config userId; return ()
  | .unit runId ownerToken userId => do
    let _ ← processOneUser runId ownerToken userId config
    return ()
  | .register id row => do let _ ← createUser id row; return ()
  | .edit id status lowBalance payment => editUser id status lowBalance payment

theorem accepts_observingProcess (process : ObservingProcess) :
    Accepts (crossings (config.band hband)) p (process.program config) := by
  cases process with
  | mutate userId delta => exact .bind (accepts_mutation userId delta) fun _ => .pure _
  | sweep userId => exact .bind (accepts_sweepUnit userId) fun _ => .pure _
  | unit runId ownerToken userId =>
    exact .bind (accepts_processOneUser runId ownerToken userId) fun _ => .pure _
  | register id row => exact .bind (accepts_createUser id row) fun _ => .pure _
  | edit id status lowBalance payment => exact accepts_editUser id status lowBalance payment

/-- Before any alert. -/
structure Unalerted (s : AlertStore) : Prop where
  states : ∀ userId, s.rows (.alertState userId) = none
  notifications : ∀ userId cycle, s.rows (.notification userId cycle) = none
  observations : ∀ userId, observationsOf userId s.journal = []

theorem crossings_good {s₀ : AlertStore} (h₀ : Unalerted s₀) (procs : ℕ → ObservingProcess) :
    Good (crossings (config.band hband)) (Config.start s₀ fun p => (procs p).program config) := by
  have hi : NotificationsOpened s₀ := by
    intro userId cycle hn
    rw [isNotified, h₀.notifications userId cycle] at hn
    cases hn
  exact good_start hi fun p => wp_mono _ (fun _ _ _ _ => trivial)
    ((accepts_observingProcess (procs p)).run [] s₀ hi)

/-! ### Histories -/

/-- The observations of a user are a history of readings of their machine. -/
structure Faithful (b : Hysteresis.Band ℤ) (userId : ℕ) (s : AlertStore) : Prop where
  history : Hysteresis.History b ((observationsOf userId s.journal).map (·.event))
    (machineOf userId s)
  notified : ∀ o ∈ observationsOf userId s.journal, o.notified = o.event.notified
  forced : ∀ o ∈ observationsOf userId s.journal, o.forceAlert = true → o.eligible = true
  first : ∀ o, (observationsOf userId s.journal).head? = some o → o.forceAlert = true →
    o.balanceToman ≤ b.low

theorem Unalerted.faithful {s₀ : AlertStore} (h₀ : Unalerted s₀) (userId : ℕ) :
    Faithful b userId s₀ := by
  refine ⟨?_, ?_, ?_, ?_⟩ <;> rw [h₀.observations userId]
  · rw [machineOf_eq_none (h₀.states userId)]
    exact .nil
  · exact fun o ho => (nomatch ho)
  · exact fun o ho => (nomatch ho)
  · exact fun o ho => (nomatch ho)

/-- A user without a row has been observed never. -/
theorem Faithful.none_of_nil (h : Faithful b userId s)
    (hnil : observationsOf userId s.journal = []) : machineOf userId s = none := by
  have hh := h.history
  rw [hnil] at hh
  generalize machineOf userId s = m at hh
  generalize hes : ([] : List Observation).map Observation.event = es at hh
  cases hh with
  | nil => rfl
  | snoc => simp at hes

theorem Faithful.step (h : Faithful b userId s) (hst : (crossings b).Step p r s s') :
    Faithful b userId s' := by
  cases hst with
  | act w _ => exact h
  | commit t hh ht =>
    have hmove := ht.alerts userId
    have hj : observationsOf userId (s.commit p t).journal =
        observationsOf userId s.journal ++ observationsOf userId t.entries := by
      rw [Store.journal_commit, observationsOf_append]
    generalize hes : observationsOf userId t.entries = es at hmove hj
    cases hmove with
    | idle hstate hnotified =>
      rw [List.append_nil] at hj
      have hmachine : machineOf userId (s.commit p t) = machineOf userId s := by
        simp only [machineOf, hstate, hnotified]
      refine ⟨?_, ?_, ?_, ?_⟩ <;> rw [hj]
      · rw [hmachine]
        exact h.history
      · exact h.notified
      · exact h.forced
      · exact h.first
    | observed o hevent hnotified hread hforced =>
      refine ⟨?_, ?_, ?_, ?_⟩ <;> rw [hj]
      · rw [hread, List.map_append, List.map_singleton, hevent]
        exact .snoc o.reading h.history
      · intro o' ho'
        rcases List.mem_append.mp ho' with ho' | ho'
        · exact h.notified o' ho'
        · rw [List.mem_singleton.mp ho']
          exact hnotified
      · intro o' ho' hf
        rcases List.mem_append.mp ho' with ho' | ho'
        · exact h.forced o' ho' hf
        · rw [List.mem_singleton.mp ho'] at hf ⊢
          exact (hforced hf).1
      · intro o' ho' hf
        cases hnil : observationsOf userId s.journal with
        | nil =>
          rw [hnil] at ho'
          cases ho'
          exact (hforced hf).2 (h.none_of_nil hnil)
        | cons x xs =>
          rw [hnil] at ho'
          exact h.first o' (by rw [hnil]; exact ho') hf

/-- How the alerts of a user have gone, as far as the observations tell. -/
structure AlertHistory (config : FrozenConfig) (userId : ℕ) (s : AlertStore) : Prop where
  /-- Cycles were opened one by one, up to the cycle of the row. -/
  openings : (observationsOf userId s.journal).filterMap (·.opened) =
    List.range' 1 (((s.rows (.alertState userId)).map (·.alertCycle)).getD 0)
  /-- A cycle has its notification exactly if it was opened while the user was eligible. -/
  notifications : ∀ cycle, (s.rows (.notification userId cycle)).isSome = true ↔
    ∃ o ∈ observationsOf userId s.journal, o.opened = some cycle ∧ o.eligible = true
  /-- An observation wrote a notification exactly if it opened a cycle of an eligible user. -/
  notified : ∀ o ∈ observationsOf userId s.journal, o.notified = (o.opened.isSome && o.eligible)
  /-- Between two notifications some observation saw a balance above the re-arm boundary. -/
  rearmed : ∀ l₁ o₁ l₂ o₂ l₃, observationsOf userId s.journal = l₁ ++ o₁ :: (l₂ ++ o₂ :: l₃) →
    o₁.notified = true → o₂.notified = true →
      ∃ o ∈ l₂, config.rearmBoundaryToman < o.balanceToman
  /-- The last observation decides the state, where it is outside the band. -/
  settled : ∀ o, (observationsOf userId s.journal).getLast? = some o →
    ∃ st, s.rows (.alertState userId) = some st ∧
      (o.balanceToman ≤ config.thresholdToman → st.state = .ALERTED) ∧
      (config.rearmBoundaryToman < o.balanceToman → st.state = .ARMED)
  /-- A first observation of an eligible user sends a message exactly if it saw the balance cross the
      threshold, or is a forced backfill. -/
  first : ∀ o, (observationsOf userId s.journal).head? = some o →
    (o.notified = true ↔ o.eligible = true ∧
      ((∃ before, o.balanceBeforeToman = some before ∧ config.thresholdToman < before ∧
        o.balanceToman ≤ config.thresholdToman) ∨ o.forceAlert = true))

theorem Faithful.alertHistory (h : Faithful (config.band hband) userId s)
    (hi : NotificationsOpened s) : AlertHistory config userId s := by
  have hopened : ((observationsOf userId s.journal).map (·.event)).filterMap (·.opened) =
      (observationsOf userId s.journal).filterMap (·.opened) := by
    rw [List.filterMap_map]
    rfl
  refine ⟨?_, fun cycle => ?_, ?_, ?_, ?_, ?_⟩
  · rw [← hopened, h.history.openings, Hysteresis.cycles, machineOf, Option.map_map]
    rfl
  · have hmessage : Hysteresis.messages (machineOf userId s) cycle = isNotified userId cycle s := by
      cases hrow : s.rows (.alertState userId) with
      | none =>
        rw [machineOf_eq_none hrow]
        by_contra hne
        obtain ⟨st, hst, -⟩ := hi userId cycle (by simpa [Hysteresis.messages] using hne)
        rw [hrow] at hst
        cases hst
      | some st =>
        rw [machineOf_of_row hrow]
        rfl
    change isNotified userId cycle s = true ↔ _
    rw [← hmessage, h.history.message_iff]
    simp only [List.mem_map, exists_exists_and_eq_and]
    rfl
  · exact fun o ho => h.notified o ho
  · intro l₁ o₁ l₂ o₂ l₃ hl h₁ h₂
    have hes : (observationsOf userId s.journal).map (·.event) =
        l₁.map (·.event) ++ o₁.event :: (l₂.map (·.event) ++ o₂.event :: l₃.map (·.event)) := by
      rw [hl]
      simp
    have hn₁ : o₁.event.notified = true := by rw [← h.notified o₁ (by rw [hl]; simp), h₁]
    have hn₂ : o₂.event.notified = true := by rw [← h.notified o₂ (by rw [hl]; simp), h₂]
    obtain ⟨e, he, hhigh⟩ := h.history.rearmed_between hes hn₁ hn₂
    obtain ⟨o, ho, rfl⟩ := List.mem_map.mp he
    exact ⟨o, ho, hhigh⟩
  · intro o ho
    obtain ⟨m, hm, hlow, hhigh⟩ := h.history.settled (e := o.event) (by simp [ho])
    obtain ⟨st, hst, hside, -⟩ := exists_row_of_machine hm
    rw [hside] at hlow hhigh
    exact ⟨st, hst, fun hle => side_eq_alerted.mp (hlow hle), fun hlt => side_eq_armed.mp (hhigh hlt)⟩
  · intro o ho
    have hmem : o ∈ observationsOf userId s.journal := List.mem_of_head? ho
    rw [h.notified o hmem, h.history.first (e := o.event) (by simp [ho])]
    constructor
    · rintro ⟨he, hle, ⟨before, hb, hlt⟩ | hf⟩
      · exact ⟨he, .inl ⟨before, hb, hlt, hle⟩⟩
      · exact ⟨he, .inr hf⟩
    · rintro ⟨he, ⟨before, hb, hlt, hle⟩ | hf⟩
      · exact ⟨he, hle, .inl ⟨before, hb, hlt⟩⟩
      · exact ⟨he, h.first o ho hf, .inr hf⟩

/-- A step leaves the cycle of a user, or opens the next one with an observation. -/
def CycleStep (userId : ℕ) (s s' : AlertStore) : Prop :=
  ∀ st, s.rows (.alertState userId) = some st → ∃ st', s'.rows (.alertState userId) = some st' ∧
    (st'.alertCycle = st.alertCycle ∨ st'.alertCycle = st.alertCycle + 1 ∧ ∃ o,
      observationsOf userId s'.journal = observationsOf userId s.journal ++ [o] ∧
      o.opened = some st'.alertCycle)

theorem CycleStep.refl (s : AlertStore) : CycleStep userId s s := fun st hst => ⟨st, hst, .inl rfl⟩

theorem cycleStep_of_step (hst : (crossings b).Step p r s s') : CycleStep userId s s' := by
  cases hst with
  | act w _ => exact .refl s
  | commit t hh ht =>
    intro st hrow
    have hmove := ht.alerts userId
    have hj : observationsOf userId (s.commit p t).journal =
        observationsOf userId s.journal ++ observationsOf userId t.entries := by
      rw [Store.journal_commit, observationsOf_append]
    generalize observationsOf userId t.entries = es at hmove hj
    cases hmove with
    | idle hstate _ => exact ⟨st, hstate.trans hrow, .inl rfl⟩
    | observed o hevent _ hread =>
      obtain ⟨st', hst', -, hcycle, -⟩ := exists_row_of_machine hread
      have hfound : (b.found (machineOf userId s) o.reading).cycle = st.alertCycle := by
        rw [machineOf_of_row hrow]
        rfl
      have hopened : o.opened = (b.event (machineOf userId s) o.reading).opened :=
        congrArg Hysteresis.Event.opened hevent
      refine ⟨st', hst', ?_⟩
      rw [Hysteresis.Band.read] at hcycle
      rcases Bool.eq_false_or_eq_true
        ((b.found (machineOf userId s) o.reading).opens b o.reading) with ho | ho
      · rw [(Hysteresis.Machine.next_of_opens ho).2.1, hfound] at hcycle
        refine .inr ⟨hcycle.symm, o, hj, ?_⟩
        rw [hopened, Hysteresis.Band.event, ← hcycle, ← hfound]
        exact if_pos ho
      · rw [(Hysteresis.Machine.next_of_not_opens ho).1, hfound] at hcycle
        exact .inl hcycle.symm

/-- ALERTS: under a fixed configuration, whatever mutations, sweeps and forced units do in any order,
    every step leaves a user's cycle or opens the next one, and the observations of every user are a
    history of the machine. -/
theorem low_balance_alerts (config : FrozenConfig)
    (hband : config.thresholdToman ≤ config.rearmBoundaryToman) (procs : ℕ → ObservingProcess)
    {s₀ : AlertStore} (h₀ : Unalerted s₀) {c : AlertConfig}
    (hrun : Run anyStep (Config.start s₀ fun p => (procs p).program config) c) :
    Run (fun _ _ s s' => ∀ userId, CycleStep userId s s')
      (Config.start s₀ fun p => (procs p).program config) c ∧
    ∀ userId, AlertHistory config userId c.store := by
  have hg : Good (crossings (config.band hband)) _ := crossings_good h₀ procs
  refine ⟨(hrun.allowed hg).mono fun p r s s' h userId => ?_, fun userId => ?_⟩
  · rcases h.2 with rfl | ⟨-, hst⟩
    · exact .refl _
    · exact cycleStep_of_step hst
  · have hfaithful : Faithful (config.band hband) userId c.store := by
      refine hrun.keeps hg (fun _ hst _ h => h.step hst) (h₀.faithful userId)
    exact hfaithful.alertHistory (hrun.sound hg).1.inv

/-! A user spends from 200 to 50 under a threshold of 100. -/

def spendConfig : FrozenConfig where
  thresholdToman := 100
  rearmBoundaryToman := 150
  configVersion := 1

def spender (optedIn : Bool) : AlertStore where
  rows
    | .user id => if id = 1 then
        some { balanceToman := 200, lowBalanceNotificationsEnabled := optedIn } else none
    | .alertState _ => none
    | .notification _ _ => none
    | .backfillRun _ => none
  log := [⟨0, { entries := [.user 1] }⟩]
  world := ()

theorem spender_unalerted (optedIn : Bool) : Unalerted (spender optedIn) where
  states _ := rfl
  notifications _ _ := rfl
  observations _ := rfl

def spends (_ : ℕ) : ObservingProcess := .mutate 1 (-150)

theorem spend_runs (optedIn : Bool) :
    ((Config.start (spender optedIn) fun p => (spends p).program spendConfig).exec
      (List.replicate (if optedIn then 14 else 12) (.run 0 {}))).any (fun c =>
        (observationsOf 1 c.store.journal).head?.any fun o =>
          o.balanceBeforeToman = some 200 ∧ o.balanceToman = 50 ∧ o.notified = optedIn) = true := by
  cases optedIn <;> decide +kernel

theorem low_balance_alerts_spend : ∃ c : AlertConfig,
    AlertHistory spendConfig 1 c.store ∧
    ∃ o, (observationsOf 1 c.store.journal).head? = some o ∧ o.notified = true := by
  obtain ⟨c, hrun, hc⟩ := Run.of_exec_any (spend_runs true)
  obtain ⟨o, ho, hc⟩ := (Option.any_eq_true _ _).mp hc
  rw [decide_eq_true_eq] at hc
  exact ⟨c, (low_balance_alerts spendConfig (by decide) spends (spender_unalerted true) hrun).2 1,
    o, ho, hc.2.2⟩

/-- OPTED OUT: a first observation that crosses the threshold sends nothing to a user who opted out. -/
theorem silent_first_crossing : ∃ (c : AlertConfig) (o : Observation),
    Run anyStep (Config.start (spender false) fun p => (spends p).program spendConfig) c ∧
    (observationsOf 1 c.store.journal).head? = some o ∧
    (∃ before, o.balanceBeforeToman = some before ∧ spendConfig.thresholdToman < before ∧
      o.balanceToman ≤ spendConfig.thresholdToman) ∧ o.notified = false := by
  obtain ⟨c, hrun, hc⟩ := Run.of_exec_any (spend_runs false)
  obtain ⟨o, ho, hc⟩ := (Option.any_eq_true _ _).mp hc
  rw [decide_eq_true_eq] at hc
  obtain ⟨hbefore, hafter, hsilent⟩ := hc
  exact ⟨c, o, hrun, ho, ⟨200, hbefore, by decide, by rw [hafter]; decide⟩, hsilent⟩

end ZedBot.LowBalance
