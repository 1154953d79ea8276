import ZedBot.LowBalance.DeliveryRules

/-! A delivery re-arms a user who has recovered, except where a mutation took the balance back while
    the delivery waited for the state and left the cycle open. -/

namespace ZedBot.LowBalance
open ReadCommitted JsNumber

variable {p q : ℕ} {r : List AlertStore} {s s' x : AlertStore} {t t' t'' : AlertTx} {userId : ℕ}

/-! ### The producers -/

/-- A commit that leaves the alerts. -/
theorem DeliveryTx.quiet (halerts : ∀ id k, IsAlertOf id k → t.chg k = none)
    (husers : ∀ id o n, t.chg (.user id) = some (o, n) → n ≠ none)
    (hentries : ∀ v, .revalidation v ∉ t.entries) : DeliveryTx p r s t where
  phases id o n h := by
    rw [halerts id _ isAlertOf_state] at h
    cases h
  sent id cycle o n h := by
    rw [halerts id _ (isAlertOf_notification cycle)] at h
    cases h
  users := husers
  judged v hv := absurd hv (hentries v)

/-- A commit with one observation. -/
theorem Applied.deliveryTx {D : Discipline AlertRow AlertEntry Unit}
    {input : LowBalanceObservationInput} {s₀ s₁ s₂ s₃ s₄ : AlertStore}
    {base : Option LowBalanceAlertState} {st st' : LowBalanceAlertState} {notified : Option ℕ}
    {o : Observation}
    (h : Applied D p input t s₀ s₁ s₂ s₃ s₄ s' base st st' t' t'' notified o)
    (halerts : ∀ id k, IsAlertOf id k → t.chg k = none)
    (husers : ∀ id o n, t.chg (.user id) = some (o, n) → n ≠ none) (hentries : t.entries = [])
    (hdraft : ∀ cycle, (input.buildNotification cycle).payloadSnapshot.alertCycle = cycle) :
    DeliveryTx p r s t'' := by
  have hstate : t''.chg (.alertState input.userId) = some (base, some st') := by
    rw [h.tx, Tx.chg_append, h.moves.holding.state]
  refine ⟨fun id o n hchg => ?_, fun id cycle o n hchg => ?_, fun id o n hchg => ?_,
    fun v hv => ?_⟩
  · rcases eq_or_ne id input.userId with rfl | hne
    · rw [hstate] at hchg
      obtain ⟨rfl, rfl⟩ := Prod.mk.inj (Option.some.inj hchg)
      have hmoved := h.moves.moved.phase_le
      have hseeded := h.seeded
      cases hcreated : o.created <;> rw [hcreated] at hseeded <;> cases hseeded
      · exact hmoved
      · exact Nat.zero_le _
    · rw [h.chg (not_isAlertOf_of_ne hne isAlertOf_state), halerts id _ isAlertOf_state] at hchg
      cases hchg
  · rcases eq_or_ne id input.userId with rfl | hne
    · rw [h.tx, Tx.chg_append] at hchg
      obtain ⟨row, rfl, huser, hsnapshot⟩ := h.moves.sends cycle o n hchg
      refine ⟨row, rfl, huser, by rw [hsnapshot, hdraft], ?_⟩
      have hnotified : notified = some cycle := by
        by_contra hne
        rw [h.moves.holding.silent cycle hne] at hchg
        cases hchg
      have hmoved := h.moves.moved
      rw [(h.moves.notifies cycle hnotified).1] at hmoved
      have hrow : t''.row s.rows (.alertState input.userId) = some st' := by
        simp [Tx.row, hstate]
      have hcycle : st'.alertCycle = cycle := by
        cases hmoved with
        | opened => rfl
      rw [hrow, ← hcycle]
      exact le_phase st'
    · rw [h.chg (not_isAlertOf_of_ne hne (isAlertOf_notification cycle)),
        halerts id _ (isAlertOf_notification cycle)] at hchg
      cases hchg
  · rw [h.chg (by simp [IsAlertOf])] at hchg
    exact husers id o n hchg
  · rw [h.tx, Tx.entries_append, h.moves.holding.entries, hentries] at hv
    simp at hv

theorem delivers_mutation (config : AlertChoice → Option FrozenConfig) (userId : ℕ) (delta : ℤ) :
    Accepts deliveries p (walletMutation config userId delta) := by
  have halerts : ∀ (rows : ∀ k, AlertRow k) u id k, IsAlertOf id k →
      (mutationTx rows userId delta u).chg k = none := by
    rintro rows u id k (rfl | ⟨cycle, rfl⟩) <;> exact Tx.chg_write_ne _ (by simp)
  have husers : ∀ (rows : ∀ k, AlertRow k) u id o n,
      (mutationTx rows userId delta u).chg (.user id) = some (o, n) → n ≠ none := by
    intro rows u id o n hchg
    rcases eq_or_ne id userId with rfl | hne
    · rw [mutationTx, Tx.chg_write_self] at hchg
      cases hchg
      simp
    · rw [mutationTx, Tx.chg_write_ne _ (by simpa using hne)] at hchg
      cases hchg
  refine accepts_walletMutation (fun c s u _ _ _ s' r _ _ _ => ?_) ?_
  · exact .quiet (halerts _ u) (husers _ u) fun v hv => (nomatch hv)
  · intro c cfg s₀ u s s₁ s₂ s₃ s₄ s' base st st' t' t'' notified o _ _ _ _ ha s₅ r _ _ _
    exact ha.deliveryTx (halerts _ u) (husers _ u) rfl fun _ => rfl

theorem delivers_sweepUnit (config : FrozenConfig) (userId : ℕ) :
    Accepts deliveries p (processOne config userId) := by
  refine accepts_processOne (fun s _ s' r _ hi' _ => deliveries.commits_empty (r := r) hi') ?_
  intro s₀ live s₁ s₂ s₃ s₄ s' base st st' t' t'' notified o _ _ ha s₅ r _ _ _
  exact ha.deliveryTx (fun _ _ _ => rfl) (fun _ _ _ h => by cases h) rfl fun _ => rfl

/-- A statement that writes users only. -/
theorem DeliveryTx.of_users (hchg : ∀ k, (∀ id, k ≠ .user id) → t.chg k = none)
    (husers : ∀ id o n, t.chg (.user id) = some (o, n) → n ≠ none)
    (hentries : ∀ v, .revalidation v ∉ t.entries) : DeliveryTx p r s t :=
  .quiet (by rintro id k (rfl | ⟨cycle, rfl⟩) <;> exact hchg _ (by simp)) husers hentries

theorem delivers_createUser (id : ℕ) (row : User) : Accepts deliveries p (createUser id row) := by
  refine .sql fun r s hi => ?_
  cases hrow : (s.view ({} : AlertTx)).rows (.user id) with
  | some u => exact deliveries.commits_empty (r := r) hi
  | none =>
    refine .of_users (fun k hk => Tx.chg_add_of_notMem (by simpa using hk id))
      (fun id' o n h => ?_) fun v hv => by simp at hv
    obtain ⟨-, hmem⟩ := Tx.chg_add_empty h
    simp only [List.mem_singleton, Sigma.mk.injEq, AlertKey.user.injEq] at hmem
    obtain ⟨rfl, hn⟩ := hmem
    rw [eq_of_heq hn]
    simp

theorem delivers_editUser (id : ℕ) (status : UserStatus) (lowBalance payment : Bool) :
    Accepts deliveries p (editUser id status lowBalance payment) := by
  refine .bind (.update fun r s n _ hn => ?_) fun _ => .pure _
  obtain ⟨u, hu, -, rfl⟩ := onRow_eq_some.mp hn
  refine .of_users (fun k hk => Tx.chg_write_ne _ (hk id)) (fun id' o n h => ?_)
    fun v hv => (nomatch hv)
  rcases eq_or_ne id' id with rfl | hne
  · rw [Tx.chg_write_self] at h
    cases h
    simp
  · rw [Tx.chg_write_ne _ (by simpa using hne)] at h
    cases h

/-! ### Deliveries -/

/-- What a delivery commits, if its re-arm is judged live: it changes the state of its user at most. -/
theorem DeliveryTx.of_state {v : Revalidation}
    (hchg : ∀ k, k ≠ .alertState v.notification.userId → t.chg k = none)
    (hphase : ∀ o n, t.chg (.alertState v.notification.userId) = some (o, n) → phase o ≤ phase n)
    (hentries : t.entries = [.revalidation v])
    (hjudged : rearms v.notification.userId s (s.commit p t) = true →
      crossingsClosed v.notification r s = true → JudgedLive v s) : DeliveryTx p r s t where
  phases id o n h := by
    rcases eq_or_ne id v.notification.userId with rfl | hne
    · exact hphase o n h
    · rw [hchg _ (by simpa using hne)] at h
      cases h
  sent id cycle o n h := by
    rw [hchg _ (by simp)] at h
    cases h
  users id o n h := by
    rw [hchg _ (by simp)] at h
    cases h
  judged w hw := by
    rw [hentries] at hw
    cases List.mem_singleton.mp hw
    exact hjudged

/-- A delivery that leaves the state re-arms nobody. -/
theorem DeliveryTx.of_kept {v : Revalidation} (hheld : t.Held s.rows)
    (hchg : ∀ k, k ≠ .alertState v.notification.userId → t.chg k = none)
    (hkept : ∀ o n, t.chg (.alertState v.notification.userId) = some (o, n) → n = o)
    (hentries : t.entries = [.revalidation v]) : DeliveryTx p r s t := by
  refine .of_state hchg (fun o n h => by rw [hkept o n h]) hentries fun hrearms => ?_
  have hsame : (s.commit p t).rows (.alertState v.notification.userId) =
      s.rows (.alertState v.notification.userId) := by
    rcases s.commit_rows p hheld (.alertState v.notification.userId) with ⟨he, -⟩ | h
    · exact he
    · exact hkept _ _ h
  simp only [rearms, hsame] at hrearms
  split at hrearms
  · rename_i st st' hst hst'
    rw [hst] at hst'
    cases hst'
    simp only [decide_eq_true_eq] at hrearms
    rw [hrearms.1] at hrearms
    cases hrearms.2
  · cases hrearms

theorem isAbove_ofInt (balance boundary : ℤ) :
    isAbove balance (ofInt boundary) = true ↔ boundary < balance := by
  rw [isAbove, ofInt_lt, decide_eq_true_eq]

/-- The lock of a delivery, and what its transaction holds from then on. -/
theorem wp_lockStateForDelivery {n : AutomatedNotification}
    {Q : Option LowBalanceAlertState → AlertLocal → AlertStore → Prop}
    (hQ : ∀ s' (t : AlertTx), deliveries.Later p (Tx.Holds ({} : AlertTx)) s s' → Issued s' →
      (∀ k, k ≠ .alertState n.userId → t.chg k = none) →
      t.chg (.alertState n.userId) =
        (s'.rows (.alertState n.userId)).map (fun st => (some st, some st)) →
      t.entries = [.revalidation ⟨n, (s'.rows (.user n.userId)).map (·.balanceToman)⟩] →
      Q (s'.rows (.alertState n.userId)) ⟨some t, r⟩ s') :
    wp deliveries p (lockStateForDelivery n) Q ⟨some {}, r⟩ s := by
  refine wp_sql_tx fun s' hl hi _ => hQ s' _ hl hi (fun k hk => ?_) ?_ (Tx.entries_add _)
  · refine Tx.chg_add_of_notMem fun hmem => hk ?_
    dsimp only at hmem
    split at hmem
    · exact List.mem_singleton.mp hmem
    · cases hmem
  · dsimp only [Store.view]
    rw [Tx.row_empty]
    cases hrow : s'.rows (.alertState n.userId) with
    | none => rfl
    | some st => simp [Tx.add, hrow]

theorem phase_later {ks : AlertKey → Prop} (hl : deliveries.Later p ks s s') (hi : Issued s)
    (id : ℕ) : phase (s.rows (.alertState id)) ≤ phase (s'.rows (.alertState id)) := by
  refine hl.stable (P := fun x => phase (s.rows (.alertState id)) ≤ phase (x.rows (.alertState id)))
    (fun _ _ hst hx => ?_) hi le_rfl
  cases hst with
  | act w _ => exact hx
  | commit t hheld ht => exact hx.trans (DeliveryTx.phase_le ht hheld id)

theorem recovered_phase_le {balance : ℤ} {now : ℕ} (st : LowBalanceAlertState) :
    phase (some st) ≤ phase (some (recovered balance now st)) := by
  have hstate : (recovered balance now st).state = .ARMED := rfl
  have hcycle : (recovered balance now st).alertCycle = st.alertCycle := rfl
  rw [phase, phase, hcycle, if_pos hstate]
  split <;> omega

/-- DELIVERY: the transaction of a check commits nothing, the lock alone, or a re-arm judged live. -/
theorem wp_judgeForDelivery {n : AutomatedNotification} (fallbackBoundary : Number) (hi : Issued s)
    (hopened : 2 * n.payloadSnapshot.alertCycle ≤ phase (s.rows (.alertState n.userId))) :
    wp deliveries p (judgeForDelivery fallbackBoundary n n.lowBalanceMeta) (fun _ _ _ => True)
      ⟨none, r⟩ s := by
  refine wp_transaction ((wp_seq _ _).mpr (wp_select _ fun s₁ hl₁ hi₁ => ?_))
  dsimp only [Local.pending, Local.read, Option.getD_some, Store.view]
  rw [Tx.row_empty]
  have hopened₁ := hopened.trans (phase_later hl₁ hi n.userId)
  cases hu : s₁.rows (.user n.userId) with
  | none => exact fun s' _ hi' _ => ⟨deliveries.commits_empty (r := s₁ :: r) hi', trivial⟩
  | some u =>
    dsimp only
    split
    · exact fun s' _ hi' _ => ⟨deliveries.commits_empty (r := s₁ :: r) hi', trivial⟩
    split
    · exact fun s' _ hi' _ => ⟨deliveries.commits_empty (r := s₁ :: r) hi', trivial⟩
    refine (wp_seq _ _).mpr (wp_lockStateForDelivery fun s₂ t hl₂ hi₂ hchg hstate hentries => ?_)
    have hkept : ∀ s' : AlertStore, t.Held s'.rows →
        DeliveryTx p (s₁ :: r) s' t := fun s' hheld => by
      refine .of_kept hheld hchg (fun o m h => ?_) hentries
      obtain ⟨st, -, he⟩ := Option.map_eq_some_iff.mp (hstate.symm.trans h)
      obtain ⟨rfl, rfl⟩ := Prod.mk.inj he
      rfl
    cases hrow : s₂.rows (.alertState n.userId) with
    | none => exact fun s' _ _ hheld => ⟨hkept s' hheld, trivial⟩
    | some st =>
      dsimp only
      split
      · exact fun s' _ _ hheld => ⟨hkept s' hheld, trivial⟩
      rename_i hcycle
      split
      · exact fun s' _ _ hheld => ⟨hkept s' hheld, trivial⟩
      rename_i halerted
      rw [not_not] at halerted
      split
      swap
      · exact fun s' _ _ hheld => ⟨hkept s' hheld, trivial⟩
      rename_i habove
      have hcycle : st.alertCycle = n.payloadSnapshot.alertCycle := by
        simpa [readNumber, AutomatedNotification.lowBalanceMeta, ofInt] using hcycle
      have hwatch := Watched.start hu hopened₁ ((isAbove_ofInt _ _).mp habove)
      have hwatch₂ := hwatch.later hi₁ hl₂
      refine (wp_seq _ _).mpr (wp_ask _ fun c =>
        (wp_seq _ _).mpr (wp_update_tx fun s₃ hl₃ hi₃ _ => ?_))
      have hrow₃ : t.row s₃.rows (.alertState n.userId) = some st := by
        simp [Tx.row, hstate, hrow]
      rw [hrow₃]
      refine ⟨fun hnone => (by cases hnone), fun m hm s' hl₄ hi' hheld => ⟨?_, trivial⟩⟩
      cases hm
      have hwrite : (t.write s₃.rows ⟨.alertState n.userId,
          some (recovered u.balanceToman c.now st)⟩).chg (.alertState n.userId) =
          some (some st, some (recovered u.balanceToman c.now st)) := by
        simp [Tx.base, hstate, hrow]
      refine .of_state (v := ⟨n, (s₂.rows (.user n.userId)).map User.balanceToman⟩)
        (fun k hk => (Tx.chg_write_ne _ hk).trans (hchg k hk)) (fun o m h => ?_) hentries
        fun _ hall => ?_
      · cases hwrite.symm.trans h
        exact recovered_phase_le st
      · rw [crossingsClosed, List.head?_cons, Option.all_some] at hall
        -- the state was locked as it is replaced, so it was ALERTED in the cycle all along
        have hrow' : s'.rows (.alertState n.userId) = some st := (hheld _ _ _ hwrite).symm
        have hsince := hl₃.since_suffix hwatch₂.since
        have hsince' := hl₄.since_suffix hsince.1
        have hall₂ := List.all_eq_true.mpr fun e he =>
          List.all_eq_true.mp hall e ((hsince.2.trans hsince'.2).subset he)
        obtain ⟨u₂, hu₂, hlocked⟩ := hwatch₂.recovered hrow halerted hcycle hall₂
        have hwatch' := (hwatch₂.later hi₂ hl₃).later hi₃ hl₄
        exact ⟨⟨u₂.balanceToman, by rw [hu₂]; rfl, hlocked⟩,
          hwatch'.recovered hrow' halerted hcycle hall⟩

theorem delivers_process (process : DeliveringProcess) (hi : Issued s) :
    wp deliveries p process.program (fun _ _ _ => True) ⟨none, []⟩ s := by
  have haccepts : ∀ {m : Alerts Unit}, Accepts deliveries p m →
      wp deliveries p m (fun _ _ _ => True) ⟨none, []⟩ s :=
    fun h => wp_mono _ (fun _ _ _ _ => trivial) (h.run [] s hi)
  cases process with
  | mutate config userId delta =>
    exact haccepts (.bind (delivers_mutation config userId delta) fun _ => .pure _)
  | sweep config userId => exact haccepts (.bind (delivers_sweepUnit config userId) fun _ => .pure _)
  | register id row => exact haccepts (.bind (delivers_createUser id row) fun _ => .pure _)
  | edit id status lowBalance payment =>
    exact haccepts (delivers_editUser id status lowBalance payment)
  | deliver settings userId cycle =>
    refine (wp_seq _ _).mpr (wp_select _ fun s₁ _ hi₁ => ?_)
    dsimp only [Local.pending, Option.getD_none, Store.view]
    rw [Tx.row_empty]
    cases hn : s₁.rows (.notification userId cycle) with
    | none => trivial
    | some n =>
      obtain ⟨huser, hcycle, hopened⟩ := hi₁ userId cycle n hn
      rw [← huser, ← hcycle] at hopened
      refine (wp_seq _ _).mpr ((wp_seq _ _).mpr (wp_ask _ fun c => ?_))
      split
      · trivial
      exact (wp_seq _ _).mpr (wp_ask _ fun c' => wp_judgeForDelivery _ hi₁ hopened)

/-! ### Runs -/

/-- The deliveries that a step commits. -/
def revalidations (s s' : AlertStore) : List Revalidation :=
  (s'.journal.drop s.journal.length).filterMap fun
    | .revalidation v => some v
    | _ => none

/-- Where a step re-arms a user, every mutation that crossed the boundary since the user was read closed
    the cycle. -/
def closesCrossings (r : List AlertStore) (s s' : AlertStore) : Bool :=
  (revalidations s s').all fun v =>
    ¬ rearms v.notification.userId s s' ∨ crossingsClosed v.notification r s

/-- RECOVERED: in a run where every mutation that takes a user back below the boundary while a delivery
    waits for their state closes the cycle, a delivery re-arms only users who have recovered. -/
theorem delivery_judges_live (procs : ℕ → DeliveringProcess) {s₀ : AlertStore} (h₀ : Issued s₀)
    {c : AlertConfig} (hrun : Run (fun _ r s s' => closesCrossings r s s' = true)
      (Config.start s₀ fun p => (procs p).program) c) :
    Run (fun _ _ s s' => ∀ v ∈ revalidations s s', rearms v.notification.userId s s' = true →
      JudgedLive v s) (Config.start s₀ fun p => (procs p).program) c := by
  have hg : Good deliveries (Config.start s₀ fun p => (procs p).program) :=
    good_start h₀ fun p => delivers_process (procs p) h₀
  refine (hrun.allowed hg).mono fun p r s s' ⟨hclosed, hst⟩ v hv hrearms => ?_
  have hclosed := List.all_eq_true.mp hclosed v hv
  rcases hst with rfl | ⟨-, hst⟩
  · rw [revalidations, List.drop_length] at hv
    cases hv
  · cases hst with
    | act w _ =>
      rw [revalidations, show Store.journal { s with world := w } = s.journal from rfl,
        List.drop_length] at hv
      cases hv
    | commit t hheld ht =>
      have hmem : .revalidation v ∈ t.entries := by
        rw [revalidations, Store.journal_commit, List.drop_left, List.mem_filterMap] at hv
        obtain ⟨e, he, hev⟩ := hv
        cases e <;> cases hev
        exact he
      refine DeliveryTx.judged ht v hmem hrearms ?_
      simpa [hrearms] using hclosed

/-! A cycle is opened under the boundary 120. The boundary is raised to 300, so a deposit that takes the
    user to 150 leaves the cycle open. -/

def openConfig : FrozenConfig where
  thresholdToman := 100
  rearmBoundaryToman := 120
  configVersion := 1

def raisedConfig : FrozenConfig where
  thresholdToman := 250
  rearmBoundaryToman := 300
  configVersion := 2

def enabledSettings : SettingTable := fun key =>
  if key = LOW_BALANCE_ENABLED_KEY then some "true" else none

def solvent : AlertStore where
  rows
    | .user id => if id = 1 then some { balanceToman := 200 } else none
    | .alertState _ => none
    | .notification _ _ => none
    | .backfillRun _ => none
  log := [⟨0, { entries := [.user 1] }⟩]
  world := ()

theorem solvent_issued : Issued solvent := fun _ _ _ h => (nomatch h)

def raisedProcs : ℕ → DeliveringProcess
  | 0 => .mutate (fun _ => some openConfig) 1 (-150)
  | 1 => .mutate (fun _ => some raisedConfig) 1 100
  | 2 => .deliver (fun _ => enabledSettings) 1 1
  | _ => .mutate (fun _ => some raisedConfig) 1 (-100)

/-- The delivery has read the balance of 150. -/
def delivering : List (Event AlertChoice) :=
  List.replicate 14 (.run 0 {}) ++ List.replicate 11 (.run 1 {}) ++ List.replicate 5 (.run 2 {})

theorem delivery_rearms :
    ((Config.start solvent fun p => (raisedProcs p).program).execWhile
      (fun _ => closesCrossings) (delivering ++ List.replicate 4 (.run 2 {}))).any (fun c =>
        (c.store.rows (.alertState 1)).any fun st => st.state = .ARMED) = true := by decide +kernel

theorem delivery_judges_live_recovered : ∃ (c : AlertConfig) (st : LowBalanceAlertState),
    Run (fun _ _ s s' => ∀ v ∈ revalidations s s', rearms v.notification.userId s s' = true →
      JudgedLive v s) (Config.start solvent fun p => (raisedProcs p).program) c ∧
    c.store.rows (.alertState 1) = some st ∧ st.state = .ARMED := by
  obtain ⟨c, hrun, hc⟩ := Run.of_execWhile_any delivery_rearms
  obtain ⟨st, hst, hc⟩ := (Option.any_eq_true _ _).mp hc
  rw [decide_eq_true_eq] at hc
  exact ⟨c, st, delivery_judges_live raisedProcs solvent_issued hrun, hst, hc⟩

theorem spent_runs :
    ((Config.start solvent fun p => (raisedProcs p).program).exec
      (delivering ++ List.replicate 11 (.run 3 {}) ++ List.replicate 3 (.run 2 {}))).any (fun c =>
        (c.step (.run 2 {})).any fun c' => (revalidations c.store c'.store).any fun v =>
          rearms v.notification.userId c.store c'.store ∧ v.balanceToman = some 50 ∧
          v.notification.payloadSnapshot.rearmBoundaryToman = 120) = true := by decide +kernel

/-- REARMED LOW: the user spends to 50 while the delivery waits for the lock, and is re-armed. -/
theorem delivery_rearms_low : ∃ (c c' : AlertConfig) (v : Revalidation),
    Run anyStep (Config.start solvent fun p => (raisedProcs p).program) c ∧
    c.step (.run 2 {}) = some c' ∧ v ∈ revalidations c.store c'.store ∧
    rearms v.notification.userId c.store c'.store = true ∧
    v.notification.payloadSnapshot.rearmBoundaryToman = 120 ∧ v.balanceToman = some 50 ∧
    ¬ JudgedLive v c.store := by
  obtain ⟨c, hrun, hc⟩ := Run.of_exec_any spent_runs
  obtain ⟨c', hstep, hc⟩ := (Option.any_eq_true _ _).mp hc
  obtain ⟨v, hv, hc⟩ := List.any_eq_true.mp hc
  rw [decide_eq_true_eq] at hc
  obtain ⟨hrearms, hbalance, hboundary⟩ := hc
  refine ⟨c, c', v, hrun, hstep, hv, hrearms, hboundary, hbalance, fun hlive => ?_⟩
  obtain ⟨balance, hb, hlt⟩ := hlive.locked
  rw [hbalance] at hb
  cases hb
  rw [hboundary] at hlt
  omega

end ZedBot.LowBalance
