import ZedBot.LowBalance.BackfillWorkers

/-! What an alert says about the balance.

    A unit of the sweep or of the backfill reads its user, locks the state and reads the balance
    again. The transition is decided on the second read, and the message is written from the
    first. -/

namespace ZedBot.LowBalance
open ReadCommitted

/-! ### The rendered figures -/

/-- The digits from the right, with a separator after every third. -/
def groupDigits : List Char → List Char
  | a :: b :: c :: d :: ds => a :: b :: c :: ',' :: groupDigits (d :: ds)
  | ds => ds

/-- `toLocaleString("en-US")` of a whole number. -/
def toLocaleString (value : ℤ) : String :=
  String.ofList ((if value < 0 then ['-'] else []) ++
    (groupDigits value.natAbs.repr.toList.reverse).reverse)

def formatTomanAmount (value : ℤ) : String := toLocaleString value ++ " تومان"

/-- The variables of the message. -/
structure SnapshotVariables where
  balance : String
  threshold : String

def LowBalanceSnapshot.variables (snapshot : LowBalanceSnapshot) : SnapshotVariables where
  balance := formatTomanAmount snapshot.balanceToman
  threshold := formatTomanAmount snapshot.thresholdToman

example : formatTomanAmount (-1234567) = "-1,234,567 تومان" := by decide +kernel

theorem filter_groupDigits : ∀ {ds : List Char}, (∀ c ∈ ds, c ≠ ',') →
    (groupDigits ds).filter (· ≠ ',') = ds
  | a :: b :: c :: d :: ds, h => by
    have hrest := @filter_groupDigits (d :: ds) fun x hx => h x (by simp_all)
    have ha := h a (by simp)
    have hb := h b (by simp)
    have hc := h c (by simp)
    simp_all [groupDigits]
  | [], _ => rfl
  | [a], h => by simpa [groupDigits] using h a
  | [a, b], h => by simpa [groupDigits] using h
  | [a, b, c], h => by simpa [groupDigits] using h

theorem digit_of_mem_repr {n : ℕ} {c : Char} (h : c ∈ n.repr.toList) : c.isDigit = true := by
  rw [Nat.toList_repr] at h
  exact Nat.isDigit_of_mem_toDigits (by decide) (by decide) h

/-- Without its separators an amount is its sign and its digits. -/
theorem filter_toLocaleString (x : ℤ) : (toLocaleString x).toList.filter (· ≠ ',') =
    (if x < 0 then ['-'] else []) ++ x.natAbs.repr.toList := by
  have hdigits : ∀ c ∈ x.natAbs.repr.toList.reverse, c ≠ ',' := by
    rintro c hc rfl
    cases digit_of_mem_repr (List.mem_reverse.mp hc)
  rw [toLocaleString, String.toList_ofList, List.filter_append, List.filter_reverse,
    filter_groupDigits hdigits, List.reverse_reverse]
  split <;> rfl

/-- An amount can be read back from its text. -/
theorem formatTomanAmount_inj {x y : ℤ} (h : formatTomanAmount x = formatTomanAmount y) :
    x = y := by
  have hlocale : (toLocaleString x).toList = (toLocaleString y).toList := by
    have htext := congrArg String.toList h
    rw [formatTomanAmount, formatTomanAmount, String.toList_append, String.toList_append] at htext
    exact List.append_cancel_right htext
  have hplain := congrArg (List.filter (· ≠ ',')) hlocale
  rw [filter_toLocaleString, filter_toLocaleString] at hplain
  have habs : ∀ {a b : ℕ}, a.repr.toList = b.repr.toList → a = b := by
    intro a b hab
    simpa using congrArg (fun ds => Nat.ofDigitChars 10 ds 0) hab
  have hsign : ∀ {a b : ℕ}, '-' :: a.repr.toList ≠ b.repr.toList := by
    intro a b hab
    have hmem : '-' ∈ b.repr.toList := hab ▸ List.mem_cons_self
    cases digit_of_mem_repr hmem
  split at hplain <;> split at hplain
  · have := habs (List.cons.inj hplain).2
    omega
  · exact (hsign hplain).elim
  · exact (hsign hplain.symm).elim
  · have := habs hplain
    omega

/-! ### The units -/

/-- A process that may write a message: a unit of the sweep or of the backfill, or any other. -/
inductive AlertWriter
  | sweep (config : FrozenConfig) (userId : ℕ)
  | unit (runId ownerToken userId : ℕ) (config : FrozenConfig)
  | other (program : Alerts Unit)

def AlertWriter.program : AlertWriter → Alerts Unit
  | .sweep config userId => do let _ ← processOne config userId; return ()
  | .unit runId ownerToken userId config => do
    let _ ← processOneUser runId ownerToken userId config; return ()
  | .other program => program

def AlertWriter.isUnit : AlertWriter → Bool
  | .other _ => false
  | _ => true

/-- A message renders the balance that the observation decided on and stored, which is not above the
    threshold beside it. -/
def TextMatches (s s' : AlertStore) (userId cycle : ℕ) (n : AutomatedNotification) : Prop :=
  ∃ o st, .observation o ∈ s'.journal.drop s.journal.length ∧ o.userId = userId ∧
    o.opened = some cycle ∧ s'.rows (.alertState userId) = some st ∧
    st.lastObservedBalanceToman = o.balanceToman ∧
    n.payloadSnapshot.variables.balance = formatTomanAmount o.balanceToman ∧
    o.balanceToman ≤ n.payloadSnapshot.thresholdToman

/-- The balance that was read under the lock is the one that was read before it. -/
def readsAgree (userId : ℕ) (reads : List AlertStore) : Bool :=
  match reads.reverse with
  | live :: locked :: _ => (locked.rows (.user userId)).all fun user =>
      (live.rows (.user userId)).map (·.balanceToman) = some user.balanceToman
  | _ => true

/-- What a unit sends: the message has the first balance that it read, the state the second. -/
def SendsReads (reads : List AlertStore) (t : AlertTx) : Prop :=
  ∀ userId cycle n, t.chg (.notification userId cycle) = some (none, some n) →
    ∃ live locked rest o st old, reads.reverse = live :: locked :: rest ∧
      .observation o ∈ t.entries ∧ o.userId = userId ∧ o.opened = some cycle ∧
      t.chg (.alertState userId) = some (old, some st) ∧
      st.lastObservedBalanceToman = o.balanceToman ∧
      (live.rows (.user userId)).map (·.balanceToman) = some n.payloadSnapshot.balanceToman ∧
      o.balanceToman = ((locked.rows (.user userId)).map (·.balanceToman)).getD
        n.payloadSnapshot.balanceToman ∧
      o.balanceToman ≤ n.payloadSnapshot.thresholdToman

/-- The rules of the messages: units send what they have read. -/
def texts (procs : ℕ → AlertWriter) : Discipline AlertRow AlertEntry Unit where
  Inv _ := True
  Commits p r _ t := (procs p).isUnit = true → SendsReads r t
  Acts _ _ _ _ := True
  commits_empty _ _ := fun _ _ _ h => nomatch h
  inv_commit _ _ _ := trivial
  inv_act _ _ := trivial

/-! ### Every unit sends what it has read -/

variable {procs : ℕ → AlertWriter} {p : ℕ} {r r' : List AlertStore} {t t' : AlertTx}
  {s s' live : AlertStore} {runId userId : ℕ} {config : FrozenConfig}

theorem Applied.sendsReads {D : Discipline AlertRow AlertEntry Unit}
    {input : LowBalanceObservationInput} {s₁ s₂ s₃ s₄ : AlertStore}
    {base : Option LowBalanceAlertState} {st st' : LowBalanceAlertState} {t'' : AlertTx}
    {notified : Option ℕ} {o : Observation} {origin : Origin} {rest : List AlertStore}
    (ha : Applied D p input t s s₁ s₂ s₃ s₄ s' base st st' t' t'' notified o)
    (hbefore : input.balanceBeforeToman = none)
    (hdraft : input.buildNotification = draftFor config input.balanceAfterToman origin)
    (hthreshold : input.thresholdToman = config.thresholdToman)
    (hquiet : ∀ id cycle, t.chg (.notification id cycle) = none)
    (huser : t.chg (.user input.userId) = none)
    (hlive : (live.rows (.user input.userId)).map (·.balanceToman) = some input.balanceAfterToman)
    (hreads : r.reverse = live :: s₂ :: rest) : SendsReads r t'' := by
  intro id cycle n hchg
  have hid : id = input.userId := by
    by_contra hne
    rw [ha.chg (by simp [IsAlertOf, hne]), hquiet] at hchg
    cases hchg
  subst hid
  have hsent : notified = some cycle := by
    by_contra hsilent
    rw [ha.tx, Tx.chg_append, ha.moves.holding.silent cycle hsilent] at hchg
    cases hchg
  have hopened := (ha.moves.notifies cycle hsent).1
  have hstate : t''.chg (.alertState input.userId) = some (base, some st') := by
    rw [ha.tx]
    exact ha.moves.holding.state
  have hmoved := ha.moves.moved
  rw [hopened] at hmoved
  obtain ⟨row, hrow, -, hsnapshot⟩ := ha.moves.sends cycle none (some n) (by rwa [ha.tx] at hchg)
  cases hrow
  rw [hdraft] at hsnapshot
  refine ⟨live, s₂, rest, o, st', base, hreads, ?_, ha.input.1, hopened, hstate, ?_, ?_, ?_, ?_⟩
  · rw [ha.tx]
    simp
  · cases hmoved with
    | opened => rfl
  · rw [hlive, hsnapshot]
    rfl
  · have hbalance := ha.balance
    rw [hbefore] at hbalance
    rw [hbalance, Tx.row_of_chg huser, hsnapshot]
    rfl
  · cases hmoved with
    | opened now hlow =>
      rw [hsnapshot]
      exact hlow.trans_eq hthreshold

/-- The progress of a unit sends nothing. -/
theorem SendsReads.progress {result : UnitResult} {rows : ∀ k, AlertRow k}
    {row : LowBalanceBackfillRun} {q : ℕ} (h : SendsReads r t) :
    SendsReads r (progressTx rows q runId userId result row t) := by
  intro id cycle n hchg
  rw [progressTx, Tx.chg_append, Tx.chg_write_ne _ (by simp)] at hchg
  obtain ⟨live, locked, rest, o, st, old, hreads, ho, hid, hopened, hstate, hrest⟩ :=
    h id cycle n hchg
  refine ⟨live, locked, rest, o, st, old, hreads, List.mem_append_left _ ho, hid, hopened, ?_,
    hrest⟩
  rwa [progressTx, Tx.chg_append, Tx.chg_write_ne _ (by simp)]

theorem SendsReads.of_quiet (h : ∀ id cycle, t.chg (.notification id cycle) = none) :
    SendsReads r t := by
  intro id cycle n hchg
  rw [h] at hchg
  cases hchg

theorem wp_processOne_texts :
    wp (texts procs) p (processOne config userId) (fun _ _ _ => True) {} s := by
  refine wp_transaction ((wp_seq _ _).mpr (wp_select _ fun s₀ _ _ => ?_))
  dsimp only [Local.pending, Local.read, Option.getD_some, Store.view]
  rw [Tx.row_empty]
  cases hlive : s₀.rows (.user userId) with
  | none => exact fun s' _ _ _ => ⟨fun _ => .of_quiet fun _ _ => rfl, trivial⟩
  | some live =>
    dsimp only
    split
    · exact fun s' _ _ _ => ⟨fun _ => .of_quiet fun _ _ => rfl, trivial⟩
    refine (wp_seq _ _).mpr (wp_applyLowBalanceObservation (fun _ _ => rfl)
      (fun _ _ _ _ => trivial) ?_)
    intro s₁ s₂ s₃ s₄ s' base st st' t' t'' notified o outcome r' ha _ _ hgrown
    obtain ⟨more, hmore⟩ := hgrown rfl
    refine fun s₅ _ _ _ => ⟨fun _ => ?_, trivial⟩
    have hbalance : (s₀.rows (.user userId)).map (·.balanceToman) = some live.balanceToman := by
      rw [hlive]
      rfl
    have hreads : r'.reverse = s₀ :: s₂ :: more.reverse := by simp [← hmore]
    exact ha.sendsReads rfl rfl rfl (fun _ _ => rfl) rfl hbalance hreads

theorem wp_unitTransaction_texts {ownerToken : ℕ} {Q : Except ObservationThrow UnitOutcome →
    AlertLocal → AlertStore → Prop} (hQ : ∀ x r s, Q x ⟨none, r⟩ s) :
    wp (texts procs) p (unitTransaction runId ownerToken userId config) Q {} s := by
  refine wp_transaction ((wp_seq _ _).mpr (wp_ask _ fun c => ?_))
  split
  · exact hQ _ _ _
  refine (wp_seq _ _).mpr (wp_selectForUpdate_tx fun s₁ _ _ _ =>
    ⟨fun hnone => ?_, fun hsome => ?_⟩)
  · refine (wp_seq _ _).mpr (wp_ask _ fun c => ?_)
    rw [Option.isSome_eq_false_iff, Option.isNone_iff_eq_none] at hnone
    rw [hnone]
    exact fun s' _ _ _ => ⟨fun _ => .of_quiet fun _ _ => rfl, hQ _ _ _⟩
  refine (wp_seq _ _).mpr (wp_ask _ fun c => ?_)
  obtain ⟨row, hrow⟩ := Option.isSome_iff_exists.mp hsome
  have hrow₁ : s₁.rows (.backfillRun runId) = some row := hrow
  have hlock := LockedUnit.of_lock userId hrow₁
  have hquiet : ∀ id cycle, (Tx.write ({} : AlertTx) s₁.rows
      ⟨.backfillRun runId, some row⟩).chg (.notification id cycle) = none :=
    fun id cycle => Tx.chg_write_ne _ (by simp)
  rw [hrow]
  simp only [Option.any]
  split
  · exact fun s' _ _ _ => ⟨fun _ => .of_quiet hquiet, hQ _ _ _⟩
  refine (wp_seq _ _).mpr (wp_select _ fun s₂ _ _ => ?_)
  split
  · refine (wp_seq _ _).mpr (wp_recordProgress hlock fun s₃ _ s' _ _ _ => ⟨fun _ => ?_, hQ _ _ _⟩)
    exact (SendsReads.of_quiet hquiet).progress
  rename_i user huser
  refine (wp_seq _ _).mpr (wp_applyLowBalanceObservation ?_ (fun _ _ _ _ => hQ _ _ _) ?_)
  · rintro k (rfl | ⟨cycle, rfl⟩) <;> exact Tx.chg_write_ne _ (by simp)
  intro s₁' s₂' s₃ s₄ s₅ base st st' t' t'' notified o outcome r' ha _ _ hgrown
  obtain ⟨more, hmore⟩ := hgrown rfl
  have hlock' : LockedUnit runId (backfillInput config userId user.balanceToman).userId row _ :=
    hlock
  obtain ⟨hlive, -⟩ := Option.filter_eq_some_iff.mp huser
  have hbalance : (s₂.rows (.user userId)).map (·.balanceToman) = some user.balanceToman := by
    rw [show s₂.rows (.user userId) = some user from
      (Tx.row_of_chg (hlock.users userId)).symm.trans hlive]
    rfl
  have hreads : r'.reverse = s₂ :: s₂' :: more.reverse := by simp [← hmore]
  have hsends : SendsReads r' t'' :=
    ha.sendsReads rfl rfl rfl hquiet (hlock.users userId) hbalance hreads
  exact (wp_seq _ _).mpr (wp_recordProgress (hlock'.observed ha) fun s₆ _ s' _ _ _ =>
    ⟨fun _ => hsends.progress, hQ _ _ _⟩)

theorem wp_processOneUser_texts {ownerToken : ℕ} :
    wp (texts procs) p (processOneUser runId ownerToken userId config) (fun _ _ _ => True) {}
      s := by
  refine (wp_seq _ _).mpr (wp_unitTransaction_texts fun x r s => ?_)
  cases x with
  | ok outcome => trivial
  | error e =>
    refine (wp_seq _ _).mpr (wp_ask _ fun c => ?_)
    split
    · trivial
    refine (wp_seq _ _).mpr (wp_sql fun s' _ _ => ⟨fun _ => .of_quiet fun id cycle => ?_, trivial⟩)
    refine Tx.chg_add_of_notMem ?_
    split <;> simp

/-- A message that a commit inserted. -/
theorem chg_of_inserted {cycle : ℕ} {n : AutomatedNotification} (hh : t.Held s.rows)
    (hnone : s.rows (.notification userId cycle) = none)
    (hsome : (s.commit p t).rows (.notification userId cycle) = some n) :
    t.chg (.notification userId cycle) = some (none, some n) := by
  change t.row s.rows _ = _ at hsome
  rw [Tx.row] at hsome
  cases hchg : t.chg (.notification userId cycle) with
  | none =>
    rw [hchg] at hsome
    cases hnone.symm.trans hsome
  | some change =>
    obtain ⟨old, new⟩ := change
    rw [hchg] at hsome
    rw [hh _ _ _ hchg, hnone, show new = some n from hsome]

theorem texts_good (procs : ℕ → AlertWriter) (s : AlertStore) :
    Good (texts procs) (Config.start s fun p => (procs p).program) := by
  refine good_start trivial fun p => ?_
  cases hp : procs p with
  | sweep config userId =>
    exact (wp_seq _ _).mpr (wp_mono _ (fun _ _ _ _ => trivial) wp_processOne_texts)
  | unit runId ownerToken userId config =>
    exact (wp_seq _ _).mpr (wp_mono _ (fun _ _ _ _ => trivial) wp_processOneUser_texts)
  | other program =>
    refine wp_free (fun r s t hunit => ?_) (fun _ _ _ => trivial) program
    rw [hp] at hunit
    cases hunit

/-- TEXTS: whatever the others do, a message that a unit sends renders the balance it was decided on
    exactly if the balance read under the lock is the one read before it. -/
theorem alert_texts_match_iff (procs : ℕ → AlertWriter) {s₀ : AlertStore} {c c' : AlertConfig}
    (hrun : Run anyStep (Config.start s₀ fun p => (procs p).program) c) {ch : AlertChoice}
    (hstep : c.step (.run p ch) = some c') (hunit : (procs p).isUnit = true) {cycle : ℕ}
    {n : AutomatedNotification} (hnone : c.store.rows (.notification userId cycle) = none)
    (hsome : c'.store.rows (.notification userId cycle) = some n) :
    TextMatches c.store c'.store userId cycle n ↔
      readsAgree userId (c.threads p).loc.reads = true := by
  have hg := (hrun.sound (texts_good procs s₀)).1
  rcases (hg.step hstep).2 with hsame | hst
  · rw [hsame, hnone] at hsome
    cases hsome
  change (texts procs).Step p (c.threads p).loc.reads _ _ at hst
  generalize c.store = s at hnone hst
  generalize c'.store = s' at hsome hst
  generalize (c.threads p).loc.reads = reads at hst
  cases hst with
  | act w _ =>
    rw [hnone] at hsome
    cases hsome
  | commit t hh h =>
    obtain ⟨live, locked, rest, o, st, old, hreads, ho, hid, hopened, hstate, hstored, hlive,
      hbalance, hlow⟩ := h hunit userId cycle n (chg_of_inserted hh hnone hsome)
    have hst : (s.commit p t).rows (.alertState userId) = some st := by
      change t.row s.rows _ = _
      rw [Tx.row, hstate]
    have hagree : readsAgree userId reads = true ↔
        o.balanceToman = n.payloadSnapshot.balanceToman := by
      rw [readsAgree, hreads]
      dsimp only
      generalize locked.rows (.user userId) = found at hbalance ⊢
      cases found with
      | none => exact ⟨fun _ => hbalance, fun _ => rfl⟩
      | some user =>
        have hbalance : o.balanceToman = user.balanceToman := hbalance
        dsimp only [Option.all_some]
        rw [decide_eq_true_eq, hlive, hbalance, Option.some.injEq]
        exact eq_comm
    rw [hagree]
    constructor
    · rintro ⟨o', st', -, -, -, hst', hstored', htext, -⟩
      cases hst.symm.trans hst'
      rw [← hstored, hstored']
      exact (formatTomanAmount_inj htext).symm
    · intro heq
      refine ⟨o, st, ?_, hid, hopened, hst, hstored, ?_, hlow⟩
      · rw [s.journal_commit, List.drop_left]
        exact ho
      · rw [heq]
        rfl

/-! A low user without a state, a unit of a backfill, and a top-up that stays below the
    threshold. -/

def lowConfig : FrozenConfig where
  thresholdToman := 100
  rearmBoundaryToman := 200
  configVersion := 1

def lowUser : AlertStore where
  rows
    | .user id => if id = 1 then some { balanceToman := 50 } else none
    | .alertState _ => none
    | .notification _ _ => none
    | .backfillRun id => if id = 1 then
        some { status := .RUNNING, thresholdToman := 100, rearmBoundaryToman := 200,
               configVersion := 1, ownerToken := some 7, leaseExpiresAt := some 1000 } else none
  log := [⟨0, { entries := [.user 1, .backfillRun 1] }⟩]
  world := ()

def toppedUp : ℕ → AlertWriter
  | 0 => .unit 1 7 1 lowConfig
  | _ => .other (do let _ ← walletMutation (fun _ => some lowConfig) 1 30; return ())

/-- The unit before its commit: its message and the stored balance after it. -/
def sentBy (events : List (Event AlertChoice)) (balance stored : ℤ) : Bool :=
  ((Config.start lowUser fun p => (toppedUp p).program).exec events).any fun c =>
    (c.store.rows (.notification 1 1)).isNone &&
      (c.step (.run 0 {})).any fun c' =>
        (c'.store.rows (.notification 1 1)).any (·.payloadSnapshot.balanceToman = balance) &&
          (c'.store.rows (.alertState 1)).any (·.lastObservedBalanceToman = stored)

theorem sentBy_iff {events : List (Event AlertChoice)} {balance stored : ℤ}
    (h : sentBy events balance stored = true) : ∃ (c c' : AlertConfig) (n : AutomatedNotification)
      (st : LowBalanceAlertState),
      Run anyStep (Config.start lowUser fun p => (toppedUp p).program) c ∧
      c.step (.run 0 {}) = some c' ∧ c.store.rows (.notification 1 1) = none ∧
      c'.store.rows (.notification 1 1) = some n ∧ n.payloadSnapshot.balanceToman = balance ∧
      c'.store.rows (.alertState 1) = some st ∧ st.lastObservedBalanceToman = stored := by
  obtain ⟨c, hrun, hc⟩ := Run.of_exec_any h
  rw [Bool.and_eq_true, Option.isNone_iff_eq_none] at hc
  obtain ⟨c', hstep, hc'⟩ := (Option.any_eq_true _ _).mp hc.2
  rw [Bool.and_eq_true] at hc'
  obtain ⟨n, hn, hbalance⟩ := (Option.any_eq_true _ _).mp hc'.1
  obtain ⟨st, hst, hstored⟩ := (Option.any_eq_true _ _).mp hc'.2
  rw [decide_eq_true_eq] at hbalance hstored
  exact ⟨c, c', n, st, hrun, hstep, hc.1, hn, hbalance, hst, hstored⟩

theorem undisturbed_sends : sentBy (List.replicate 16 (.run 0 {})) 50 50 = true := by
  decide +kernel

theorem alert_texts_match_undisturbed : ∃ (c c' : AlertConfig) (n : AutomatedNotification),
    Run anyStep (Config.start lowUser fun p => (toppedUp p).program) c ∧
    c.step (.run 0 {}) = some c' ∧ c'.store.rows (.notification 1 1) = some n ∧
    (TextMatches c.store c'.store 1 1 n ↔ readsAgree 1 (c.threads 0).loc.reads = true) := by
  obtain ⟨c, c', n, st, hrun, hstep, hnone, hn, -⟩ := sentBy_iff undisturbed_sends
  exact ⟨c, c', n, hrun, hstep, hn, alert_texts_match_iff toppedUp hrun hstep rfl hnone hn⟩

/-- The top-up commits after the unit has read the user and before it locks the state. -/
def toppedUpBetween : List (Event AlertChoice) :=
  List.replicate 5 (.run 0 {}) ++ List.replicate 11 (.run 1 {}) ++ List.replicate 11 (.run 0 {})

theorem toppedUp_sends : sentBy toppedUpBetween 50 80 = true := by decide +kernel

/-- STALE: the unit decides on 80 and stores it, and its message says 50. -/
theorem stale_text_sent : ∃ (c c' : AlertConfig) (n : AutomatedNotification),
    Run anyStep (Config.start lowUser fun p => (toppedUp p).program) c ∧
    c.step (.run 0 {}) = some c' ∧ (toppedUp 0).isUnit = true ∧
    c.store.rows (.notification 1 1) = none ∧ c'.store.rows (.notification 1 1) = some n ∧
    ¬ TextMatches c.store c'.store 1 1 n := by
  obtain ⟨c, c', n, st, hrun, hstep, hnone, hn, hbalance, hst, hstored⟩ := sentBy_iff toppedUp_sends
  refine ⟨c, c', n, hrun, hstep, rfl, hnone, hn, ?_⟩
  rintro ⟨o, st', -, -, -, hst', hstored', htext, -⟩
  cases hst.symm.trans hst'
  have heq := formatTomanAmount_inj htext
  omega

end ZedBot.LowBalance
