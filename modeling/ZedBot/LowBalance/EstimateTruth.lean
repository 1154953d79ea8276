import ZedBot.LowBalance.BackfillTruth
import ZedBot.LowBalance.EstimateRules

/-! The estimate of a backfill is what a complete run queues, if nothing else changes and no unit
    fails. -/

namespace ZedBot.LowBalance
open ReadCommitted

variable {s₀ s s' : AlertStore} {runId p : ℕ} {config : FrozenConfig} {r : List AlertStore}
  {row : LowBalanceBackfillRun} {u : ℕ}

/-- A run that was just started; the runs before it have ended. -/
structure Started (runId : ℕ) (config : FrozenConfig) (s : AlertStore) : Prop where
  run : ∃ now, s.rows (.backfillRun runId) = some
    { thresholdToman := config.thresholdToman
      rearmBoundaryToman := config.rearmBoundaryToman
      configVersion := config.configVersion
      createdAt := now }
  others : ∀ id, id ≠ runId → ∀ row, s.rows (.backfillRun id) = some row →
    row.isActive = false ∧ row.ownerToken = none
  entries : ∀ id, runEntries id s.journal = []
  users : ∀ id, s.rows (.user id) ≠ none → .user id ∈ s.journal

theorem Started.unborn (h : Started runId config s) (p : ℕ) : Unborn p s where
  token id row hrow := by
    rcases eq_or_ne id runId with rfl | hne
    · obtain ⟨now, hnew⟩ := h.run
      cases hnew.symm.trans hrow
      nofun
    · rw [(h.others id hne row hrow).2]
      nofun
  page id := by
    rw [pageOf, foldl_runEntries, h.entries id]
    rfl

theorem Started.undisturbed (h : Started runId config s) : Undisturbed s runId config s where
  users _ := rfl
  listed := rfl
  run := by
    obtain ⟨now, hnew⟩ := h.run
    exact ⟨_, hnew, rfl, nofun⟩
  others id hne row hrow := (h.others id hne row hrow).1

/-- Any number of workers, and nothing else. -/
def workers (p : ℕ) : Alerts Unit := BackfillProcess.tick.program p

theorem workers_backfill (h : Started runId config s) :
    Good (backfill fun _ => True) (Config.start s workers) :=
  good_start trivial fun p => (wp_seq _ _).mpr (wp_mono _ (fun _ _ _ _ => trivial)
    (wp_runLowBalanceBackfillTick (h.unborn p)))

theorem workers_estimating (h : Started runId config s)
    (hproper : config.thresholdToman ≤ config.rearmBoundaryToman) :
    Good (estimating s runId config) (Config.start s workers) :=
  good_start h.undisturbed fun _ => (wp_seq _ _).mpr (wp_mono _ (fun _ _ _ _ => trivial)
    ((accepts_runLowBalanceBackfillTick hproper).run [] s h.undisturbed))

/-! ### Units and counters -/

/-- A unit of the run whose outcome is `queued`. -/
def isQueuedUnit (runId : ℕ) : AlertEntry → Bool
  | .unit r _ _ .queued => r = runId
  | _ => false

/-- The number of units that a run has queued. -/
def queuedUnits (runId : ℕ) (js : List AlertEntry) : ℕ := js.countP (isQueuedUnit runId)

theorem queuedUnits_append (js es : List AlertEntry) :
    queuedUnits runId (js ++ es) =
      queuedUnits runId js + queuedUnits runId (runEntries runId es) := by
  have hfilter : queuedUnits runId es = queuedUnits runId (runEntries runId es) := by
    rw [queuedUnits, queuedUnits, runEntries, List.countP_filter]
    refine List.countP_congr fun e _ => ?_
    rcases e with _ | _ | _ | _ | _ | ⟨r, q, v, _ | _ | _⟩ <;>
      simp [isQueuedUnit, AlertEntry.ofRun]
  rw [← hfilter]
  exact List.countP_append

/-- What has happened so far is what the aggregate has counted at the start. -/
structure Tallied (s₀ : AlertStore) (runId : ℕ) (config : FrozenConfig) (s : AlertStore) :
    Prop where
  counted : Counted runId s
  covering : ∀ u, IsLow s₀ config u → Covering runId u s
  units : ∀ q u result, .unit runId q u result ∈ s.journal → IsLow s₀ config u ∧
    (result ≠ .failed → (result = .queued ↔ isRecipient s₀.rows u = true))
  untouched : ∀ u, u ∉ unitsOf runId s.journal → ∀ k, IsAlertOf u k → s.rows k = s₀.rows k
  queued : ∀ row, s.rows (.backfillRun runId) = some row →
    row.queuedCount = queuedUnits runId s.journal

theorem RunMove.unit_ahead {o n : Option LowBalanceBackfillRun} {es : List AlertEntry} {q : ℕ}
    {result : UnitResult} (h : RunMove p runId s o n es) (hes : .unit runId q u result ∈ es) :
    ∃ x, o = some x ∧ ∀ c, x.cursorUserId = some c → c < u := by
  cases h with
  | unit x page v rest res hown hpage hrest hcursor =>
    cases List.mem_singleton.mp hes
    exact ⟨x, rfl, hcursor⟩
  | read => cases List.mem_singleton.mp hes
  | _ => cases hes

theorem RunMove.queued {o n : Option LowBalanceBackfillRun} {es : List AlertEntry} {m : ℕ}
    (h : RunMove p runId s o n es) (hnew : o = none → m = 0)
    (ho : ∀ x, o = some x → x.queuedCount = m) :
    ∀ x, n = some x → x.queuedCount = m + queuedUnits runId es := by
  cases h with
  | idle row => assumption
  | created =>
    rintro - ⟨⟩
    rw [hnew rfl]
    rfl
  | unit x page v rest result =>
    intro y hy
    have hx := ho x rfl
    rw [← Option.some.inj hy]
    cases result <;> simp [LowBalanceBackfillRun.record, queuedUnits, isQueuedUnit, hx]
  | claimed | renewed | batchFailed | released | completed | cancelled | read =>
    intro y hy
    cases hy
    exact (ho _ rfl :)

theorem mem_unitsOf {js : List AlertEntry} :
    u ∈ unitsOf runId js ↔ ∃ q result, AlertEntry.unit runId q u result ∈ js := by
  rw [unitsOf, List.mem_filterMap]
  constructor
  · rintro ⟨e, he, heq⟩
    rcases e with _ | _ | _ | _ | _ | ⟨id, q, v, result⟩ <;> simp only [reduceCtorEq] at heq
    split at heq
    · cases heq
      subst_vars
      exact ⟨q, result, he⟩
    · cases heq
  · rintro ⟨q, result, he⟩
    exact ⟨_, he, by simp⟩

/-- Nobody has a unit before their turn. -/
theorem Counted.not_mem_of_ahead (h : Counted runId s)
    (hrow : s.rows (.backfillRun runId) = some row) (hu : ∀ c, row.cursorUserId = some c → c < u) :
    u ∉ unitsOf runId s.journal := by
  intro hmem
  have hlt := lt_of_getLast?_lt h.sorted (fun c hc => hu c ((h.row row hrow).1.trans hc)) u hmem
  omega

theorem isRecipient_congr {rows rows' : ∀ k, AlertRow k} (huser : rows (.user u) = rows' (.user u))
    (halerts : ∀ k, IsAlertOf u k → rows k = rows' k) :
    isRecipient rows u = isRecipient rows' u := by
  have hnotified : alreadyNotified rows u (rows (.alertState u)) =
      alreadyNotified rows' u (rows' (.alertState u)) := by
    rw [halerts _ (by simp)]
    exact alreadyNotified_congr _ fun cycle => halerts _ (by simp)
  rw [isRecipient, isRecipient, huser, hnotified]

theorem Tallied.step (h : Tallied s₀ runId config s) (hi : Undisturbed s₀ runId config s)
    (hst : (backfill fun _ => True).Step p r s s')
    (hst' : (estimating s₀ runId config).Step p r s s') : Tallied s₀ runId config s' := by
  obtain ⟨es, hj, hmove⟩ := runMove_of_step hst runId
  obtain ⟨row, hrow, hconfig, hcursor⟩ := hi.run
  cases hst' with
  | act w h => exact h.elim
  | commit t hh ht =>
    obtain rfl : t.entries = es := by
      rw [s.journal_commit] at hj
      exact List.append_cancel_left hj
    have hunit : ∀ q u result, .unit runId q u result ∈ t.entries →
        u ∉ unitsOf runId s.journal := by
      intro q u result he
      obtain ⟨x, hx, hahead⟩ := hmove.unit_ahead
        (List.mem_filter.mpr ⟨he, by simp [AlertEntry.ofRun]⟩)
      exact h.counted.not_mem_of_ahead hx hahead
    have hlow : ∀ u, IsLow s₀ config u → isLow row u s = true := by
      intro u hu
      have hthreshold : row.thresholdToman = config.thresholdToman := by rw [← hconfig]; rfl
      rwa [isLow, hi.users u, hthreshold]
    refine ⟨h.counted.step hst, fun u hu => (h.covering u hu).step hst ?_ ?_, ?_, ?_, ?_⟩
    · simp [staysLow, hrow, hlow u hu]
    · rw [cursorKept, s.journal_commit, List.drop_left, List.all_eq_true]
      intro e he
      rcases e with _ | _ | _ | _ | ⟨id, q, _ | c, ids⟩ | _ <;> try rfl
      simp only [hrow, Option.all_some, decide_eq_true_eq]
      exact .inr (.inl (hlow c (ht.pages id q (some c) ids he c rfl)))
    · intro q u result he
      rw [s.journal_commit] at he
      rcases List.mem_append.mp he with he | he
      · exact h.units q u result he
      · obtain ⟨-, hu, hresult⟩ := ht.units _ q u result he
        have hsame := isRecipient_congr (hi.users u) (h.untouched u (hunit q u result he))
        exact ⟨hu, fun hne => by rw [hresult hne, hsame]⟩
    · intro u hu k hk
      rw [s.journal_commit, mem_unitsOf] at hu
      have hfree : t.chg k = none := by
        by_contra hheld
        obtain ⟨result, he⟩ := ht.alerts u k hk hheld
        exact hu ⟨p, result, List.mem_append_right _ he⟩
      refine (Tx.row_of_chg hfree).trans (h.untouched u (fun hmem => hu ?_) k hk)
      obtain ⟨q, result, he⟩ := mem_unitsOf.mp hmem
      exact ⟨q, result, List.mem_append_left _ he⟩
    · rw [s.journal_commit, queuedUnits_append]
      refine hmove.queued (fun hnone => ?_) h.queued
      rw [hrow] at hnone
      cases hnone

theorem Started.tallied (h : Started runId config s) : Tallied s runId config s := by
  have hnone : unitsOf runId s.journal = [] := by
    rw [← List.nil_append s.journal, unitsOf_append, h.entries runId]
    rfl
  obtain ⟨now, hnew⟩ := h.run
  refine ⟨⟨?_, fun _ => hnone, fun row hrow => ?_⟩,
    fun u _ => ⟨h.users, fun q page hpage => ?_, ?_⟩,
    fun q u result he => ?_, fun _ _ _ _ => rfl, fun row hrow => ?_⟩
  · rw [hnone]
    exact .nil
  · cases hnew.symm.trans hrow
    rw [hnone]
    exact ⟨rfl, rfl⟩
  · rw [(h.unborn q).page runId] at hpage
    cases hpage
  · rw [hnew]
    refine ⟨?_, ?_, ?_⟩
    · rintro _ c ⟨⟩ hc
      cases hc
    · rintro _ q page ⟨⟩ hq
      cases (LowBalanceBackfillRun.ownedBy_iff.mp hq).2
    · rintro _ ⟨⟩ hcompleted
      cases hcompleted
  · have hmem : u ∈ unitsOf runId s.journal := mem_unitsOf.mpr ⟨q, result, he⟩
    rw [hnone] at hmem
    cases hmem
  · cases hnew.symm.trans hrow
    rw [← List.nil_append s.journal, queuedUnits_append, h.entries runId]
    rfl

/-- In a history without failures the units of recipients are queued, and no others. -/
theorem queuedUnits_eq {rows : ∀ k, AlertRow k} {js : List AlertEntry}
    (h : ∀ q u result, .unit runId q u result ∈ js →
      (result = .queued ↔ isRecipient rows u = true)) :
    queuedUnits runId js = (unitsOf runId js).countP (isRecipient rows) := by
  induction js with
  | nil => rfl
  | cons e es ih =>
    have hrest := ih fun q u result he => h q u result (.tail _ he)
    have hunits : unitsOf runId ([e] ++ es) = unitsOf runId [e] ++ unitsOf runId es :=
      List.filterMap_append
    have hqueued : queuedUnits runId ([e] ++ es) = queuedUnits runId [e] + queuedUnits runId es :=
      List.countP_append
    have hhead : queuedUnits runId [e] = (unitsOf runId [e]).countP (isRecipient rows) := by
      rcases e with _ | _ | _ | _ | _ | ⟨id, q, u, result⟩ <;> try rfl
      rcases eq_or_ne id runId with rfl | hne
      · have hu := h q u result (.head _)
        cases result <;> simp_all [queuedUnits, isQueuedUnit, unitsOf]
      · cases result <;> simp [queuedUnits, isQueuedUnit, unitsOf, hne]
    rw [← List.singleton_append, hqueued, hunits, List.countP_append, hhead, hrest]

/-- ESTIMATED: if nothing else changes and no unit fails, a complete run queues as many messages as
    the aggregate has counted at its start, and every candidate is counted in one class. -/
theorem backfill_estimated (h₀ : Started runId config s₀)
    (hproper : config.thresholdToman ≤ config.rearmBoundaryToman) {c : AlertConfig}
    (hrun : Run anyStep (Config.start s₀ workers) c)
    (hrow : c.store.rows (.backfillRun runId) = some row) (hdone : row.status = .COMPLETED)
    (hfine : ∀ q u, .unit runId q u .failed ∉ c.store.journal) :
    let counts := countBackfillCandidates config (s₀.view {})
    queuedUnits runId c.store.journal = counts.expectedRecipients ∧
      row.queuedCount = counts.expectedRecipients ∧
      counts.belowThreshold = counts.lowBalanceOptOuts + counts.paymentCategoryOptOuts +
        counts.alreadyNotified + counts.expectedRecipients := by
  have htallied : Tallied s₀ runId config c.store := by
    refine (hrun.allowed (workers_backfill h₀)).keeps (workers_estimating h₀ hproper)
      (fun hi hst' hst h => ?_) h₀.tallied
    rcases hst.2 with rfl | ⟨-, hst⟩
    · exact h
    · exact h.step hi hst hst'
  have hqueued : queuedUnits runId c.store.journal =
      (unitsOf runId c.store.journal).countP (isRecipient s₀.rows) :=
    queuedUnits_eq fun q u result he =>
      (htallied.units q u result he).2 fun hne => hfine q u (hne ▸ he)
  -- the units are the candidates
  have hunits : (unitsOf runId c.store.journal).Perm
      (candidates config.thresholdToman (s₀.view {})) := by
    refine (List.perm_ext_iff_of_nodup (htallied.counted.sorted.imp fun h => h.ne)
      ((candidates_pairwise _ _).imp fun h => h.ne)).mpr fun u => ?_
    rw [mem_candidates]
    constructor
    · intro hu
      obtain ⟨q, result, he⟩ := mem_unitsOf.mp hu
      have hlow := (htallied.units q u result he).1
      refine ⟨List.mem_append_left _ (h₀.users u fun hnone => ?_), hlow⟩
      rw [IsLow, hnone] at hlow
      cases hlow
    · intro hu
      exact (htallied.covering u hu.2).covers.ended row hrow hdone
  have hestimate := hqueued.trans (hunits.countP_eq _)
  exact ⟨hestimate, (htallied.queued row hrow).trans hestimate,
    countBackfillCandidates_sum config _⟩

/-! Four low users: re-armed after cycle 3, never seen, alerted with a message, and opted out. -/

def fourUsers : AlertStore where
  rows
    | .user id => if id = 1 ∨ id = 2 ∨ id = 3 then some {} else if id = 4 then
        some { lowBalanceNotificationsEnabled := false } else none
    | .alertState id => if id = 1 then some (aState .ARMED 3) else if id = 3 then
        some (aState .ALERTED 2) else none
    | .notification id cycle =>
      if id = 1 ∧ cycle = 3 ∨ id = 3 ∧ cycle = 2 then some (aMessage id cycle) else none
    | .backfillRun id => if id = 1 then
        some { thresholdToman := 100, rearmBoundaryToman := 200, configVersion := 1 } else none
  log := [⟨0, { entries := [.user 1, .user 2, .user 3, .user 4, .backfillRun 1] }⟩]
  world := ()
where
  aState (state : LowBalanceAlertStateValue) (cycle : ℕ) : LowBalanceAlertState :=
    { state := state
      alertCycle := cycle
      lastObservedBalanceToman := 0
      lastThresholdToman := 100
      lastRearmBoundaryToman := 200
      lastConfigVersion := 1 }
  aMessage (id cycle : ℕ) : AutomatedNotification :=
    { userId := id
      ruleVersion := 1
      scheduledFor := 0
      payloadSnapshot := (draftFor smallConfig 0 .event cycle).payloadSnapshot }

theorem fourUsers_started : Started 1 smallConfig fourUsers where
  run := ⟨0, rfl⟩
  others id hid row hrow := by
    rw [show fourUsers.rows (.backfillRun id) = none from if_neg hid] at hrow
    cases hrow
  entries _ := rfl
  users id h := by
    by_cases hid : id = 1 ∨ id = 2 ∨ id = 3
    · rcases hid with rfl | rfl | rfl <;> decide
    · rcases eq_or_ne id 4 with rfl | hne
      · decide
      · exact absurd ((if_neg hid).trans (if_neg hne)) h

theorem fourUsers_run :
    ((Config.start fourUsers workers).exec (List.replicate 66 (.run 0 {}))).any (fun c =>
      ((c.store.rows (.backfillRun 1)).any fun row => row.status = .COMPLETED) &&
        c.store.journal.all fun
          | .unit _ _ _ .failed => false
          | _ => true) = true := by decide +kernel

theorem backfill_estimated_four : ∃ (c : AlertConfig) (row : LowBalanceBackfillRun),
    Run anyStep (Config.start fourUsers workers) c ∧
    c.store.rows (.backfillRun 1) = some row ∧ row.status = .COMPLETED ∧ row.queuedCount = 2 ∧
    queuedUnits 1 c.store.journal = 2 := by
  obtain ⟨c, hrun, hc⟩ := Run.of_exec_any fourUsers_run
  rw [Bool.and_eq_true, List.all_eq_true] at hc
  obtain ⟨row, hrow, hdone⟩ := (Option.any_eq_true _ _).mp hc.1
  rw [decide_eq_true_eq] at hdone
  obtain ⟨hunits, hcount, -⟩ := backfill_estimated fourUsers_started (by decide) hrun hrow hdone
    fun q u he => by cases hc.2 _ he
  have hexpected : (countBackfillCandidates smallConfig
      (fourUsers.view {})).expectedRecipients = 2 := by decide +kernel
  exact ⟨c, row, hrun, hrow, hdone, hcount.trans hexpected, hunits.trans hexpected⟩

end ZedBot.LowBalance
