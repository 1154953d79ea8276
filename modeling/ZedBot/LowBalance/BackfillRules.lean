import ZedBot.LowBalance.AlertRules
import ZedBot.LowBalance.Backfill

/-! The rules of the backfill: what a commit of a process may do to a run.

    The history tells which ids a worker has read and which of them it has still to process. A worker
    knows the cursor of a run and its own page as long as it owns the run; ownership that is lost is
    not regained, because a token is installed once. -/

namespace ZedBot.LowBalance
open ReadCommitted

/-! ### Pages in the history -/

/-- What a worker has read of a run: the cursor it asked with, the ids and those still to process. -/
structure Page where
  cursor : Option ℕ
  ids : List ℕ
  rest : List ℕ
  deriving DecidableEq, Repr

/-- An entry about run `runId`. -/
def AlertEntry.ofRun (runId : ℕ) : AlertEntry → Bool
  | .page r _ _ _ | .unit r _ _ _ => r = runId
  | _ => false

/-- The entries about run `runId`. -/
def runEntries (runId : ℕ) (js : List AlertEntry) : List AlertEntry := js.filter (·.ofRun runId)

/-- An entry of another run or of another worker leaves the page of a worker. -/
def Page.step (runId ownerToken : ℕ) (pg : Option Page) : AlertEntry → Option Page
  | .page r o cursor ids =>
    if r = runId ∧ o = ownerToken then some { cursor := cursor, ids := ids, rest := ids } else pg
  | .unit r o _ _ =>
    if r = runId ∧ o = ownerToken then pg.map fun q => { q with rest := q.rest.tail } else pg
  | _ => pg

/-- The latest page of a worker in a run. -/
def pageOf (runId ownerToken : ℕ) (js : List AlertEntry) : Option Page :=
  js.foldl (Page.step runId ownerToken) none

theorem Page.step_of_not_ofRun {runId ownerToken : ℕ} {e : AlertEntry} (h : e.ofRun runId = false)
    (pg : Option Page) : Page.step runId ownerToken pg e = pg := by
  cases e with
  | page r o cursor ids | unit r o u res =>
    simp only [AlertEntry.ofRun, decide_eq_false_iff_not] at h
    simp [Page.step, h]
  | _ => rfl

theorem foldl_runEntries (runId ownerToken : ℕ) (es : List AlertEntry) :
    ∀ pg, es.foldl (Page.step runId ownerToken) pg =
      (runEntries runId es).foldl (Page.step runId ownerToken) pg := by
  induction es with
  | nil => exact fun _ => rfl
  | cons e es ih =>
    intro pg
    rcases Bool.eq_false_or_eq_true (e.ofRun runId) with h | h
    · have hfilter : runEntries runId (e :: es) = e :: runEntries runId es := by
        simp [runEntries, h]
      rw [hfilter, List.foldl_cons, List.foldl_cons, ih]
    · have hfilter : runEntries runId (e :: es) = runEntries runId es := by simp [runEntries, h]
      rw [List.foldl_cons, Page.step_of_not_ofRun h, hfilter, ih]

theorem pageOf_append (runId ownerToken : ℕ) (js es : List AlertEntry) :
    pageOf runId ownerToken (js ++ es) =
      (runEntries runId es).foldl (Page.step runId ownerToken) (pageOf runId ownerToken js) := by
  rw [pageOf, List.foldl_append, foldl_runEntries _ _ es]
  rfl

/-! ### What a page reads -/

theorem candidates_pairwise (thresholdToman : ℤ) (v : AlertView) :
    (candidates thresholdToman v).Pairwise (· < ·) := by
  unfold candidates
  generalize hl : (userIds v.journal).dedup.filter _ = l
  have hnodup : l.Nodup := by
    rw [← hl]
    exact (List.nodup_dedup _).filter _
  have hle := List.pairwise_insertionSort (· ≤ ·) l
  have hne := ((List.perm_insertionSort (· ≤ ·) l).nodup_iff.mpr hnodup)
  exact hle.imp₂ (fun _ _ hab hab' => lt_of_le_of_ne hab hab') hne

theorem mem_candidates {thresholdToman : ℤ} {v : AlertView} {id : ℕ} :
    id ∈ candidates thresholdToman v ↔ AlertEntry.user id ∈ v.journal ∧
      (v.rows (.user id)).any (isCandidate thresholdToman) = true := by
  have hids : id ∈ userIds v.journal ↔ AlertEntry.user id ∈ v.journal := by
    simp only [userIds, List.mem_filterMap]
    constructor
    · rintro ⟨e, he, hid⟩
      cases e <;> cases hid
      exact he
    · exact fun h => ⟨_, h, rfl⟩
  simp [candidates, hids, List.mem_dedup]

variable {cursor : Option ℕ} {take : ℕ} {ids : List ℕ}

theorem pageAfter_pairwise (h : ids.Pairwise (· < ·)) :
    (pageAfter cursor take ids).Pairwise (· < ·) := by
  cases cursor with
  | none => exact h.take
  | some c => exact ((h.filter _).drop).take

/-- A page lies strictly after its cursor: what is dropped is at or after the cursor. -/
theorem lt_of_mem_pageAfter (h : ids.Pairwise (· < ·)) {c id : ℕ}
    (hid : id ∈ pageAfter (some c) take ids) : c < id := by
  have hs := h.filter (c ≤ ·)
  have hdrop := List.mem_of_mem_take hid
  cases hf : ids.filter (c ≤ ·) with
  | nil =>
    rw [hf] at hdrop
    cases hdrop
  | cons x xs =>
    have hx : x ∈ ids.filter (c ≤ ·) := by rw [hf]; exact .head _
    have hcx := (List.mem_filter.mp hx).2
    rw [hf] at hs hdrop
    have := (List.pairwise_cons.mp hs).1 id hdrop
    simp only [decide_eq_true_eq] at hcx
    omega

/-! ### The rules -/

variable {p q : ℕ} {r : List AlertStore} {s s' : AlertStore} {t : AlertTx} {runId : ℕ}

/-- What a commit of process `p` may do to a run, with the entries about it. -/
inductive RunMove (p runId : ℕ) (s : AlertStore) :
    Option LowBalanceBackfillRun → Option LowBalanceBackfillRun → List AlertEntry → Prop
  | idle (row : Option LowBalanceBackfillRun) : RunMove p runId s row row []
  | created (config : FrozenConfig) (now : ℕ) :
      RunMove p runId s none
        (some { thresholdToman := config.thresholdToman
                rearmBoundaryToman := config.rearmBoundaryToman
                configVersion := config.configVersion
                createdAt := now }) []
  | claimed (row : LowBalanceBackfillRun) (now : ℕ) (h : row.isClaimable now = true)
      (hpage : pageOf runId p s.journal = none) :
      RunMove p runId s (some row) (some (row.claim p now)) []
  | renewed (row : LowBalanceBackfillRun) (now : ℕ) (h : row.ownedBy p = true) :
      RunMove p runId s (some row) (some (row.renew now)) []
  | batchFailed (row : LowBalanceBackfillRun) : RunMove p runId s (some row) (some row.batchFailed) []
  | released (row : LowBalanceBackfillRun) (h : row.ownedBy p = true) :
      RunMove p runId s (some row) (some row.release) []
  | completed (row : LowBalanceBackfillRun) (now : ℕ) (page : Page) (h : row.ownedBy p = true)
      (hpage : pageOf runId p s.journal = some page) (hrest : page.rest = [])
      (hlast : page.ids.length < LOW_BALANCE_BACKFILL_BATCH) :
      RunMove p runId s (some row) (some (row.complete now)) []
  | cancelled (row : LowBalanceBackfillRun) (now : ℕ) (h : row.isActive = true) :
      RunMove p runId s (some row) (some (row.cancel now)) []
  | read (row : LowBalanceBackfillRun) (cursor : Option ℕ)
      (h : row.ownedBy p = true → row.cursorUserId = cursor) :
      RunMove p runId s (some row) (some row) [.page runId p cursor
        (pageAfter cursor LOW_BALANCE_BACKFILL_BATCH (candidates row.thresholdToman (s.view {})))]
  | unit (row : LowBalanceBackfillRun) (page : Page) (userId : ℕ) (rest : List ℕ)
      (result : UnitResult) (h : row.ownedBy p = true)
      (hpage : pageOf runId p s.journal = some page) (hrest : page.rest = userId :: rest)
      (hcursor : ∀ c, row.cursorUserId = some c → c < userId) :
      RunMove p runId s (some row) (some (row.record userId result))
        [.unit runId p userId result]

/-- What a process may commit: `worker` is whether it is a tick, whose alerts come with a unit. -/
structure BackfillTx (worker : ℕ → Prop) (p : ℕ) (s : AlertStore) (t : AlertTx) : Prop where
  runs : ∀ runId, RunMove p runId s (s.rows (.backfillRun runId))
    (t.row s.rows (.backfillRun runId)) (runEntries runId t.entries)
  users : ∀ id o n, t.chg (.user id) = some (o, n) →
    n ≠ none ∧ (o = none → .user id ∈ t.entries)
  alerts : worker p → ∀ userId k, IsAlertOf userId k → t.Holds k →
    ∃ runId result, .unit runId p userId result ∈ t.entries

/-- The rules of the backfill. -/
def backfill (worker : ℕ → Prop) : Discipline AlertRow AlertEntry Unit where
  Inv _ := True
  Commits p _ s t := BackfillTx worker p s t
  Acts _ _ _ _ := True
  commits_empty _ :=
    ⟨fun _ => .idle _, fun _ _ _ h => (nomatch h), fun _ _ _ _ h => (h rfl).elim⟩
  inv_commit _ _ _ := trivial
  inv_act _ _ := trivial

/-! ### What a worker knows -/

/-- The owner of run `runId` knows its configuration, its cursor and its own page. -/
def Mine (p runId : ℕ) (config : FrozenConfig) (cursor : Option ℕ) (page : Option Page)
    (s : AlertStore) : Prop :=
  ∃ row, s.rows (.backfillRun runId) = some row ∧ row.frozenConfig = config ∧
    (row.ownedBy p = true → row.cursorUserId = cursor ∧ pageOf runId p s.journal = page)

/-- A worker that has not begun: no run carries its token and it has read nothing. -/
structure Unborn (p : ℕ) (s : AlertStore) : Prop where
  token : ∀ runId row, s.rows (.backfillRun runId) = some row → row.ownerToken ≠ some p
  page : ∀ runId, pageOf runId p s.journal = none

namespace LowBalanceBackfillRun

variable {row : LowBalanceBackfillRun} {userId : ℕ} {result : UnitResult}

theorem ownedBy_iff : row.ownedBy p = true ↔ row.status = .RUNNING ∧ row.ownerToken = some p := by
  simp [ownedBy]

@[simp] theorem record_status : (row.record userId result).status = row.status := by
  cases result <;> rfl

@[simp] theorem record_ownerToken : (row.record userId result).ownerToken = row.ownerToken := by
  cases result <;> rfl

@[simp] theorem record_cursorUserId : (row.record userId result).cursorUserId = some userId := by
  cases result <;> rfl

@[simp] theorem record_frozenConfig : (row.record userId result).frozenConfig = row.frozenConfig := by
  cases result <;> rfl

end LowBalanceBackfillRun

namespace RunMove

variable {row row' : Option LowBalanceBackfillRun} {es : List AlertEntry}

/-- The entries of one worker leave the pages of the others. -/
theorem pageOf_other (h : RunMove q runId s row row' es) (hq : q ≠ p) (pg : Option Page) :
    es.foldl (Page.step runId p) pg = pg := by
  cases h with
  | read row cursor h => simp [Page.step, hq]
  | unit row page userId rest result => simp [Page.step, hq]
  | _ => rfl

/-- A run stays, with its configuration. -/
theorem config {x : LowBalanceBackfillRun} (h : RunMove q runId s (some x) row' es) :
    ∃ x', row' = some x' ∧ x'.frozenConfig = x.frozenConfig := by
  cases h with
  | unit row page userId rest result => exact ⟨_, rfl, LowBalanceBackfillRun.record_frozenConfig⟩
  | _ => exact ⟨_, rfl, rfl⟩

/-- Another process leaves a run to its owner, or takes it away for good. -/
theorem owned_other {x x' : LowBalanceBackfillRun} (h : RunMove q runId s (some x) (some x') es)
    (hq : q ≠ p) (hx : x'.ownedBy p = true) :
    x.ownedBy p = true ∧ x'.cursorUserId = x.cursorUserId := by
  rw [LowBalanceBackfillRun.ownedBy_iff] at hx ⊢
  cases h with
  | idle | read | renewed | batchFailed => exact ⟨hx, rfl⟩
  | claimed => exact absurd (Option.some.inj hx.2) hq
  | released => cases hx.2
  | completed | cancelled => cases hx.1
  | unit row page userId rest result howned =>
    rw [LowBalanceBackfillRun.ownedBy_iff] at howned
    rw [LowBalanceBackfillRun.record_ownerToken, howned.2] at hx
    exact absurd (Option.some.inj hx.2) hq

/-- A token is installed by its worker only. -/
theorem token_other {x' : LowBalanceBackfillRun} (h : RunMove q runId s row (some x') es)
    (hq : q ≠ p) (hx : x'.ownerToken = some p) :
    ∃ x, row = some x ∧ x.ownerToken = some p := by
  cases h with
  | idle | read => exact ⟨_, rfl, hx⟩
  | renewed | batchFailed | cancelled => exact ⟨_, rfl, hx⟩
  | created | released | completed => cases hx
  | claimed => exact absurd (Option.some.inj hx) hq
  | unit x page userId rest result howned =>
    rw [LowBalanceBackfillRun.record_ownerToken] at hx
    exact ⟨x, rfl, hx⟩

end RunMove

variable {worker : ℕ → Prop}

/-- What a step has done to a run. -/
theorem runMove_of_step (hst : (backfill worker).Step q r s s') (runId : ℕ) :
    ∃ es, s'.journal = s.journal ++ es ∧ RunMove q runId s (s.rows (.backfillRun runId))
      (s'.rows (.backfillRun runId)) (runEntries runId es) := by
  cases hst with
  | commit t hh h => exact ⟨t.entries, s.journal_commit q t, h.runs runId⟩
  | act w h => exact ⟨[], (List.append_nil _).symm, .idle _⟩

variable {config : FrozenConfig} {cursor : Option ℕ} {page : Option Page}

theorem Mine.step (h : Mine p runId config cursor page s) (hq : q ≠ p)
    (hst : (backfill worker).Step q r s s') : Mine p runId config cursor page s' := by
  obtain ⟨row, hrow, hconfig, hown⟩ := h
  obtain ⟨es, hj, hmove⟩ := runMove_of_step hst runId
  rw [hrow] at hmove
  obtain ⟨row', hrow', hconfig'⟩ := hmove.config
  rw [hrow'] at hmove
  refine ⟨row', hrow', hconfig'.trans hconfig, fun howned => ?_⟩
  obtain ⟨howned, hcursor⟩ := hmove.owned_other hq howned
  rw [hj, pageOf_append, hmove.pageOf_other hq, hcursor]
  exact hown howned

theorem Mine.later {ks : AlertKey → Prop} (h : Mine p runId config cursor page s)
    (hl : (backfill worker).Later p ks s s') : Mine p runId config cursor page s' :=
  hl.stable (P := Mine p runId config cursor page) (fun hq _ hst h => h.step hq hst) trivial h

theorem Unborn.step (h : Unborn p s) (hq : q ≠ p) (hst : (backfill worker).Step q r s s') :
    Unborn p s' := by
  refine ⟨fun runId row hrow htoken => ?_, fun runId => ?_⟩
  · obtain ⟨es, -, hmove⟩ := runMove_of_step hst runId
    rw [hrow] at hmove
    obtain ⟨x, hx, htoken⟩ := hmove.token_other hq htoken
    exact h.token runId x hx htoken
  · obtain ⟨es, hj, hmove⟩ := runMove_of_step hst runId
    rw [hj, pageOf_append, hmove.pageOf_other hq, h.page runId]

theorem Unborn.later {ks : AlertKey → Prop} (h : Unborn p s)
    (hl : (backfill worker).Later p ks s s') : Unborn p s' :=
  hl.stable (P := Unborn p) (fun hq _ hst h => h.step hq hst) trivial h

end ZedBot.LowBalance
