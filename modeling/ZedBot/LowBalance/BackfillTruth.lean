import ZedBot.LowBalance.BackfillWorkers

/-! What a backfill run says is true: its counters add up, only its owner moves it, and no user is
    counted twice. It covers the users that stay low only where no page resumes from a user that has
    left the filter. -/

namespace ZedBot.LowBalance
open ReadCommitted

variable {p runId : ℕ} {r : List AlertStore} {s s' : AlertStore} {worker : ℕ → Prop}

/-! ### The fence -/

/-- A cursor stays or moves forward in id order. -/
def Forward (cursor cursor' : Option ℕ) : Prop :=
  cursor' = cursor ∨ ∃ u, cursor' = some u ∧ ∀ c, cursor = some c → c < u

/-- A step of process `p` moves the cursor of a run forward and as its owner only, and leaves a run that
    is not active as it ended; where `p` is a tick, it touches the alerts of a user only as the owner
    of a run whose cursor it moves to the user. -/
structure Fenced (procs : ℕ → BackfillProcess) (p : ℕ) (s s' : AlertStore) : Prop where
  run : ∀ runId row, s.rows (.backfillRun runId) = some row →
    ∃ row', s'.rows (.backfillRun runId) = some row' ∧
      Forward row.cursorUserId row'.cursorUserId ∧
      (row'.cursorUserId ≠ row.cursorUserId → row.ownedBy p = true) ∧
      (row.isActive = false → row'.status = row.status)
  alerts : isTick procs p → ∀ userId k, IsAlertOf userId k → s'.rows k ≠ s.rows k →
    ∃ runId row row', s.rows (.backfillRun runId) = some row ∧ row.ownedBy p = true ∧
      s'.rows (.backfillRun runId) = some row' ∧ row'.cursorUserId = some userId

namespace RunMove

variable {row row' : Option LowBalanceBackfillRun} {x : LowBalanceBackfillRun}
  {es : List AlertEntry}

theorem isActive_of_ownedBy (h : x.ownedBy p = true) : x.isActive = true := by
  rw [LowBalanceBackfillRun.ownedBy_iff] at h
  simp [LowBalanceBackfillRun.isActive, h.1]

theorem forward (h : RunMove p runId s (some x) row' es) :
    ∃ x', row' = some x' ∧ Forward x.cursorUserId x'.cursorUserId ∧
      (x'.cursorUserId ≠ x.cursorUserId → x.ownedBy p = true) ∧
      (x.isActive = false → x'.status = x.status) := by
  have habsurd : ∀ {P : Prop}, x.isActive = true → x.isActive = false → P :=
    fun h h' => by rw [h] at h'; cases h'
  cases h with
  | idle | renewed | batchFailed | read | released =>
    exact ⟨_, rfl, .inl rfl, fun h => absurd rfl h, fun _ => rfl⟩
  | claimed row now h =>
    rw [LowBalanceBackfillRun.isClaimable, decide_eq_true_eq] at h
    exact ⟨_, rfl, .inl rfl, fun h => absurd rfl h, habsurd h.1⟩
  | completed row now page h =>
    exact ⟨_, rfl, .inl rfl, fun h => absurd rfl h, habsurd (isActive_of_ownedBy h)⟩
  | cancelled row now h => exact ⟨_, rfl, .inl rfl, fun h => absurd rfl h, habsurd h⟩
  | unit row page userId rest result h hpage hrest hcursor =>
    exact ⟨_, rfl, .inr ⟨userId, LowBalanceBackfillRun.record_cursorUserId, hcursor⟩, fun _ => h,
      fun _ => LowBalanceBackfillRun.record_status⟩

/-- A unit is the work of the owner. -/
theorem of_unit {q userId : ℕ} {result : UnitResult} (h : RunMove p runId s row row' es)
    (hes : .unit runId q userId result ∈ es) :
    ∃ x, row = some x ∧ x.ownedBy p = true ∧ row' = some (x.record userId result) := by
  cases h with
  | unit x page u rest res h =>
    cases List.mem_singleton.mp hes
    exact ⟨x, rfl, h, rfl⟩
  | read => cases List.mem_singleton.mp hes
  | _ => cases hes

/-- The counters of a run add up. -/
theorem counts (h : RunMove p runId s row row' es)
    (hrow : ∀ x, row = some x → x.processedCount = x.queuedCount + x.skippedCount) :
    ∀ x, row' = some x → x.processedCount = x.queuedCount + x.skippedCount := by
  cases h with
  | idle => exact hrow
  | created => exact fun x hx => by cases hx; rfl
  | unit x page userId rest result =>
    rintro - ⟨⟩
    have := hrow x rfl
    cases result <;> simp only [LowBalanceBackfillRun.record] <;> omega
  | claimed | renewed | batchFailed | released | completed | cancelled | read =>
    intro x hx
    cases hx
    exact (hrow _ rfl :)

end RunMove

theorem mem_runEntries {e : AlertEntry} {es : List AlertEntry} :
    e ∈ runEntries runId es ↔ e ∈ es ∧ e.ofRun runId = true := List.mem_filter

/-- Every step that the rules allow is fenced. -/
theorem fenced_of_step {procs : ℕ → BackfillProcess}
    (hst : (backfill (isTick procs)).Step p r s s') : Fenced procs p s s' := by
  refine ⟨fun runId row hrow => ?_, fun hp userId k hk hne => ?_⟩
  · obtain ⟨es, -, hmove⟩ := runMove_of_step hst runId
    rw [hrow] at hmove
    exact hmove.forward
  · cases hst with
    | act w _ => exact absurd rfl hne
    | commit t hh h =>
      have hheld : t.Holds k := fun hnone => hne (s.commit_rows_of_free p (by simp [Tx.Holds, hnone]))
      obtain ⟨runId, result, hmem⟩ := h.alerts hp userId k hk hheld
      obtain ⟨x, hx, hown, hx'⟩ := (h.runs runId).of_unit
        (mem_runEntries.mpr ⟨hmem, by simp [AlertEntry.ofRun]⟩)
      exact ⟨runId, x, _, hx, hown, hx', LowBalanceBackfillRun.record_cursorUserId⟩

/-- ACCOUNTED: whatever the workers and the administrator do, in every reachable state the counters of a
    run add up, and every step was fenced: the cursor moved forward and only by the owner of the
    RUNNING run, no other tick touched an alert, and an ended run stayed as it was. -/
theorem backfill_accounted (procs : ℕ → BackfillProcess) {s₀ : AlertStore} (h₀ : Initial s₀)
    {c : AlertConfig} (hrun : Run anyStep (Config.start s₀ fun p => (procs p).program p) c) :
    Run (fun p _ s s' => Fenced procs p s s') (Config.start s₀ fun p => (procs p).program p) c ∧
      ∀ runId row, c.store.rows (.backfillRun runId) = some row →
        row.processedCount = row.queuedCount + row.skippedCount := by
  have hg := backfill_good procs h₀
  refine ⟨(hrun.allowed hg).mono fun p r s s' h => ?_, ?_⟩
  · rcases h.2 with rfl | ⟨-, hst⟩
    · refine ⟨fun runId row hrow => ⟨row, hrow, .inl rfl, fun h => absurd rfl h, fun _ => rfl⟩, ?_⟩
      exact fun _ _ _ _ hne => absurd rfl hne
    · exact fenced_of_step hst
  · refine hrun.keeps (P := fun s => ∀ runId row, s.rows (.backfillRun runId) = some row →
      row.processedCount = row.queuedCount + row.skippedCount) hg ?_ fun runId row hrow => ?_
    · intro s s' p r _ hst _ hs runId
      obtain ⟨es, -, hmove⟩ := runMove_of_step hst runId
      exact hmove.counts (hs runId)
    · have hnone := h₀.runs runId
      rw [show (Config.start s₀ _).store = s₀ from rfl, hnone] at hrow
      cases hrow

/-! A run of three users whose first worker dies after its first unit: the lease expires and a second
    worker takes over. -/

def threeUsers : AlertStore where
  rows
    | .user id => if id = 1 ∨ id = 2 ∨ id = 3 then some {} else none
    | .alertState _ => none
    | .notification _ _ => none
    | .backfillRun _ => none
  log := [⟨0, { entries := [.user 1, .user 2, .user 3] }⟩]
  world := ()

def smallConfig : FrozenConfig where
  thresholdToman := 100
  rearmBoundaryToman := 200
  configVersion := 1

def threeUserProcs : ℕ → BackfillProcess
  | 0 => .start fun _ => some smallConfig
  | 2 => .mutate (fun _ => some smallConfig) 1 1000
  | _ => .tick

theorem threeUsers_initial : Initial threeUsers where
  runs _ := rfl
  entries _ := rfl
  users id h := by
    by_cases hid : id = 1 ∨ id = 2 ∨ id = 3
    · rcases hid with rfl | rfl | rfl <;> decide
    · exact absurd (if_neg hid) h

def takeover : List (Event AlertChoice) :=
  List.replicate 6 (.run 0 { id := 1 }) ++ List.replicate 25 (.run 1 { now := 1 }) ++ [.crash 1]

def takeoverRun : List (Event AlertChoice) :=
  takeover ++ List.replicate 46 (.run 3 { now := 1000000 })

theorem takeover_runs :
    ((Config.start threeUsers fun p => (threeUserProcs p).program p).exec takeoverRun).any (fun c =>
      (c.store.rows (.backfillRun 1)).any fun row =>
        row.status = .COMPLETED ∧ row.processedCount = 3) = true := by decide +kernel

theorem backfill_accounted_takeover : ∃ (c : AlertConfig) (row : LowBalanceBackfillRun),
    Run (fun p _ s s' => Fenced threeUserProcs p s s')
      (Config.start threeUsers fun p => (threeUserProcs p).program p) c ∧
    c.store.rows (.backfillRun 1) = some row ∧ row.status = .COMPLETED ∧
    row.processedCount = 3 ∧ row.queuedCount + row.skippedCount = 3 := by
  obtain ⟨c, hrun, hc⟩ := Run.of_exec_any takeover_runs
  obtain ⟨row, hrow, hc⟩ := (Option.any_eq_true _ _).mp hc
  rw [decide_eq_true_eq] at hc
  obtain ⟨hfenced, hsum⟩ := backfill_accounted threeUserProcs threeUsers_initial hrun
  exact ⟨c, row, hfenced, hrow, hc.1, hc.2, (hsum 1 row hrow).symm.trans hc.2⟩

/-! ### Coverage -/

/-- The users counted by the units of a run, in order. -/
def unitsOf (runId : ℕ) (js : List AlertEntry) : List ℕ :=
  js.filterMap fun
    | .unit r _ userId _ => if r = runId then some userId else none
    | _ => none

@[simp] theorem unitsOf_nil (runId : ℕ) : unitsOf runId [] = [] := rfl

theorem unitsOf_append (runId : ℕ) (js es : List AlertEntry) :
    unitsOf runId (js ++ es) = unitsOf runId js ++ unitsOf runId (runEntries runId es) := by
  have hfilter : unitsOf runId es = unitsOf runId (runEntries runId es) := by
    rw [unitsOf, unitsOf, runEntries, List.filterMap_filter]
    refine List.filterMap_congr fun e _ => ?_
    cases e <;> simp [AlertEntry.ofRun]
  rw [← hfilter]
  exact List.filterMap_append

/-- The units are in increasing order; the cursor of the run is the last of them and its counter their
    number. -/
structure Counted (runId : ℕ) (s : AlertStore) : Prop where
  sorted : (unitsOf runId s.journal).Pairwise (· < ·)
  unborn : s.rows (.backfillRun runId) = none → unitsOf runId s.journal = []
  row : ∀ row, s.rows (.backfillRun runId) = some row →
    row.cursorUserId = (unitsOf runId s.journal).getLast? ∧
      row.processedCount = (unitsOf runId s.journal).length

/-- User `u` is a candidate of a run now. -/
def isLow (row : LowBalanceBackfillRun) (u : ℕ) (s : AlertStore) : Bool :=
  (s.rows (.user u)).any (isCandidate row.thresholdToman)

/-- While the run is active, user `u` is ACTIVE and at or below its threshold. -/
def staysLow (runId u : ℕ) (s : AlertStore) : Bool :=
  (s.rows (.backfillRun runId)).all fun row => row.isActive → isLow row u s

/-- A page that resumes now resumes from a user who is still a candidate, or nobody after the cursor is
    one. -/
def cursorKept (runId : ℕ) (s s' : AlertStore) : Bool :=
  (s'.journal.drop s.journal.length).all fun
    | .page r _ (some c) _ => r ≠ runId ∨ (s.rows (.backfillRun runId)).all fun row =>
        isLow row c s ∨ (candidates row.thresholdToman (s.view {})).all (· ≤ c)
    | _ => true

theorem lt_of_getLast?_lt {l : List ℕ} (hs : l.Pairwise (· < ·)) {u : ℕ}
    (hu : ∀ c, l.getLast? = some c → c < u) : ∀ v ∈ l, v < u := by
  intro v hv
  rcases List.eq_nil_or_concat l with rfl | ⟨xs, x, rfl⟩
  · cases hv
  · rw [List.concat_eq_append] at hv hs hu
    have hx := hu x (by simp)
    rcases List.mem_append.mp hv with hv | hv
    · exact ((List.pairwise_append.mp hs).2.2 v hv x (by simp)).trans hx
    · rw [List.mem_singleton.mp hv]
      exact hx

theorem Counted.step (h : Counted runId s) (hst : (backfill worker).Step p r s s') :
    Counted runId s' := by
  obtain ⟨es, hj, hmove⟩ := runMove_of_step hst runId
  have hunits : unitsOf runId s'.journal =
      unitsOf runId s.journal ++ unitsOf runId (runEntries runId es) := by
    rw [hj, unitsOf_append]
  obtain ⟨hsorted, hunborn, hrows⟩ := h
  generalize s.rows (.backfillRun runId) = row at hmove hunborn hrows
  generalize hrow' : s'.rows (.backfillRun runId) = row' at hmove
  generalize runEntries runId es = es' at hmove hunits
  have hsame : unitsOf runId es' = [] → ∀ x x', row = some x → row' = some x' →
      x'.cursorUserId = x.cursorUserId → x'.processedCount = x.processedCount →
      Counted runId s' := by
    intro hes x x' hx hx' hc hn
    rw [hes, List.append_nil] at hunits
    refine ⟨by rwa [hunits], fun hnone => ?_, fun y hy => ?_⟩
    · rw [hrow', hx'] at hnone
      cases hnone
    · rw [hrow', hx'] at hy
      cases hy
      rw [hunits, hc, hn]
      exact hrows x hx
  cases hmove with
  | idle =>
    rw [show unitsOf runId [] = [] from rfl, List.append_nil] at hunits
    exact ⟨by rwa [hunits], by rwa [hrow', hunits], by rwa [hrow', hunits]⟩
  | created config now =>
    rw [hunborn rfl] at hunits
    refine ⟨by rw [hunits]; exact .nil, fun _ => hunits, fun y hy => ?_⟩
    rw [hrow'] at hy
    cases hy
    rw [hunits]
    exact ⟨rfl, rfl⟩
  | claimed | renewed | batchFailed | released | completed | cancelled | read =>
    exact hsame rfl _ _ rfl rfl rfl rfl
  | unit x page userId rest result hown hpage hrest hcursor =>
    obtain ⟨hc, hn⟩ := hrows x rfl
    have hone : unitsOf runId [.unit runId p userId result] = [userId] := by simp [unitsOf]
    rw [hone] at hunits
    refine ⟨?_, fun hnone => ?_, fun y hy => ?_⟩
    · rw [hunits, List.pairwise_append]
      refine ⟨hsorted, List.pairwise_singleton .., fun v hv w hw => ?_⟩
      rw [List.mem_singleton.mp hw]
      exact lt_of_getLast?_lt hsorted (fun c hl => hcursor c (hc.trans hl)) v hv
    · rw [hrow'] at hnone
      cases hnone
    · rw [hrow'] at hy
      cases hy
      rw [hunits]
      refine ⟨by simp, ?_⟩
      have hprocessed : (x.record userId result).processedCount = x.processedCount + 1 := by
        cases result <;> rfl
      rw [hprocessed, hn]
      simp

/-- A page of a sorted list that does not hold `u` is full and lies before it. -/
theorem mem_take_or_lt {l : List ℕ} (hs : l.Pairwise (· < ·)) {u : ℕ} (hu : u ∈ l) (n : ℕ) :
    u ∈ l.take n ∨ (l.take n).length = n ∧ ∀ v ∈ l.take n, v < u := by
  rw [← List.take_append_drop n l] at hs hu
  rcases List.mem_append.mp hu with hu | hu
  · exact .inl hu
  · refine .inr ⟨?_, fun v hv => (List.pairwise_append.mp hs).2.2 v hv u hu⟩
    have hpos : 0 < (l.drop n).length := List.length_pos_of_mem hu
    rw [List.length_drop] at hpos
    rw [List.length_take]
    omega

/-- The page after a cursor that is itself in the list misses nobody after the cursor. -/
theorem mem_pageAfter_or_lt {l : List ℕ} (hs : l.Pairwise (· < ·)) {u n : ℕ} (hu : u ∈ l)
    {cursor : Option ℕ} (hc : ∀ c, cursor = some c → c ∈ l ∧ c < u) :
    u ∈ pageAfter cursor n l ∨ (pageAfter cursor n l).length = n ∧ ∀ v ∈ pageAfter cursor n l, v < u := by
  cases cursor with
  | none => exact mem_take_or_lt hs hu n
  | some c =>
    obtain ⟨hcl, hcu⟩ := hc c rfl
    have hfs := hs.filter (c ≤ ·)
    refine mem_take_or_lt (hfs.drop) ?_ n
    have hcf : c ∈ l.filter (c ≤ ·) := List.mem_filter.mpr ⟨hcl, by simp⟩
    have huf : u ∈ l.filter (c ≤ ·) := List.mem_filter.mpr ⟨hu, by simpa using hcu.le⟩
    cases hf : l.filter (c ≤ ·) with
    | nil =>
      rw [hf] at huf
      cases huf
    | cons x xs =>
      rw [hf] at hcf huf hfs
      refine (List.mem_cons.mp huf).resolve_left fun hux => ?_
      -- the head is the cursor, so it is not `u`
      rcases List.mem_cons.mp hcf with hcx | hcx
      · omega
      · have := (List.pairwise_cons.mp hfs).1 c hcx
        omega

/-- What the history of a run says about a user that stays low: who is behind the cursor has a unit, who
    is not waits in the page of the owner or after it. -/
structure Covers (u : ℕ) (units : List ℕ) (pages : ℕ → Option Page)
    (row : Option LowBalanceBackfillRun) : Prop where
  behind : ∀ x c, row = some x → x.cursorUserId = some c → u ≤ c → u ∈ units
  ahead : ∀ x q page, row = some x → x.ownedBy q = true → pages q = some page →
    u ∈ units ∨ u ∈ page.rest ∨
      page.ids.length = LOW_BALANCE_BACKFILL_BATCH ∧ ∀ v ∈ page.ids, v < u
  ended : ∀ x, row = some x → x.status = .COMPLETED → u ∈ units

structure Covering (runId u : ℕ) (s : AlertStore) : Prop where
  listed : ∀ id, s.rows (.user id) ≠ none → .user id ∈ s.journal
  pages : ∀ q page, pageOf runId q s.journal = some page →
    page.ids.Pairwise (· < ·) ∧ page.rest <:+ page.ids
  covers : Covers u (unitsOf runId s.journal) (fun q => pageOf runId q s.journal)
    (s.rows (.backfillRun runId))

/-- The users stay listed. -/
theorem listed_step (h : ∀ id, s.rows (.user id) ≠ none → AlertEntry.user id ∈ s.journal)
    (hst : (backfill worker).Step p r s s') :
    ∀ id, s'.rows (.user id) ≠ none → AlertEntry.user id ∈ s'.journal := by
  intro id hid
  cases hst with
  | act w _ => exact h id hid
  | commit t hh ht =>
    rw [Store.journal_commit, List.mem_append]
    rcases s.commit_rows p hh (.user id) with ⟨he, -⟩ | hchg
    · rw [he] at hid
      exact .inl (h id hid)
    · by_cases hnone : s.rows (.user id) = none
      · exact .inr ((ht.users id _ _ hchg).2 hnone)
      · exact .inl (h id hnone)

theorem pages_step {u : ℕ} (h : Covering runId u s) (hst : (backfill worker).Step p r s s') :
    ∀ q page, pageOf runId q s'.journal = some page →
      page.ids.Pairwise (· < ·) ∧ page.rest <:+ page.ids := by
  obtain ⟨es, hj, hmove⟩ := runMove_of_step hst runId
  intro q page hpage
  rw [hj, pageOf_append] at hpage
  rcases eq_or_ne p q with rfl | hq
  · generalize s.rows (.backfillRun runId) = row at hmove
    generalize s'.rows (.backfillRun runId) = row' at hmove
    generalize runEntries runId es = es' at hpage hmove
    cases hmove with
    | read row cursor =>
      simp only [List.foldl_cons, List.foldl_nil, Page.step, and_self, if_true,
        Option.some.injEq] at hpage
      subst hpage
      exact ⟨pageAfter_pairwise (candidates_pairwise _ _), List.suffix_rfl⟩
    | unit row pg userId rest result hown hpg hrest =>
      simp only [List.foldl_cons, List.foldl_nil, Page.step, and_self, if_true, hpg,
        Option.map_some, Option.some.injEq] at hpage
      subst hpage
      obtain ⟨hs, hsuffix⟩ := h.pages p pg hpg
      exact ⟨hs, (List.tail_suffix _).trans hsuffix⟩
    | _ => exact h.pages p page hpage
  · rw [hmove.pageOf_other hq] at hpage
    exact h.pages q page hpage

/-- What the read of a page by the owner says about a user that stays low. -/
theorem Covering.read {u : ℕ} {row : LowBalanceBackfillRun} {cursor : Option ℕ}
    (h : Covering runId u s) (hrow : s.rows (.backfillRun runId) = some row)
    (hlow : isLow row u s = true) (hcursor : row.cursorUserId = cursor)
    (hkept : ∀ c, cursor = some c →
      isLow row c s = true ∨ ∀ v ∈ candidates row.thresholdToman (s.view {}), v ≤ c)
    {ids : List ℕ} (hids : ids = pageAfter cursor LOW_BALANCE_BACKFILL_BATCH
      (candidates row.thresholdToman (s.view {}))) :
    u ∈ unitsOf runId s.journal ∨ u ∈ ids ∨
      ids.length = LOW_BALANCE_BACKFILL_BATCH ∧ ∀ v ∈ ids, v < u := by
  have hmem : ∀ v, isLow row v s = true → v ∈ candidates row.thresholdToman (s.view {}) := by
    intro v hv
    rw [isLow] at hv
    have hsome : s.rows (.user v) ≠ none := by
      intro hnone
      rw [hnone] at hv
      cases hv
    rw [mem_candidates]
    refine ⟨?_, by simpa [Store.view, Tx.row_empty] using hv⟩
    simpa [Store.view, Store.journal] using h.listed v hsome
  rcases Classical.em (∃ c, cursor = some c ∧ u ≤ c) with ⟨c, hc, huc⟩ | hahead
  · exact .inl (h.covers.behind row c hrow (hcursor.trans hc) huc)
  · rw [hids]
    refine .inr (mem_pageAfter_or_lt (candidates_pairwise _ _) (hmem u hlow) fun c hc => ?_)
    have hcu : c < u := by
      by_contra hle
      exact hahead ⟨c, hc, by omega⟩
    rcases hkept c hc with hclow | hnone
    · exact ⟨hmem c hclow, hcu⟩
    · have := hnone u (hmem u hlow)
      omega

/-- A move that keeps the cursor, takes nobody in and completes nothing. -/
theorem Covers.keep {u : ℕ} {units : List ℕ} {pages : ℕ → Option Page}
    {x x' : LowBalanceBackfillRun} (h : Covers u units pages (some x))
    (hcursor : x'.cursorUserId = x.cursorUserId)
    (howned : ∀ q, x'.ownedBy q = true → x.ownedBy q = true)
    (hstatus : x'.status = .COMPLETED → x.status = .COMPLETED) : Covers u units pages (some x') where
  behind := by
    rintro _ c ⟨⟩ hc huc
    exact h.behind x c rfl (hcursor.symm.trans hc) huc
  ahead := by
    rintro _ q page ⟨⟩ hq hpage
    exact h.ahead x q page rfl (howned q hq) hpage
  ended := by
    rintro _ ⟨⟩ hcompleted
    exact h.ended x rfl (hstatus hcompleted)

/-- Nobody is left out when the owner has processed a last page. -/
theorem Covers.all_processed {u : ℕ} {units : List ℕ} {pages : ℕ → Option Page}
    {x : LowBalanceBackfillRun} {page : Page} (h : Covers u units pages (some x))
    (hown : x.ownedBy p = true) (hpage : pages p = some page) (hrest : page.rest = [])
    (hlast : page.ids.length < LOW_BALANCE_BACKFILL_BATCH) : u ∈ units := by
  rcases h.ahead x p page rfl hown hpage with hu | hu | ⟨hfull, -⟩
  · exact hu
  · rw [hrest] at hu
    cases hu
  · omega

/-- The owner's next unit passes over nobody. -/
theorem Covers.next {u v : ℕ} {units : List ℕ} {pages : ℕ → Option Page} {rest : List ℕ}
    {x : LowBalanceBackfillRun} {page : Page} (h : Covers u units pages (some x))
    (hown : x.ownedBy p = true) (hpage : pages p = some page) (hrest : page.rest = v :: rest)
    (hsorted : page.ids.Pairwise (· < ·)) (hsuffix : page.rest <:+ page.ids) :
    (u ≤ v → u ∈ units ++ [v]) ∧ (u ∈ units ++ [v] ∨ u ∈ rest ∨
      page.ids.length = LOW_BALANCE_BACKFILL_BATCH ∧ ∀ w ∈ page.ids, w < u) := by
  have hlt := (List.pairwise_cons.mp (hrest ▸ hsorted.sublist hsuffix.sublist)).1
  have hv : v ∈ page.ids := hsuffix.subset (by rw [hrest]; exact .head _)
  rcases h.ahead x p page rfl hown hpage with hu | hu | ⟨hfull, hu⟩
  · exact ⟨fun _ => List.mem_append_left _ hu, .inl (List.mem_append_left _ hu)⟩
  · rw [hrest] at hu
    rcases List.mem_cons.mp hu with rfl | hu
    · exact ⟨fun _ => by simp, .inl (by simp)⟩
    · refine ⟨fun hle => ?_, .inr (.inl hu)⟩
      have := hlt u hu
      omega
  · refine ⟨fun hle => ?_, .inr (.inr ⟨hfull, hu⟩)⟩
    have := hu v hv
    omega

theorem Covering.step {u : ℕ} (h : Covering runId u s) (hst : (backfill worker).Step p r s s')
    (hlow : staysLow runId u s = true) (hkept : cursorKept runId s s' = true) : Covering runId u s' := by
  refine ⟨listed_step h.listed hst, pages_step h hst, ?_⟩
  obtain ⟨es, hj, hmove⟩ := runMove_of_step hst runId
  have hcovers := h.covers
  have hread : ∀ row, s.rows (.backfillRun runId) = some row → row.ownedBy p = true → ∀ cursor,
      row.cursorUserId = cursor → .page runId p cursor (pageAfter cursor LOW_BALANCE_BACKFILL_BATCH
        (candidates row.thresholdToman (s.view {}))) ∈ runEntries runId es → _ :=
    fun row hrow hown cursor hc hmem => h.read hrow (by
      simpa [staysLow, hrow, RunMove.isActive_of_ownedBy hown] using hlow) hc (by
      rintro c rfl
      rw [cursorKept, hj, List.drop_left, List.all_eq_true] at hkept
      simpa [hrow] using hkept _ (mem_runEntries.mp hmem).1) rfl
  simp only [hj, unitsOf_append, pageOf_append]
  generalize s.rows (.backfillRun runId) = row at hmove hcovers hread
  generalize s'.rows (.backfillRun runId) = row' at hmove
  generalize runEntries runId es = es' at hmove hread
  cases hmove with
  | idle =>
    rw [unitsOf_nil, List.append_nil]
    exact hcovers
  | created config now =>
    refine ⟨?_, ?_, ?_⟩
    · rintro _ c ⟨⟩ hc
      cases hc
    · rintro _ q page ⟨⟩ hq
      cases hq
    · rintro _ ⟨⟩ hcompleted
      cases hcompleted
  | renewed | batchFailed =>
    rw [unitsOf_nil, List.append_nil]
    exact hcovers.keep rfl (fun _ h => h) (fun h => h)
  | released row hown =>
    rw [unitsOf_nil, List.append_nil]
    exact hcovers.keep rfl (fun q hq => by cases (LowBalanceBackfillRun.ownedBy_iff.mp hq).2)
      (fun h => h)
  | cancelled row now hact =>
    rw [unitsOf_nil, List.append_nil]
    exact hcovers.keep rfl (fun q hq => by cases (LowBalanceBackfillRun.ownedBy_iff.mp hq).1) nofun
  | claimed row now hclaim hpage =>
    rw [unitsOf_nil, List.append_nil]
    refine ⟨?_, ?_, ?_⟩
    · rintro _ c ⟨⟩ hc huc
      exact hcovers.behind row c rfl hc huc
    · -- the new owner has not read a page
      rintro _ q page ⟨⟩ hq hq'
      cases (LowBalanceBackfillRun.ownedBy_iff.mp hq).2
      rw [List.foldl_nil, hpage] at hq'
      cases hq'
    · rintro _ ⟨⟩ hcompleted
      cases hcompleted
  | completed row now page hown hpage hrest hlast =>
    rw [unitsOf_nil, List.append_nil]
    refine ⟨?_, ?_, ?_⟩
    · rintro _ c ⟨⟩ hc huc
      exact hcovers.behind row c rfl hc huc
    · rintro _ q pg ⟨⟩ hq
      cases (LowBalanceBackfillRun.ownedBy_iff.mp hq).1
    · rintro _ ⟨⟩ -
      exact hcovers.all_processed hown hpage hrest hlast
  | read row cursor hcursor =>
    have hunits : unitsOf runId [.page runId p cursor (pageAfter cursor LOW_BALANCE_BACKFILL_BATCH
        (candidates row.thresholdToman (s.view {})))] = [] := rfl
    rw [hunits, List.append_nil]
    refine ⟨hcovers.behind, ?_, hcovers.ended⟩
    rintro _ q page ⟨⟩ hq hpage
    rcases eq_or_ne q p with rfl | hne
    · simp only [List.foldl_cons, List.foldl_nil, Page.step, and_self, if_true,
        Option.some.injEq] at hpage
      subst hpage
      exact hread row rfl hq cursor (hcursor hq) (.head _)
    · simp only [List.foldl_cons, List.foldl_nil, Page.step, hne.symm, and_false, if_false] at hpage
      exact hcovers.ahead row q page rfl hq hpage
  | unit x page v rest result hown hpage hrest hcursor =>
    have hunits : unitsOf runId [.unit runId p v result] = [v] := by simp [unitsOf]
    obtain ⟨hsorted, hsuffix⟩ := h.pages p page hpage
    obtain ⟨hbehind, hahead⟩ := hcovers.next (u := u) hown hpage hrest hsorted hsuffix
    rw [hunits]
    refine ⟨?_, ?_, ?_⟩
    · rintro _ c ⟨⟩ hc huc
      cases LowBalanceBackfillRun.record_cursorUserId.symm.trans hc
      exact hbehind huc
    · rintro _ q pg ⟨⟩ hq hpg
      rw [LowBalanceBackfillRun.ownedBy_iff] at hown hq
      rw [LowBalanceBackfillRun.record_ownerToken, hown.2] at hq
      cases hq.2
      simp only [List.foldl_cons, List.foldl_nil, Page.step, and_self, if_true, hpage,
        Option.map_some, Option.some.injEq] at hpg
      subst hpg
      simpa [hrest] using hahead
    · rintro _ ⟨⟩ hcompleted
      rw [LowBalanceBackfillRun.record_status] at hcompleted
      rw [LowBalanceBackfillRun.ownedBy_iff, hcompleted] at hown
      cases hown.1

theorem Initial.counted (h : Initial s) (runId : ℕ) : Counted runId s := by
  have hnone : unitsOf runId s.journal = [] := by
    rw [← List.nil_append s.journal, unitsOf_append, h.entries runId]
    rfl
  refine ⟨by rw [hnone]; exact .nil, fun _ => hnone, fun row hrow => ?_⟩
  rw [h.runs runId] at hrow
  cases hrow

theorem Initial.covering (h : Initial s) (runId u : ℕ) : Covering runId u s := by
  refine ⟨h.users, fun q page hpage => ?_, ?_⟩
  · rw [(h.unborn q).page runId] at hpage
    cases hpage
  · rw [h.runs runId]
    exact ⟨fun _ _ h => (nomatch h), fun _ _ _ h => (nomatch h), fun _ h => (nomatch h)⟩

/-- COVERED: no user is counted by two units of a run, and a run whose pages resume from users who are
    still candidates has a unit for every user that stayed low, by the time it is COMPLETED. -/
theorem backfill_covers (procs : ℕ → BackfillProcess) {s₀ : AlertStore} (h₀ : Initial s₀)
    (runId : ℕ) {c : AlertConfig}
    (hrun : Run anyStep (Config.start s₀ fun p => (procs p).program p) c) :
    (unitsOf runId c.store.journal).Nodup ∧
    (∀ row, c.store.rows (.backfillRun runId) = some row →
      row.processedCount = (unitsOf runId c.store.journal).length) ∧
    ∀ u, Run (fun _ _ s s' => (staysLow runId u s && cursorKept runId s s') = true)
        (Config.start s₀ fun p => (procs p).program p) c →
      ∀ row, c.store.rows (.backfillRun runId) = some row → row.status = .COMPLETED →
        u ∈ unitsOf runId c.store.journal := by
  have hg := backfill_good procs h₀
  have hcounted := hrun.keeps (P := Counted runId) hg (fun _ hst _ h => h.step hst)
    (h₀.counted runId)
  refine ⟨hcounted.sorted.imp fun h => h.ne, fun row hrow => (hcounted.row row hrow).2, ?_⟩
  intro u hkept
  have hcovering : Covering runId u c.store := by
    refine hkept.keeps hg (fun _ hst hC h => ?_) (h₀.covering runId u)
    rw [Bool.and_eq_true] at hC
    exact h.step hst hC.1 hC.2
  exact hcovering.covers.ended

theorem takeover_keeps_cursor :
    ((Config.start threeUsers fun p => (threeUserProcs p).program p).execWhile
      (fun _ _ s s' => staysLow 1 3 s && cursorKept 1 s s') takeoverRun).any (fun c =>
        (c.store.rows (.backfillRun 1)).any fun row =>
          row.status = .COMPLETED ∧ row.processedCount = 3) = true := by decide +kernel

theorem backfill_covers_takeover : ∃ c : AlertConfig,
    (unitsOf 1 c.store.journal).Nodup ∧ (unitsOf 1 c.store.journal).length = 3 ∧
    3 ∈ unitsOf 1 c.store.journal := by
  obtain ⟨c, hrun, hc⟩ := Run.of_execWhile_any takeover_keeps_cursor
  obtain ⟨row, hrow, hc⟩ := (Option.any_eq_true _ _).mp hc
  rw [decide_eq_true_eq] at hc
  obtain ⟨hnodup, hcount, hcovers⟩ := backfill_covers threeUserProcs threeUsers_initial 1
    (hrun.mono fun _ _ _ _ _ => trivial)
  exact ⟨c, hnodup, (hcount row hrow).symm.trans hc.2, hcovers 3 hrun row hrow hc.1⟩

/-- The first user, whom the cursor names, tops up before the second worker takes over. -/
def skippedRun : List (Event AlertChoice) :=
  takeover ++ List.replicate 12 (.run 2 { now := 2 }) ++
    List.replicate 29 (.run 3 { now := 1000000 })

theorem skipped_runs :
    ((Config.start threeUsers fun p => (threeUserProcs p).program p).execWhile
      (fun _ _ s _ => staysLow 1 2 s) skippedRun).any (fun c =>
        (c.store.rows (.backfillRun 1)).any fun row =>
          row.status = .COMPLETED ∧ 2 ∉ unitsOf 1 c.store.journal) = true := by decide +kernel

/-- SKIPPED: user 2 stays low all along, and the completed run has no unit for them. -/
theorem backfill_skips : ∃ (c : AlertConfig) (row : LowBalanceBackfillRun),
    Run (fun _ _ s _ => staysLow 1 2 s = true)
      (Config.start threeUsers fun p => (threeUserProcs p).program p) c ∧
    c.store.rows (.backfillRun 1) = some row ∧ row.status = .COMPLETED ∧
    2 ∉ unitsOf 1 c.store.journal := by
  obtain ⟨c, hrun, hc⟩ := Run.of_execWhile_any skipped_runs
  obtain ⟨row, hrow, hc⟩ := (Option.any_eq_true _ _).mp hc
  rw [decide_eq_true_eq] at hc
  exact ⟨c, row, hrun, hrow, hc⟩

end ZedBot.LowBalance
