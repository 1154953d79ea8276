import ZedBot.LowBalance.BackfillWorkers

/-! The estimate of a backfill: one aggregate over the users, their states and their messages.

    While a run is the only thing that happens, the population stays as it was and no message
    appears but with a unit, so what a unit finds under its locks is what the aggregate has
    counted. -/

namespace ZedBot.LowBalance
open ReadCommitted

/-! ### The aggregate -/

def LOW_BALANCE_DEDUPE_PREFIX : String := s!"wallet-low-balance:v{LOW_BALANCE_RULE_VERSION}:"
def LOW_BALANCE_DEDUPE_SEPARATOR : String := ":"

/-- The identity of a message; the aggregate composes the same text from the same pieces. -/
def lowBalanceDedupeKey (userId : String) (cycle : ℕ) : String :=
  LOW_BALANCE_DEDUPE_PREFIX ++ userId ++ LOW_BALANCE_DEDUPE_SEPARATOR ++ cycle.repr

theorem separator_notMem_repr (cycle : ℕ) : ':' ∉ cycle.repr.toList := by
  intro h
  rw [Nat.toList_repr] at h
  have hdigit := Nat.isDigit_of_mem_toDigits (by decide) (by decide) h
  cases hdigit

/-- The text after the last separator. -/
theorem takeWhile_reverse_of_notMem {l ds : List Char} (h : ':' ∉ ds) :
    (l ++ ':' :: ds).reverse.takeWhile (· ≠ ':') = ds.reverse := by
  have hpos : ∀ c ∈ ds.reverse, decide (c ≠ ':') = true := by
    intro c hc
    rw [decide_eq_true_eq]
    rintro rfl
    exact h (List.mem_reverse.mp hc)
  rw [List.reverse_append, List.reverse_cons, List.append_assoc, List.takeWhile_append_of_pos hpos]
  simp

/-- A key names one user and one cycle, whatever the ids look like. -/
theorem lowBalanceDedupeKey_inj {u u' : String} {n n' : ℕ}
    (h : lowBalanceDedupeKey u n = lowBalanceDedupeKey u' n') : u = u' ∧ n = n' := by
  have hlist : u.toList ++ ':' :: n.repr.toList = u'.toList ++ ':' :: n'.repr.toList := by
    simpa [lowBalanceDedupeKey, LOW_BALANCE_DEDUPE_SEPARATOR, String.append_assoc] using
      congrArg String.toList h
  have hdigits : n.repr.toList = n'.repr.toList := by
    have htake := congrArg (fun cs => cs.reverse.takeWhile (· ≠ ':')) hlist
    rw [takeWhile_reverse_of_notMem (separator_notMem_repr n),
      takeWhile_reverse_of_notMem (separator_notMem_repr n')] at htake
    exact List.reverse_injective htake
  refine ⟨?_, ?_⟩
  · rw [hdigits] at hlist
    exact String.toList_injective (List.append_cancel_right hlist)
  · have hnumber := congrArg (fun ds => Nat.ofDigitChars 10 ds 0) hdigits
    simpa using hnumber

/-- The join: an ALERTED user's cycle after the silent baseline, with its message. -/
def alreadyNotified (rows : ∀ k, AlertRow k) (id : ℕ) : Option LowBalanceAlertState → Bool
  | none => false
  | some st =>
    st.state = .ALERTED ∧ 0 < st.alertCycle ∧ (rows (.notification id st.alertCycle)).isSome

structure BackfillCandidateBreakdown where
  belowThreshold : ℕ
  lowBalanceOptOuts : ℕ
  paymentCategoryOptOuts : ℕ
  alreadyNotified : ℕ
  expectedRecipients : ℕ
  deriving DecidableEq, Repr

/-- Whether a candidate counts as a recipient. -/
def isRecipient (rows : ∀ k, AlertRow k) (id : ℕ) : Bool :=
  (rows (.user id)).any fun u =>
    u.lowBalanceNotificationsEnabled ∧ u.paymentNotificationsEnabled ∧
      alreadyNotified rows id (rows (.alertState id)) = false

/-- The five counts, read in one view; the candidates are the rows of the `WHERE`. -/
def countBackfillCandidates (config : FrozenConfig) (v : AlertView) : BackfillCandidateBreakdown :=
  let rows := candidates config.thresholdToman v
  let count (filter : ℕ → User → Bool) : ℕ :=
    rows.countP fun id => (v.rows (.user id)).any (filter id)
  { belowThreshold := rows.length
    lowBalanceOptOuts := count fun _ u => !u.lowBalanceNotificationsEnabled
    paymentCategoryOptOuts := count fun _ u =>
      u.lowBalanceNotificationsEnabled && !u.paymentNotificationsEnabled
    alreadyNotified := count fun id u =>
      u.lowBalanceNotificationsEnabled && u.paymentNotificationsEnabled &&
        alreadyNotified v.rows id (v.rows (.alertState id))
    expectedRecipients := rows.countP (isRecipient v.rows) }

/-- Every candidate is in one of the four classes. -/
theorem countBackfillCandidates_sum (config : FrozenConfig) (v : AlertView) :
    (countBackfillCandidates config v).belowThreshold =
      (countBackfillCandidates config v).lowBalanceOptOuts +
        (countBackfillCandidates config v).paymentCategoryOptOuts +
        (countBackfillCandidates config v).alreadyNotified +
        (countBackfillCandidates config v).expectedRecipients := by
  have hsome : ∀ id ∈ candidates config.thresholdToman v, ∃ u, v.rows (.user id) = some u := by
    intro id hid
    obtain ⟨u, hu, -⟩ := (Option.any_eq_true _ _).mp (mem_candidates.mp hid).2
    exact ⟨u, hu⟩
  simp only [countBackfillCandidates]
  generalize candidates config.thresholdToman v = rows at hsome
  induction rows with
  | nil => rfl
  | cons id rows ih =>
    obtain ⟨u, hu⟩ := hsome id (.head _)
    have hrest := ih fun i hi => hsome i (.tail _ hi)
    simp only [List.length_cons, List.countP_cons, hu, Option.any_some, isRecipient]
    cases u.lowBalanceNotificationsEnabled <;> cases u.paymentNotificationsEnabled <;>
      cases alreadyNotified v.rows id (v.rows (.alertState id)) <;> simp <;> omega

/-! ### The rules of an undisturbed run -/

variable {s₀ s s' : AlertStore} {runId userId p : ℕ} {config : FrozenConfig} {t : AlertTx}
  {r : List AlertStore} {row : LowBalanceBackfillRun} {cursor : Option ℕ}

/-- A candidate of the population at the start. -/
def IsLow (s₀ : AlertStore) (config : FrozenConfig) (userId : ℕ) : Prop :=
  (s₀.rows (.user userId)).any (isCandidate config.thresholdToman) = true

/-- A cursor names nobody, or a candidate. -/
def CursorLow (s₀ : AlertStore) (config : FrozenConfig) (cursor : Option ℕ) : Prop :=
  ∀ c, cursor = some c → IsLow s₀ config c

/-- The population is as it was, and run `runId` is the only one that may be active. -/
structure Undisturbed (s₀ : AlertStore) (runId : ℕ) (config : FrozenConfig) (s : AlertStore) :
    Prop where
  users : ∀ id, s.rows (.user id) = s₀.rows (.user id)
  listed : userIds s.journal = userIds s₀.journal
  run : ∃ row, s.rows (.backfillRun runId) = some row ∧ row.frozenConfig = config ∧
    CursorLow s₀ config row.cursorUserId
  others : ∀ id, id ≠ runId → ∀ row, s.rows (.backfillRun id) = some row → row.isActive = false

/-- What a worker may commit: a message moves the state of its user, alerts come with a unit, and a
    unit that did not fail is queued for a recipient and for nobody else. -/
structure EstimateTx (s₀ : AlertStore) (runId : ℕ) (config : FrozenConfig) (p : ℕ)
    (s : AlertStore) (t : AlertTx) : Prop where
  users : ∀ id, t.chg (.user id) = none
  listed : userIds t.entries = []
  run : ∀ row, s.rows (.backfillRun runId) = some row →
    ∃ row', t.row s.rows (.backfillRun runId) = some row' ∧
      row'.frozenConfig = row.frozenConfig ∧
      (row'.cursorUserId = row.cursorUserId ∨ CursorLow s₀ config row'.cursorUserId)
  others : ∀ id, id ≠ runId → t.chg (.backfillRun id) = none
  messages : ∀ id cycle, t.row s.rows (.notification id cycle) ≠ s.rows (.notification id cycle) →
    t.row s.rows (.alertState id) ≠ s.rows (.alertState id)
  alerts : ∀ id k, IsAlertOf id k → t.Holds k → ∃ result, .unit runId p id result ∈ t.entries
  units : ∀ id q u result, .unit id q u result ∈ t.entries → id = runId ∧ IsLow s₀ config u ∧
    (result ≠ .failed → (result = .queued ↔ isRecipient s.rows u = true))
  pages : ∀ id q cursor ids, .page id q cursor ids ∈ t.entries → CursorLow s₀ config cursor

theorem userIds_append (js es : List AlertEntry) : userIds (js ++ es) = userIds js ++ userIds es :=
  List.filterMap_append

theorem Undisturbed.commit (h : Undisturbed s₀ runId config s)
    (ht : EstimateTx s₀ runId config p s t) : Undisturbed s₀ runId config (s.commit p t) := by
  refine ⟨fun id => ?_, ?_, ?_, fun id hid row hrow => ?_⟩
  · exact (Tx.row_of_chg (ht.users id)).trans (h.users id)
  · rw [s.journal_commit, userIds_append, ht.listed, List.append_nil, h.listed]
  · obtain ⟨row, hrow, hconfig, hcursor⟩ := h.run
    obtain ⟨row', hrow', hconfig', hcursor'⟩ := ht.run row hrow
    refine ⟨row', hrow', hconfig'.trans hconfig, ?_⟩
    rcases hcursor' with he | hlow
    · rwa [he]
    · exact hlow
  · exact h.others id hid row ((Tx.row_of_chg (ht.others id hid)).symm.trans hrow)

theorem EstimateTx.empty : EstimateTx s₀ runId config p s {} where
  users _ := rfl
  listed := rfl
  run row hrow := ⟨row, hrow, rfl, .inl rfl⟩
  others _ _ := rfl
  messages _ _ hne := (hne rfl).elim
  alerts _ _ _ hk := (hk rfl).elim
  units _ _ _ _ h := nomatch h
  pages _ _ _ _ h := nomatch h

/-- The rules of run `runId` over a population that nothing else changes. -/
def estimating (s₀ : AlertStore) (runId : ℕ) (config : FrozenConfig) :
    Discipline AlertRow AlertEntry Unit where
  Inv := Undisturbed s₀ runId config
  Commits p _ := EstimateTx s₀ runId config p
  Acts _ _ _ _ := False
  commits_empty _ := .empty
  inv_commit h _ ht := h.commit ht
  inv_act _ h := h.elim

end ZedBot.LowBalance
