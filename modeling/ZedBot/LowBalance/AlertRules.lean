import ZedBot.LowBalance.Alerts

/-! What one observation does, under any rules of the other processes.

    It locks the state of its user, finding or creating it, observes a balance and moves the machine
    once; the rest of its transaction is untouched. -/

namespace ZedBot.LowBalance
open ReadCommitted

/-- The state an observation starts from, over the committed row, and whether it creates it. -/
inductive Seeded (input : LowBalanceObservationInput) :
    Option LowBalanceAlertState → LowBalanceAlertState → Bool → Prop
  | found (st : LowBalanceAlertState) : Seeded input (some st) st false
  | created (now : ℕ) : Seeded input none (seedState input now) true

/-- A move of the machine on an observed balance, and the cycle it opens. -/
inductive Moved (input : LowBalanceObservationInput) (balance : ℤ) (st : LowBalanceAlertState) :
    LowBalanceAlertState → Option ℕ → Prop
  | kept (halerted : st.state = .ALERTED → balance ≤ input.rearmBoundaryToman)
      (harmed : st.state = .ARMED → input.thresholdToman < balance) :
      Moved input balance st (touched input balance st) none
  | rearmed (now : ℕ) (halerted : st.state = .ALERTED) (h : input.rearmBoundaryToman < balance) :
      Moved input balance st (rearmed input balance now st) none
  | opened (now : ℕ) (hlow : balance ≤ input.thresholdToman)
      (hforced : st.state = .ALERTED →
        balance ≤ input.rearmBoundaryToman ∧ input.forceAlert = true) :
      Moved input balance st (alertedIn input balance (st.alertCycle + 1) now st)
        (some (st.alertCycle + 1))

/-- The state rows and notifications of a user. -/
def IsAlertOf (userId : ℕ) (k : AlertKey) : Prop :=
  k = .alertState userId ∨ ∃ cycle, k = .notification userId cycle

/-- What a transaction holds once it has locked the state of a user. -/
def LocksOf (t : AlertTx) (userId : ℕ) (k : AlertKey) : Prop :=
  t.Holds k ∨ k = .alertState userId

/-- A transaction on its way: it holds the state of the user, moved to `st'` from the committed `base`;
    of the user's notifications it inserts that of `notified`. -/
structure Holding (t : AlertTx) (userId : ℕ) (base : Option LowBalanceAlertState)
    (st : LowBalanceAlertState) (notified : Option ℕ) (t' : AlertTx) : Prop where
  state : t'.chg (.alertState userId) = some (base, some st)
  silent : ∀ cycle, notified ≠ some cycle → t'.chg (.notification userId cycle) = none
  inserts : ∀ cycle, notified = some cycle →
    ∃ row, t'.chg (.notification userId cycle) = some (none, some row)
  others : ∀ k, ¬ IsAlertOf userId k → t'.chg k = t.chg k
  entries : t'.entries = t.entries

variable {D : Discipline AlertRow AlertEntry Unit} {p : ℕ} {r : List AlertStore}
  {t t' : AlertTx} {s s' : AlertStore} {input : LowBalanceObservationInput}
  {base : Option LowBalanceAlertState} {st st' : LowBalanceAlertState} {userId : ℕ}
  {notified : Option ℕ} {rows : ∀ k, AlertRow k}

@[simp] theorem isAlertOf_state : IsAlertOf userId (.alertState userId) := .inl rfl

@[simp] theorem isAlertOf_notification (cycle : ℕ) :
    IsAlertOf userId (.notification userId cycle) := .inr ⟨cycle, rfl⟩

namespace Holding

theorem row_state (h : Holding t userId base st notified t') :
    t'.row rows (.alertState userId) = some st := by simp [Tx.row, h.state]

theorem base_state (h : Holding t userId base st notified t') :
    t'.base rows (.alertState userId) = base := by simp [Tx.base, h.state]

theorem holds (h : Holding t userId base st notified t') {k : AlertKey}
    (hk : LocksOf t userId k) (hfree : ∀ k, IsAlertOf userId k → t.chg k = none) : t'.Holds k := by
  rcases hk with hk | rfl
  · have hother : ¬ IsAlertOf userId k := fun ha => hk (hfree k ha)
    rwa [Tx.Holds, h.others k hother]
  · simp [Tx.Holds, h.state]

/-- The state is moved on. -/
theorem write_state (h : Holding t userId base st notified t') :
    Holding t userId base st' notified (t'.write rows ⟨.alertState userId, some st'⟩) where
  state := by rw [Tx.chg_write_self, h.base_state]
  silent cycle hc := by rw [Tx.chg_write_ne _ (by simp)]; exact h.silent cycle hc
  inserts cycle hc := by
    obtain ⟨row, hrow⟩ := h.inserts cycle hc
    exact ⟨row, by rwa [Tx.chg_write_ne _ (by simp)]⟩
  others k hk := by
    have hne : k ≠ .alertState userId := by rintro rfl; exact hk isAlertOf_state
    rw [Tx.chg_write_ne _ hne]
    exact h.others k hk
  entries := h.entries

/-- A notification is inserted where there is none. -/
theorem write_notification (h : Holding t userId base st none t') {cycle : ℕ}
    (row : AutomatedNotification) (hfree : rows (.notification userId cycle) = none) :
    Holding t userId base st (some cycle)
      (t'.write rows ⟨.notification userId cycle, some row⟩) where
  state := by rw [Tx.chg_write_ne _ (by simp)]; exact h.state
  silent c hc := by
    rw [Tx.chg_write_ne _ (by simpa using fun he => hc (congrArg some he.symm))]
    exact h.silent c nofun
  inserts c hc := by
    cases hc
    exact ⟨row, by rw [Tx.chg_write_self, Tx.base_of_chg (h.silent cycle nofun), hfree]⟩
  others k hk := by
    have hne : k ≠ .notification userId cycle := by rintro rfl; exact hk (by simp)
    rw [Tx.chg_write_ne _ hne]
    exact h.others k hk
  entries := h.entries

/-- No notification is sent yet. -/
theorem unsent (h : Holding t userId base st none t') {P : Prop} {cycle : ℕ}
    {o n : AlertRow (.notification userId cycle)}
    (hchg : t'.chg (.notification userId cycle) = some (o, n)) : P := by
  rw [h.silent cycle nofun] at hchg
  cases hchg

end Holding

theorem Holding.later (h : Holding t userId base st notified t')
    (hfree : ∀ k, IsAlertOf userId k → t.chg k = none) (hl : D.Later p t'.Holds s s') :
    D.Later p (LocksOf t userId) s s' := hl.mono fun _ hk => h.holds hk hfree

theorem wp_updateState (h : Holding t userId base st notified t')
    {data : LowBalanceAlertState → LowBalanceAlertState} {Q : ℕ → AlertLocal → AlertStore → Prop}
    (hQ : ∀ s' t'', D.Later p t'.Holds s s' → Holding t userId base (data st) notified t'' →
      Q 1 ⟨some t'', r⟩ s') :
    wp D p (updateState userId data) Q ⟨some t', r⟩ s := by
  refine wp_update_tx fun s' hl _ _ => ⟨fun hnone => ?_, fun n hn => ?_⟩
  · have hcond := onRow_eq_none.mp hnone st h.row_state
    simp at hcond
  · obtain ⟨x, hx, -, rfl⟩ := onRow_eq_some.mp hn
    rw [h.row_state] at hx
    cases hx
    exact hQ s' _ hl h.write_state

/-! ### The moves -/

/-- What a move from the locked state has done: `s₃` answered a forced alert's question, `s₄` took the
    notification. -/
structure Moves (D : Discipline AlertRow AlertEntry Unit) (p : ℕ)
    (input : LowBalanceObservationInput) (t : AlertTx) (s₂ s₃ s₄ s' : AlertStore)
    (base : Option LowBalanceAlertState) (st st' : LowBalanceAlertState) (balance : ℤ)
    (t' : AlertTx) (opened notified : Option ℕ) : Prop where
  moved : Moved input balance st st' opened
  holding : Holding t input.userId base st' notified t'
  asks : D.Later p (LocksOf t input.userId) s₂ s₃
  inserts : D.Later p (LocksOf t input.userId) s₃ s₄
  ends : D.Later p (LocksOf t input.userId) s₄ s'
  asked : st.state = .ALERTED → balance ≤ input.rearmBoundaryToman →
    balance ≤ input.thresholdToman → input.forceAlert = true → ∃ v : AlertView,
      (∀ cycle, v.rows (.notification input.userId cycle) =
        s₃.rows (.notification input.userId cycle)) ∧
      input.authorizeForceAlert st.alertCycle v = opened.isSome
  notifies : ∀ cycle, notified = some cycle → opened = some cycle ∧ input.eligible = true ∧
    s₄.rows (.notification input.userId cycle) = none
  silent : ∀ cycle, opened = some cycle → notified = none →
    input.eligible = false ∨ s₄.rows (.notification input.userId cycle) ≠ none
  sends : ∀ cycle o n, t'.chg (.notification input.userId cycle) = some (o, n) →
    ∃ row, n = some row ∧ row.userId = input.userId ∧
      row.payloadSnapshot = (input.buildNotification cycle).payloadSnapshot

/-- What an outcome without a notification says: none was to be sent, or none was there when the row was
    read back. -/
def Reported (D : Discipline AlertRow AlertEntry Unit) (p : ℕ) (input : LowBalanceObservationInput)
    (t : AlertTx) (s₄ : AlertStore) (notified : Option ℕ)
    (outcome : LowBalanceObservationOutcome) : Prop :=
  ∀ cycle, outcome = .alerted cycle none → input.eligible = false ∨
    notified = none ∧ ∃ s₅, D.Later p (LocksOf t input.userId) s₄ s₅ ∧
      s₅.rows (.notification input.userId cycle) = none

theorem wp_openCycle {balance : ℤ} {s₂ s₃ : AlertStore}
    (hfree : ∀ k, IsAlertOf input.userId k → t.chg k = none)
    (h : Holding t input.userId base st none t')
    (hasks : D.Later p (LocksOf t input.userId) s₂ s₃) (hlow : balance ≤ input.thresholdToman)
    (hauth : st.state = .ALERTED → balance ≤ input.rearmBoundaryToman ∧ input.forceAlert = true ∧
      ∃ v : AlertView, (∀ cycle, v.rows (.notification input.userId cycle) =
        s₃.rows (.notification input.userId cycle)) ∧
      input.authorizeForceAlert st.alertCycle v = true)
    {Q : LowBalanceObservationOutcome × Bool → AlertLocal → AlertStore → Prop}
    (hQ : ∀ s₄ s' st' t'' (outcome : LowBalanceObservationOutcome) notified r',
      Moves D p input t s₂ s₃ s₄ s' base st st' balance t'' outcome.openedCycle notified →
      Reported D p input t s₄ notified outcome → Q (outcome, notified.isSome) ⟨some t'', r'⟩ s') :
    wp D p (openCycle input balance st) Q ⟨some t', r⟩ s₃ := by
  refine (wp_seq _ _).mpr (wp_ask _ fun c => (wp_seq _ _).mpr ?_)
  refine wp_updateState h fun s₄ t'' hl₄ hh => ?_
  have hl₄ := h.later hfree hl₄
  have hmoved : Moved input balance st (alertedIn input balance (st.alertCycle + 1) c.now st)
      (some (st.alertCycle + 1)) := .opened c.now hlow fun ha => ⟨(hauth ha).1, (hauth ha).2.1⟩
  have hforced : st.state = .ALERTED → balance ≤ input.rearmBoundaryToman →
      balance ≤ input.thresholdToman → input.forceAlert = true → ∃ v : AlertView,
      (∀ cycle, v.rows (.notification input.userId cycle) =
        s₃.rows (.notification input.userId cycle)) ∧
      input.authorizeForceAlert st.alertCycle v = (some (st.alertCycle + 1)).isSome :=
    fun ha _ _ _ => (hauth ha).2.2
  split
  · rename_i helig
    exact hQ s₄ s₄ _ t'' (.alerted (st.alertCycle + 1) none) none r
      ⟨hmoved, hh, hasks, hl₄, .refl, hforced, (by rintro _ ⟨⟩),
        fun _ _ _ => .inl (by simpa using helig), fun _ _ _ hchg => hh.unsent hchg⟩ fun _ _ => .inl (by simpa using helig)
  rename_i helig
  rw [not_not] at helig
  refine (wp_seq _ _).mpr (wp_update_tx fun s₅ hl₅ _ _ => ?_)
  have hl₅ := hh.later hfree hl₅
  have hrow : t''.row s₅.rows (.notification input.userId (st.alertCycle + 1)) =
      s₅.rows (.notification input.userId (st.alertCycle + 1)) :=
    Tx.row_of_chg (hh.silent _ (by rintro ⟨⟩))
  rw [hrow]
  refine ⟨fun hnone => ?_, fun n hn => ?_⟩
  · refine (wp_seq _ _).mpr (wp_select _ fun s₆ hl₆ _ => ?_)
    have htaken : s₅.rows (.notification input.userId (st.alertCycle + 1)) ≠ none := by
      intro he
      rw [he] at hnone
      cases hnone
    refine hQ s₅ s₆ _ t'' (.alerted _ _) none _ ⟨hmoved, hh, hasks, hl₄.trans hl₅,
      hh.later hfree hl₆, hforced, (by rintro _ ⟨⟩), fun _ hc _ => .inr (by cases hc; exact htaken),
      fun _ _ _ hchg => hh.unsent hchg⟩ fun cycle hout => .inr ⟨rfl, s₆, hh.later hfree hl₆, ?_⟩
    obtain ⟨rfl, hnone⟩ := LowBalanceObservationOutcome.alerted.inj hout
    rw [Option.map_eq_none_iff] at hnone
    exact (Tx.row_of_chg (hh.silent _ (by rintro ⟨⟩))).symm.trans hnone
  · obtain ⟨hnone, rfl⟩ := onFree_eq_some.mp hn
    refine (wp_seq _ _).mpr (wp_select _ fun s₆ hl₆ _ => ?_)
    have hh' row := hh.write_notification row hnone
    refine hQ s₅ s₆ _ _ (.alerted _ _) (some (st.alertCycle + 1)) _ ⟨hmoved, hh' _, hasks,
      hl₄.trans hl₅, (hh' _).later hfree hl₆, hforced, fun cycle hc => ?_,
      fun _ _ hn => (by cases hn), fun cycle o n hchg => ?_⟩ fun cycle hout => ?_
    · cases hc
      exact ⟨rfl, helig, hnone⟩
    · rcases eq_or_ne cycle (st.alertCycle + 1) with rfl | hne
      · rw [Tx.chg_write_self] at hchg
        obtain ⟨-, rfl⟩ := Prod.mk.inj (Option.some.inj hchg)
        exact ⟨_, rfl, rfl, rfl⟩
      · rw [Tx.chg_write_ne _ (by simpa using hne)] at hchg
        exact hh.unsent hchg
    · obtain ⟨-, hnone⟩ := LowBalanceObservationOutcome.alerted.inj hout
      rw [Option.map_eq_none_iff] at hnone
      cases (Tx.row_write_self ..).symm.trans hnone

theorem wp_touch {balance : ℤ} {s₂ s₃ : AlertStore}
    (hfree : ∀ k, IsAlertOf input.userId k → t.chg k = none)
    (h : Holding t input.userId base st none t')
    (hasks : D.Later p (LocksOf t input.userId) s₂ s₃)
    (halerted : st.state = .ALERTED → balance ≤ input.rearmBoundaryToman)
    (harmed : st.state = .ARMED → input.thresholdToman < balance)
    (hrefused : st.state = .ALERTED → balance ≤ input.thresholdToman → input.forceAlert = true →
      ∃ v : AlertView, (∀ cycle, v.rows (.notification input.userId cycle) =
        s₃.rows (.notification input.userId cycle)) ∧
      input.authorizeForceAlert st.alertCycle v = false)
    {Q : Unit → AlertLocal → AlertStore → Prop}
    (hQ : ∀ s₄ s' st' t'', Moves D p input t s₂ s₃ s₄ s' base st st' balance t'' none none →
      Q () ⟨some t'', r⟩ s') :
    wp D p (touch input balance) Q ⟨some t', r⟩ s₃ := by
  refine (wp_seq _ _).mpr (wp_updateState h fun s₄ t'' hl hh => ?_)
  exact hQ s₄ s₄ _ t'' ⟨.kept halerted harmed, hh, hasks, h.later hfree hl, .refl,
    fun ha _ => hrefused ha, nofun, nofun, fun _ _ _ hchg => hh.unsent hchg⟩

theorem wp_transition {balance : ℤ} {created : Bool}
    (hfree : ∀ k, IsAlertOf input.userId k → t.chg k = none)
    (h : Holding t input.userId base st none t')
    {Q : LowBalanceObservationOutcome × Bool → AlertLocal → AlertStore → Prop}
    (hQ : ∀ s₃ s₄ s' st' t'' (outcome : LowBalanceObservationOutcome) notified r',
      Moves D p input t s s₃ s₄ s' base st st' balance t'' outcome.openedCycle notified →
      Reported D p input t s₄ notified outcome → Q (outcome, notified.isSome) ⟨some t'', r'⟩ s') :
    wp D p (transition input created balance st) Q ⟨some t', r⟩ s := by
  unfold transition
  cases hst : st.state with
  | ARMED =>
    dsimp only
    split
    · rename_i hlow
      exact wp_openCycle hfree h .refl hlow (by simp [hst]) fun s₄ => hQ s s₄
    · rename_i hlow
      refine (wp_seq _ _).mpr (wp_touch hfree h .refl (by simp [hst]) (fun _ => by omega)
        (by simp [hst]) fun s₄ s' st' t'' hm => ?_)
      cases created
      · exact hQ s s₄ s' st' t'' (.unchanged _) none r hm (by rintro _ ⟨⟩)
      · exact hQ s s₄ s' st' t'' (.seededArmed _) none r hm (by rintro _ ⟨⟩)
  | ALERTED =>
    dsimp only
    split
    · rename_i hrec
      refine (wp_seq _ _).mpr ((wp_seq _ _).mpr (wp_ask _ fun c => (wp_seq _ _).mpr ?_))
      refine wp_updateState h fun s₄ t'' hl hh => ?_
      exact hQ s s₄ s₄ _ t'' (.rearmed _) none r ⟨.rearmed c.now hst hrec, hh, .refl,
        h.later hfree hl, .refl, fun _ hle => absurd hrec (by omega), (by rintro _ ⟨⟩),
        (by rintro _ ⟨⟩), fun _ _ _ hchg => hh.unsent hchg⟩ (by rintro _ ⟨⟩)
    rename_i hrec
    split
    · rename_i hforce
      refine (wp_seq _ _).mpr (wp_select _ fun s₃ hl _ => ?_)
      have hl := h.later hfree hl
      split
      · rename_i hauth
        refine wp_openCycle hfree h hl hforce.2 (fun _ => ⟨by omega, hforce.1, _, fun cycle => ?_,
          hauth⟩) fun s₄ => hQ s₃ s₄
        exact Tx.row_of_chg (h.silent cycle (by rintro ⟨⟩))
      · rename_i hauth
        refine (wp_seq _ _).mpr (wp_touch hfree h hl (fun _ => by omega) (by simp [hst])
          (fun _ _ _ => ⟨_, fun cycle => Tx.row_of_chg (h.silent cycle (by rintro ⟨⟩)),
            by simpa using hauth⟩)
          fun s₄ s' st' t'' hm => ?_)
        exact hQ s₃ s₄ s' st' t'' (.unchanged _) none _ hm (by rintro _ ⟨⟩)
    · rename_i hforce
      refine (wp_seq _ _).mpr (wp_touch hfree h .refl (fun _ => by omega) (by simp [hst])
        (fun _ hlow hf => absurd ⟨hf, hlow⟩ hforce) fun s₄ s' st' t'' hm => ?_)
      cases created
      · exact hQ s s₄ s' st' t'' (.unchanged _) none r hm (by rintro _ ⟨⟩)
      · exact hQ s s₄ s' st' t'' (.seededBaseline _) none r hm (by rintro _ ⟨⟩)

/-! ### The observation -/

/-- What an observation begun in `s` has done when it returns in `s'`: it locked the state over `base`
    in `s₁` and observed the balance in `s₂`. -/
structure Applied (D : Discipline AlertRow AlertEntry Unit) (p : ℕ)
    (input : LowBalanceObservationInput) (t : AlertTx) (s s₁ s₂ s₃ s₄ s' : AlertStore)
    (base : Option LowBalanceAlertState) (st st' : LowBalanceAlertState) (t' t'' : AlertTx)
    (notified : Option ℕ) (o : Observation) : Prop where
  waits : D.Later p t.Holds s s₁
  base_eq : s₁.rows (.alertState input.userId) = base
  seeded : Seeded input base st o.created
  reads : D.Later p (LocksOf t input.userId) s₁ s₂
  balance : o.balanceToman = match input.balanceBeforeToman with
    | some _ => input.balanceAfterToman
    | none => ((t.row s₂.rows (.user input.userId)).map (·.balanceToman)).getD
        input.balanceAfterToman
  moves : Moves D p input t s₂ s₃ s₄ s' base st st' o.balanceToman t' o.opened notified
  tx : t'' = t'.append [.observation o]
  input : o.userId = input.userId ∧ o.balanceBeforeToman = input.balanceBeforeToman ∧
    o.eligible = input.eligible ∧ o.forceAlert = input.forceAlert ∧ o.notified = notified.isSome

section Applied

variable {s₁ s₂ s₃ s₄ : AlertStore} {t'' : AlertTx} {o : Observation}

/-- What an observation leaves: everything but the alerts of its user. -/
theorem Applied.chg (h : Applied D p input t s s₁ s₂ s₃ s₄ s' base st st' t' t'' notified o)
    {k : AlertKey} (hk : ¬ IsAlertOf input.userId k) : t''.chg k = t.chg k := by
  rw [h.tx]
  exact h.moves.holding.others k hk

theorem Applied.holds (h : Applied D p input t s s₁ s₂ s₃ s₄ s' base st st' t' t'' notified o)
    (hfree : ∀ k, IsAlertOf input.userId k → t.chg k = none) {k : AlertKey}
    (hk : LocksOf t input.userId k) : t''.Holds k := by
  rw [h.tx]
  exact h.moves.holding.holds hk hfree

theorem not_isAlertOf_of_ne {id : ℕ} {k : AlertKey} (hne : id ≠ userId) (hk : IsAlertOf id k) :
    ¬ IsAlertOf userId k := by
  rcases hk with rfl | ⟨cycle, rfl⟩ <;> simp [IsAlertOf, hne]

end Applied

/-- The state of a user was there, and was gone when it was to be locked. -/
def Vanished (D : Discipline AlertRow AlertEntry Unit) (p : ℕ) (t : AlertTx) (userId : ℕ)
    (s s' : AlertStore) : Prop :=
  ∃ s₁, D.Later p t.Holds s s₁ ∧ s₁.rows (.alertState userId) ≠ none ∧ D.Later p t.Holds s₁ s' ∧
    s'.rows (.alertState userId) = none

theorem Vanished.later (h : Vanished D p t userId s s') : D.Later p t.Holds s s' := by
  obtain ⟨s₁, hl, -, hl', -⟩ := h
  exact hl.trans hl'

theorem wp_seedAndLockState (hfree : ∀ k, IsAlertOf input.userId k → t.chg k = none)
    {Q : Except ObservationThrow (LowBalanceAlertState × Bool) → AlertLocal → AlertStore → Prop}
    (herr : ∀ e l s', Vanished D p t input.userId s s' → Q (.error e) l s')
    (hok : ∀ s₁ s' t' base st created, D.Later p t.Holds s s₁ →
      s₁.rows (.alertState input.userId) = base → D.Later p (LocksOf t input.userId) s₁ s' →
      Seeded input base st created → Holding t input.userId base st none t' →
      Q (.ok (st, created)) ⟨some t', r⟩ s') :
    wp D p (seedAndLockState input) Q ⟨some t, r⟩ s := by
  refine (wp_seq _ _).mpr (wp_ask _ fun c => (wp_seq _ _).mpr (wp_update_tx fun s₁ hl₁ _ _ => ?_))
  have hchg : t.chg (.alertState input.userId) = none := hfree _ isAlertOf_state
  refine ⟨fun hfound => ?_, fun n hn => ?_⟩
  · -- it existed, or has gone since: the lock decides
    have hthere : s₁.rows (.alertState input.userId) ≠ none := by
      intro hnone
      rw [Tx.row_of_chg hchg, hnone] at hfound
      cases hfound
    refine (wp_seq _ _).mpr (wp_selectForUpdate_tx fun s₂ hl₂ _ _ => ?_)
    rw [Tx.row_of_chg hchg]
    cases hrow : s₂.rows (.alertState input.userId) with
    | none => exact ⟨fun _ => herr _ _ _ ⟨s₁, hl₁, hthere, hl₂, hrow⟩, nofun⟩
    | some st =>
      refine ⟨nofun, fun _ => hok s₂ s₂ _ _ st false (hl₁.trans hl₂) hrow .refl (.found st) ?_⟩
      refine ⟨by rw [Tx.chg_write_self, Tx.base_of_chg hchg, hrow], fun cycle _ => ?_, nofun,
        fun k hk => ?_, rfl⟩
      · rw [Tx.chg_write_ne _ (by simp)]
        exact hfree _ (by simp)
      · have hne : k ≠ .alertState input.userId := by rintro rfl; exact hk isAlertOf_state
        rw [Tx.chg_write_ne _ hne]
  · obtain ⟨hnone, rfl⟩ := onFree_eq_some.mp hn
    rw [Tx.row_of_chg hchg] at hnone
    have hh : Holding t input.userId none (seedState input c.now) none
        (t.write s₁.rows ⟨.alertState input.userId, some (seedState input c.now)⟩) := by
      refine ⟨by rw [Tx.chg_write_self, Tx.base_of_chg hchg, hnone], fun cycle _ => ?_, nofun,
        fun k hk => ?_, rfl⟩
      · rw [Tx.chg_write_ne _ (by simp)]
        exact hfree _ (by simp)
      · have hne : k ≠ .alertState input.userId := by rintro rfl; exact hk isAlertOf_state
        rw [Tx.chg_write_ne _ hne]
    refine (wp_seq _ _).mpr (wp_selectForUpdate_tx fun s₂ hl₂ _ _ => ?_)
    rw [hh.row_state]
    refine ⟨nofun, fun _ => ?_⟩
    exact hok s₁ s₂ _ none _ true hl₁ hnone (hh.later hfree hl₂) (.created c.now) hh.write_state

theorem wp_observedBalance (hfree : ∀ k, IsAlertOf input.userId k → t.chg k = none)
    (hh : Holding t input.userId base st none t') {Q : ℤ → AlertLocal → AlertStore → Prop}
    (hQ : ∀ balance s' r', D.Later p (LocksOf t input.userId) s s' →
      (balance = match input.balanceBeforeToman with
        | some _ => input.balanceAfterToman
        | none => ((t.row s'.rows (.user input.userId)).map (·.balanceToman)).getD
            input.balanceAfterToman) → (input.balanceBeforeToman = none → r' = s' :: r) →
      Q balance ⟨some t', r'⟩ s') :
    wp D p (observedBalance input) Q ⟨some t', r⟩ s := by
  unfold observedBalance
  cases hbefore : input.balanceBeforeToman with
  | some b => exact hQ input.balanceAfterToman s r .refl (by rw [hbefore]) (by simp [hbefore])
  | none =>
    refine (wp_seq _ _).mpr (wp_select _ fun s' hl _ => ?_)
    refine hQ _ s' _ (hh.later hfree hl) ?_ fun _ => rfl
    have hrow : t'.row s'.rows (.user input.userId) = t.row s'.rows (.user input.userId) := by
      simp only [Tx.row, hh.others (.user input.userId) (by simp [IsAlertOf])]
    dsimp only [Local.pending, Option.getD_some, Store.view]
    rw [hbefore, hrow]

theorem wp_applyLowBalanceObservation
    (hfree : ∀ k, IsAlertOf input.userId k → t.chg k = none)
    {Q : Except ObservationThrow LowBalanceObservationOutcome → AlertLocal → AlertStore → Prop}
    (herr : ∀ e l s', Vanished D p t input.userId s s' → Q (.error e) l s')
    (hok : ∀ s₁ s₂ s₃ s₄ s' base st st' t' t'' notified o outcome r',
      Applied D p input t s s₁ s₂ s₃ s₄ s' base st st' t' t'' notified o →
      o.opened = outcome.openedCycle → Reported D p input t s₄ notified outcome →
      (input.balanceBeforeToman = none → s₂ :: r <:+ r') → Q (.ok outcome) ⟨some t'', r'⟩ s') :
    wp D p (applyLowBalanceObservation input) Q ⟨some t, r⟩ s := by
  refine (wp_seq _ _).mpr (wp_seedAndLockState hfree (fun _ _ _ hl => herr _ _ _ hl) ?_)
  intro s₁ s' t' base st created hwaits hbase hl hseeded hh
  refine (wp_seq _ _).mpr (wp_observedBalance hfree hh fun balance s₂ r' hl₂ hbal hread => ?_)
  -- the read under the lock stays in front of the earlier ones
  refine wp_grown _ ((wp_seq _ _).mpr ?_)
  refine wp_transition hfree hh fun s₃ s₄ s₅ st' t'' outcome notified r'' hm hrep => ?_
  refine (wp_seq _ _).mpr (wp_append_tx fun s₆ hl₆ _ hgrown => ?_)
  have hends := hm.ends.trans (hm.holding.later hfree hl₆)
  exact hok s₁ s₂ s₃ s₄ s₆ base st st' t'' _ notified _ outcome r''
    ⟨hwaits, hbase, hseeded, hl.trans hl₂, hbal, { hm with ends := hends }, rfl,
      rfl, rfl, rfl, rfl, rfl⟩ rfl hrep fun hnone => hread hnone ▸ hgrown

/-! ### The producers -/

/-- The input of the wallet observer. -/
def eventInput (config : FrozenConfig) (userId : ℕ) (before after : ℤ) (user : User) :
    LowBalanceObservationInput where
  userId := userId
  balanceBeforeToman := some before
  balanceAfterToman := after
  thresholdToman := config.thresholdToman
  rearmBoundaryToman := config.rearmBoundaryToman
  configVersion := config.configVersion
  eligible := evaluateEligibility user
  buildNotification := draftFor config after .event

/-- The input of the sweep. -/
def reconcileInput (config : FrozenConfig) (userId : ℕ) (live : User) :
    LowBalanceObservationInput where
  userId := userId
  balanceBeforeToman := none
  balanceAfterToman := live.balanceToman
  thresholdToman := config.thresholdToman
  rearmBoundaryToman := config.rearmBoundaryToman
  configVersion := config.configVersion
  eligible := evaluateEligibility live
  buildNotification := draftFor config live.balanceToman .reconcile

/-- The change of a wallet mutation to its user. -/
def mutationTx (rows : ∀ k, AlertRow k) (userId : ℕ) (delta : ℤ) (user : User) : AlertTx :=
  Tx.write {} rows ⟨.user userId, some (user.move delta)⟩

/-- The end of an observation in a transaction that commits. -/
def MayCommit (D : Discipline AlertRow AlertEntry Unit) (p : ℕ) (t : AlertTx) (s : AlertStore) :
    Prop :=
  ∀ s' r, D.Later p t.Holds s s' → D.Inv s' → t.Held s'.rows → D.Commits p r s' t

/-- The end of a producer's transaction: what it returns may be committed. -/
def EndsCommittable (D : Discipline AlertRow AlertEntry Unit) (p : ℕ) {α : Type} :
    Except ObservationThrow α → AlertLocal → AlertStore → Prop
  | .ok _, l, s => ∃ t, l.tx = some t ∧ MayCommit D p t s
  | .error _, _, _ => True

theorem EndsCommittable.accepts {α : Type} {body : Alerts (Except ObservationThrow α)}
    (h : ∀ r s, D.Inv s → wp D p body (EndsCommittable D p) ⟨some {}, r⟩ s) :
    Accepts D p (transaction body) := by
  refine .transaction fun r s hi => wp_mono body (fun x l s hx => ?_) (h r s hi)
  cases x with
  | error e => trivial
  | ok x =>
    obtain ⟨t, ht, hmay⟩ := hx
    exact ⟨t, ht, fun s' => hmay s' l.reads⟩

/-- MUTATION: it commits the change of the balance alone, or together with one observation. -/
theorem accepts_walletMutation {config : AlertChoice → Option FrozenConfig} {delta : ℤ}
    (hplain : ∀ c s u, config c = none → s.rows (.user userId) = some u → D.Inv s →
      MayCommit D p (mutationTx s.rows userId delta u) s)
    (hobserves : ∀ c cfg s₀ u s s₁ s₂ s₃ s₄ s' base st st' t' t'' notified o,
      config c = some cfg → s₀.rows (.user userId) = some u → D.Inv s₀ →
      D.Later p (mutationTx s₀.rows userId delta u).Holds s₀ s →
      Applied D p (eventInput cfg userId u.balanceToman (u.move delta).balanceToman (u.move delta))
        (mutationTx s₀.rows userId delta u) s s₁ s₂ s₃ s₄ s' base st st' t' t'' notified o →
      MayCommit D p t'' s') :
    Accepts D p (walletMutation config userId delta) := by
  refine EndsCommittable.accepts fun r s _ => (wp_seq _ _).mpr (wp_update_tx fun s₀ _ hi₀ _ => ?_)
  refine ⟨fun _ => trivial, fun n hn => ?_⟩
  obtain ⟨u, hu, -, rfl⟩ := onRow_eq_some.mp hn
  rw [Tx.row_empty] at hu
  refine (wp_seq _ _).mpr (wp_select _ fun s₁ hl₁ _ => (wp_seq _ _).mpr (wp_ask _ fun c => ?_))
  have hrow : ∀ s' : AlertStore, (s'.view (mutationTx s₀.rows userId delta u)).rows (.user userId) =
      some (u.move delta) := fun s' => Tx.row_write_self ..
  have hbefore : (u.move delta).balanceToman - delta = u.balanceToman := by simp [User.move]
  dsimp only [Local.pending, Option.getD_some]
  rw [show (s₁.view (Tx.write {} s₀.rows ⟨.user userId, some (u.move delta)⟩)).rows (.user userId) =
    some (u.move delta) from hrow s₁]
  dsimp only
  rw [hbefore]
  unfold observeWalletBalance
  cases hc : config c with
  | none =>
    refine ⟨_, rfl, fun s' r' hl hi hh => ?_⟩
    exact hplain c s₀ u hc hu hi₀ s' r' (hl₁.trans hl) hi hh
  | some cfg =>
    refine (wp_seq _ _).mpr (wp_select _ fun s₂ hl₂ _ => ?_)
    dsimp only [Local.pending, Local.read, Option.getD_some]
    rw [show (s₂.view (Tx.write {} s₀.rows ⟨.user userId, some (u.move delta)⟩)).rows
      (.user userId) = some (u.move delta) from hrow s₂]
    have hfree : ∀ k, IsAlertOf userId k → (mutationTx s₀.rows userId delta u).chg k = none := by
      rintro k (rfl | ⟨cycle, rfl⟩) <;> exact Tx.chg_write_ne _ (by simp)
    refine (wp_seq _ _).mpr (wp_applyLowBalanceObservation hfree (fun _ _ _ _ => trivial) ?_)
    intro s₁' s₂' s₃' s₄' s' base st st' t' t'' notified o outcome r' happ _ _ _
    exact ⟨t'', rfl, hobserves c cfg s₀ u s₂ s₁' s₂' s₃' s₄' s' base st st' t' t'' notified o hc hu
      hi₀ (hl₁.trans hl₂) happ⟩

/-- SWEEP: it commits nothing, or one observation begun from what it read of the user. -/
theorem accepts_processOne {config : FrozenConfig}
    (hnothing : ∀ s, D.Inv s → MayCommit D p {} s)
    (hobserves : ∀ s₀ live s₁ s₂ s₃ s₄ s' base st st' t' t'' notified o,
      s₀.rows (.user userId) = some live → D.Inv s₀ →
      Applied D p (reconcileInput config userId live) {} s₀ s₁ s₂ s₃ s₄ s' base st st' t' t''
        notified o → MayCommit D p t'' s') :
    Accepts D p (processOne config userId) := by
  refine EndsCommittable.accepts fun r s _ => (wp_seq _ _).mpr (wp_select _ fun s₀ _ hi₀ => ?_)
  dsimp only [Local.pending, Local.read, Option.getD_some, Store.view]
  rw [Tx.row_empty]
  cases hlive : s₀.rows (.user userId) with
  | none => exact ⟨_, rfl, hnothing s₀ hi₀⟩
  | some live =>
    dsimp only
    split
    · exact ⟨_, rfl, hnothing s₀ hi₀⟩
    refine (wp_seq _ _).mpr (wp_applyLowBalanceObservation (fun _ _ => rfl) (fun _ _ _ _ => trivial) ?_)
    intro s₁ s₂ s₃ s₄ s' base st st' t' t'' notified o outcome r' happ _ _ _
    exact ⟨t'', rfl, hobserves s₀ live s₁ s₂ s₃ s₄ s' base st st' t' t'' notified o hlive hi₀ happ⟩

end ZedBot.LowBalance
