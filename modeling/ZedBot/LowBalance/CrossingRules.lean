import ZedBot.Hysteresis
import ZedBot.LowBalance.AlertRules
import ZedBot.LowBalance.Backfill

/-! Every observation is a reading of the hysteresis machine of its user.

    The state row and the notifications of a user are the machine; a commit leaves it or makes one
    reading of it, because the row stays locked from the observation to the commit. -/

namespace ZedBot.LowBalance
open ReadCommitted

/-! ### The machine of a user -/

def LowBalanceAlertStateValue.side : LowBalanceAlertStateValue → Hysteresis.Side
  | .ARMED => .armed
  | .ALERTED => .alerted

theorem side_eq_armed {state : LowBalanceAlertStateValue} : state.side = .armed ↔ state = .ARMED := by
  cases state <;> simp [LowBalanceAlertStateValue.side]

theorem side_eq_alerted {state : LowBalanceAlertStateValue} :
    state.side = .alerted ↔ state = .ALERTED := by
  cases state <;> simp [LowBalanceAlertStateValue.side]

/-- Whether a cycle of a user has its notification. -/
def isNotified (userId cycle : ℕ) (s : AlertStore) : Bool :=
  (s.rows (.notification userId cycle)).isSome

/-- The machine of a user: the state row and the notifications. -/
def machineOf (userId : ℕ) (s : AlertStore) : Option Hysteresis.Machine :=
  (s.rows (.alertState userId)).map fun st =>
    { side := st.state.side
      cycle := st.alertCycle
      message := fun cycle => isNotified userId cycle s }

def Observation.reading (o : Observation) : Hysteresis.Reading ℤ where
  before := o.balanceBeforeToman
  value := o.balanceToman
  eligible := o.eligible
  force := o.forceAlert

def Observation.event (o : Observation) : Hysteresis.Event ℤ where
  toReading := o.reading
  opened := o.opened

/-- The observations of a user, oldest first. -/
def observationsOf (userId : ℕ) (js : List AlertEntry) : List Observation :=
  js.filterMap fun
    | .observation o => if o.userId = userId then some o else none
    | _ => none

theorem observationsOf_append (userId : ℕ) (js es : List AlertEntry) :
    observationsOf userId (js ++ es) = observationsOf userId js ++ observationsOf userId es :=
  List.filterMap_append

/-! ### The rules -/

variable {b : Hysteresis.Band ℤ} {p q : ℕ} {r : List AlertStore} {s s' : AlertStore}
  {t t' t'' : AlertTx} {userId : ℕ}

/-- What a commit may do to the alerts of a user, with the observations it lists. -/
inductive AlertMove (b : Hysteresis.Band ℤ) (userId : ℕ) (s s' : AlertStore) :
    List Observation → Prop
  | idle (hstate : s'.rows (.alertState userId) = s.rows (.alertState userId))
      (hnotified : ∀ cycle, isNotified userId cycle s' = isNotified userId cycle s) :
      AlertMove b userId s s' []
  | observed (o : Observation) (hevent : o.event = b.event (machineOf userId s) o.reading)
      (hnotified : o.notified = o.event.notified)
      (hread : machineOf userId s' = some (b.read (machineOf userId s) o.reading))
      (hforced : o.forceAlert = true → o.eligible = true ∧
        (machineOf userId s = none → o.balanceToman ≤ b.low)) : AlertMove b userId s s' [o]

/-- What a process may commit: every user's alerts make one move, and a balance moves only with an
    observation of it. -/
structure CrossingTx (b : Hysteresis.Band ℤ) (p : ℕ) (s : AlertStore) (t : AlertTx) : Prop where
  alerts : ∀ userId, AlertMove b userId s (s.commit p t) (observationsOf userId t.entries)
  balances : ∀ userId u, s.rows (.user userId) = some u →
    ∃ u', (s.commit p t).rows (.user userId) = some u' ∧
      (u'.balanceToman = u.balanceToman ∨ (s.commit p t).rows (.alertState userId) ≠ none)

/-- A notification belongs to a cycle that was opened. -/
def NotificationsOpened (s : AlertStore) : Prop :=
  ∀ userId cycle, isNotified userId cycle s = true →
    ∃ st, s.rows (.alertState userId) = some st ∧ cycle ≤ st.alertCycle

theorem machineOf_of_row {st : LowBalanceAlertState} (h : s.rows (.alertState userId) = some st) :
    machineOf userId s = some { side := st.state.side
                                cycle := st.alertCycle
                                message := fun cycle => isNotified userId cycle s } := by
  simp [machineOf, h]

theorem machineOf_eq_none (h : s.rows (.alertState userId) = none) : machineOf userId s = none := by
  simp [machineOf, h]

/-- A machine that was read has its row. -/
theorem exists_row_of_machine {m : Hysteresis.Machine} (h : machineOf userId s = some m) :
    ∃ st, s.rows (.alertState userId) = some st ∧ m.side = st.state.side ∧
      m.cycle = st.alertCycle ∧ ∀ cycle, m.message cycle = isNotified userId cycle s := by
  obtain ⟨st, hst, rfl⟩ := Option.map_eq_some_iff.mp h
  exact ⟨st, hst, rfl, rfl, fun _ => rfl⟩

/-- The messages of the machine a reading finds are notifications, of cycles it has opened. -/
theorem found_message (hi : NotificationsOpened s) (x : Hysteresis.Reading ℤ) (cycle : ℕ) :
    (b.found (machineOf userId s) x).message cycle = isNotified userId cycle s := by
  cases hrow : s.rows (.alertState userId) with
  | none =>
    rw [machineOf_eq_none hrow]
    have hnone : isNotified userId cycle s = false := by
      by_contra hne
      obtain ⟨st, hst, -⟩ := hi userId cycle (by simpa using hne)
      rw [hrow] at hst
      cases hst
    rw [hnone]
    rfl
  | some st =>
    rw [machineOf_of_row hrow]
    rfl

theorem found_cycle_le (hi : NotificationsOpened s) (x : Hysteresis.Reading ℤ) {cycle : ℕ}
    (h : (b.found (machineOf userId s) x).message cycle = true) :
    cycle ≤ (b.found (machineOf userId s) x).cycle := by
  rw [found_message hi] at h
  obtain ⟨st, hst, hle⟩ := hi userId cycle h
  rw [machineOf_of_row hst]
  exact hle

/-- A reading sends messages only in cycles it has opened. -/
theorem read_message_le (hi : NotificationsOpened s) (x : Hysteresis.Reading ℤ) {cycle : ℕ}
    (h : (b.read (machineOf userId s) x).message cycle = true) :
    cycle ≤ (b.read (machineOf userId s) x).cycle := by
  rw [Hysteresis.Band.read] at h ⊢
  rcases Bool.eq_false_or_eq_true ((b.found (machineOf userId s) x).opens b x) with ho | ho
  · obtain ⟨-, hcycle, hmessage⟩ := Hysteresis.Machine.next_of_opens ho
    rw [hmessage] at h
    rw [hcycle]
    by_cases he : cycle = (b.found (machineOf userId s) x).cycle + 1
    · exact he.le
    · have hold : (b.found (machineOf userId s) x).message cycle = true := by
        split at h
        · rwa [Function.update_of_ne he] at h
        · exact h
      exact (found_cycle_le hi x hold).trans (Nat.le_succ _)
  · obtain ⟨hcycle, hmessage⟩ := Hysteresis.Machine.next_of_not_opens ho
    rw [hmessage] at h
    rw [hcycle]
    exact found_cycle_le hi x h

theorem AlertMove.opened {os : List Observation} (h : AlertMove b userId s s' os)
    (hi : NotificationsOpened s) {cycle : ℕ} (hn : isNotified userId cycle s' = true) :
    ∃ st, s'.rows (.alertState userId) = some st ∧ cycle ≤ st.alertCycle := by
  cases h with
  | idle hstate hnotified =>
    rw [hnotified] at hn
    rw [hstate]
    exact hi userId cycle hn
  | observed o hevent _ hread =>
    obtain ⟨st, hst, -, hcycle, hmessage⟩ := exists_row_of_machine hread
    refine ⟨st, hst, ?_⟩
    rw [← hcycle]
    exact read_message_le hi o.reading (by rw [hmessage]; exact hn)

/-- The rules of the alerts. -/
def crossings (b : Hysteresis.Band ℤ) : Discipline AlertRow AlertEntry Unit where
  Inv := NotificationsOpened
  Commits p _ s t := CrossingTx b p s t
  Acts _ _ _ _ := True
  commits_empty _ := ⟨fun _ => .idle rfl fun _ => rfl, fun _ u hu => ⟨u, hu, .inl rfl⟩⟩
  inv_commit hi _ h userId _ hn := (h.alerts userId).opened hi hn
  inv_act hi _ := hi

/-! ### Under the lock of the state -/

/-- A user without a state row had none before. -/
theorem AlertMove.row_none {os : List Observation} (h : AlertMove b userId s s' os)
    (hnone : s'.rows (.alertState userId) = none) : s.rows (.alertState userId) = none := by
  cases h with
  | idle hstate _ => exact hstate.symm.trans hnone
  | observed o _ _ hread =>
    rw [machineOf_eq_none hnone] at hread
    cases hread

/-- A move that leaves the state row leaves the notifications. -/
theorem AlertMove.notified_spared {os : List Observation} (h : AlertMove b userId s s' os)
    (hi : NotificationsOpened s)
    (hrow : s'.rows (.alertState userId) = s.rows (.alertState userId)) (cycle : ℕ) :
    isNotified userId cycle s' = isNotified userId cycle s := by
  cases h with
  | idle _ hnotified => exact hnotified cycle
  | observed o _ _ hread =>
    obtain ⟨st, hst, -, hcycle, hmessage⟩ := exists_row_of_machine hread
    have hst' := hst
    rw [hrow] at hst'
    rw [← hmessage cycle, ← found_message (b := b) hi o.reading cycle, Hysteresis.Band.read]
    refine congrFun (Hysteresis.Machine.next_of_not_opens ?_).2 cycle
    -- a cycle that was opened would show in the row
    by_contra hopens
    rw [Bool.not_eq_false] at hopens
    rw [Hysteresis.Band.read, (Hysteresis.Machine.next_of_opens hopens).2.1] at hcycle
    rw [machineOf_of_row hst'] at hcycle
    change st.alertCycle + 1 = st.alertCycle at hcycle
    omega

theorem notified_spared (hi : NotificationsOpened s) (hst : (crossings b).Step q r s s')
    (hrow : s'.rows (.alertState userId) = s.rows (.alertState userId)) (cycle : ℕ) :
    isNotified userId cycle s' = isNotified userId cycle s := by
  cases hst with
  | commit t hh h => exact (h.alerts userId).notified_spared hi hrow cycle
  | act w _ => rfl

theorem notified_later {ks : AlertKey → Prop} (hk : ks (.alertState userId))
    (hl : (crossings b).Later p ks s s') (hi : NotificationsOpened s) (cycle : ℕ) :
    isNotified userId cycle s' = isNotified userId cycle s := by
  refine hl.stable_spared (P := fun x => isNotified userId cycle x = isNotified userId cycle s)
    (fun _ hi hst hspared hx => ?_) hi rfl
  rw [notified_spared hi hst (hspared _ hk)]
  exact hx

/-- A balance that was read is the balance, as long as the user has no state row. -/
def BalanceKept (userId : ℕ) (balance : ℤ) (s : AlertStore) : Prop :=
  s.rows (.alertState userId) = none →
    (s.rows (.user userId)).map (·.balanceToman) = some balance

theorem balanceKept_later {ks : AlertKey → Prop} {u : User} (hu : s.rows (.user userId) = some u)
    (hl : (crossings b).Later p ks s s') (hi : NotificationsOpened s) :
    BalanceKept userId u.balanceToman s' := by
  refine (hl.stable (P := fun x => BalanceKept userId u.balanceToman x ∧ x.rows (.user userId) ≠ none)
    (fun _ hi hst hx => ?_) hi ⟨fun _ => by rw [hu]; rfl, by simp [hu]⟩).1
  obtain ⟨hx, hsome⟩ := hx
  cases hst with
  | act w _ => exact ⟨hx, hsome⟩
  | commit t hh h =>
    obtain ⟨v, hv⟩ := Option.ne_none_iff_exists'.mp hsome
    obtain ⟨v', hv', hbalance⟩ := h.balances userId v hv
    refine ⟨fun hnone => ?_, by simp [hv']⟩
    rcases hbalance with hbalance | hstate
    · have hold := hx ((h.alerts userId).row_none hnone)
      rw [hv] at hold
      rw [hv', Option.map_some, hbalance]
      exact hold
    · exact absurd hnone hstate

/-! ### Observations -/

/-- The side of the row under the lock is that of the machine the reading finds. -/
theorem Seeded.found_eq {input : LowBalanceObservationInput} {base : Option LowBalanceAlertState}
    {st : LowBalanceAlertState} {o : Observation} (h : Seeded input base st o.created)
    (hbase : s.rows (.alertState userId) = base) (hlow : input.thresholdToman = b.low)
    (hbefore : o.balanceBeforeToman = input.balanceBeforeToman)
    (hvalue : input.balanceBeforeToman = none → o.created = true →
      o.balanceToman = input.balanceAfterToman) :
    (b.found (machineOf userId s) o.reading).side = st.state.side ∧
      (b.found (machineOf userId s) o.reading).cycle = st.alertCycle := by
  cases hcreated : o.created with
  | false =>
    rw [hcreated] at h
    cases h
    rw [machineOf_of_row hbase]
    exact ⟨rfl, rfl⟩
  | true =>
    rw [hcreated] at h
    cases h
    rw [machineOf_eq_none hbase]
    refine ⟨?_, rfl⟩
    have hseed : o.reading.before.getD o.reading.value =
        input.balanceBeforeToman.getD input.balanceAfterToman := by
      simp only [Observation.reading, hbefore]
      cases hb : input.balanceBeforeToman with
      | none => exact hvalue hb hcreated
      | some v => rfl
    change (if o.reading.before.getD o.reading.value ≤ b.low then _ else _) = _
    rw [hseed, ← hlow]
    simp only [seedState]
    split <;> rfl

/-- An authorisation as a unit of the backfill asks for it. -/
def AuthorizedAsUnit (input : LowBalanceObservationInput) : Prop :=
  input.forceAlert = true → ∀ cycle v, input.authorizeForceAlert cycle v =
    decide (cycle = 0 ∨ ¬ hasNotificationForCycle input.userId cycle v = true)

/-- A move of the state row opens a cycle exactly where the machine does. -/
theorem Moves.opened_eq {input : LowBalanceObservationInput} {s₂ s₃ s₄ : AlertStore}
    {base : Option LowBalanceAlertState} {st st' : LowBalanceAlertState} {balance : ℤ}
    {opened notified : Option ℕ} {D : Discipline AlertRow AlertEntry Unit}
    (h : Moves D p input t s₂ s₃ s₄ s' base st st' balance t' opened notified)
    (hlow : input.thresholdToman = b.low) (hhigh : input.rearmBoundaryToman = b.high)
    (hauth : AuthorizedAsUnit input) {m : Hysteresis.Machine} (hside : m.side = st.state.side)
    (hcycle : m.cycle = st.alertCycle)
    (hmessage : ∀ cycle, m.message cycle = isNotified input.userId cycle s₃)
    {x : Hysteresis.Reading ℤ} (hvalue : x.value = balance) (hforce : x.force = input.forceAlert) :
    opened = if m.opens b x then some (m.cycle + 1) else none := by
  have hband := b.low_le_high
  rw [← hlow, ← hhigh] at hband
  have hasked : st.state = .ALERTED → balance ≤ input.thresholdToman → input.forceAlert = true →
      opened.isSome = decide (m.cycle = 0 ∨ m.message m.cycle = false) := by
    intro ha hle hf
    obtain ⟨v, hv, hanswer⟩ := h.asked ha (hle.trans hband) hle hf
    rw [← hanswer, hauth hf, hmessage, hcycle]
    have hrow : hasNotificationForCycle input.userId st.alertCycle v =
        isNotified input.userId st.alertCycle s₃ := by rw [hasNotificationForCycle, isNotified, hv]
    rw [hrow, decide_eq_decide, Bool.not_eq_true]
  have hopens : m.opens b x = true ↔ balance ≤ input.thresholdToman ∧ (st.state = .ALERTED →
      input.forceAlert = true ∧ (m.cycle = 0 ∨ m.message m.cycle = false)) := by
    rw [Hysteresis.Machine.opens_iff, hside, hvalue, hforce, ← hlow]
    cases st.state <;> simp [LowBalanceAlertStateValue.side]
  have hmoved := h.moved
  cases hmoved with
  | kept halerted harmed =>
    refine (if_neg fun ho => ?_).symm
    obtain ⟨hle, hfree⟩ := hopens.mp ho
    cases hs : st.state with
    | ARMED =>
      have := harmed hs
      omega
    | ALERTED =>
      obtain ⟨hf, hfree⟩ := hfree hs
      have := hasked hs hle hf
      simp [hfree] at this
  | rearmed now ha hb =>
    refine (if_neg fun ho => ?_).symm
    have := (hopens.mp ho).1
    omega
  | opened now hle hforced =>
    rw [if_pos (hopens.mpr ⟨hle, fun ha => ?_⟩), hcycle]
    have hf := (hforced ha).2
    have := hasked ha hle hf
    exact ⟨hf, by simpa using this.symm⟩

/-- A machine is known by its side, its cycle and its messages. -/
theorem machineOf_eq {st : LowBalanceAlertState} {m : Hysteresis.Machine}
    (hrow : s.rows (.alertState userId) = some st) (hside : m.side = st.state.side)
    (hcycle : m.cycle = st.alertCycle) (hmessage : ∀ c, m.message c = isNotified userId c s) :
    machineOf userId s = some m := by
  rw [machineOf_of_row hrow, ← hside, ← hcycle, ← funext hmessage]

/-- The side and the cycle that a move leaves are those of the machine's reading. -/
theorem Moved.read {input : LowBalanceObservationInput} {st st' : LowBalanceAlertState} {balance : ℤ}
    {opened : Option ℕ} (h : Moved input balance st st' opened)
    (hhigh : input.rearmBoundaryToman = b.high) {m : Hysteresis.Machine}
    (hside : m.side = st.state.side) (hcycle : m.cycle = st.alertCycle) {x : Hysteresis.Reading ℤ}
    (hvalue : x.value = balance)
    (hopened : opened = if m.opens b x then some (m.cycle + 1) else none) :
    (m.next b x).side = st'.state.side ∧ (m.next b x).cycle = st'.alertCycle := by
  rcases Bool.eq_false_or_eq_true (m.opens b x) with ho | ho
  · rw [if_pos ho] at hopened
    cases h with
    | kept | rearmed => cases hopened
    | opened now =>
      obtain ⟨hs, hc, -⟩ := Hysteresis.Machine.next_of_opens ho
      rw [hs, hc, hcycle]
      exact ⟨rfl, rfl⟩
  · rw [if_neg (by simp [ho])] at hopened
    refine ⟨?_, ?_⟩
    · cases h with
      | kept halerted harmed =>
        simp only [Hysteresis.Machine.next, ho, Bool.false_eq_true, if_false, hvalue]
        split
        · rename_i hb
          cases hs : st.state with
          | ARMED => simp [touched, hs, LowBalanceAlertStateValue.side]
          | ALERTED =>
            have := halerted hs
            omega
        · exact hside
      | rearmed now ha hb =>
        simp [Hysteresis.Machine.next, ho, hvalue, ← hhigh, hb, LowBalance.rearmed,
          LowBalanceAlertStateValue.side]
      | opened => cases hopened
    · rw [(Hysteresis.Machine.next_of_not_opens ho).1, hcycle]
      cases h with
      | kept | rearmed => rfl
      | opened => cases hopened

/-- OBSERVATION: when its transaction commits, an observation is one reading of the machine. -/
theorem Applied.move {input : LowBalanceObservationInput} {s₁ s₂ s₃ s₄ s₅ : AlertStore}
    {base : Option LowBalanceAlertState} {st st' : LowBalanceAlertState} {notified : Option ℕ}
    {o : Observation} {t₅ : AlertTx}
    (h : Applied (crossings b) p input t s s₁ s₂ s₃ s₄ s' base st st' t' t'' notified o)
    (hi : NotificationsOpened s)
    (hl : (crossings b).Later p (LocksOf t input.userId) s' s₅) (hheld : t₅.Held s₅.rows)
    (hsame : ∀ k, IsAlertOf input.userId k → t₅.chg k = t''.chg k)
    (hlow : input.thresholdToman = b.low) (hhigh : input.rearmBoundaryToman = b.high)
    (hauth : AuthorizedAsUnit input)
    (hvalue : input.balanceBeforeToman = none → o.created = true →
      o.balanceToman = input.balanceAfterToman)
    (hforced : input.forceAlert = true → input.eligible = true ∧
      (o.created = true → o.balanceToman ≤ b.low)) :
    AlertMove b input.userId s₅ (s₅.commit p t₅) [o] := by
  obtain ⟨-, hbefore, helig, hforce, hnotified⟩ := h.input
  have hm := h.moves
  -- the row has been locked since `s₁`, so nobody else moved the user's alerts
  have hi₁ := h.waits.inv hi
  have hlock : LocksOf t input.userId (.alertState input.userId) := .inr rfl
  have hl₃ := h.reads.trans hm.asks
  have hi₃ := hl₃.inv hi₁
  have hi₄ := hm.inserts.inv hi₃
  have hl₄₅ := hm.ends.trans hl
  have hi₅ := hl₄₅.inv hi₄
  have hchg : t₅.chg (.alertState input.userId) = some (base, some st') := by
    rw [hsame _ isAlertOf_state, h.tx, Tx.chg_append, hm.holding.state]
  have hbase : s₅.rows (.alertState input.userId) = base := (hheld _ _ _ hchg).symm
  have hnotif₃ : ∀ c, isNotified input.userId c s₅ = isNotified input.userId c s₃ :=
    fun c => notified_later hlock (hm.inserts.trans hl₄₅) hi₃ c
  have hnotif₄ : ∀ c, isNotified input.userId c s₅ = isNotified input.userId c s₄ :=
    fun c => notified_later hlock hl₄₅ hi₄ c
  obtain ⟨hside, hcycle⟩ := h.seeded.found_eq hbase hlow hbefore hvalue
  have hmessage : ∀ c, (b.found (machineOf input.userId s₅) o.reading).message c =
      isNotified input.userId c s₅ := fun c => found_message hi₅ o.reading c
  have hopened := hm.opened_eq hlow hhigh hauth hside hcycle
    (fun c => (hmessage c).trans (hnotif₃ c)) (x := o.reading) rfl hforce
  obtain ⟨hside', hcycle'⟩ := hm.moved.read hhigh hside hcycle (x := o.reading) rfl hopened
  -- the notification that it writes is the message of the cycle that it opens
  have hwrites : ∀ c, isNotified input.userId c (s₅.commit p t₅) =
      (decide (notified = some c) || isNotified input.userId c s₅) := by
    intro c
    have hc : t₅.chg (.notification input.userId c) = t'.chg (.notification input.userId c) := by
      rw [hsame _ (isAlertOf_notification c), h.tx, Tx.chg_append]
    by_cases hn : notified = some c
    · obtain ⟨row, hrow⟩ := hm.holding.inserts c hn
      simp [isNotified, Store.commit, Tx.row, hc, hrow, hn]
    · simp [isNotified, Store.commit, Tx.row, hc, hm.holding.silent c hn, hn]
  have hsent : ∀ c, notified = some c ↔ o.opened = some c ∧ o.eligible = true := by
    intro c
    refine ⟨fun hn => ?_, fun hn => ?_⟩
    · obtain ⟨hop, he, -⟩ := hm.notifies c hn
      exact ⟨hop, by rw [helig, he]⟩
    · cases hnone : notified with
      | none =>
        exfalso
        rcases hm.silent c hn.1 hnone with he | htaken
        · rw [helig, he] at hn
          cases hn.2
        · -- the slot of a cycle that is yet to open is free
          have hslot : isNotified input.userId c s₄ = true :=
            Option.isSome_iff_ne_none.mpr htaken
          rw [← hnotif₄, ← hmessage] at hslot
          have hle := found_cycle_le hi₅ o.reading hslot
          rw [hopened] at hn
          split at hn
          · have := Option.some.inj hn.1
            omega
          · cases hn.1
      | some c' =>
        rw [(hm.notifies c' hnone).1] at hn
        exact hn.1
  refine .observed o ?_ ?_ ?_ fun hf => ?_
  · simp only [Observation.event, Hysteresis.Band.event, hopened]
  · rw [hnotified, Hysteresis.Event.notified]
    change notified.isSome = (o.opened.isSome && o.eligible)
    cases hn : notified with
    | none =>
      cases hop : o.opened with
      | none => rfl
      | some c =>
        have := (hsent c).mpr.mt (by simp [hn])
        simpa [hop] using this
    | some c =>
      obtain ⟨hop, he⟩ := (hsent c).mp hn
      simp [hop, he]
  · have hrow : (s₅.commit p t₅).rows (.alertState input.userId) = some st' := by
      simp [Store.commit, Tx.row, hchg]
    refine machineOf_eq hrow hside' hcycle' fun c => ?_
    rw [hwrites, Hysteresis.Band.read]
    rcases Bool.eq_false_or_eq_true
      ((b.found (machineOf input.userId s₅) o.reading).opens b o.reading) with ho | ho
    · rw [if_pos ho] at hopened
      rw [(Hysteresis.Machine.next_of_opens ho).2.2]
      rcases Bool.eq_false_or_eq_true o.eligible with he | he
      · rw [if_pos (show o.reading.eligible = true from he)]
        rcases eq_or_ne c ((b.found (machineOf input.userId s₅) o.reading).cycle + 1) with rfl | hne
        · simp [(hsent _).mpr ⟨hopened, he⟩]
        · have hno : ¬ notified = some c := fun hn => by
            have := ((hsent c).mp hn).1
            rw [hopened] at this
            exact hne (Option.some.inj this).symm
          rw [Function.update_of_ne hne, hmessage]
          simp [hno]
      · have hno : ¬ notified = some c := fun hn => by
          rw [((hsent c).mp hn).2] at he
          cases he
        rw [if_neg (show ¬ o.reading.eligible = true by simp [Observation.reading, he]), ← hmessage]
        simp [hno]
    · rw [if_neg (by simp [ho])] at hopened
      have hno : ¬ notified = some c := fun hn => by
        have := ((hsent c).mp hn).1
        rw [hopened] at this
        cases this
      rw [(Hysteresis.Machine.next_of_not_opens ho).2, ← hmessage]
      simp [hno]
  · rw [hforce] at hf
    obtain ⟨he, hle⟩ := hforced hf
    refine ⟨by rw [helig, he], fun hnone => hle ?_⟩
    cases hcreated : o.created with
    | true => rfl
    | false =>
      have hseeded := h.seeded
      rw [hcreated] at hseeded
      cases hseeded
      rw [machineOf_of_row hbase] at hnone
      cases hnone

end ZedBot.LowBalance
