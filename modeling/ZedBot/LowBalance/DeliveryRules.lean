import ZedBot.LowBalance.AlertRules
import ZedBot.LowBalance.Delivery

/-! The rules by which a delivery may trust the balance it has read.

    The state of a user only moves on: within a cycle from ALERTED to ARMED, then to the next cycle.
    What a delivery read of the user is still true under the lock of the state, unless a mutation in
    between crossed the boundary and left the cycle open. -/

namespace ZedBot.LowBalance
open ReadCommitted JsNumber

/-! ### Phases -/

/-- How far the machine of a user has come. -/
def phase : Option LowBalanceAlertState → ℕ
  | none => 0
  | some st => 2 * st.alertCycle + if st.state = .ARMED then 1 else 0

variable {st st' : LowBalanceAlertState}

theorem le_phase (st : LowBalanceAlertState) : 2 * st.alertCycle ≤ phase (some st) := Nat.le_add_right ..

/-- A state in the phase of an open cycle is ALERTED in it. -/
theorem phase_eq {cycle : ℕ} (h : phase (some st) = 2 * cycle) :
    st.state = .ALERTED ∧ st.alertCycle = cycle := by
  rw [phase] at h
  cases hs : st.state with
  | ARMED =>
    rw [hs, if_pos rfl] at h
    omega
  | ALERTED =>
    rw [hs, if_neg (by decide)] at h
    exact ⟨rfl, by omega⟩

theorem phase_alerted (h : st.state = .ALERTED) : phase (some st) = 2 * st.alertCycle := by
  simp [phase, h]

theorem Moved.phase_le {input : LowBalanceObservationInput} {balance : ℤ} {opened : Option ℕ}
    (h : Moved input balance st st' opened) : phase (some st) ≤ phase (some st') := by
  cases h with
  | kept => exact Nat.le_refl _
  | rearmed now =>
    have hcycle : (LowBalance.rearmed input balance now st).alertCycle = st.alertCycle := rfl
    have hstate : (LowBalance.rearmed input balance now st).state = .ARMED := rfl
    rw [phase, phase, hcycle, if_pos hstate]
    split <;> omega
  | opened now =>
    have hcycle : (alertedIn input balance (st.alertCycle + 1) now st).alertCycle =
        st.alertCycle + 1 := rfl
    simp only [phase, hcycle]
    split <;> omega

/-! ### The condition -/

/-- A commit that takes the balance of its user from above the boundary of a notification to the
    boundary or below it closes the cycle of the notification. -/
def closesCrossing (n : AutomatedNotification) (e : Commit AlertRow AlertEntry) : Bool :=
  match e.tx.chg (.user n.userId) with
  | some (some u, some u') =>
    if n.payloadSnapshot.rearmBoundaryToman < u.balanceToman ∧
        u'.balanceToman ≤ n.payloadSnapshot.rearmBoundaryToman then
      match e.tx.chg (.alertState n.userId) with
      | some (_, some st) => ¬ (st.state = .ALERTED ∧ st.alertCycle = n.payloadSnapshot.alertCycle)
      | _ => false
    else true
  | _ => true

/-- The state of a user is re-armed. -/
def rearms (userId : ℕ) (s s' : AlertStore) : Bool :=
  match s.rows (.alertState userId), s'.rows (.alertState userId) with
  | some st, some st' => st.state = .ALERTED ∧ st'.state = .ARMED
  | _, _ => false

/-- Every mutation that crossed the boundary since the user was read closed the cycle. -/
def crossingsClosed (n : AutomatedNotification) (r : List AlertStore) (s : AlertStore) : Bool :=
  r.head?.all fun x => (s.since x).all (closesCrossing n)

/-- A delivery that re-armed its user saw them recovered: the balance was above the boundary when it
    locked the state, and is so when it commits. -/
structure JudgedLive (v : Revalidation) (s : AlertStore) : Prop where
  locked : ∃ balance, v.balanceToman = some balance ∧
    v.notification.payloadSnapshot.rearmBoundaryToman < balance
  committed : ∃ u, s.rows (.user v.notification.userId) = some u ∧
    v.notification.payloadSnapshot.rearmBoundaryToman < u.balanceToman

/-! ### The rules -/

variable {p q : ℕ} {r : List AlertStore} {s s' x : AlertStore} {t t' t'' : AlertTx} {userId : ℕ}

/-- What a process may commit. -/
structure DeliveryTx (p : ℕ) (r : List AlertStore) (s : AlertStore) (t : AlertTx) : Prop where
  phases : ∀ id o n, t.chg (.alertState id) = some (o, n) → phase o ≤ phase n
  sent : ∀ id cycle o n, t.chg (.notification id cycle) = some (o, n) → ∃ row, n = some row ∧
    row.userId = id ∧ row.payloadSnapshot.alertCycle = cycle ∧
    2 * cycle ≤ phase (t.row s.rows (.alertState id))
  users : ∀ id o n, t.chg (.user id) = some (o, n) → n ≠ none
  judged : ∀ v, .revalidation v ∈ t.entries →
    rearms v.notification.userId s (s.commit p t) = true →
    crossingsClosed v.notification r s = true → JudgedLive v s

/-- The notifications belong to cycles that were opened. -/
def Issued (s : AlertStore) : Prop :=
  ∀ id cycle row, s.rows (.notification id cycle) = some row → row.userId = id ∧
    row.payloadSnapshot.alertCycle = cycle ∧ 2 * cycle ≤ phase (s.rows (.alertState id))

theorem DeliveryTx.phase_le (h : DeliveryTx p r s t) (hheld : t.Held s.rows) (id : ℕ) :
    phase (s.rows (.alertState id)) ≤ phase ((s.commit p t).rows (.alertState id)) := by
  rcases s.commit_rows p hheld (.alertState id) with ⟨he, -⟩ | hchg
  · rw [he]
  · exact h.phases id _ _ hchg

/-- The rules of the deliveries. -/
def deliveries : Discipline AlertRow AlertEntry Unit where
  Inv := Issued
  Commits := DeliveryTx
  Acts _ _ _ _ := True
  commits_empty _ := ⟨fun _ _ _ h => (nomatch h), fun _ _ _ _ h => (nomatch h),
    fun _ _ _ h => (nomatch h), fun _ h => (nomatch h)⟩
  inv_commit {p r s t} hi hheld h id cycle row hrow := by
    rcases s.commit_rows p hheld (.notification id cycle) with ⟨he, -⟩ | hchg
    · obtain ⟨huser, hcycle, hphase⟩ := hi id cycle row (he.symm.trans hrow)
      exact ⟨huser, hcycle, hphase.trans (h.phase_le hheld id)⟩
    · obtain ⟨row', hn, hsent⟩ := h.sent id cycle _ _ hchg
      cases hrow.symm.trans hn
      exact hsent
  inv_act hi _ := hi

/-! ### What a delivery has read -/

/-- Since state `x`, in which a user was above the boundary of a notification of an opened cycle: they
    still are, or the cycle is over, or some mutation crossed the boundary and left it open. -/
structure Watched (n : AutomatedNotification) (x s : AlertStore) : Prop where
  since : x.log.length ≤ s.log.length
  user : s.rows (.user n.userId) ≠ none
  opened : 2 * n.payloadSnapshot.alertCycle ≤ phase (s.rows (.alertState n.userId))
  above : (s.since x).all (closesCrossing n) = true →
    (∀ u, s.rows (.user n.userId) = some u →
      n.payloadSnapshot.rearmBoundaryToman < u.balanceToman) ∨
    2 * n.payloadSnapshot.alertCycle < phase (s.rows (.alertState n.userId))

variable {n : AutomatedNotification}

theorem Watched.start {u : User} (hu : s.rows (.user n.userId) = some u)
    (hopened : 2 * n.payloadSnapshot.alertCycle ≤ phase (s.rows (.alertState n.userId)))
    (habove : n.payloadSnapshot.rearmBoundaryToman < u.balanceToman) : Watched n s s where
  since := le_rfl
  user := by simp [hu]
  opened := hopened
  above _ := by
    refine .inl fun v hv => ?_
    rw [hu] at hv
    cases hv
    exact habove

/-- A commit that closes its crossings takes no user below the boundary in an open cycle. -/
theorem above_of_closes (h : DeliveryTx q r s t) (hheld : t.Held s.rows)
    (hcloses : closesCrossing n ⟨q, t⟩ = true)
    (hopened : 2 * n.payloadSnapshot.alertCycle ≤ phase (s.rows (.alertState n.userId)))
    (habove : ∀ u, s.rows (.user n.userId) = some u →
      n.payloadSnapshot.rearmBoundaryToman < u.balanceToman)
    (huser : s.rows (.user n.userId) ≠ none) :
    (∀ u, (s.commit q t).rows (.user n.userId) = some u →
      n.payloadSnapshot.rearmBoundaryToman < u.balanceToman) ∨
    2 * n.payloadSnapshot.alertCycle < phase ((s.commit q t).rows (.alertState n.userId)) := by
  obtain ⟨u, hu⟩ := Option.ne_none_iff_exists'.mp huser
  have hu₀ := habove u hu
  rcases s.commit_rows q hheld (.user n.userId) with ⟨he, -⟩ | hchg
  · exact .inl fun v hv => habove v (he.symm.trans hv)
  · obtain ⟨u', hu'⟩ := Option.ne_none_iff_exists'.mp (h.users _ _ _ hchg)
    rw [hu, hu'] at hchg
    rcases lt_or_ge n.payloadSnapshot.rearmBoundaryToman u'.balanceToman with hlt | hle
    · refine .inl fun v hv => ?_
      rw [hu'] at hv
      cases hv
      exact hlt
    · -- it crosses the boundary, so it moves the state out of the open cycle
      refine .inr ?_
      simp only [closesCrossing, hchg, if_pos (And.intro hu₀ hle)] at hcloses
      split at hcloses
      · rename_i o st hstate
        have hnew : (s.commit q t).rows (.alertState n.userId) = some st := by
          simp [Store.commit, Tx.row, hstate]
        have hle' := hopened.trans (h.phase_le hheld n.userId)
        rw [hnew] at hle' ⊢
        refine lt_of_le_of_ne hle' fun he => ?_
        have := phase_eq he.symm
        simp [this] at hcloses
      · cases hcloses

theorem Watched.step (h : Watched n x s) (hst : deliveries.Step q r s s') : Watched n x s' := by
  cases hst with
  | act w _ => exact ⟨h.since, h.user, h.opened, h.above⟩
  | commit t hheld ht =>
    have hphase := DeliveryTx.phase_le ht hheld n.userId
    refine ⟨h.since.trans (Nat.le_succ _), ?_, h.opened.trans hphase, fun hall => ?_⟩
    · rcases s.commit_rows q hheld (.user n.userId) with ⟨he, -⟩ | hchg
      · rw [he]
        exact h.user
      · exact DeliveryTx.users ht _ _ _ hchg
    · rw [Store.since_commit h.since, List.all_cons, Bool.and_eq_true] at hall
      rcases h.above hall.2 with habove | hover
      · exact above_of_closes ht hheld hall.1 h.opened habove h.user
      · exact .inr (hover.trans_le hphase)

theorem Watched.later {ks : AlertKey → Prop} (h : Watched n x s) (hi : Issued s)
    (hl : deliveries.Later p ks s s') : Watched n x s' :=
  hl.stable (P := Watched n x) (fun _ _ hst h => h.step hst) hi h

/-- Under the lock of a state that is ALERTED in the cycle, the user is above the boundary. -/
theorem Watched.recovered (h : Watched n x s) (hst : s.rows (.alertState n.userId) = some st)
    (halerted : st.state = .ALERTED) (hcycle : st.alertCycle = n.payloadSnapshot.alertCycle)
    (hall : (s.since x).all (closesCrossing n) = true) : ∃ u, s.rows (.user n.userId) = some u ∧
      n.payloadSnapshot.rearmBoundaryToman < u.balanceToman := by
  obtain ⟨u, hu⟩ := Option.ne_none_iff_exists'.mp h.user
  refine ⟨u, hu, (h.above hall).elim (fun habove => habove u hu) fun hover => ?_⟩
  rw [hst, phase_alerted halerted, hcycle] at hover
  exact absurd hover (lt_irrefl _)

end ZedBot.LowBalance
