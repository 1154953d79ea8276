import ZedBot.Trials.EligibilityTruth

/-! What an owner's call that sets the remaining allowance leaves.

    The grants of the user that were ACTIVE are revoked, the default allowance is pinned to what is
    consumed of it, and one new grant carries the remaining units. -/

namespace ZedBot.Trials
open ReadCommitted

variable {p id userId now : ℕ} {desired : ℤ} {s : TrialStore} {t : TrialTx} {user : TrialUser}
  {σ : Solo TrialRow TrialEntry TrialWorld} {ch : ℕ → TrialChoice} {settings : TrialSettings}

/-- A statement inside a transaction. -/
theorem Inside.added {β : Type} (h : Inside s t σ) (e : Effect TrialRow TrialEntry β) :
    Inside s (t.add s.rows e) (σ.apply p e).tick where
  store := by rw [Solo.tick_store, Solo.apply_of_tx h.tx, h.store]
  tx := by rw [Solo.tick_tx, Solo.apply_of_tx h.tx, h.store]

theorem soloWp_inside {α : Type} {Q : α → Solo TrialRow TrialEntry TrialWorld → Prop}
    {f : TrialView → Effect TrialRow TrialEntry α} (hσ : Inside s t σ)
    (h : ∀ σ', Inside s (t.add s.rows (f (s.view t))) σ' → Q (f (s.view t)).result σ') :
    soloWp p ch (sql f) Q σ := by
  refine soloWp_sql _ ?_
  rw [hσ.view]
  exact h _ (hσ.added _)

/-- The grants of the user that were ACTIVE are revoked, over the tables `s`. -/
structure Revoking (s : TrialStore) (userId : ℕ) (t : TrialTx) : Prop where
  claims : ∀ c, t.chg (.claim c) = none
  users : ∀ u, t.chg (.user u) = none
  grants : ∀ e o n, t.chg (.entitlement e) = some (o, n) → ∃ x, s.rows (.entitlement e) = some x ∧
    ∃ y, n = some y ∧ y.status = .REVOKED ∧ y.userId = x.userId
  revoked : ∀ e ∈ entitlementIds s.journal, ∀ x, s.rows (.entitlement e) = some x →
    x.userId = userId → x.status = .ACTIVE → t.chg (.entitlement e) ≠ none
  entries : t.entries = []

/-- The statement that revokes. -/
def revokeUsable (userId now : ℕ) : Trials Unit :=
  endEntitlements (fun e => e.userId = userId ∧ e.status = .ACTIVE) fun e =>
    { e with status := .REVOKED, revokedAt := some now }

theorem soloWp_revokeUsable (hentitlements : ∀ e, t.chg (.entitlement e) = none)
    (hclaims : ∀ c, t.chg (.claim c) = none) (husers : ∀ u, t.chg (.user u) = none)
    (hentries : t.entries = []) (hσ : Inside s t σ) :
    soloWp p ch (revokeUsable userId now)
      (fun _ σ' => ∃ t', Inside s t' σ' ∧ Revoking s userId t') σ := by
  refine soloWp_inside hσ fun σ' hσ' => ⟨_, hσ', ?_⟩
  have hrow : ∀ e, (s.view t).rows (.entitlement e) = s.rows (.entitlement e) := fun e =>
    Tx.row_of_chg (hentitlements e)
  have hjournal : (s.view t).journal = s.journal := by
    rw [Store.view, hentries, List.append_nil]
    rfl
  -- what the statement writes
  have hwrites : ∀ k n, ⟨k, n⟩ ∈ (entitlementIds (s.view t).journal).filterMap (fun id =>
      (((s.view t).rows (.entitlement id)).filter fun e =>
        decide (e.userId = userId ∧ e.status = .ACTIVE)).map fun e =>
          (⟨.entitlement id, some { e with status := .REVOKED, revokedAt := some now }⟩ :
            Write TrialRow)) →
      ∃ id x, s.rows (.entitlement id) = some x ∧ (⟨k, n⟩ : Write TrialRow) =
        ⟨.entitlement id, some { x with status := .REVOKED, revokedAt := some now }⟩ := by
    intro k n hmem
    obtain ⟨id, -, he⟩ := List.mem_filterMap.mp hmem
    obtain ⟨x, hx, hw⟩ := Option.map_eq_some_iff.mp he
    rw [hrow] at hx
    exact ⟨id, x, (Option.filter_eq_some_iff.mp hx).1, hw.symm⟩
  refine ⟨fun c => chg_add_of_none (hclaims c) fun n hmem => ?_, fun u => chg_add_of_none (husers u)
    fun n hmem => ?_, fun e o n hchg => ?_, fun e he x hx huser hactive => ?_, ?_⟩
  · obtain ⟨id, x, -, hw⟩ := hwrites _ _ hmem
    cases hw
  · obtain ⟨id, x, -, hw⟩ := hwrites _ _ hmem
    cases hw
  · rcases Tx.chg_add hchg with hchg | ⟨-, hmem⟩
    · rw [hentitlements e] at hchg
      cases hchg
    · obtain ⟨id, x, hx, hw⟩ := hwrites _ _ hmem
      cases hw
      exact ⟨x, hx, _, rfl, rfl, rfl⟩
  · refine Tx.holds_add.mpr (.inl (List.mem_map.mpr ⟨⟨.entitlement e, _⟩, List.mem_filterMap.mpr
      ⟨e, ?_, Option.map_eq_some_iff.mpr ⟨x, ?_, rfl⟩⟩, rfl⟩))
    · rw [hjournal]
      exact he
    · rw [hrow]
      exact Option.filter_eq_some_iff.mpr ⟨hx, decide_eq_true ⟨huser, hactive⟩⟩
  · rw [Tx.entries_add, hentries]
    rfl

/-- The grant that carries the remaining units. -/
def resetRow (userId : ℕ) (desired : ℤ) (now : ℕ) : FreeTrialEntitlement :=
  { userId, allowance := desired, source := .ADMIN_RESET, createdAt := now }

/-- What the call has committed over the tables `s`. -/
structure Pinning (s : TrialStore) (id userId : ℕ) (desired : ℤ) (now : ℕ) (user : TrialUser)
    (t : TrialTx) : Prop where
  claims : ∀ c, t.chg (.claim c) = none
  user : t.chg (.user userId) = some (some user, some { user with
    freeTrialDefaultAllowanceOverride := some (countDefaultConsumed userId none (s.view {})) })
  grants : ∀ e ∈ entitlementIds s.journal, ∀ o n, t.chg (.entitlement e) = some (o, n) →
    ∃ x y, s.rows (.entitlement e) = some x ∧ n = some y ∧ y.status = .REVOKED ∧ y.userId = x.userId
  revoked : ∀ e ∈ entitlementIds s.journal, ∀ x, s.rows (.entitlement e) = some x →
    x.userId = userId → x.status = .ACTIVE → t.chg (.entitlement e) ≠ none
  created : 0 < desired → t.entries = [.entitlement id] ∧
    t.chg (.entitlement id) = some (none, some (resetRow userId desired now))
  zero : ¬ 0 < desired → t.entries = []

end ZedBot.Trials
