import ZedBot.Trials.Claims

/-! What the transactions of the trials do: a claim is inserted with its unit, gives the unit back, or
    moves on; an entitlement is created, expires or is revoked. One lemma for each function of the
    source, for any discipline that allows such commits. -/

namespace ZedBot.Trials
open ReadCommitted

variable {p q id : ℕ} {s s' : TrialStore} {t : TrialTx}

/-! ### Moves -/

/-- A claim moves on: its unit stays, and what is not live stays but for the expiry of an ACTIVE one. -/
structure ClaimMove (c c' : FreeTrialClaim) : Prop where
  user : c'.userId = c.userId
  panel : c'.panelId = c.panelId
  unit : c'.entitlementId = c.entitlementId
  released : c'.allowanceReleasedAt = c.allowanceReleasedAt
  status : c'.status = c.status ∧ c'.expiresAt = c.expiresAt ∨ c.status ∈ LIVE_CLAIM_STATUSES ∨
    c.status = .ACTIVE ∧ c'.status = .EXPIRED

/-- An entitlement keeps its units, and may end. -/
structure EntitlementMove (e e' : FreeTrialEntitlement) : Prop where
  allowance : e'.allowance = e.allowance
  consumed : e'.consumed = e.consumed
  status : e'.status = e.status ∨ e.status = .ACTIVE ∧ (e'.status = .EXPIRED ∨ e'.status = .REVOKED)

/-- An entitlement that was just created. -/
structure NewEntitlement (e : FreeTrialEntitlement) : Prop where
  consumed : e.consumed = 0
  allowance : 0 ≤ e.allowance
  status : e.status ≠ .CONSUMED

theorem ClaimMove.refl (c : FreeTrialClaim) : ClaimMove c c := ⟨rfl, rfl, rfl, rfl, .inl ⟨rfl, rfl⟩⟩

theorem ClaimMove.trans {a b c : FreeTrialClaim} (h : ClaimMove a b) (h' : ClaimMove b c) :
    ClaimMove a c := by
  refine ⟨h'.user.trans h.user, h'.panel.trans h.panel, h'.unit.trans h.unit,
    h'.released.trans h.released, ?_⟩
  rcases h.status with ⟨hs, he⟩ | hlive | ⟨ha, hx⟩
  · rcases h'.status with ⟨hs', he'⟩ | hlive | ⟨ha, hx⟩
    · exact .inl ⟨hs'.trans hs, he'.trans he⟩
    · exact .inr (.inl (hs ▸ hlive))
    · exact .inr (.inr ⟨hs ▸ ha, hx⟩)
  · exact .inr (.inl hlive)
  · rcases h'.status with ⟨hs', -⟩ | hlive | ⟨ha', -⟩
    · exact .inr (.inr ⟨ha, hs'.trans hx⟩)
    · rw [hx] at hlive
      exact absurd hlive (by decide)
    · rw [hx] at ha'
      cases ha'

theorem EntitlementMove.trans {a b c : FreeTrialEntitlement} (h : EntitlementMove a b)
    (h' : EntitlementMove b c) : EntitlementMove a c := by
  refine ⟨h'.allowance.trans h.allowance, h'.consumed.trans h.consumed, ?_⟩
  rcases h'.status with he' | ⟨ha', hx'⟩
  · rw [he']
    exact h.status
  · rcases h.status with he | ⟨-, hx⟩
    · exact .inr ⟨he ▸ ha', hx'⟩
    · rw [ha'] at hx
      rcases hx with hx | hx <;> cases hx

theorem NewEntitlement.move {a b : FreeTrialEntitlement} (h : NewEntitlement a)
    (h' : EntitlementMove a b) : NewEntitlement b := by
  refine ⟨h'.consumed.trans h.consumed, h'.allowance ▸ h.allowance, fun hs => ?_⟩
  rcases h'.status with he | ⟨-, he | he⟩
  · exact h.status (he ▸ hs)
  · rw [hs] at he
    cases he
  · rw [hs] at he
    cases he

/-! ### Commits -/

theorem claimIds_append (js js' : List TrialEntry) :
    claimIds (js ++ js') = claimIds js ++ claimIds js' := List.filterMap_append

theorem row_of_none {k : TrialKey} (h : t.chg k = none) : (s.commit p t).rows k = s.rows k := by
  simp [Store.commit, Tx.row, h]

theorem row_of_some {k : TrialKey} {o n : TrialRow k} (h : t.chg k = some (o, n)) :
    (s.commit p t).rows k = n := by
  simp [Store.commit, Tx.row, h]

/-- Claims move on, and nothing else of the allowances. -/
structure ClaimsTx (E : TrialEntry → Prop) (t : TrialTx) : Prop where
  claims : ∀ id o n, t.chg (.claim id) = some (o, n) →
    ∃ c c', o = some c ∧ n = some c' ∧ ClaimMove c c'
  entitlements : ∀ id, t.chg (.entitlement id) = none
  entries : ∀ j ∈ t.entries, E j

/-- Entitlements are created or end. -/
structure EntitlementsTx (t : TrialTx) : Prop where
  claims : ∀ id, t.chg (.claim id) = none
  entitlements : ∀ id o n, t.chg (.entitlement id) = some (o, n) →
    (∃ e e', o = some e ∧ n = some e' ∧ EntitlementMove e e') ∨
      o = none ∧ ∃ e', n = some e' ∧ NewEntitlement e'
  entries : ∀ j ∈ t.entries, ∃ id, j = .entitlement id

/-- What a commit does to the entitlement of a unit: `f` to that row, nothing to the others. -/
structure UnitTx (t : TrialTx) (unit : Option ℕ)
    (f : FreeTrialEntitlement → Option FreeTrialEntitlement) : Prop where
  row : ∀ e, unit = some e → ∃ x y, t.chg (.entitlement e) = some (some x, some y) ∧ f x = some y
  others : ∀ e, unit ≠ some e → t.chg (.entitlement e) = none

/-- A unit is taken from an entitlement that is ACTIVE and not used up. -/
def take (x : FreeTrialEntitlement) : Option FreeTrialEntitlement :=
  if x.status = .ACTIVE ∧ x.consumed < x.allowance then some x.taken else none

/-- A unit is given back to an entitlement that has one. -/
def giveBack (x : FreeTrialEntitlement) : Option FreeTrialEntitlement :=
  if 0 < x.consumed then some x.givenBack else none

/-- A claim is inserted and a unit is taken. -/
structure InsertTx (t : TrialTx) (id : ℕ) (c : FreeTrialClaim) (unit : Option ℕ) : Prop where
  claim : t.chg (.claim id) = some (none, some c)
  others : ∀ id', id' ≠ id → t.chg (.claim id') = none
  status : c.status = .CLAIMED
  unreleased : c.allowanceReleasedAt = none
  unfrozen : c.usernameSnapshot = none
  units : UnitTx t unit take
  services : ∀ username, t.chg (.service username) = none
  entries : t.entries = [.claim id]

/-- A claim that came to nothing is stamped and a unit is given back. -/
structure GiveBackTx (t : TrialTx) (id : ℕ) (c c' : FreeTrialClaim) (unit : Option ℕ) : Prop where
  claim : t.chg (.claim id) = some (some c, some c')
  others : ∀ id', id' ≠ id → t.chg (.claim id') = none
  releasable : isReleasable c = true
  stamp : ∃ now, c' = { c with allowanceReleasedAt := some now, updatedAt := c'.updatedAt }
  units : UnitTx t unit giveBack
  entries : t.entries = []

/-- What a discipline allows the functions of the source: a claim takes its own unit and gives it back,
    but for the claims that are `Idle`; a capacity decision knows a limit of its panel. -/
structure TrialRules (D : Discipline TrialRow TrialEntry TrialWorld) (p : ℕ)
    (Idle : FreeTrialClaim → Prop) (Limit : ℕ → ℕ → Prop) : Prop where
  movesClaims : ∀ {r s t}, D.Inv s → t.Held s.rows → ClaimsTx (fun _ => False) t → D.Commits p r s t
  movesEntitlements : ∀ {r s t}, D.Inv s → t.Held s.rows → EntitlementsTx t → D.Commits p r s t
  inserts : ∀ {r s t id c}, D.Inv s → t.Held s.rows → InsertTx t id c c.entitlementId →
    D.Commits p r s t
  givesBack : ∀ {r s t id c c' unit}, D.Inv s → t.Held s.rows → GiveBackTx t id c c' unit →
    unit = c.entitlementId ∨ Idle c → D.Commits p r s t
  idle : ∀ {s id c e}, D.Inv s → s.rows (.claim id) = some c → isReleasable c = true →
    c.entitlementId = some e →
    (∀ x, s.rows (.entitlement e) = some x → ¬ 0 < x.consumed) → Idle c
  acts : ∀ {r s w}, D.Inv s → s.world.now ≤ w.now → D.Acts p r s w
  advances : ∀ {q r s s'}, D.Step q r s s' → s.world.now ≤ s'.world.now
  decides : ∀ {claimId panelId limit now r s}, D.Inv s →
    (∃ c, s.rows (.claim claimId) = some c) → now ≤ s.world.now → Limit panelId limit →
    wp D p (decideCapacity claimId panelId limit now) (fun _ l s => l.tx = none ∧ D.Inv s)
      ⟨none, r⟩ s

/-! ### Statements -/

/-- A statement that moves claims on. -/
structure ClaimsStmt (E : TrialEntry → Prop) (v : TrialView) (writes : List (Write TrialRow))
    (entries : List TrialEntry) : Prop where
  claims : ∀ id n, ⟨.claim id, n⟩ ∈ writes →
    ∃ c c', v.rows (.claim id) = some c ∧ n = some c' ∧ ClaimMove c c'
  entitlements : ∀ id n, ⟨.entitlement id, n⟩ ∉ writes
  entries : ∀ j ∈ entries, E j

/-- A statement that creates or ends entitlements. -/
structure EntitlementsStmt (v : TrialView) (writes : List (Write TrialRow))
    (entries : List TrialEntry) : Prop where
  claims : ∀ id n, ⟨.claim id, n⟩ ∉ writes
  entitlements : ∀ id n, ⟨.entitlement id, n⟩ ∈ writes →
    (∃ e e', v.rows (.entitlement id) = some e ∧ n = some e' ∧ EntitlementMove e e') ∨
      v.rows (.entitlement id) = none ∧ ∃ e', n = some e' ∧ NewEntitlement e'
  entries : ∀ j ∈ entries, ∃ id, j = .entitlement id

variable {E : TrialEntry → Prop}

theorem ClaimsTx.empty : ClaimsTx E {} :=
  ⟨fun _ _ _ h => (nomatch h), fun _ => rfl, fun _ h => (nomatch h)⟩

theorem EntitlementsTx.empty : EntitlementsTx {} :=
  ⟨fun _ => rfl, fun _ _ _ h => (nomatch h), fun _ h => (nomatch h)⟩

/-- A row that a statement leaves. -/
theorem chg_add_of_none {β : Type} {e : Effect TrialRow TrialEntry β} {k : TrialKey}
    (h : t.chg k = none) (hk : ∀ n, ⟨k, n⟩ ∉ e.writes) : (t.add s.rows e).chg k = none := by
  rw [Tx.chg_add_of_notMem, h]
  intro hmem
  obtain ⟨⟨k', n⟩, hw, rfl⟩ := List.mem_map.mp hmem
  exact hk n hw

theorem ClaimsTx.add {β : Type} {e : Effect TrialRow TrialEntry β} (h : ClaimsTx E t)
    (he : ClaimsStmt E (s.view t) e.writes e.entries) : ClaimsTx E (t.add s.rows e) where
  claims id o n hchg := by
    rcases Tx.chg_add hchg with hchg | ⟨rfl, hmem⟩
    · exact h.claims id o n hchg
    · obtain ⟨c, c', hrow, rfl, hmove⟩ := he.claims id n hmem
      have hrow' : t.row s.rows (.claim id) = some c := hrow
      rcases Tx.chg_of_row hrow' with ⟨-, hbase⟩ | hsome
      · exact ⟨c, c', hbase, rfl, hmove⟩
      · obtain ⟨b, c₁, hb, hc₁, hbefore⟩ := h.claims id _ _ hsome
        cases hc₁
        exact ⟨b, c', hb, rfl, hbefore.trans hmove⟩
  entitlements id := chg_add_of_none (h.entitlements id) (he.entitlements id)
  entries j hj := by
    rw [Tx.entries_add, List.mem_append] at hj
    rcases hj with hj | hj
    · exact h.entries j hj
    · exact he.entries j hj

theorem EntitlementsTx.add {β : Type} {e : Effect TrialRow TrialEntry β} (h : EntitlementsTx t)
    (he : EntitlementsStmt (s.view t) e.writes e.entries) : EntitlementsTx (t.add s.rows e) where
  claims id := chg_add_of_none (h.claims id) (he.claims id)
  entitlements id o n hchg := by
    rcases Tx.chg_add hchg with hchg | ⟨rfl, hmem⟩
    · exact h.entitlements id o n hchg
    · rcases he.entitlements id n hmem with ⟨x, x', hrow, rfl, hmove⟩ | ⟨hnone, x', rfl, hnew⟩
      · have hrow' : t.row s.rows (.entitlement id) = some x := hrow
        rcases Tx.chg_of_row hrow' with ⟨-, hbase⟩ | hsome
        · exact .inl ⟨x, x', hbase, rfl, hmove⟩
        · rcases h.entitlements id _ _ hsome with ⟨b, x₁, hb, hx₁, hbefore⟩ | ⟨hb, x₁, hx₁, hnew⟩
          · cases hx₁
            exact .inl ⟨b, x', hb, rfl, hbefore.trans hmove⟩
          · cases hx₁
            exact .inr ⟨hb, x', rfl, hnew.move hmove⟩
      · have hrow' : t.row s.rows (.entitlement id) = none := hnone
        rcases Tx.chg_of_row hrow' with ⟨-, hbase⟩ | hsome
        · exact .inr ⟨hbase, x', rfl, hnew⟩
        · rcases h.entitlements id _ _ hsome with ⟨_, x₁, -, hx₁, -⟩ | ⟨-, x₁, hx₁, -⟩ <;> cases hx₁
  entries j hj := by
    rw [Tx.entries_add, List.mem_append] at hj
    rcases hj with hj | hj
    · exact h.entries j hj
    · exact he.entries j hj

theorem ClaimsStmt.nothing (v : TrialView) : ClaimsStmt E v [] [] :=
  ⟨fun _ _ h => (nomatch h), fun _ _ h => (nomatch h), fun _ h => (nomatch h)⟩

theorem EntitlementsStmt.nothing (v : TrialView) : EntitlementsStmt v [] [] :=
  ⟨fun _ _ h => (nomatch h), fun _ _ h => (nomatch h), fun _ h => (nomatch h)⟩

/-- A row of another table. -/
def isElsewhere : TrialKey → Prop
  | .claim _ | .entitlement _ => False
  | .user _ | .service _ | .userLock _ | .panelLock _ => True

/-- A statement that writes one row of another table. -/
theorem ClaimsStmt.of_elsewhere {v : TrialView} {k : TrialKey} (n : TrialRow k)
    (h : isElsewhere k) : ClaimsStmt E v [⟨k, n⟩] [] := by
  refine ⟨fun id n' hmem => ?_, fun id n' hmem => ?_, fun _ h => (nomatch h)⟩
  · cases List.mem_singleton.mp hmem
    exact h.elim
  · cases List.mem_singleton.mp hmem
    exact h

theorem EntitlementsStmt.of_elsewhere {v : TrialView} {k : TrialKey} (n : TrialRow k)
    (h : isElsewhere k) : EntitlementsStmt v [⟨k, n⟩] [] := by
  refine ⟨fun id n' hmem => ?_, fun id n' hmem => ?_, fun _ h => (nomatch h)⟩
  · cases List.mem_singleton.mp hmem
    exact h
  · cases List.mem_singleton.mp hmem
    exact h.elim

theorem ClaimsStmt.of_claim {v : TrialView} {c c' : FreeTrialClaim}
    (h : v.rows (.claim id) = some c) (hmove : ClaimMove c c') :
    ClaimsStmt E v [⟨.claim id, some c'⟩] [] := by
  refine ⟨fun id' n hmem => ?_, fun id' n hmem => ?_, fun _ h => (nomatch h)⟩
  · cases List.mem_singleton.mp hmem
    exact ⟨c, c', h, rfl, hmove⟩
  · cases List.mem_singleton.mp hmem

end ZedBot.Trials
