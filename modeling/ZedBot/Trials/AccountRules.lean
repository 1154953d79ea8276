import ZedBot.Trials.Accepted

/-! What the automatic paths of the trials do to the account of a claim.

    A claim is ended by a process that saw it before anything could be sent, or that read the panel and
    found no account; a service is stored for a claim with that identity, which is activated where it
    is still unsettled. -/

namespace ZedBot.Trials
open ReadCommitted

variable {p id : ℕ} {s s' : TrialStore} {t : TrialTx} {r : List TrialStore}
  {c c' c'' : FreeTrialClaim} {a : Remote}

/-! ### Claims and their accounts -/

/-- The account of a claim on its panel. -/
def FreeTrialClaim.remote (c : FreeTrialClaim) : Option Remote :=
  c.usernameSnapshot.map fun u => ⟨c.panelId, u⟩

def hasEnded (c : FreeTrialClaim) : Bool := c.status = .FAILED ∨ c.status = .CANCELLED

def wasActive (c : FreeTrialClaim) : Bool := c.status = .ACTIVE ∨ c.status = .EXPIRED

/-- What was read when nothing had been sent for the claim yet. -/
def isUnbegun (id : ℕ) (x : TrialStore) : Bool := (x.rows (.claim id)).all fun c => c.status = .CLAIMED

/-- A process has seen the claim before anything was sent, or has seen that there is no account. -/
def Unseen (r : List TrialStore) (id : ℕ) (c : FreeTrialClaim) : Prop :=
  (∃ x ∈ r, isUnbegun id x = true) ∨ ∃ a, c.remote = some a ∧ ∃ x ∈ r, a ∉ x.world.accounts

/-- How a claim goes on, by a process that has read `r`. -/
structure ClaimChange (r : List TrialStore) (id : ℕ) (c c' : FreeTrialClaim) : Prop where
  panel : c'.panelId = c.panelId
  identity : c'.usernameSnapshot = c.usernameSnapshot ∨ c.usernameSnapshot = none
  begun : c'.status = .CLAIMED → c.status = .CLAIMED
  settled : c.status ∉ LIVE_CLAIM_STATUSES → c'.status ∉ LIVE_CLAIM_STATUSES
  active : wasActive c = true → wasActive c' = true
  stays : hasEnded c = true → hasEnded c' = true
  ended : hasEnded c' = true → hasEnded c = true ∨ Unseen r id c'

/-- The account and the status of a claim stay. -/
structure Same (c c' : FreeTrialClaim) : Prop where
  panel : c'.panelId = c.panelId
  identity : c'.usernameSnapshot = c.usernameSnapshot
  status : c'.status = c.status

theorem Same.refl (c : FreeTrialClaim) : Same c c := ⟨rfl, rfl, rfl⟩

theorem Same.trans (h : Same c c') (h' : Same c' c'') : Same c c'' :=
  ⟨h'.panel.trans h.panel, h'.identity.trans h.identity, h'.status.trans h.status⟩

theorem ClaimChange.of_status (hp : c'.panelId = c.panelId)
    (hi : c'.usernameSnapshot = c.usernameSnapshot ∨ c.usernameSnapshot = none)
    (hs : c'.status = c.status) : ClaimChange r id c c' where
  panel := hp
  identity := hi
  begun h := hs ▸ h
  settled h := by rwa [hs]
  active h := by rwa [wasActive, hs]
  stays h := by rwa [hasEnded, hs]
  ended h := .inl (by rwa [hasEnded, hs] at h)

theorem Same.change (h : Same c c') : ClaimChange r id c c' :=
  .of_status h.panel (.inl h.identity) h.status

/-- A live claim moves to a status that is not an end. -/
theorem ClaimChange.of_live (hp : c'.panelId = c.panelId)
    (hi : c'.usernameSnapshot = c.usernameSnapshot) (hlive : c.status ∈ LIVE_CLAIM_STATUSES)
    (hbegun : c'.status ≠ .CLAIMED) (hended : hasEnded c' = false) : ClaimChange r id c c' where
  panel := hp
  identity := .inl hi
  begun h := absurd h hbegun
  settled h := absurd hlive h
  active h := by
    rcases of_decide_eq_true h with h | h <;> rw [h] at hlive <;> exact absurd hlive (by decide)
  stays h := by
    rcases of_decide_eq_true h with h | h <;> rw [h] at hlive <;> exact absurd hlive (by decide)
  ended h := by
    rw [hended] at h
    cases h

/-- A live claim is ended by a process that has seen nothing of its account. -/
theorem ClaimChange.of_end (hp : c'.panelId = c.panelId)
    (hi : c'.usernameSnapshot = c.usernameSnapshot) (hlive : c.status ∈ LIVE_CLAIM_STATUSES)
    (hended : hasEnded c' = true) (hseen : Unseen r id c') : ClaimChange r id c c' where
  panel := hp
  identity := .inl hi
  begun h := by rcases of_decide_eq_true hended with he | he <;> rw [he] at h <;> cases h
  settled h := absurd hlive h
  active h := by
    rcases of_decide_eq_true h with h | h <;> rw [h] at hlive <;> exact absurd hlive (by decide)
  stays _ := hended
  ended _ := .inr hseen

/-- An ACTIVE claim expires. -/
theorem ClaimChange.of_expiry (hp : c'.panelId = c.panelId)
    (hi : c'.usernameSnapshot = c.usernameSnapshot) (hs : c.status = .ACTIVE)
    (hs' : c'.status = .EXPIRED) : ClaimChange r id c c' where
  panel := hp
  identity := .inl hi
  begun h := by
    rw [hs'] at h
    cases h
  settled _ := by
    rw [hs']
    decide
  active _ := by simp [wasActive, hs']
  stays h := by simp [hasEnded, hs] at h
  ended h := by simp [hasEnded, hs'] at h

/-! ### Commits -/

/-- What may be committed by a process that has read `r`. -/
structure AccountTx (r : List TrialStore) (s : TrialStore) (t : TrialTx) : Prop where
  claims : ∀ id o n, t.chg (.claim id) = some (o, n) →
    (∃ c c', o = some c ∧ n = some c' ∧ ClaimChange r id c c') ∨
      o = none ∧ ∃ c', n = some c' ∧ c'.usernameSnapshot = none ∧ c'.status = .CLAIMED ∧
        id ∈ claimIds t.entries
  services : ∀ u o n, t.chg (.service u) = some (o, n) → o ≠ none ∨
    ∃ id c, s.rows (.claim id) = some c ∧ c.usernameSnapshot = some u ∧
      (isUnsettled c = true → ∃ c', t.chg (.claim id) = some (some c, some c') ∧
        c'.status = .ACTIVE)

/-- What may happen outside: an account is created by a call that was sent, and stays. -/
structure WorldMove (w w' : TrialWorld) : Prop where
  created : ∀ a ∈ w'.accounts, a ∈ w.accounts ∨ a ∈ w.pending
  kept : ∀ a ∈ w.accounts, a ∈ w'.accounts

theorem WorldMove.refl (w : TrialWorld) : WorldMove w w := ⟨fun _ h => .inl h, fun _ h => h⟩

/-- The journal lists every claim. -/
def AllListed (s : TrialStore) : Prop :=
  ∀ id c, s.rows (.claim id) = some c → id ∈ claimIds s.journal

/-- A claim after a commit was there before, or is new. -/
theorem AccountTx.claim_after (h : AccountTx r s t) (hheld : t.Held s.rows)
    (hrow : (s.commit p t).rows (.claim id) = some c') :
    (∃ c, s.rows (.claim id) = some c ∧ ClaimChange r id c c') ∨
      s.rows (.claim id) = none ∧ c'.usernameSnapshot = none ∧ c'.status = .CLAIMED ∧
        id ∈ claimIds t.entries := by
  rcases s.commit_rows p hheld (.claim id) with ⟨he, -⟩ | hchg
  · exact .inl ⟨c', he.symm.trans hrow, (Same.refl c').change⟩
  · rcases h.claims id _ _ hchg with ⟨c, n, hc, hn, hchange⟩ | ⟨hnone, n, hn, hnew⟩
    · cases hrow.symm.trans hn
      exact .inl ⟨c, hc, hchange⟩
    · cases hrow.symm.trans hn
      exact .inr ⟨hnone, hnew⟩

/-- A claim before a commit is there after it. -/
theorem AccountTx.claim_before (h : AccountTx r s t) (hheld : t.Held s.rows)
    (hrow : s.rows (.claim id) = some c) :
    ∃ c', (s.commit p t).rows (.claim id) = some c' ∧ ClaimChange r id c c' := by
  rcases s.commit_rows p hheld (.claim id) with ⟨he, -⟩ | hchg
  · exact ⟨c, he.trans hrow, (Same.refl c).change⟩
  · rcases h.claims id _ _ hchg with ⟨d, n, hd, hn, hchange⟩ | ⟨hnone, -⟩
    · cases hrow.symm.trans hd
      exact ⟨n, hn, hchange⟩
    · rw [hrow] at hnone
      cases hnone

theorem AccountTx.empty : AccountTx r s {} :=
  ⟨fun _ _ _ h => (nomatch h), fun _ _ _ h => (nomatch h)⟩

theorem AccountTx.allListed (h : AccountTx r s t) (hheld : t.Held s.rows) (hi : AllListed s) :
    AllListed (s.commit p t) := by
  intro id c' hrow
  rw [Store.journal_commit, claimIds_append, List.mem_append]
  rcases h.claim_after (p := p) hheld hrow with ⟨c, hc, -⟩ | ⟨-, -, -, hlisted⟩
  · exact .inl (hi id c hc)
  · exact .inr hlisted

/-- The rules of the accounts. -/
def provisioning : Discipline TrialRow TrialEntry TrialWorld where
  Inv := AllListed
  Commits _ r s t := AccountTx r s t
  Acts _ _ s w := WorldMove s.world w
  commits_empty _ := .empty
  inv_commit hi hheld h := h.allListed hheld hi
  inv_act hi _ := hi

/-- One claim is written. -/
theorem AccountTx.of_claim (hrow : s.rows (.claim id) = some c) (h : ClaimChange r id c c') :
    AccountTx r s (Tx.write {} s.rows ⟨.claim id, some c'⟩) where
  claims id' o n hchg := by
    by_cases hid : id' = id
    · subst hid
      rw [Tx.chg_write_self, Tx.base_empty, hrow] at hchg
      cases hchg
      exact .inl ⟨c, c', rfl, rfl, h⟩
    · rw [Tx.chg_write_ne _ fun he => hid (by cases he; rfl)] at hchg
      cases hchg
  services u o n hchg := by
    rw [Tx.chg_write_ne _ TrialKey.noConfusion] at hchg
    cases hchg

/-! ### Statements that leave the accounts -/

/-- Claims keep their account and status, and no service is stored. -/
structure StillTx (t : TrialTx) : Prop where
  claims : ∀ id o n, t.chg (.claim id) = some (o, n) → ∃ c c', o = some c ∧ n = some c' ∧ Same c c'
  services : ∀ u o n, t.chg (.service u) = some (o, n) → o ≠ none

structure StillStmt (v : TrialView) (writes : List (Write TrialRow)) (_ : List TrialEntry) :
    Prop where
  claims : ∀ id n, ⟨.claim id, n⟩ ∈ writes →
    ∃ c c', v.rows (.claim id) = some c ∧ n = some c' ∧ Same c c'
  services : ∀ u n, ⟨.service u, n⟩ ∈ writes → v.rows (.service u) ≠ none

theorem StillTx.add {β : Type} {e : Effect TrialRow TrialEntry β} (h : StillTx t)
    (he : StillStmt (s.view t) e.writes e.entries) : StillTx (t.add s.rows e) where
  claims id o n hchg := by
    rcases Tx.chg_add hchg with hchg | ⟨rfl, hmem⟩
    · exact h.claims id o n hchg
    · obtain ⟨c, c', hrow, rfl, hsame⟩ := he.claims id n hmem
      have hrow' : t.row s.rows (.claim id) = some c := hrow
      rcases Tx.chg_of_row hrow' with ⟨-, hbase⟩ | hsome
      · exact ⟨c, c', hbase, rfl, hsame⟩
      · obtain ⟨b, d, hb, hd, hbefore⟩ := h.claims id _ _ hsome
        cases hd
        exact ⟨b, c', hb, rfl, hbefore.trans hsame⟩
  services u o n hchg := by
    rcases Tx.chg_add hchg with hchg | ⟨rfl, hmem⟩
    · exact h.services u o n hchg
    · have hthere : t.row s.rows (.service u) ≠ none := he.services u n hmem
      rcases Tx.chg_of_row (rfl : t.row s.rows (.service u) = _) with ⟨-, hbase⟩ | hsome
      · rwa [hbase]
      · exact h.services u _ _ hsome

theorem StillTx.accountTx (h : StillTx t) : AccountTx r s t where
  claims id o n hchg := by
    obtain ⟨c, c', ho, hn, hsame⟩ := h.claims id o n hchg
    exact .inl ⟨c, c', ho, hn, hsame.change⟩
  services u o n hchg := .inl (h.services u o n hchg)

theorem stillRules : StmtRules provisioning p StillStmt WorldMove fun _ t => StillTx t where
  start _ := ⟨fun _ _ _ h => (nomatch h), fun _ _ _ h => (nomatch h)⟩
  env _ _ h := h
  add _ h he := h.add he
  commits _ _ h := h.accountTx
  acts _ h := h

theorem StillStmt.nothing (v : TrialView) (es : List TrialEntry) : StillStmt v [] es :=
  ⟨fun _ _ h => (nomatch h), fun _ _ h => (nomatch h)⟩

/-- A statement that writes neither claims nor services. -/
theorem StillStmt.of_elsewhere {v : TrialView} {writes : List (Write TrialRow)}
    {es : List TrialEntry} (h : ∀ w ∈ writes, (∀ id, w.1 ≠ .claim id) ∧ ∀ u, w.1 ≠ .service u) :
    StillStmt v writes es :=
  ⟨fun id _ hmem => absurd rfl ((h _ hmem).1 id), fun u _ hmem => absurd rfl ((h _ hmem).2 u)⟩

/-- The same where one row is written. -/
theorem StillStmt.of_row {v : TrialView} {k : TrialKey} {n : TrialRow k} {es : List TrialEntry}
    (hc : ∀ id, k ≠ .claim id) (hs : ∀ u, k ≠ .service u) : StillStmt v [⟨k, n⟩] es := by
  refine .of_elsewhere fun w hw => ?_
  cases List.mem_singleton.mp hw
  exact ⟨hc, hs⟩

theorem each_tick : clock.Each StillStmt WorldMove := .ext fun _ w => .refl w

theorem each_sameClaim {cond : FreeTrialClaim → Bool} {data : FreeTrialClaim → FreeTrialClaim}
    (h : ∀ c now, cond c = true → Same c { data c with updatedAt := now }) :
    (updateClaim id cond data).Each StillStmt WorldMove := by
  refine .bind each_tick fun now => .update (fun v => .nothing v []) fun v n hn => ?_
  obtain ⟨c, hrow, hc, rfl⟩ := onSome_eq hn
  refine ⟨fun id' n hmem => ?_, fun u n hmem => ?_⟩
  · cases List.mem_singleton.mp hmem
    exact ⟨c, _, hrow, rfl, h c now hc⟩
  · cases List.mem_singleton.mp hmem

end ZedBot.Trials
