import ZedBot.Trials.AccountRules

/-! The automatic paths of the trials keep the rules of the accounts. -/

namespace ZedBot.Trials
open ReadCommitted

variable {p id claimId : ℕ} {s s' : TrialStore} {t : TrialTx} {r : List TrialStore}
  {c c' : FreeTrialClaim} {a : Remote} {H : List TrialStore → TrialStore → Prop}

/-! ### What is known of a claim -/

/-- The claim has this account and its provisioning has begun. -/
def Begun (id : ℕ) (a : Remote) (s : TrialStore) : Prop :=
  ∃ c, s.rows (.claim id) = some c ∧ c.remote = some a ∧ c.status ≠ .CLAIMED

/-- The claim is not live any more. -/
def Over (id : ℕ) (s : TrialStore) : Prop :=
  ∃ c, s.rows (.claim id) = some c ∧ c.status ∉ LIVE_CLAIM_STATUSES

theorem remote_eq (h : c.remote = some a) :
    c.usernameSnapshot = some a.username ∧ c.panelId = a.panelId := by
  obtain ⟨u, hu, rfl⟩ := Option.map_eq_some_iff.mp h
  exact ⟨hu, rfl⟩

theorem ClaimChange.remote (h : ClaimChange r id c c') (ha : c.remote = some a) :
    c'.remote = some a := by
  obtain ⟨hu, -⟩ := remote_eq ha
  rcases h.identity with hi | hi
  · rw [FreeTrialClaim.remote, hi, h.panel]
    exact ha
  · rw [hu] at hi
    cases hi

theorem known_begun : Knowledge provisioning fun _ s => Begun id a s where
  read h := h
  step := by
    rintro q r' r s s' - hst ⟨c, hrow, ha, hs⟩
    cases hst with
    | act w _ => exact ⟨c, hrow, ha, hs⟩
    | commit t hheld ht =>
      obtain ⟨c', hrow', hchange⟩ := AccountTx.claim_before ht hheld hrow
      exact ⟨c', hrow', hchange.remote ha, fun h => hs (hchange.begun h)⟩

theorem known_over : Knowledge provisioning fun _ s => Over id s where
  read h := h
  step := by
    rintro q r' r s s' - hst ⟨c, hrow, hs⟩
    cases hst with
    | act w _ => exact ⟨c, hrow, hs⟩
    | commit t hheld ht =>
      obtain ⟨c', hrow', hchange⟩ := AccountTx.claim_before ht hheld hrow
      exact ⟨c', hrow', hchange.settled hs⟩

/-- The claim is there, on its panel. -/
def OnPanel (id panelId : ℕ) (s : TrialStore) : Prop :=
  ∃ c, s.rows (.claim id) = some c ∧ c.panelId = panelId

theorem known_onPanel {panelId : ℕ} : Knowledge provisioning fun _ s => OnPanel id panelId s where
  read h := h
  step := by
    rintro q r' r s s' - hst ⟨c, hrow, hp⟩
    cases hst with
    | act w _ => exact ⟨c, hrow, hp⟩
    | commit t hheld ht =>
      obtain ⟨c', hrow', hchange⟩ := AccountTx.claim_before ht hheld hrow
      exact ⟨c', hrow', hchange.panel.trans hp⟩

/-- The account of the claim is frozen. -/
def HasRemote (id : ℕ) (a : Remote) (s : TrialStore) : Prop :=
  ∃ c, s.rows (.claim id) = some c ∧ c.remote = some a

theorem known_hasRemote : Knowledge provisioning fun _ s => HasRemote id a s where
  read h := h
  step := by
    rintro q r' r s s' - hst ⟨c, hrow, ha⟩
    cases hst with
    | act w _ => exact ⟨c, hrow, ha⟩
    | commit t hheld ht =>
      obtain ⟨c', hrow', hchange⟩ := AccountTx.claim_before ht hheld hrow
      exact ⟨c', hrow', hchange.remote ha⟩

/-- Something was read before anything was sent for the claim. -/
def ReadUnbegun (id : ℕ) (r : List TrialStore) (_ : TrialStore) : Prop :=
  ∃ x ∈ r, isUnbegun id x = true

theorem known_unbegun : Knowledge provisioning (ReadUnbegun id) := .of_read _

theorem clock_acts (_ : provisioning.Inv s) : provisioning.Acts p r s s.world := .refl _

/-! ### Functions -/

theorem accepts_tick : Accepts provisioning p clock := stillRules.accepts_ext each_tick

theorem knows_updateClaim (hK : Knowledge provisioning H) {cond : FreeTrialClaim → Bool}
    {data : FreeTrialClaim → FreeTrialClaim}
    (h : ∀ r s c now, H r s → s.rows (.claim id) = some c → cond c = true →
      ClaimChange r id c { data c with updatedAt := now }) :
    AcceptsKnowing provisioning p H (updateClaim id cond data) := by
  refine .bind hK (.of_accepts accepts_tick) fun now => .update hK fun r s n _ hk hn => ?_
  obtain ⟨c, hrow, hc, rfl⟩ := onSome_eq hn
  exact .of_claim hrow (h r s c now hk hrow hc)

theorem accepts_updateClaim' {cond : FreeTrialClaim → Bool}
    {data : FreeTrialClaim → FreeTrialClaim}
    (h : ∀ r c now, cond c = true → ClaimChange r id c { data c with updatedAt := now }) :
    Accepts provisioning p (updateClaim id cond data) := by
  refine .bind accepts_tick fun now => .update fun r s n _ hn => ?_
  obtain ⟨c, hrow, hc, rfl⟩ := onSome_eq hn
  exact .of_claim hrow (h r c now hc)

theorem accepts_stampRelease (claimId : ℕ) :
    Accepts provisioning p (releaseClaimAllowance claimId) := by
  refine stillRules.accepts_transaction (.bind each_tick fun now => .bind
    (each_sameClaim fun c _ _ => ⟨rfl, rfl, rfl⟩) fun stamped => ?_)
  split
  · exact .pure _
  · refine .bind (.select _) fun claim => ?_
    split
    · exact .pure _
    · exact .bind (.update (fun v => .nothing v []) fun v n _ =>
        .of_row (fun _ => TrialKey.noConfusion) fun _ => TrialKey.noConfusion) fun _ => .pure _

/-- A claim is cancelled by a process that has seen nothing of its account. -/
theorem knows_cancelClaimSafely (hK : Knowledge provisioning H) (reason : String)
    (h : ∀ r s c, H r s → s.rows (.claim claimId) = some c → Unseen r claimId c) :
    AcceptsKnowing provisioning p H (cancelClaimSafely claimId reason) := by
  refine .bind hK (knows_updateClaim hK fun r s c now hk hrow hc =>
    .of_end rfl rfl (live_of_open (of_decide_eq_true hc)) rfl ?_) fun cancelled => ?_
  · exact h r s c hk hrow
  · split
    · exact .bind hK (.of_accepts (accepts_stampRelease claimId)) fun _ => .pure _
    · exact .pure _

theorem ReadUnbegun.unseen (h : ReadUnbegun id r s) : Unseen r id c := .inl h

/-- The changes of a transaction that stores a service and activates its claim. -/
structure StoringTx (claimId : ℕ) (u : String) (t : TrialTx) : Prop where
  claims : ∀ id o n, t.chg (.claim id) = some (o, n) → id = claimId ∧
    ∃ c c', o = some c ∧ n = some c' ∧ isUnsettled c = true ∧ c'.panelId = c.panelId ∧
      c'.usernameSnapshot = c.usernameSnapshot ∧ c'.status = .ACTIVE
  services : ∀ u' o n, t.chg (.service u') = some (o, n) → u' = u

theorem StoringTx.elsewhere {k : TrialKey} {n : TrialRow k} (h : StoringTx claimId a.username t)
    (hc : ∀ id, .claim id ≠ k) (hs : ∀ u, .service u ≠ k) :
    StoringTx claimId a.username (t.write s.rows ⟨k, n⟩) where
  claims id o n hchg := h.claims id o n (by rwa [Tx.chg_write_ne _ (hc id)] at hchg)
  services u o n hchg := h.services u o n (by rwa [Tx.chg_write_ne _ (hs u)] at hchg)

theorem wp_createService (claimId : ℕ) {row : TrialService} : wp provisioning p (createService a.username row)
    (fun _ l _ => ∃ t, l.tx = some t ∧ StoringTx claimId a.username t ∧
      ∀ id, t.chg (.claim id) = none) ⟨some {}, r⟩ s := by
  refine wp_sql_tx fun s₁ _ _ _ => ⟨_, rfl, ?_⟩
  have hclaims (writes : List (Write TrialRow)) (result : Bool) (hw : ∀ w ∈ writes, ∃ n,
      w = ⟨.service a.username, n⟩) :
      StoringTx claimId a.username (Tx.add {} s₁.rows (⟨result, writes, []⟩ :
        Effect TrialRow TrialEntry Bool)) ∧
      ∀ id, (Tx.add {} s₁.rows (⟨result, writes, []⟩ :
        Effect TrialRow TrialEntry Bool)).chg (.claim id) = none := by
    have hnone (id : ℕ) : (Tx.add {} s₁.rows (⟨result, writes, []⟩ :
        Effect TrialRow TrialEntry Bool)).chg (.claim id) = none := by
      refine Tx.chg_add_of_notMem fun hmem => ?_
      obtain ⟨w, hw', he⟩ := List.mem_map.mp hmem
      obtain ⟨n, rfl⟩ := hw w hw'
      cases he
    refine ⟨⟨fun id o n hchg => ?_, fun u o n hchg => ?_⟩, hnone⟩
    · rw [hnone] at hchg
      cases hchg
    · obtain ⟨-, hmem⟩ := Tx.chg_add_empty hchg
      obtain ⟨n', he⟩ := hw _ hmem
      cases he
      rfl
  split
  · refine hclaims _ _ fun w hw => ?_
    exact ⟨_, List.mem_singleton.mp hw⟩
  · exact hclaims _ _ fun w hw => nomatch hw

theorem unsettled_of_live (h : c.status ∈ LIVE_CLAIM_STATUSES) (hs : c.status ≠ .CLAIMED) :
    isUnsettled c = true := by
  simp only [LIVE_CLAIM_STATUSES, List.mem_cons, List.not_mem_nil, or_false] at h
  simp only [isUnsettled, decide_eq_true_eq]
  exact h.resolve_left hs

/-- The claim is activated in the same transaction. -/
theorem StoringTx.activated {u : String} (h : StoringTx claimId u t)
    (hnone : t.chg (.claim claimId) = none) (hrow : t.row s.rows (.claim claimId) = some c)
    (hc : isUnsettled c = true) (hp : c'.panelId = c.panelId)
    (hi : c'.usernameSnapshot = c.usernameSnapshot) (hs : c'.status = .ACTIVE) :
    StoringTx claimId u (t.write s.rows ⟨.claim claimId, some c'⟩) := by
  rw [Tx.row_of_chg hnone] at hrow
  refine ⟨fun id o n hchg => ?_, fun u' o n hchg => ?_⟩
  · by_cases hid : id = claimId
    · subst hid
      rw [Tx.chg_write_self, Tx.base_of_chg hnone, hrow] at hchg
      cases hchg
      exact ⟨rfl, c, c', rfl, rfl, hc, hp, hi, hs⟩
    · rw [Tx.chg_write_ne _ fun he => hid (by cases he; rfl)] at hchg
      exact h.claims id o n hchg
  · rw [Tx.chg_write_ne _ TrialKey.noConfusion] at hchg
    exact h.services u' o n hchg

/-- Such a transaction may be committed where it activates the claim, or the claim is over. -/
theorem StoringTx.accountTx (h : StoringTx claimId a.username t) (hheld : t.Held s.rows)
    (hbegun : Begun claimId a s) (hclaim : t.chg (.claim claimId) ≠ none ∨ Over claimId s) :
    AccountTx r s t where
  claims id o n hchg := by
    obtain ⟨-, c, c', ho, hn, hc, hpanel, hidentity, hstatus⟩ := h.claims id o n hchg
    exact .inl ⟨c, c', ho, hn, .of_live hpanel hidentity (live_of_unsettled hc)
      (by rw [hstatus]; decide) (by rw [hasEnded, hstatus]; decide)⟩
  services u o n hchg := by
    obtain rfl := h.services u o n hchg
    obtain ⟨c, hrow, ha, -⟩ := hbegun
    refine .inr ⟨claimId, c, hrow, (remote_eq ha).1, fun hc => ?_⟩
    rcases hclaim with hsome | ⟨d, hd, hover⟩
    · obtain ⟨⟨o', n'⟩, hchg'⟩ := Option.ne_none_iff_exists'.mp hsome
      obtain ⟨-, d, d', rfl, rfl, -, -, -, hstatus⟩ := h.claims claimId o' n' hchg'
      cases (hheld _ _ _ hchg').trans hrow
      exact ⟨d', hchg', hstatus⟩
    · cases hrow.symm.trans hd
      exact absurd (live_of_unsettled hc) hover

/-- What the transaction that stores the service of an account is to commit. -/
abbrev Storing (claimId : ℕ) (username : String) (x : Except Unit Unit)
    (l : Local TrialRow TrialEntry TrialWorld) (s : TrialStore) : Prop :=
  ∀ y, x = .ok y → ∃ t, l.tx = some t ∧ StoringTx claimId username t ∧
    (t.chg (.claim claimId) ≠ none ∨ Over claimId s)

theorem Storing.ok {claimId : ℕ} {username : String} {t : TrialTx} {r : List TrialStore}
    {s : TrialStore} (h : StoringTx claimId username t)
    (hclaim : t.chg (.claim claimId) ≠ none ∨ Over claimId s) :
    Storing claimId username (.ok ()) ⟨some t, r⟩ s :=
  fun _ _ => ⟨t, rfl, h, hclaim⟩

/-- A service is stored for the account of a claim whose provisioning has begun. -/
theorem knows_persistTrialService (claim : FreeTrialClaim) (a : Remote) (expiresAt : ℕ) :
    AcceptsKnowing provisioning p (fun _ s => Begun claimId a s)
      (persistTrialService claimId claim a.username expiresAt) := by
  refine .bind known_begun (.of_accepts accepts_tick) fun now => ⟨fun r s hi hk => ?_⟩
  refine wp_transaction (wp_mono _ (fun x l s hx => ?_) (wp_known known_begun _ hi hk
    (Q := Storing claimId a.username) ?_))
  · obtain ⟨tx, reads⟩ := l
    obtain ⟨hx, hi, hk⟩ := hx
    cases x with
    | error e => exact ⟨rfl, hi⟩
    | ok x =>
      obtain ⟨t, rfl, hstoring, hclaim⟩ := hx x rfl
      intro s' hl hi' hheld
      have hc : AccountTx reads s' t := hstoring.accountTx hheld
        (known_begun.later (r := reads) hl hi hk)
        (hclaim.imp_right (known_over.later (r := reads) hl hi))
      exact ⟨hc, rfl, hc.allListed hheld hi'⟩
  · refine (wp_seq _ _).mpr (wp_mono _ (fun created l s₁ hx => ?_)
      (wp_known known_begun _ hi hk (wp_createService claimId)))
    obtain ⟨tx, reads⟩ := l
    obtain ⟨⟨t₁, rfl, hstoring, hnone⟩, hi₁, hk₁⟩ := hx
    split
    · exact fun _ hno => by cases hno
    refine (wp_seq _ _).mpr ((wp_seq _ _).mpr (wp_clock clock_acts fun s₂ hl₂ hi₂ => wp_update_tx
      fun s₃ hl₃ hi₃ _ => ⟨fun hno => ?_, fun n hn => ?_⟩))
    · -- the claim is not unsettled, and its provisioning has begun: it is over
      obtain ⟨c, hrow, ha, hstatus⟩ : Begun claimId a s₃ := known_begun.later (r := r) hl₃ hi₂
        (known_begun.later (r := r) hl₂ hi₁ hk₁)
      refine Storing.ok hstoring (.inr ⟨c, hrow, fun hlive => ?_⟩)
      have hunsettled : decide (c.status = .PROVISIONING ∨ c.status = .MANUAL_REVIEW) = true :=
        unsettled_of_live hlive hstatus
      rw [Tx.row_of_chg (hnone claimId), hrow, onSome, if_pos hunsettled] at hno
      cases hno
    · obtain ⟨c, hrow, hc, rfl⟩ := onSome_eq hn
      split
      · refine (wp_seq _ _).mpr (wp_update_tx fun s₄ _ _ _ => ⟨fun _ => ?_, fun u _ => ?_⟩)
        · exact Storing.ok (hstoring.activated (hnone claimId) hrow hc rfl rfl rfl) (.inl (by simp))
        · refine Storing.ok (.elsewhere ?_ (fun _ => TrialKey.noConfusion)
            (fun _ => TrialKey.noConfusion)) (.inl ?_)
          · exact hstoring.activated (hnone claimId) hrow hc rfl rfl rfl
          · rw [Tx.chg_write_ne _ TrialKey.noConfusion, Tx.chg_write_self]
            rintro ⟨⟩
      · exact Storing.ok (hstoring.activated (hnone claimId) hrow hc rfl rfl rfl) (.inl (by simp))

/-! ### A claim of one's own -/

/-- Neither claims nor services are changed. -/
structure Untouched (t : TrialTx) : Prop where
  claims : ∀ id, t.chg (.claim id) = none
  services : ∀ u, t.chg (.service u) = none

/-- The changes of a transaction that may cancel one claim. -/
structure CancelTx (claimId : ℕ) (t : TrialTx) : Prop where
  services : ∀ u, t.chg (.service u) = none
  claims : ∀ id o n, t.chg (.claim id) = some (o, n) → id = claimId ∧
    ∃ c c', o = some c ∧ n = some c' ∧ c.status ∈ LIVE_CLAIM_STATUSES ∧ c'.panelId = c.panelId ∧
      c'.usernameSnapshot = c.usernameSnapshot ∧ c'.status = .CANCELLED

theorem CancelTx.of_none {js : List TrialEntry} (h : Untouched t) :
    CancelTx claimId (t.append js) where
  services := h.services
  claims id o n hchg := by
    rw [Tx.chg_append, h.claims id] at hchg
    cases hchg

theorem CancelTx.of_write {js : List TrialEntry} (h : Untouched t)
    (hrow : (t.append js).row s.rows (.claim claimId) = some c)
    (hlive : c.status ∈ LIVE_CLAIM_STATUSES) (hp : c'.panelId = c.panelId)
    (hi : c'.usernameSnapshot = c.usernameSnapshot) (hs : c'.status = .CANCELLED) :
    CancelTx claimId ((t.append js).write s.rows ⟨.claim claimId, some c'⟩) where
  services u := (Tx.chg_write_ne _ TrialKey.noConfusion).trans (h.services u)
  claims id o n hchg := by
    have hnone : (t.append js).chg (.claim claimId) = none := h.claims claimId
    rw [Tx.row_of_chg hnone] at hrow
    by_cases hid : id = claimId
    · subst hid
      rw [Tx.chg_write_self, Tx.base_of_chg hnone, hrow] at hchg
      cases hchg
      exact ⟨rfl, c, c', rfl, rfl, hlive, hp, hi, hs⟩
    · rw [Tx.chg_write_ne _ fun he => hid (by cases he; rfl)] at hchg
      rw [Tx.chg_append, h.claims id] at hchg
      cases hchg

theorem CancelTx.accountTx (h : CancelTx claimId t) (hk : ReadUnbegun claimId r s) :
    AccountTx r s' t where
  claims id o n hchg := by
    obtain ⟨rfl, c, c', ho, hn, hlive, hp, hid, hs⟩ := h.claims id o n hchg
    exact .inl ⟨c, c', ho, hn, .of_end hp hid hlive (by rw [hasEnded, hs]; decide) (.inl hk)⟩
  services u o n hchg := by
    rw [h.services u] at hchg
    cases hchg

/-- The decision on the capacity cancels a claim that nothing was sent for. -/
theorem knows_decideCapacity (panelId limit now : ℕ) :
    AcceptsKnowing provisioning p (ReadUnbegun claimId)
      (decideCapacity claimId panelId limit now) := by
  refine ⟨fun r s hi hk => wp_transaction (wp_mono _ (fun x l s hx => ?_)
    (wp_known known_unbegun _ hi hk (Q := fun x l s => match x with
      | .ok _ => ∃ t, l.tx = some t ∧ CancelTx claimId t
      | .error _ => True) ?_))⟩
  · obtain ⟨tx, reads⟩ := l
    obtain ⟨hx, hi, hk⟩ := hx
    cases x with
    | error e => exact ⟨rfl, hi⟩
    | ok x =>
      obtain ⟨t, rfl, hcancel⟩ := hx
      intro s' hl hi' hheld
      have hc : AccountTx reads s' t := hcancel.accountTx hk
      exact ⟨hc, rfl, hc.allListed hheld hi'⟩
  · refine (wp_seq _ _).mpr (wp_sql_tx fun s₁ _ _ _ => ?_)
    have hlocked : Untouched (Tx.add ({} : TrialTx) s₁.rows ({ result := (), writes :=
        [⟨.panelLock panelId, ((s₁.view {}).rows (.panelLock panelId) + 1 : ℕ)⟩] } :
        Effect TrialRow TrialEntry Unit)) := ⟨fun id => by simp [Tx.add], fun u => by simp [Tx.add]⟩
    refine (wp_seq _ _).mpr (wp_select _ fun s₂ _ _ => ?_)
    split
    · exact (wp_seq _ _).mpr (wp_append_tx fun s₃ _ _ => ⟨_, rfl, .of_none hlocked⟩)
    · refine (wp_seq _ _).mpr (wp_append_tx fun s₃ _ _ => ?_)
      refine (wp_seq _ _).mpr ((wp_seq _ _).mpr (wp_clock clock_acts fun s₄ _ _ => wp_update_tx
        fun s₅ _ _ _ => ⟨fun _ => ⟨_, rfl, .of_none hlocked⟩, fun n hn => ?_⟩))
      obtain ⟨c, hrow, hc, rfl⟩ := onSome_eq hn
      exact ⟨_, rfl, .of_write hlocked hrow (live_of_open (.inl (of_decide_eq_true hc))) rfl rfl rfl⟩

theorem InsertTx.accountTx {unit : Option ℕ} (h : InsertTx t id c unit) : AccountTx r s t where
  claims id' o n hchg := by
    by_cases hid : id' = id
    · subst hid
      rw [h.claim] at hchg
      cases hchg
      refine .inr ⟨rfl, c, rfl, h.unfrozen, h.status, ?_⟩
      rw [h.entries]
      exact .head _
    · rw [h.others id' hid] at hchg
      cases hchg
  services u o n hchg := by
    rw [h.services u] at hchg
    cases hchg

/-- A claim that was inserted has no account yet. -/
theorem wp_insertClaim (userId : ℕ) (panel : TrialPanel) :
    wp provisioning p (insertClaim claimId userId panel) (fun x l s => l.tx = none ∧
      provisioning.Inv s ∧ ∀ c, x = .ok c → c.usernameSnapshot = none ∧
        ReadUnbegun claimId l.reads s ∧ OnPanel claimId c.panelId s) ⟨none, r⟩ s := by
  refine (wp_seq _ _).mpr (wp_clock clock_acts fun s₁ _ hi₁ => ?_)
  refine (wp_seq _ _).mpr (wp_mono _ (fun x l s₂ hx => ?_)
    (wp_insertWithUnit clock_acts userId panel s₁.world.now hi₁ fun _ _ h => h.accountTx))
  obtain ⟨tx, reads⟩ := l
  obtain ⟨rfl, hi₂, hx⟩ := hx
  cases x with
  | error code => exact ⟨rfl, hi₂, fun c h => by cases h⟩
  | ok claim =>
    obtain ⟨hfresh, hpanel, x, hx, hnone⟩ := hx claim rfl
    have hread : ReadUnbegun claimId reads s₂ := ⟨x, hx, by rw [isUnbegun, hnone]; rfl⟩
    dsimp only
    split
    · refine ⟨rfl, hi₂, fun c h => ?_⟩
      cases h
      exact ⟨hfresh, hread, hpanel⟩
    · refine (wp_seq _ _).mpr (wp_mono _ (fun y l s₃ hy => ?_) (wp_known
        (known_unbegun.and known_onPanel) _ hi₂ ⟨hread, hpanel⟩
          ((knows_decideCapacity _ _ _).run _ _ hi₂ hread)))
      obtain ⟨tx, reads⟩ := l
      obtain ⟨⟨rfl, -⟩, hi₃, hread₃, hpanel₃⟩ := hy
      split
      · refine (wp_seq _ _).mpr (wp_mono _ (fun _ l s hx => ?_)
          ((accepts_stampRelease claimId).run reads s₃ hi₃))
        exact ⟨hx.1, hx.2, fun c h => by cases h⟩
      · refine ⟨rfl, hi₃, fun c h => ?_⟩
        cases h
        exact ⟨hfresh, hread₃, hpanel₃⟩
      · exact ⟨rfl, hi₃, fun c h => by cases h⟩

/-- The identity of a claim is frozen, or the claim is cancelled. -/
theorem wp_freezeIdentity {claim : FreeTrialClaim} (hnone : claim.usernameSnapshot = none)
    (hi : provisioning.Inv s) (hread : ReadUnbegun claimId r s)
    (hpanel : OnPanel claimId claim.panelId s) :
    wp provisioning p (freezeIdentity claimId claim) (fun x l s => l.tx = none ∧
      provisioning.Inv s ∧ ∀ u, x = some u → HasRemote claimId ⟨claim.panelId, u⟩ s)
      ⟨none, r⟩ s := by
  rw [freezeIdentity]
  split
  · rename_i hsome
    rw [hnone] at hsome
    cases hsome
  refine (wp_seq _ _).mpr (wp_ask _ fun choice => ?_)
  split
  · refine (wp_seq _ _).mpr (wp_mono _ (fun _ l s hx => ⟨hx.1, hx.2, fun u h => by cases h⟩)
      ((knows_cancelClaimSafely known_unbegun _ fun r s c h _ => h.unseen).run r s hi hread))
  rename_i username _
  refine (wp_seq _ _).mpr ((wp_seq _ _).mpr (wp_clock clock_acts fun s₁ hl₁ hi₁ => wp_update
    fun s₂ hl₂ hi₂ => ⟨fun hno => ?_, fun n hn => ?_⟩))
  · -- the identity was frozen before
    obtain ⟨c, hrow, hp⟩ : OnPanel claimId claim.panelId s₂ := known_onPanel.later (r := r) hl₂ hi₁
      (known_onPanel.later (r := r) hl₁ hi hpanel)
    obtain ⟨u, hu⟩ : ∃ u, c.usernameSnapshot = some u := by
      rw [hrow, onSome] at hno
      split at hno
      · cases hno
      · rename_i hc
        exact Option.ne_none_iff_exists'.mp fun h => hc (decide_eq_true h)
    have hremote : HasRemote claimId ⟨claim.panelId, u⟩ (s₂.commit p {}) :=
      ⟨c, hrow, by rw [FreeTrialClaim.remote, hu, hp]; rfl⟩
    have hi₂' : provisioning.Inv (s₂.commit p {}) := AccountTx.empty.allListed (r := r) (.empty _) hi₂
    rw [if_pos rfl]
    refine (wp_seq _ _).mpr (wp_select _ fun s₃ hl₃ hi₃ => ⟨rfl, hi₃, fun u' h => ?_⟩)
    obtain ⟨d, hd, ha⟩ : HasRemote claimId ⟨claim.panelId, u⟩ s₃ :=
      known_hasRemote.later (r := r) hl₃ hi₂' hremote
    have hseen : (s₃.view ({} : TrialTx)).rows (.claim claimId) = some d := hd
    cases h
    refine ⟨d, hd, ?_⟩
    simp only [Local.pending, Option.getD_none, hseen, Option.bind_some, (remote_eq ha).1,
      Option.getD_some]
    exact ha
  · obtain ⟨c, hrow, hc, rfl⟩ := onSome_eq hn
    have hcommit : AccountTx r s₂ (Tx.write {} s₂.rows ⟨.claim claimId, some { c with
        usernameSnapshot := some username, updatedAt := s₁.world.now }⟩) :=
      .of_claim hrow (.of_status rfl (.inr (of_decide_eq_true hc)) rfl)
    have hp : c.panelId = claim.panelId := by
      obtain ⟨d, hd, hp⟩ : OnPanel claimId claim.panelId s₂ := known_onPanel.later (r := r) hl₂ hi₁
        (known_onPanel.later (r := r) hl₁ hi hpanel)
      cases hrow.symm.trans hd
      exact hp
    refine ⟨hcommit, rfl, hcommit.allListed ((Tx.Held.empty _).write _) hi₂, fun u h => ?_⟩
    cases h
    refine ⟨_, Tx.row_write_self .., ?_⟩
    change some (⟨c.panelId, username⟩ : Remote) = _
    rw [hp]

/-! ### Provisioning -/

/-- What its own provisioning knows of a claim. -/
def OwnBegun (id : ℕ) (a : Remote) (r : List TrialStore) (s : TrialStore) : Prop :=
  ReadUnbegun id r s ∧ Begun id a s

theorem known_ownBegun : Knowledge provisioning (OwnBegun id a) := known_unbegun.and known_begun

/-- An act on the panel or on the locks. -/
theorem accepts_act {β : Type} {f : TrialChoice → TrialWorld → β × TrialWorld}
    (h : ∀ c w, WorldMove w (f c w).2) : Accepts provisioning p (ext f : Trials β) :=
  stillRules.accepts_ext (.ext h)

/-- The accounts stay as they are. -/
theorem WorldMove.of_eq {w w' : TrialWorld} (h : w'.accounts = w.accounts) : WorldMove w w' :=
  ⟨fun _ ha => .inl (h ▸ ha), fun _ ha => h ▸ ha⟩

theorem WorldMove.land (w : TrialWorld) (a : Remote) : WorldMove w (w.land a) := by
  rw [TrialWorld.land]
  split
  · rename_i hpending
    refine ⟨fun b hb => ?_, fun b hb => .tail _ hb⟩
    rcases List.mem_cons.mp hb with rfl | hb
    · exact .inr hpending
    · exact .inl hb
  · exact .refl w

theorem knows_finishCreate (claim : FreeTrialClaim) (expiresAt : ℕ) (answer : CreateAnswer) :
    AcceptsKnowing provisioning p (OwnBegun claimId a)
      (finishCreate claimId claim a expiresAt answer) := by
  cases answer with
  | uncertain => exact .pure _
  | rejected =>
    refine .bind known_ownBegun (knows_updateClaim known_ownBegun fun r s c now hk hrow hc =>
      .of_end rfl rfl (live_of_open (.inr (of_decide_eq_true hc))) rfl hk.1.unseen) fun failed => ?_
    split
    · exact .bind known_ownBegun (.of_accepts (accepts_stampRelease claimId)) fun _ => .pure _
    · exact .pure _
  | ok =>
    exact .bind known_ownBegun ((knows_persistTrialService claim a expiresAt).mono fun _ _ h => h.2)
      fun _ => .pure _

/-- Under the lock, or without it, once the claim is PROVISIONING or over. -/
theorem knows_create (claim : FreeTrialClaim) (a : Remote) :
    AcceptsKnowing provisioning p (OwnBegun claimId a) (do
      let lock ← acquireLock a
      if lock ≠ .ok then
        if claim.attemptCount = 0 ∧ lock = .unavailable then
          cancelClaimSafely claimId "lock-unavailable"
        else
          return ()
      else
        let now ← clock
        sendCreate a
        let answer ← answerCreate a
        finishCreate claimId claim a (now + claim.durationMinutes * 60000) answer
        releaseLock a) := by
  refine .bind known_ownBegun (.of_accepts (accepts_act fun c w => ?_)) fun lock => ?_
  · split
    · exact .refl w
    · split
      · exact .refl w
      · exact .of_eq rfl
  split
  · split
    · exact knows_cancelClaimSafely known_ownBegun _ fun r s c h _ => h.1.unseen
    · exact .pure _
  · refine .bind known_ownBegun (.of_accepts accepts_tick) fun now => .bind known_ownBegun
      (.of_accepts (accepts_act fun c w => .of_eq rfl)) fun _ => .bind known_ownBegun
        (.of_accepts (accepts_act fun c w => ?_)) fun answer => .bind known_ownBegun
          (knows_finishCreate claim _ _) fun _ => .of_accepts (accepts_act fun c w => .of_eq rfl)
    split
    · exact .land w a
    · exact .refl w
    · split
      · exact .of_eq rfl
      · exact .refl w

theorem wp_provisionTrialClaim {claim : FreeTrialClaim} (hnone : claim.usernameSnapshot = none)
    (hi : provisioning.Inv s) (hread : ReadUnbegun claimId r s)
    (hpanel : OnPanel claimId claim.panelId s) :
    wp provisioning p (provisionTrialClaim claimId claim) (fun _ l s => l.tx = none ∧
      provisioning.Inv s) ⟨none, r⟩ s := by
  refine (wp_seq _ _).mpr (wp_mono _ (fun x l s₁ hx => ?_) (wp_known known_unbegun _ hi hread
    (wp_freezeIdentity hnone hi hread hpanel)))
  obtain ⟨tx, reads⟩ := l
  obtain ⟨⟨rfl, -, hremote⟩, hi₁, hread₁⟩ := hx
  split
  · exact ⟨rfl, hi₁⟩
  rename_i username
  have hremote₁ := hremote username rfl
  refine (wp_seq _ _).mpr ((wp_seq _ _).mpr (wp_clock clock_acts fun s₂ hl₂ hi₂ => wp_update
    fun s₃ hl₃ hi₃ => ⟨fun hno => ?_, fun n hn => ?_⟩))
  all_goals
    obtain ⟨c, hrow, ha⟩ : HasRemote claimId ⟨claim.panelId, username⟩ s₃ :=
      known_hasRemote.later (r := reads) hl₃ hi₂ (known_hasRemote.later (r := reads) hl₂ hi₁ hremote₁)
  · have hi₃' : provisioning.Inv (s₃.commit p {}) :=
      AccountTx.empty.allListed (r := reads) (.empty _) hi₃
    refine (knows_create claim _).run reads _ hi₃' ⟨hread₁, c, hrow, ha, fun hs => ?_⟩
    rw [hrow, onSome, if_pos (decide_eq_true (.inl hs))] at hno
    cases hno
  · obtain ⟨d, hd, hc, rfl⟩ := onSome_eq hn
    cases hrow.symm.trans hd
    have hcommit : AccountTx reads s₃ (Tx.write {} s₃.rows ⟨.claim claimId, some { c with
        status := .PROVISIONING, attemptCount := c.attemptCount + 1,
        updatedAt := s₂.world.now }⟩) :=
      .of_claim hrow (.of_live rfl rfl (live_of_open (of_decide_eq_true hc))
        (fun h => by cases h) rfl)
    refine ⟨hcommit, (knows_create claim _).run reads _
      (hcommit.allListed ((Tx.Held.empty _).write _) hi₃) ⟨hread₁, _, Tx.row_write_self .., ha,
        fun h => by cases h⟩⟩

/-- A claim is inserted and provisioned. -/
theorem accepts_claimFreeTrial (claimId userId : ℕ) (panel : TrialPanel) :
    Accepts provisioning p (claimFreeTrial claimId userId panel) := by
  refine ⟨fun r s hi => (wp_seq _ _).mpr (wp_mono _ (fun x l s₁ hx => ?_)
    (wp_insertClaim userId panel))⟩
  obtain ⟨tx, reads⟩ := l
  obtain ⟨rfl, hi₁, hx⟩ := hx
  cases x with
  | error code => exact ⟨rfl, hi₁⟩
  | ok claim =>
    obtain ⟨hnone, hread, hpanel⟩ := hx claim rfl
    exact wp_provisionTrialClaim hnone hi₁ hread hpanel

/-! ### Reconciliation and sweep -/

/-- A reader of the panel has found no account. -/
def FoundNone (id : ℕ) (a : Remote) (r : List TrialStore) (s : TrialStore) : Prop :=
  (∃ x ∈ r, a ∉ x.world.accounts) ∧ Begun id a s

theorem known_foundNone : Knowledge provisioning (FoundNone id a) := (Knowledge.of_read _).and known_begun

/-- Accounts stay. -/
theorem accounts_later {ks : TrialKey → Prop} (hl : provisioning.Later p ks s s')
    (hi : provisioning.Inv s) (ha : a ∈ s.world.accounts) : a ∈ s'.world.accounts := by
  refine hl.stable (P := fun s => a ∈ s.world.accounts) (fun _ _ hst h => ?_) hi ha
  cases hst with
  | commit t _ _ => exact h
  | act w hw => exact hw.kept a h

theorem accepts_reconcile (claimId : ℕ) : Accepts provisioning p (reconcileTrialClaim claimId) := by
  refine ⟨fun r s hi => (wp_seq _ _).mpr (wp_select _ fun s₁ _ hi₁ => ?_)⟩
  split
  case h_2 => exact ⟨rfl, hi₁⟩
  rename_i claim username hclaim husername
  obtain ⟨hrow, hunsettled⟩ := Option.filter_eq_some_iff.mp hclaim
  have hrow' : s₁.rows (.claim claimId) = some claim := hrow
  rw [hrow, Option.bind_some] at husername
  have hbegun : Begun claimId ⟨claim.panelId, username⟩ s₁ := by
    refine ⟨claim, hrow', by rw [FreeTrialClaim.remote, husername]; rfl, fun hs => ?_⟩
    simp [isUnsettled, hs] at hunsettled
  refine (wp_seq _ _).mpr (wp_ext _ fun s₂ hl₂ hi₂ choice => ⟨.refl _, ?_⟩)
  have hbegun₂ : Begun claimId ⟨claim.panelId, username⟩ s₂ := known_begun.later (r := r) hl₂ hi₁ hbegun
  have hread : (if choice.readable then some (decide (⟨claim.panelId, username⟩ ∈ s₂.world.accounts))
      else none) = some false → (⟨claim.panelId, username⟩ : Remote) ∉ s₁.world.accounts := by
    intro h ha
    have ha₂ := accounts_later hl₂ hi₁ ha
    split at h
    · rw [decide_eq_true ha₂] at h
      cases h
    · cases h
  dsimp only
  generalize (if choice.readable then some (decide ((⟨claim.panelId, username⟩ : Remote) ∈
    s₂.world.accounts)) else none) = found at hread
  change wp provisioning p _ _ ⟨none, s₁ :: r⟩ s₂
  rcases found with _ | _ | _
  · exact ⟨rfl, hi₂⟩
  on_goal 2 =>
    refine (wp_seq _ _).mpr (wp_ask _ fun reported => (AcceptsKnowing.bind known_begun
      (knows_persistTrialService claim ⟨claim.panelId, username⟩ _) fun persisted => ?_).run _ _ hi₂
        hbegun₂)
    split <;> exact .pure _
  · have hnone : FoundNone claimId ⟨claim.panelId, username⟩ (s₁ :: r) s₂ :=
      ⟨⟨s₁, .head _, hread rfl⟩, hbegun₂⟩
    refine AcceptsKnowing.run ?_ _ _ hi₂ hnone
    refine .bind known_foundNone (knows_updateClaim known_foundNone fun r s c now hk hrow hc =>
      .of_end rfl rfl (live_of_unsettled hc) rfl (.inr ?_)) fun failed => ?_
    · obtain ⟨x, hx⟩ := hk.1
      obtain ⟨d, hd, ha, -⟩ := hk.2
      cases hrow.symm.trans hd
      exact ⟨_, ha, x, hx⟩
    · split
      · exact .bind known_foundNone (.of_accepts (accepts_stampRelease claimId)) fun _ => .pure _
      · exact .pure _

theorem accepts_expireOne (now claimId : ℕ) : Accepts provisioning p (expireClaim now claimId) := by
  refine .bind (.select _) fun claim => .bind (.select _) fun service => .bind
    (accepts_updateClaim' fun r c now h => .of_expiry rfl rfl (of_decide_eq_true h) rfl) fun _ => ?_
  split
  · split
    · refine .bind (stillRules.accepts_stmt (.update (fun v => .nothing v []) fun v n hn => ?_))
        fun _ => .pure _
      obtain ⟨x, hx, -, rfl⟩ := onSome_eq hn
      refine ⟨fun id m hmem => ?_, fun u m hmem => ?_⟩
      · cases List.mem_singleton.mp hmem
      · cases List.mem_singleton.mp hmem
        rw [hx]
        rintro ⟨⟩
    · exact .pure _
  · exact .pure _

theorem accepts_sweepOne (now : ℕ) (claim : ℕ × FreeTrialClaim) :
    Accepts provisioning p (sweepProvisioning now claim) := by
  refine .bind (accepts_reconcile claim.1) fun outcome => ?_
  split
  · exact .bind (accepts_updateClaim' fun r c now h => .of_live rfl rfl
      (live_of_open (.inr (of_decide_eq_true h))) (fun h => by cases h) rfl) fun _ => .pure _
  · exact .pure _

/-- Entitlements are elsewhere. -/
theorem each_entitlements {cond : FreeTrialEntitlement → Bool}
    {data : FreeTrialEntitlement → FreeTrialEntitlement} :
    (endEntitlements cond data).Each StillStmt WorldMove := by
  refine .sql fun v => .of_elsewhere fun w hw => ?_
  obtain ⟨e, -, he⟩ := List.mem_filterMap.mp hw
  obtain ⟨x, -, rfl⟩ := Option.map_eq_some_iff.mp he
  exact ⟨fun _ => TrialKey.noConfusion, fun _ => TrialKey.noConfusion⟩

theorem accepts_expireEntitlements : Accepts provisioning p expireTrialEntitlements :=
  .bind accepts_tick fun _ => stillRules.accepts_stmt each_entitlements

/-- The stale claims of the sweep were CLAIMED when they were selected. -/
theorem accepts_sweep : Accepts provisioning p runFreeTrialSweep := by
  refine .bind accepts_tick fun now => .bind accepts_expireEntitlements fun _ =>
    .bind (.select _) fun expiring => .bind (.forEach (accepts_expireOne now) _) fun _ =>
      ⟨fun r s hi => (wp_seq _ _).mpr (wp_select _ fun x _ hi₁ => ?_)⟩
  have hknown : Knowledge provisioning fun r _ => ∃ y ∈ r, y = x := .of_read _
  refine (AcceptsKnowing.bind hknown (.forEach hknown fun id hid => ?_) fun _ =>
    .of_accepts (.bind (.select _) fun provisioning => .forEach (accepts_sweepOne now) _)).run
      (x :: r) x hi₁ ⟨x, .head _, rfl⟩
  have hmem := (List.mem_filter.mp (List.mem_of_mem_take hid)).2
  obtain ⟨c, hrow, hc⟩ := (Option.any_eq_true _ _).mp hmem
  have hunbegun : isUnbegun id x = true := by
    have hrow' : x.rows (.claim id) = some c := hrow
    rw [isUnbegun, hrow', Option.all_some]
    exact decide_eq_true (of_decide_eq_true hc).1
  exact knows_cancelClaimSafely hknown _ fun r s c h _ => .inl ⟨x, h.choose_spec.2 ▸ h.choose_spec.1,
    hunbegun⟩

theorem each_newEntitlement (id : ℕ) (row : FreeTrialEntitlement) :
    (createEntitlement id row).Each StillStmt WorldMove := by
  refine .sql fun v => ?_
  split
  · exact .of_row (fun _ => TrialKey.noConfusion) fun _ => TrialKey.noConfusion
  · exact .nothing v _

theorem accepts_grantAllowance (id userId : ℕ) (count : ℤ) (panelId expiresAt : Option ℕ)
    (source : FreeTrialEntitlementSource) :
    Accepts provisioning p (grantTrialAllowance id userId count panelId expiresAt source) := by
  rw [grantTrialAllowance]
  split
  · exact .pure _
  · exact .bind accepts_tick fun now => .bind (stillRules.accepts_stmt (each_newEntitlement id _))
      fun _ => .pure _

theorem accepts_setRemaining (id userId : ℕ) (desired : ℤ) :
    Accepts provisioning p (setEffectiveRemaining id userId desired) := by
  rw [setEffectiveRemaining]
  split
  · exact .pure _
  refine .bind accepts_tick fun now => .bind (stillRules.accepts_transaction (.bind
    (.sql fun v => .of_row (fun _ => TrialKey.noConfusion) fun _ => TrialKey.noConfusion) fun _ =>
      .bind each_entitlements fun _ => .bind (.select _) fun consumed => .bind
        (.update (fun v => .nothing v []) fun v n _ => .of_row (fun _ => TrialKey.noConfusion)
          fun _ => TrialKey.noConfusion) fun _ => ?_)) fun _ => .pure _
  split
  · refine .bind (each_newEntitlement id _) fun created => ?_
    split <;> exact .pure _
  · exact .pure _

/-- The automatic paths: the provisioning of a new claim, the reconciliation and the sweep, with what
    goes on beside them. -/
def TrialProcess.isAutomatic : TrialProcess → Bool
  | .provision _ | .forceNotCreated _ => false
  | _ => true

theorem accepts_automatic {process : TrialProcess} (h : process.isAutomatic = true) :
    Accepts provisioning p process.program := by
  cases process with
  | claimFreeTrial claimId userId panel => exact accepts_claimFreeTrial claimId userId panel
  | provision claimId => cases h
  | reconcile claimId => exact .bind (accepts_reconcile claimId) fun _ => .pure _
  | sweep => exact accepts_sweep
  | release claimId => exact .bind (accepts_stampRelease claimId) fun _ => .pure _
  | forceNotCreated claimId => cases h
  | expire => exact accepts_expireEntitlements
  | grant id userId count panelId expiresAt source =>
    exact accepts_grantAllowance id userId count panelId expiresAt source
  | setRemaining id userId desired => exact accepts_setRemaining id userId desired
  | editUser id row =>
    exact stillRules.accepts_stmt (.sql fun v => .of_row (fun _ => TrialKey.noConfusion)
      fun _ => TrialKey.noConfusion)
  | tick => exact accepts_act fun c w => .of_eq rfl
  | land rem => exact accepts_act fun c w => .land w rem
  | drop rem => exact accepts_act fun c w => .of_eq rfl

end ZedBot.Trials
