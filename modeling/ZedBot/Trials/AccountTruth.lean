import ZedBot.Trials.AccountPaths
import ZedBot.Trials.Capacity

/-! A claim that gave its unit back, and the account on its panel.

    Reconciliation reads the panel without the lock of the provisioning, and a stored service does not
    wait for the claim. The rule is kept where no claim ends while its create call is under way or
    behind an account that has landed, and where creates are sent, and services are stored, only while
    the claim is unsettled. -/

namespace ZedBot.Trials
open ReadCommitted

variable {p : ℕ} {s s' x : TrialStore} {t : TrialTx} {r : List TrialStore} {a : Remote}

/-! ### The condition -/

/-- No create call for the account is under way, and a process that has read `r` knows the account if
    there is one. -/
def mayEnd (r : List TrialStore) (s : TrialStore) (a : Remote) : Bool :=
  a ∉ s.world.pending ∧ (a ∈ s.world.accounts → ∀ x ∈ r, a ∈ x.world.accounts)

/-- A create call is sent in the step. -/
def isSent (s s' : TrialStore) (a : Remote) : Bool := a ∈ s'.world.pending ∧ a ∉ s.world.pending

/-- A service is stored in the step. -/
def isStored (s s' : TrialStore) (u : String) : Bool :=
  (s'.rows (.service u)).isSome && (s.rows (.service u)).isNone

/-- Nothing had the name of the account, and no other claim gets it. -/
def isNew (id : ℕ) (s s' : TrialStore) (a : Remote) : Bool :=
  (a ∉ s.world.accounts ∧ a ∉ s.world.pending) && (s.rows (.service a.username)).isNone &&
    (claimIds s'.journal).all fun j =>
      j = id ∨ (s'.rows (.claim j)).all fun d => d.usernameSnapshot ≠ some a.username

/-- What a step may do with claim `id` of account `a`, whose row was `c` before and is `c'` after. -/
def isWatched (r : List TrialStore) (s s' : TrialStore) (id : ℕ) (c c' : FreeTrialClaim)
    (a : Remote) : Bool :=
  (hasEnded c' && !hasEnded c → mayEnd r s a) ∧
    (isSent s s' a || isStored s s' a.username → isUnsettled c) ∧
      (c.remote = none → isNew id s s' a)

/-- Every claim is watched. -/
def allWatched (r : List TrialStore) (s s' : TrialStore) : Bool :=
  (claimIds s.journal).all fun id => (s.rows (.claim id)).all fun c =>
    (s'.rows (.claim id)).all fun c' => c'.remote.all (isWatched r s s' id c c')

def accountsWatched : StepCond TrialRow TrialEntry TrialWorld := fun _ r s s' =>
  allWatched r s s' = true

/-! ### The invariant -/

/-- A claim of which nothing was sent, or that has ended. -/
def isIdle (c : FreeTrialClaim) : Bool := c.status = .CLAIMED ∨ hasEnded c

/-- The claims and their accounts. -/
structure Kept (s : TrialStore) : Prop where
  unique : ∀ i j c d u, s.rows (.claim i) = some c → s.rows (.claim j) = some d →
    c.usernameSnapshot = some u → d.usernameSnapshot = some u → i = j
  quiet : ∀ id c a, s.rows (.claim id) = some c → c.remote = some a → isIdle c = true →
    a ∉ s.world.accounts ∧ a ∉ s.world.pending
  served : ∀ id c u, s.rows (.claim id) = some c → c.usernameSnapshot = some u →
    s.rows (.service u) ≠ none → wasActive c = true

/-- What was read before a claim was begun has not seen its account. -/
structure Seen (x s : TrialStore) : Prop where
  accounts : ∀ a ∈ x.world.accounts, a ∈ s.world.accounts
  unbegun : ∀ id c a, s.rows (.claim id) = some c → c.remote = some a → isUnbegun id x = true →
    a ∉ x.world.accounts

theorem Kept.seen (h : Kept s) : Seen s s where
  accounts _ ha := ha
  unbegun id c a hrow ha hunbegun := by
    rw [isUnbegun, hrow, Option.all_some] at hunbegun
    exact (h.quiet id c a hrow ha (decide_eq_true (.inl (of_decide_eq_true hunbegun)))).1

/-! ### Steps -/

section Watched

variable {id : ℕ} {c c' : FreeTrialClaim}

/-- What the condition says of one claim. -/
structure Watched (r : List TrialStore) (s s' : TrialStore) (id : ℕ) (c c' : FreeTrialClaim)
    (a : Remote) : Prop where
  ends : hasEnded c' = true → hasEnded c = false → a ∉ s.world.pending ∧
    (a ∈ s.world.accounts → ∀ x ∈ r, a ∈ x.world.accounts)
  sent : isSent s s' a = true → isUnsettled c = true
  stored : isStored s s' a.username = true → isUnsettled c = true
  unused : c.remote = none → a ∉ s.world.accounts ∧ a ∉ s.world.pending
  unserved : c.remote = none → s.rows (.service a.username) = none
  unnamed : c.remote = none → ∀ j ∈ claimIds s'.journal, ∀ d, s'.rows (.claim j) = some d →
    d.usernameSnapshot = some a.username → j = id

theorem Watched.of_isWatched (h : isWatched r s s' id c c' a = true) : Watched r s s' id c c' a := by
  obtain ⟨hends, hwrites, hfrozen⟩ := of_decide_eq_true h
  have hnew (hnone : c.remote = none) := hfrozen hnone
  simp only [isNew, Bool.and_eq_true] at hnew
  refine ⟨fun hended hlive => ?_, fun hsent => hwrites (by rw [hsent]; rfl),
    fun hstored => hwrites (by rw [hstored, Bool.or_true]),
    fun hnone => of_decide_eq_true (hnew hnone).1.1,
    fun hnone => Option.isNone_iff_eq_none.mp (hnew hnone).1.2, fun hnone j hj d hd hu => ?_⟩
  · exact of_decide_eq_true (hends (by rw [hended, hlive]; rfl))
  · rcases of_decide_eq_true (List.all_eq_true.mp (hnew hnone).2 j hj) with hj | hj
    · exact hj
    · rw [hd, Option.all_some] at hj
      exact absurd hu (of_decide_eq_true hj)

theorem accountsWatched.claim (h : accountsWatched p r s s') (hi : AllListed s)
    (hrow : s.rows (.claim id) = some c) (hrow' : s'.rows (.claim id) = some c')
    (ha : c'.remote = some a) : Watched r s s' id c c' a := by
  have hid := List.all_eq_true.mp h id (hi id c hrow)
  rw [hrow, Option.all_some, hrow', Option.all_some, ha, Option.all_some] at hid
  exact .of_isWatched hid

theorem idle_of_settled (h : isIdle c = true) (hs : isUnsettled c = true) : False := by
  rcases of_decide_eq_true h with h | h
  · simp [isUnsettled, h] at hs
  · rcases of_decide_eq_true h with h | h <;> simp [isUnsettled, h] at hs

theorem remote_of (h : c.usernameSnapshot = some a.username) (hp : c.panelId = a.panelId) :
    c.remote = some a := by
  rw [FreeTrialClaim.remote, h, hp]
  rfl

/-- A claim with an account had it before the commit, or has it frozen there. -/
theorem AccountTx.remote_after (h : AccountTx r s t) (hheld : t.Held s.rows)
    (hrow : (s.commit p t).rows (.claim id) = some c') (ha : c'.remote = some a) :
    ∃ c, s.rows (.claim id) = some c ∧ ClaimChange r id c c' ∧
      (c.remote = some a ∨ c.remote = none) := by
  rcases h.claim_after hheld hrow with ⟨c, hc, hchange⟩ | ⟨-, hnone, -⟩
  · refine ⟨c, hc, hchange, ?_⟩
    rcases hchange.identity with hi | hi
    · rw [FreeTrialClaim.remote, ← hi, ← hchange.panel]
      exact .inl ha
    · rw [FreeTrialClaim.remote, hi]
      exact .inr rfl
  · rw [FreeTrialClaim.remote, hnone] at ha
    cases ha

/-- What was read stays so. -/
theorem Seen.step (h : Seen x s) (hi : AllListed s) (hst : provisioning.Step p r s s')
    (hC : accountsWatched p r s s') : Seen x s' := by
  cases hst with
  | act w hw => exact ⟨fun a ha => hw.kept a (h.accounts a ha), h.unbegun⟩
  | commit t hheld ht =>
    refine ⟨h.accounts, fun id c' a hrow ha hunbegun => ?_⟩
    obtain ⟨c, hc, -, hremote | hnone⟩ := AccountTx.remote_after ht hheld hrow ha
    · exact h.unbegun id c a hc hremote hunbegun
    · exact fun hx => ((hC.claim hi hc hrow ha).unused hnone).1 (h.accounts a hx)

/-- An act on the world. -/
theorem Kept.act {w : TrialWorld} (h : Kept s) (hi : AllListed s) (hw : WorldMove s.world w)
    (hC : accountsWatched p r s { s with world := w }) : Kept { s with world := w } where
  unique := h.unique
  served := h.served
  quiet id c a hrow ha hidle := by
    obtain ⟨haccounts, hpending⟩ := h.quiet id c a hrow ha hidle
    have hw' := hC.claim hi hrow hrow ha
    refine ⟨fun hnew => ?_, fun hnew => ?_⟩
    · exact (hw.created a hnew).elim haccounts hpending
    · exact idle_of_settled hidle (hw'.sent (decide_eq_true ⟨hnew, hpending⟩))

/-- Two claims have different names after a commit. -/
theorem Kept.unique_commit (h : Kept s) (hi : AllListed s) (hheld : t.Held s.rows)
    (ht : AccountTx r s t) (hC : accountsWatched p r s (s.commit p t)) {i j : ℕ}
    {c' d' : FreeTrialClaim} {u : String} (hc' : (s.commit p t).rows (.claim i) = some c')
    (hd' : (s.commit p t).rows (.claim j) = some d') (hu : c'.usernameSnapshot = some u)
    (hu' : d'.usernameSnapshot = some u) : i = j := by
  have hi' := ht.allListed (p := p) hheld hi
  obtain ⟨c, hc, hchange, ha⟩ := ht.remote_after hheld hc' (remote_of (a := ⟨_, u⟩) hu rfl)
  obtain ⟨d, hd, hchange', hb⟩ := ht.remote_after hheld hd' (remote_of (a := ⟨_, u⟩) hu' rfl)
  rcases ha with ha | hnone
  · rcases hb with hb | hnone
    · exact h.unique i j c d u hc hd (remote_eq ha).1 (remote_eq hb).1
    · -- the second claim freezes its name
      have hw := hC.claim hi hd hd' (remote_of (a := ⟨_, u⟩) hu' rfl)
      exact hw.unnamed hnone i (hi' i c' hc') c' hc' hu
  · have hw := hC.claim hi hc hc' (remote_of (a := ⟨_, u⟩) hu rfl)
    exact (hw.unnamed hnone j (hi' j d' hd') d' hd' hu').symm

/-- A claim that is idle after a commit has no account. -/
theorem Kept.quiet_commit (h : Kept s) (hi : AllListed s) (hheld : t.Held s.rows)
    (ht : AccountTx r s t) (hC : accountsWatched p r s (s.commit p t)) (hr : ∀ x ∈ r, Seen x s)
    (hrow : (s.commit p t).rows (.claim id) = some c') (ha : c'.remote = some a)
    (hidle : isIdle c' = true) : a ∉ s.world.accounts ∧ a ∉ s.world.pending := by
  obtain ⟨c, hc, hchange, hremote | hnone⟩ := ht.remote_after hheld hrow ha
  swap
  · exact (hC.claim hi hc hrow ha).unused hnone
  by_cases hbefore : isIdle c = true
  · exact h.quiet id c a hc hremote hbefore
  -- the claim ends in this commit
  have hended : hasEnded c' = true := by
    rcases of_decide_eq_true hidle with h | h
    · exact absurd (decide_eq_true (.inl (hchange.begun h))) hbefore
    · exact h
  have hlive : hasEnded c = false := by
    rw [← Bool.not_eq_true]
    exact fun h => hbefore (decide_eq_true (.inr h))
  obtain ⟨hpending, hknown⟩ := (hC.claim hi hc hrow ha).ends hended hlive
  refine ⟨fun hthere => ?_, hpending⟩
  rcases hchange.ended hended with h | ⟨x, hx, hunbegun⟩ | ⟨b, hb, x, hx, hnot⟩
  · rw [hlive] at h
    cases h
  · exact (hr x hx).unbegun id c a hc hremote hunbegun (hknown hthere x hx)
  · cases ha.symm.trans hb
    exact hnot (hknown hthere x hx)

/-- A claim whose service is there after a commit is active, or was. -/
theorem Kept.served_commit {u : String} (h : Kept s) (hi : AllListed s) (hheld : t.Held s.rows)
    (ht : AccountTx r s t) (hC : accountsWatched p r s (s.commit p t))
    (hrow : (s.commit p t).rows (.claim id) = some c') (hu : c'.usernameSnapshot = some u)
    (hservice : (s.commit p t).rows (.service u) ≠ none) : wasActive c' = true := by
  have ha : c'.remote = some ⟨c'.panelId, u⟩ := remote_of hu rfl
  obtain ⟨c, hc, hchange, hremote⟩ := ht.remote_after hheld hrow ha
  have hw := hC.claim hi hc hrow ha
  by_cases hbefore : s.rows (.service u) = none
  · -- the service is stored in this commit, for the claim with its name
    have hunsettled : isUnsettled c = true := hw.stored (by
      rw [isStored, hbefore, Option.isSome_iff_ne_none.mpr hservice]
      rfl)
    rcases s.commit_rows p hheld (.service u) with ⟨he, -⟩ | hchg
    · exact absurd (he.trans hbefore) hservice
    rcases ht.services u _ _ hchg with h' | ⟨j, d, hd, hdu, hactive⟩
    · exact absurd hbefore h'
    obtain rfl : j = id := by
      obtain ⟨d', hd', hdchange⟩ := ht.claim_before (p := p) hheld hd
      have hdu' : d'.usernameSnapshot = some u :=
        (remote_eq (hdchange.remote (remote_of (a := ⟨_, u⟩) hdu rfl))).1
      exact h.unique_commit hi hheld ht hC hd' hrow hdu' hu
    cases hc.symm.trans hd
    obtain ⟨n, hn, hs⟩ := hactive hunsettled
    have hafter : (s.commit p t).rows (.claim j) = some n := by
      simp only [Store.commit, Tx.row, hn]
    cases hrow.symm.trans hafter
    exact decide_eq_true (.inl hs)
  · rcases hremote with hremote | hnone
    · exact hchange.active (h.served id c u hc (remote_eq hremote).1 hbefore)
    · exact absurd (hw.unserved hnone) hbefore

/-- STEP: the watched steps keep the claims and their accounts. -/
theorem Kept.step (h : Kept s) (hi : AllListed s) (hst : provisioning.Step p r s s')
    (hC : accountsWatched p r s s') (hr : ∀ x ∈ r, Seen x s) : Kept s' := by
  cases hst with
  | act w hw => exact h.act hi hw hC
  | commit t hheld ht =>
    exact ⟨fun i j c d u hc hd hu hu' => h.unique_commit hi hheld ht hC hc hd hu hu',
      fun id c a hrow ha hidle => h.quiet_commit hi hheld ht hC hr hrow ha hidle,
      fun id c u hrow hu hs => h.served_commit hi hheld ht hC hrow hu hs⟩

end Watched

/-- A claim that has ended has neither a service nor an account on its panel, and a claim with a
    service is ACTIVE, or was. -/
def UnitsReturned (s : TrialStore) : Prop :=
  (∀ id c u, s.rows (.claim id) = some c → c.usernameSnapshot = some u → hasEnded c = true →
    ⟨c.panelId, u⟩ ∉ s.world.accounts ∧ s.rows (.service u) = none) ∧
  ∀ id c u, s.rows (.claim id) = some c → c.usernameSnapshot = some u →
    s.rows (.service u) ≠ none → wasActive c = true

theorem Kept.unitsReturned (h : Kept s) : UnitsReturned s := by
  refine ⟨fun id c u hrow hu hended => ⟨?_, ?_⟩, h.served⟩
  · have ha : c.remote = some ⟨c.panelId, u⟩ := remote_of hu rfl
    exact (h.quiet id c _ hrow ha (decide_eq_true (.inr hended))).1
  · by_contra hservice
    have hactive := of_decide_eq_true (h.served id c u hrow hu hservice)
    rcases of_decide_eq_true hended with h | h <;> rw [h] at hactive <;> simp at hactive

/-- RETURNED: in every run of the automatic paths whose steps watch the accounts, a claim that has
    ended has neither a service nor an account, and a claim with a service is ACTIVE, or was. -/
theorem units_returned {procs : ℕ → TrialProcess} (hauto : ∀ p, (procs p).isAutomatic = true)
    {s₀ : TrialStore} {c : TrialConfig} (hlisted : AllListed s₀) (hkept : Kept s₀)
    (hrun : Run accountsWatched (Config.start s₀ fun p => (procs p).program) c) :
    UnitsReturned c.store := by
  have hg : Good provisioning (Config.start s₀ fun p => (procs p).program) :=
    good_start hlisted fun p => wp_mono _ (fun _ _ _ _ => trivial)
      ((accepts_automatic (hauto p)).run [] s₀ hlisted)
  obtain ⟨h, -⟩ := hrun.keeps_seen hg (P := Kept) (R := Seen)
    (fun hi hst hC hr h => h.step hi hst hC hr) (fun _ h => h.seen)
    (fun hi hst hC _ hx => hx.step hi hst hC) hkept fun q x hx => nomatch hx
  exact h.unitsReturned

/-! A claim that is reconciled while it is created. -/

def onPanel : TrialPanel := { id := 1 }

def reconciledEarly : ℕ → TrialProcess
  | 0 => .claimFreeTrial 1 1 onPanel
  | 1 => .reconcile 1
  | _ => .tick

/-- The create call is sent; the panel is read, and the claim failed; the call is answered. -/
def readBeforeAnswer : List (Event TrialChoice) :=
  List.replicate 18 (.run 0 {}) ++ List.replicate 10 (.run 1 {}) ++ List.replicate 8 (.run 0 {})

theorem readBeforeAnswer_runs :
    ((Config.start noClaims fun p => (reconciledEarly p).program).exec readBeforeAnswer).any
      (fun c => (c.store.rows (.claim 1)).any (fun k => k.status = .FAILED ∧
        k.allowanceReleasedAt ≠ none ∧ k.usernameSnapshot = some "trial" ∧ k.panelId = 1) &&
          c.store.world.accounts = [⟨1, "trial"⟩] &&
            (c.store.rows (.service "trial")).isSome) = true := by
  decide +kernel

theorem noClaims_kept : AllListed noClaims ∧ Kept noClaims :=
  ⟨fun _ _ h => (nomatch h), ⟨fun _ _ _ _ _ h => (nomatch h), fun _ _ _ h => (nomatch h),
    fun _ _ _ h => (nomatch h)⟩⟩

theorem units_returned_with_account : ¬ ∀ (procs : ℕ → TrialProcess) (s₀ : TrialStore)
    (c : TrialConfig), (∀ p, (procs p).isAutomatic = true) → AllListed s₀ → Kept s₀ →
      Run anyStep (Config.start s₀ fun p => (procs p).program) c → UnitsReturned c.store := by
  intro h
  obtain ⟨c, hrun, hc⟩ := Run.of_exec_any readBeforeAnswer_runs
  have hauto (p : ℕ) : (reconciledEarly p).isAutomatic = true := by
    match p with
    | 0 | 1 => rfl
    | p + 2 => rfl
  obtain ⟨hended, -⟩ := h _ _ c hauto noClaims_kept.1 noClaims_kept.2 hrun
  rw [Bool.and_eq_true, Bool.and_eq_true] at hc
  obtain ⟨⟨hclaim, haccounts⟩, -⟩ := hc
  obtain ⟨k, hk, hfields⟩ := (Option.any_eq_true _ _).mp hclaim
  obtain ⟨hs, -, hu, hp⟩ := of_decide_eq_true hfields
  refine (hended 1 k "trial" hk hu (decide_eq_true (.inl hs))).1 ?_
  rw [hp, of_decide_eq_true haccounts]
  exact .head _

/-! One create call is refused, another one answered. -/

def twoCreates : ℕ → TrialProcess
  | 0 => .claimFreeTrial 1 1 onPanel
  | 1 => .claimFreeTrial 2 2 onPanel
  | _ => .tick

def refusedAndAnswered : List (Event TrialChoice) :=
  List.replicate 18 (.run 0 {}) ++ List.replicate 18 (.run 1 { resolvedUsername := some "other" }) ++
    List.replicate 8 (.run 0 { create := .rejected }) ++ List.replicate 8 (.run 1 {})

theorem refusedAndAnswered_runs :
    ((Config.start noClaims fun p => (twoCreates p).program).execWhile
      (fun _ r s s' => allWatched r s s') refusedAndAnswered).any (fun c =>
        (c.store.rows (.claim 1)).any (fun k => k.status = .FAILED ∧
          k.usernameSnapshot = some "trial") &&
        (c.store.rows (.service "other")).isSome) = true := by
  decide +kernel

theorem units_returned_of_refused : ∃ c : TrialConfig,
    (c.store.rows (.claim 1)).any (fun k => k.status = .FAILED) = true ∧
      (c.store.rows (.service "other")).isSome = true ∧ UnitsReturned c.store := by
  obtain ⟨c, hrun, hc⟩ := Run.of_execWhile_any refusedAndAnswered_runs
  have hauto (p : ℕ) : (twoCreates p).isAutomatic = true := by
    match p with
    | 0 | 1 => rfl
    | p + 2 => rfl
  rw [Bool.and_eq_true] at hc
  obtain ⟨k, hk, hfields⟩ := (Option.any_eq_true _ _).mp hc.1
  refine ⟨c, ?_, hc.2, units_returned hauto noClaims_kept.1 noClaims_kept.2 hrun⟩
  rw [hk]
  exact decide_eq_true (of_decide_eq_true hfields).1

end ZedBot.Trials
