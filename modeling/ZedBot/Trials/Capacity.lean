import Mathlib.Data.Finset.Card
import ZedBot.Trials.Allowance

/-! The claims that passed the capacity decision of a panel are within its limit, in every run. -/

namespace ZedBot.Trials
open ReadCommitted

variable {p q P L : ℕ} {s s' : TrialStore} {t : TrialTx} {r : List TrialStore}

/-- The claim passed its capacity decision on the panel. -/
def isPassed (P : ℕ) (journal : List TrialEntry) (id : ℕ) : Bool :=
  journal.any fun
    | .decision d => d.claimId = id ∧ d.panelId = P ∧ d.lost = false
    | _ => false

/-- A claim that passed its decision and is counted on the panel. -/
def isOccupant (P : ℕ) (s : TrialStore) (id : ℕ) : Bool :=
  isPassed P s.journal id && (s.rows (.claim id)).any (isCounted P s.world.now)

def occupants (P : ℕ) (s : TrialStore) : List ℕ := (claimIds s.journal).filter (isOccupant P s)

/-- The claims are listed once, what is decided is a claim, and the occupants are within the limit. -/
structure Capped (P L : ℕ) (s : TrialStore) : Prop where
  listed : Listed s
  decided : ∀ d, TrialEntry.decision d ∈ s.journal → ∃ c, s.rows (.claim d.claimId) = some c
  within : (occupants P s).length ≤ L

/-- The commit of a decision `d`, by a process that has read `r`. -/
structure DecisionTx (P L : ℕ) (r : List TrialStore) (s : TrialStore) (t : TrialTx) (d : Decision) :
    Prop where
  lock : ∃ n : ℕ, t.chg (.panelLock d.panelId) = some (n, (n + 1 : ℕ))
  claims : ∀ id o n, t.chg (.claim id) = some (o, n) →
    ∃ c c', o = some c ∧ n = some c' ∧ ClaimMove c c'
  entries : t.entries = [.decision d]
  there : ∃ c, s.rows (.claim d.claimId) = some c
  others : ∃ x, r.head? = some x ∧ d.others = countOthers d.claimId d.panelId d.now (x.view {})
  lost : d.panelId = P → (d.lost = true ↔ L ≤ d.others)
  kept : d.lost = false → ∀ id, t.chg (.claim id) = none
  below : d.panelId = P → d.lost = false → (occupants P s).countP (· ≠ d.claimId) < L

/-- What may be committed. -/
inductive CapacityRule (P L : ℕ) (r : List TrialStore) (s : TrialStore) (t : TrialTx) : Prop
  | claims (h : ClaimsTx (fun _ => False) t)
  | entitlements (h : EntitlementsTx t)
  | insert (id : ℕ) (c : FreeTrialClaim) (h : InsertTx t id c c.entitlementId)
  | giveBack (id : ℕ) (c c' : FreeTrialClaim) (unit : Option ℕ) (h : GiveBackTx t id c c' unit)
  | decision (d : Decision) (h : DecisionTx P L r s t d)

/-! ### Who is counted -/

theorem isCounted_iff {now : ℕ} {c : FreeTrialClaim} : isCounted P now c = true ↔ c.panelId = P ∧
    (c.status ∈ LIVE_CLAIM_STATUSES ∨ c.status = .ACTIVE ∧ c.expiresAt.all (now < ·) = true) := by
  simp [isCounted]

/-- Time takes claims away only. -/
theorem isCounted_before {now now' : ℕ} {c : FreeTrialClaim} (h : isCounted P now' c = true)
    (hle : now ≤ now') : isCounted P now c = true := by
  obtain ⟨hpanel, h⟩ := isCounted_iff.mp h
  refine isCounted_iff.mpr ⟨hpanel, h.imp id fun ⟨hs, he⟩ => ⟨hs, ?_⟩⟩
  refine Option.all_eq_true_iff_get _ _ |>.mpr fun hsome => ?_
  have hlt := (Option.all_eq_true_iff_get _ _).mp he hsome
  exact decide_eq_true (Nat.lt_of_le_of_lt hle (of_decide_eq_true hlt))

/-- A move takes claims away only. -/
theorem ClaimMove.counted {now : ℕ} {c c' : FreeTrialClaim} (h : ClaimMove c c')
    (hc : isCounted P now c' = true) : isCounted P now c = true := by
  obtain ⟨hpanel, hc⟩ := isCounted_iff.mp hc
  refine isCounted_iff.mpr ⟨h.panel.symm.trans hpanel, ?_⟩
  rcases h.status with ⟨hs, he⟩ | hlive | ⟨-, hs⟩
  · rwa [hs, he] at hc
  · exact .inl hlive
  · rw [hs] at hc
    rcases hc with hc | ⟨hc, -⟩
    · exact absurd hc (by decide)
    · cases hc

/-- A claim of a commit that only moves claims. -/
theorem counted_of_moves (hheld : t.Held s.rows) (h : ∀ id o n, t.chg (.claim id) = some (o, n) →
    ∃ c c', o = some c ∧ n = some c' ∧ ClaimMove c c') {id now : ℕ}
    (hc : ((s.commit p t).rows (.claim id)).any (isCounted P now) = true) :
    (s.rows (.claim id)).any (isCounted P now) = true := by
  rcases s.commit_rows p hheld (.claim id) with ⟨he, -⟩ | hchg
  · rwa [he] at hc
  · obtain ⟨c, c', hrow, hrow', hmove⟩ := h id _ _ hchg
    rw [hrow', Option.any_some] at hc
    rw [hrow, Option.any_some]
    exact hmove.counted hc

theorem isPassed_append (js js' : List TrialEntry) (id : ℕ) :
    isPassed P (js ++ js') id = (isPassed P js id || isPassed P js' id) := List.any_append

theorem isPassed_of_decision {js : List TrialEntry} {id : ℕ} (h : isPassed P js id = true) :
    ∃ d, TrialEntry.decision d ∈ js ∧ d.claimId = id ∧ d.panelId = P ∧ d.lost = false := by
  obtain ⟨j, hj, h⟩ := List.any_eq_true.mp h
  cases j with
  | decision d => exact ⟨d, hj, of_decide_eq_true h⟩
  | claim id => cases h
  | entitlement id => cases h

theorem not_isPassed {js : List TrialEntry} (h : ∀ d, TrialEntry.decision d ∉ js) (id : ℕ) :
    isPassed P js id = false := by
  refine Bool.eq_false_iff.mpr fun hp => ?_
  obtain ⟨d, hd, -⟩ := isPassed_of_decision hp
  exact h d hd

/-- What a step adds to the journal passes nobody, and nobody is counted anew: occupants leave only. -/
theorem occupants_sublist (hjournal : ∃ js, s'.journal = s.journal ++ js ∧
      (∀ id, isPassed P js id = false) ∧ ∀ id ∈ claimIds js, isPassed P s.journal id = false)
    (hcount : ∀ id, isPassed P s.journal id = true →
      (s'.rows (.claim id)).any (isCounted P s'.world.now) = true →
      (s.rows (.claim id)).any (isCounted P s.world.now) = true) :
    (occupants P s').Sublist (occupants P s) := by
  obtain ⟨js, hjs, hpass, hnew⟩ := hjournal
  have himp : ∀ id, isOccupant P s' id = true → isOccupant P s id = true := by
    intro id h
    rw [isOccupant, hjs, isPassed_append, hpass, Bool.or_false, Bool.and_eq_true] at h
    rw [isOccupant, Bool.and_eq_true]
    exact ⟨h.1, hcount id h.1 h.2⟩
  have hnone : (claimIds js).filter (isOccupant P s') = [] := by
    refine List.filter_eq_nil_iff.mpr fun id hid h => ?_
    rw [isOccupant, hjs, isPassed_append, hpass, Bool.or_false, hnew id hid] at h
    cases h
  rw [occupants, hjs, claimIds_append, List.filter_append, hnone, List.append_nil]
  exact List.monotone_filter_right _ himp

/-! ### Steps -/

/-- The commit lets a claim pass on the panel. -/
def Passes (P : ℕ) (t : TrialTx) : Prop :=
  ∃ d, TrialEntry.decision d ∈ t.entries ∧ d.panelId = P ∧ d.lost = false

/-- No claim is removed. -/
theorem CapacityRule.claim_stays (h : CapacityRule P L r s t) {id : ℕ}
    (hrow : ∃ c, s.rows (.claim id) = some c) : ∃ c, (s.commit p t).rows (.claim id) = some c := by
  have hstays (hnone : t.chg (.claim id) = none) : ∃ c, (s.commit p t).rows (.claim id) = some c := by
    rw [row_of_none hnone]
    exact hrow
  have hmoves (h : ∀ id o n, t.chg (.claim id) = some (o, n) →
      ∃ c c', o = some c ∧ n = some c' ∧ ClaimMove c c') :
      ∃ c, (s.commit p t).rows (.claim id) = some c := by
    cases hchg : t.chg (.claim id) with
    | none => exact hstays hchg
    | some x =>
      obtain ⟨c, c', -, hn, -⟩ := h id x.1 x.2 hchg
      exact ⟨c', (row_of_some hchg).trans hn⟩
  cases h with
  | claims h => exact hmoves h.claims
  | entitlements h => exact hstays (h.claims id)
  | insert id' c h =>
    by_cases hid : id = id'
    · subst hid
      exact ⟨c, row_of_some h.claim⟩
    · exact hstays (h.others id hid)
  | giveBack id' c c' unit h =>
    by_cases hid : id = id'
    · subst hid
      exact ⟨c', row_of_some h.claim⟩
    · exact hstays (h.others id hid)
  | decision d h => exact hmoves h.claims

/-- Unless a claim passes, the occupants of the panel only leave. -/
theorem CapacityRule.occupants_leave (h : CapacityRule P L r s t) (hi : Capped P L s)
    (hheld : t.Held s.rows) (hpasses : ¬ Passes P t) :
    (occupants P (s.commit p t)).Sublist (occupants P s) := by
  have hpass (id : ℕ) : isPassed P t.entries id = false := by
    refine Bool.eq_false_iff.mpr fun hp => ?_
    obtain ⟨d, hd, -, hpanel, hlost⟩ := isPassed_of_decision hp
    exact hpasses ⟨d, hd, hpanel, hlost⟩
  have hnew : ∀ id ∈ claimIds t.entries, isPassed P s.journal id = false := by
    intro id hid
    refine Bool.eq_false_iff.mpr fun hp => ?_
    obtain ⟨d, hd, rfl, -⟩ := isPassed_of_decision hp
    obtain ⟨c, hrow⟩ := hi.decided d hd
    obtain ⟨j, hj, he⟩ := List.mem_filterMap.mp hid
    cases h with
    | claims h => exact h.entries j hj
    | entitlements h =>
      obtain ⟨id', rfl⟩ := h.entries j hj
      cases he
    | insert id' c' h =>
      rw [h.entries] at hj
      cases List.mem_singleton.mp hj
      cases he
      cases (hheld _ _ _ h.claim).trans hrow
    | giveBack id' c' c'' unit h =>
      rw [h.entries] at hj
      cases hj
    | decision d' h =>
      rw [h.entries] at hj
      cases List.mem_singleton.mp hj
      cases he
  refine occupants_sublist ⟨t.entries, rfl, hpass, hnew⟩ fun id hp hc => ?_
  change ((s.commit p t).rows (.claim id)).any (isCounted P s.world.now) = true at hc
  cases h with
  | claims h => exact counted_of_moves hheld h.claims hc
  | entitlements h => rwa [row_of_none (h.claims id)] at hc
  | insert id' c h =>
    by_cases hid : id = id'
    · -- a claim that passed was there before
      subst hid
      obtain ⟨d, hd, rfl, -⟩ := isPassed_of_decision hp
      obtain ⟨c', hrow⟩ := hi.decided d hd
      cases (hheld _ _ _ h.claim).trans hrow
    · rwa [row_of_none (h.others id hid)] at hc
  | giveBack id' c c' unit h =>
    by_cases hid : id = id'
    · subst hid
      obtain ⟨now, hstamp⟩ := h.stamp
      obtain ⟨-, hended⟩ := isReleasable_iff.mp h.releasable
      rw [row_of_some h.claim, Option.any_some, isCounted_iff, hstamp] at hc
      rcases hended with he | he <;> simp [he, LIVE_CLAIM_STATUSES] at hc
    · rwa [row_of_none (h.others id hid)] at hc
  | decision d h => exact counted_of_moves hheld h.claims hc

/-- STEP: a claim that passes is one more, and the others were below the limit. -/
theorem DecisionTx.within {d : Decision} (h : DecisionTx P L r s t d) (hi : Capped P L s)
    (hpanel : d.panelId = P) (hlost : d.lost = false) : (occupants P (s.commit p t)).length ≤ L := by
  have hids : claimIds (s.commit p t).journal = claimIds s.journal := by
    rw [Store.journal_commit, claimIds_append, h.entries]
    exact List.append_nil _
  have hothers : ∀ id, id ≠ d.claimId → isOccupant P (s.commit p t) id = isOccupant P s id := by
    intro id hid
    have hone : isPassed P [.decision d] id = false := by
      refine Bool.eq_false_iff.mpr fun hp => ?_
      obtain ⟨d', hd', he, -⟩ := isPassed_of_decision hp
      cases List.mem_singleton.mp hd'
      exact hid he.symm
    rw [isOccupant, isOccupant, Store.journal_commit, h.entries, isPassed_append, hone,
      Bool.or_false, row_of_none (h.kept hlost id)]
    rfl
  have hrest : (occupants P (s.commit p t)).countP (· ≠ d.claimId) =
      (occupants P s).countP (· ≠ d.claimId) := by
    rw [occupants, occupants, hids, List.countP_filter, List.countP_filter]
    refine List.countP_congr fun id _ => ?_
    by_cases hid : id = d.claimId
    · simp [hid]
    · rw [hothers id hid]
  have hself : (occupants P (s.commit p t)).countP (· = d.claimId) ≤ 1 := by
    have hnodup : (occupants P (s.commit p t)).Nodup := by
      rw [occupants, hids]
      exact hi.listed.nodup.filter _
    have hone := List.nodup_iff_count_le_one.mp hnodup d.claimId
    rw [List.count] at hone
    refine Nat.le_trans (Nat.le_of_eq (List.countP_congr fun id _ => ?_)) hone
    simp
  have hlength := List.length_eq_countP_add_countP (fun id => decide (id = d.claimId))
    (l := occupants P (s.commit p t))
  have hsplit : (occupants P (s.commit p t)).countP (fun a => decide ¬ decide (a = d.claimId) = true) =
      (occupants P (s.commit p t)).countP (· ≠ d.claimId) :=
    List.countP_congr fun id _ => by simp
  have hbelow := h.below hpanel hlost
  omega

/-- What is decided in a commit is the commit of a decision. -/
theorem CapacityRule.decisionTx (h : CapacityRule P L r s t) {d : Decision}
    (hd : TrialEntry.decision d ∈ t.entries) : DecisionTx P L r s t d := by
  cases h with
  | claims h => exact (h.entries _ hd).elim
  | entitlements h =>
    obtain ⟨id, he⟩ := h.entries _ hd
    cases he
  | insert id c h =>
    rw [h.entries] at hd
    cases List.mem_singleton.mp hd
  | giveBack id c c' unit h =>
    rw [h.entries] at hd
    cases hd
  | decision d' h =>
    have hmem := hd
    rw [h.entries] at hmem
    cases List.mem_singleton.mp hmem
    exact h

theorem CapacityRule.capped (h : CapacityRule P L r s t) (hi : Capped P L s)
    (hheld : t.Held s.rows) : Capped P L (s.commit p t) := by
  have hstays (id : ℕ) (hc : ∃ c, s.rows (.claim id) = some c) :
      ∃ c, (s.commit p t).rows (.claim id) = some c := h.claim_stays hc
  refine ⟨?_, fun d hd => ?_, ?_⟩
  · have hmoved (h : ∀ id o n, t.chg (.claim id) = some (o, n) →
        ∃ c c', o = some c ∧ n = some c' ∧ ClaimMove c c') (id : ℕ) :
        (∃ c, s.rows (.claim id) = some c) ↔ ∃ c, (s.commit p t).rows (.claim id) = some c := by
      refine ⟨hstays id, fun ⟨c, hc⟩ => ?_⟩
      rcases s.commit_rows p hheld (.claim id) with ⟨he, -⟩ | hchg
      · exact ⟨c, he.symm.trans hc⟩
      · obtain ⟨x, -, hx, -⟩ := h id _ _ hchg
        exact ⟨x, hx⟩
    cases h with
    | claims h =>
      exact hi.listed.moved (claimIds_of_noClaim fun j hj => (h.entries j hj).elim)
        (hmoved h.claims)
    | entitlements h =>
      refine hi.listed.moved (claimIds_of_noClaim h.noClaim) fun id => ?_
      rw [row_of_none (h.claims id)]
    | insert id c h => exact hi.listed.inserted hheld h
    | giveBack id c c' unit h => exact hi.listed.gaveBack hheld h
    | decision d h => exact hi.listed.moved (by rw [h.entries]; rfl) (hmoved h.claims)
  · rw [Store.journal_commit, List.mem_append] at hd
    rcases hd with hd | hd
    · exact hstays _ (hi.decided d hd)
    · exact hstays _ (h.decisionTx hd).there
  · by_cases hpasses : Passes P t
    · obtain ⟨d, hd, hpanel, hlost⟩ := hpasses
      exact (h.decisionTx hd).within hi hpanel hlost
    · exact Nat.le_trans (h.occupants_leave hi hheld hpasses).length_le hi.within

/-- As time passes the occupants only leave. -/
theorem occupants_pass {w : TrialWorld} (hw : onward s.world w) :
    (occupants P { s with world := w }).Sublist (occupants P s) := by
  refine occupants_sublist ⟨[], (List.append_nil _).symm, fun _ => rfl, fun _ h => nomatch h⟩
    fun id _ hc => ?_
  obtain ⟨c, hrow, hc⟩ := (Option.any_eq_true _ _).mp hc
  exact (Option.any_eq_true _ _).mpr ⟨c, hrow, isCounted_before hc hw⟩

theorem Capped.act (hi : Capped P L s) {w : TrialWorld} (hw : onward s.world w) :
    Capped P L { s with world := w } :=
  ⟨⟨hi.listed.mem, hi.listed.nodup⟩, hi.decided,
    Nat.le_trans (occupants_pass hw).length_le hi.within⟩

/-- The rules of the capacity of panel `P` with limit `L`. -/
def capping (P L : ℕ) : Discipline TrialRow TrialEntry TrialWorld where
  Inv := Capped P L
  Commits _ r s t := CapacityRule P L r s t
  Acts _ _ s w := onward s.world w
  commits_empty _ := .claims .empty
  inv_commit hi hheld h := h.capped hi hheld
  inv_act hi h := hi.act h

/-! ### The decision -/

/-- What a decider knows of the others while it holds the lock: no more of them than it counted. -/
structure Counted (P claimId others : ℕ) (s : TrialStore) : Prop where
  there : ∃ c, s.rows (.claim claimId) = some c
  atMost : (occupants P s).countP (· ≠ claimId) ≤ others

/-- LOCKED: under the lock of the panel no other process lets a claim pass there. -/
theorem Counted.later {claimId others : ℕ} {ks : TrialKey → Prop}
    (hl : (capping P L).Later p ks s s') (hi : Capped P L s) (hlock : ks (.panelLock P)) (h : Counted P claimId others s) :
    Counted P claimId others s' := by
  refine hl.stable_spared (fun {q r s s'} _ hi hst hspared h => ?_) hi h
  cases hst with
  | act w hw =>
    exact ⟨h.there, Nat.le_trans (occupants_pass hw).countP_le h.atMost⟩
  | commit t hheld ht =>
    refine ⟨CapacityRule.claim_stays ht h.there, Nat.le_trans ?_ h.atMost⟩
    refine (CapacityRule.occupants_leave ht hi hheld fun ⟨d, hd, hpanel, _⟩ => ?_).countP_le
    obtain ⟨n, hchg⟩ := (CapacityRule.decisionTx ht hd).lock
    rw [hpanel] at hchg
    have hsame := hspared _ hlock
    rw [row_of_some hchg, ← hheld _ _ _ hchg] at hsame
    exact Nat.succ_ne_self n hsame

/-- The others that are counted, whatever else the transaction has written. -/
theorem countOthers_locked (claimId panelId now n m : ℕ) (s₁ : TrialStore) :
    countOthers claimId panelId now (s.view (Tx.write {} s₁.rows ⟨.panelLock m, n⟩)) =
      countOthers claimId panelId now (s.view {}) := rfl

/-- The occupants are among those that are counted. -/
theorem counted_atMost {claimId now : ℕ} (hnow : now ≤ s.world.now) :
    (occupants P s).countP (· ≠ claimId) ≤ countOthers claimId P now (s.view {}) := by
  refine (List.Sublist.countP_le ?_)
  have hjournal : claimsWhere (isCounted P now) (s.view {}) = (claimIds s.journal).filter fun id =>
      (s.rows (.claim id)).any (isCounted P now) := by
    rw [claimsWhere, Store.view]
    simp only [List.append_nil]
    rfl
  rw [hjournal]
  refine List.monotone_filter_right _ fun id h => ?_
  rw [isOccupant, Bool.and_eq_true] at h
  obtain ⟨c, hrow, hc⟩ := (Option.any_eq_true _ _).mp h.2
  exact (Option.any_eq_true _ _).mpr ⟨c, hrow, isCounted_before hc hnow⟩

/-- A transaction that has taken the lock of the panel. -/
def locked (s : TrialStore) (panelId : ℕ) : TrialTx :=
  Tx.write {} s.rows ⟨.panelLock panelId, (s.rows (.panelLock panelId) + 1 : ℕ)⟩

section Decide

variable {claimId panelId limit now others : ℕ} {s₁ s₂ : TrialStore}

theorem locked_holds : (locked s panelId).Holds (.panelLock panelId) := by
  simp [locked, Tx.Holds]

/-- A claim passes where fewer than the limit were counted. -/
theorem DecisionTx.of_below (hothers : countOthers claimId panelId now (s₂.view {}) = others)
    (hlimit : panelId = P → limit = L) (hbelow : others < limit)
    (hcounted : panelId = P → Counted P claimId others s)
    (hthere : ∃ c, s.rows (.claim claimId) = some c) :
    DecisionTx P L (s₂ :: r) s
      ((locked s₁ panelId).append [.decision ⟨claimId, panelId, now, others, false⟩])
      ⟨claimId, panelId, now, others, false⟩ := by
  refine ⟨⟨s₁.rows (.panelLock panelId), Tx.chg_write_self ..⟩, fun id o n h => (nomatch h), rfl,
    hthere, ⟨s₂, rfl, hothers.symm⟩, fun hP => ?_, fun _ id => rfl, fun hP _ => ?_⟩
  · have hlt : others < L := hlimit hP ▸ hbelow
    exact ⟨fun h => (nomatch h), fun h => absurd h (Nat.not_le.mpr hlt)⟩
  · exact Nat.lt_of_le_of_lt (hcounted hP).atMost (hlimit hP ▸ hbelow)

/-- A claim loses where the limit was reached. -/
theorem DecisionTx.of_reached (s₁ : TrialStore)
    (hothers : countOthers claimId panelId now (s₂.view {}) = others)
    (hlimit : panelId = P → limit = L) (hreached : ¬ others < limit)
    (hthere : ∃ c, s.rows (.claim claimId) = some c)
    (hlock : t.chg (.panelLock panelId) = (locked s₁ panelId).chg (.panelLock panelId))
    (hclaims : ∀ id o n, t.chg (.claim id) = some (o, n) →
      ∃ c c', o = some c ∧ n = some c' ∧ ClaimMove c c')
    (hentries : t.entries = [.decision ⟨claimId, panelId, now, others, true⟩]) :
    DecisionTx P L (s₂ :: r) s t ⟨claimId, panelId, now, others, true⟩ := by
  refine ⟨⟨s₁.rows (.panelLock panelId), hlock.trans (Tx.chg_write_self ..)⟩, hclaims, hentries,
    hthere, ⟨s₂, rfl, hothers.symm⟩, fun hP => ⟨fun _ => ?_, fun _ => rfl⟩, fun h => (nomatch h),
    fun _ h => (nomatch h)⟩
  have hle : ¬ others < L := hlimit hP ▸ hreached
  exact Nat.not_lt.mp hle

end Decide

theorem capping_advances {q : ℕ} (h : (capping P L).Step q r s s') :
    s.world.now ≤ s'.world.now := by
  cases h with
  | commit t _ _ => exact Nat.le_refl _
  | act w hw => exact hw

/-- The decision of a claim: it is taken under the lock of the panel, on what it has counted there. -/
theorem wp_decideCapacity {claimId panelId limit now : ℕ} (hi : Capped P L s)
    (hthere : ∃ c, s.rows (.claim claimId) = some c) (hnow : now ≤ s.world.now)
    (hlimit : panelId = P → limit = L) :
    wp (capping P L) p (decideCapacity claimId panelId limit now)
      (fun _ l s => l.tx = none ∧ (capping P L).Inv s) ⟨none, r⟩ s := by
  have hkeeps : ∀ {q r s s'}, (capping P L).Inv s → (capping P L).Step q r s s' →
      ((∃ c, s.rows (.claim claimId) = some c) ∧ now ≤ s.world.now) →
      (∃ c, s'.rows (.claim claimId) = some c) ∧ now ≤ s'.world.now := by
    intro q r s s' _ hst h
    refine ⟨?_, Nat.le_trans h.2 (capping_advances hst)⟩
    cases hst with
    | act w _ => exact h.1
    | commit t hheld ht => exact CapacityRule.claim_stays ht h.1
  refine wp_transaction ((wp_seq _ _).mpr (wp_sql_tx fun s₁ hl₁ hi₁ _ => ?_))
  have h₁ := hl₁.stable (fun _ => hkeeps) hi ⟨hthere, hnow⟩
  have hlocked : Tx.add {} s₁.rows ({ result := (), writes := [⟨.panelLock panelId,
      ((s₁.view {}).rows (.panelLock panelId) + 1 : ℕ)⟩] } : Effect TrialRow TrialEntry Unit) =
      locked s₁ panelId := Tx.append_nil _
  dsimp only
  rw [hlocked]
  refine (wp_seq _ _).mpr (wp_select _ fun s₂ hl₂ hi₂ => ?_)
  have h₂ := hl₂.stable (fun _ => hkeeps) hi₁ h₁
  generalize hothers : countOthers claimId panelId now (s₂.view _) = others
  replace hothers : countOthers claimId panelId now (s₂.view {}) = others := hothers
  by_cases hbelow : others < limit
  · -- fewer than the limit: the claim passes, and the others cannot grow before the commit
    rw [if_pos hbelow]
    refine (wp_seq _ _).mpr (wp_append_tx fun s₃ hl₃ hi₃ s₄ hl₄ hi₄ hheld₄ => ?_)
    have h₄ := hl₄.stable (fun _ => hkeeps) hi₃ (hl₃.stable (fun _ => hkeeps) hi₂ h₂)
    have hcounted : panelId = P → Counted P claimId others s₄ := by
      rintro rfl
      have hcounted : Counted panelId claimId others s₂ := ⟨h₂.1, hothers ▸ counted_atMost h₂.2⟩
      exact (hcounted.later hl₃ hi₂ locked_holds).later hl₄ hi₃ locked_holds
    have hpassed : DecisionTx P L (s₂ :: r) s₄ ((locked s₁ panelId).append
        [.decision ⟨claimId, panelId, now, others, false⟩]) _ :=
      .of_below hothers hlimit hbelow hcounted h₄.1
    have hc := CapacityRule.decision _ hpassed
    exact ⟨hc, rfl, hc.capped hi₄ hheld₄⟩
  · -- the limit is reached: the claim cancels itself
    rw [if_neg hbelow]
    refine (wp_seq _ _).mpr (wp_append_tx fun s₃ hl₃ hi₃ => ?_)
    have h₃ := hl₃.stable (fun _ => hkeeps) hi₂ h₂
    refine (wp_seq _ _).mpr ((wp_seq _ _).mpr (wp_ext _ fun s₄ hl₄ hi₄ _ => ⟨Nat.le_refl _, ?_⟩))
    have h₄ := hl₄.stable (fun _ => hkeeps) hi₃ h₃
    refine wp_update_tx fun s₅ hl₅ hi₅ _ => ⟨fun _ s₆ hl₆ hi₆ hheld₆ => ?_,
      fun n hn s₆ hl₆ hi₆ hheld₆ => ?_⟩
    all_goals have h₆ := hl₆.stable (fun _ => hkeeps) hi₅ (hl₅.stable (fun _ => hkeeps) hi₄ h₄)
    · have hlost : DecisionTx P L (s₂ :: r) s₆ ((locked s₁ panelId).append
          [.decision ⟨claimId, panelId, now, others, true⟩]) _ :=
        .of_reached s₁ hothers hlimit hbelow h₆.1 rfl (fun id o n h => nomatch h) rfl
      have hc := CapacityRule.decision _ hlost
      exact ⟨hc, rfl, hc.capped hi₆ hheld₆⟩
    · obtain ⟨c, hrow, hstatus, rfl⟩ := onSome_eq hn
      have hlost : DecisionTx P L (s₂ :: r) s₆ (((locked s₁ panelId).append
          [.decision ⟨claimId, panelId, now, others, true⟩]).write s₅.rows
          ⟨.claim claimId, some { c with
            status := .CANCELLED
            failureReasonCode := some "capacity-full"
            updatedAt := s₄.world.now }⟩)
          ⟨claimId, panelId, now, others, true⟩ := by
        refine .of_reached s₁ hothers hlimit hbelow h₆.1 rfl (fun id o n h => ?_) rfl
        by_cases hid : id = claimId
        · subst hid
          rw [Tx.chg_write_self] at h
          cases h
          exact ⟨c, _, hrow, rfl, rfl, rfl, rfl, rfl,
            .inr (.inl (live_of_open (.inl (of_decide_eq_true hstatus))))⟩
        · rw [Tx.chg_write_ne _ (fun he => hid (by cases he; rfl))] at h
          cases h
      have hc := CapacityRule.decision _ hlost
      exact ⟨hc, rfl, hc.capped hi₆ hheld₆⟩

/-! ### Runs -/

/-- The limit that the callers use on panel `P` is `L`. -/
def limitIs (P L panelId limit : ℕ) : Prop := panelId = P → limit = L

theorem cappingRules : TrialRules (capping P L) p (fun _ => True) (limitIs P L) where
  movesClaims _ _ h := .claims h
  movesEntitlements _ _ h := .entitlements h
  inserts _ _ h := .insert _ _ h
  givesBack _ _ h _ := .giveBack _ _ _ _ h
  idle _ _ _ _ _ := trivial
  acts _ h := h
  advances h := capping_advances h
  decides hi hthere hnow hlimit := wp_decideCapacity hi hthere hnow hlimit

/-- A decision of a claim on panel `P`, committed by a process that has read `r`: it is lost where the
    others that were counted fill the limit, and else the claim is left. -/
structure DecidedRightly (P L : ℕ) (r : List TrialStore) (t : TrialTx) (d : Decision) : Prop where
  others : ∃ x, r.head? = some x ∧ d.others = countOthers d.claimId P d.now (x.view {})
  lost : d.lost = true ↔ L ≤ d.others
  kept : d.lost = false → ∀ id, t.chg (.claim id) = none

/-- CAPACITY: in every run the claims that passed their decision on a panel and are counted there are
    within its limit; and a decision loses a claim only where the others fill the limit. -/
theorem capacity_kept (procs : ℕ → TrialProcess) {P L : ℕ}
    (hlimit : ∀ p claimId userId panel, procs p = .claimFreeTrial claimId userId panel →
      panel.id = P → panel.testMaxConcurrentAccounts = some L)
    {s₀ : TrialStore} (h₀ : Capped P L s₀) {c : TrialConfig}
    (hrun : Run anyStep (Config.start s₀ fun p => (procs p).program) c) :
    (∀ ids : Finset ℕ, (∀ id ∈ ids, isPassed P c.store.journal id = true ∧
        ∃ k, c.store.rows (.claim id) = some k ∧ isCounted P c.store.world.now k = true) →
      ids.card ≤ L) ∧
    Run (fun _ r s s' => ∀ k, s'.log = k :: s.log → ∀ d, TrialEntry.decision d ∈ k.tx.entries →
      d.panelId = P → DecidedRightly P L r k.tx d)
      (Config.start s₀ fun p => (procs p).program) c := by
  have hwithin (p : ℕ) : (procs p).Within (limitIs P L) := by
    cases hp : procs p with
    | claimFreeTrial claimId userId panel =>
      intro limit hsome hP
      rw [hlimit p claimId userId panel hp hP] at hsome
      exact (Option.some.inj hsome).symm
    | _ => trivial
  have hg : Good (capping P L) (Config.start s₀ fun p => (procs p).program) :=
    good_start h₀ fun p => wp_mono _ (fun _ _ _ _ => trivial)
      ((cappingRules.accepts_process (hwithin p)).run [] s₀ h₀)
  refine ⟨fun ids hids => ?_, (hrun.allowed hg).mono fun p r s s' ⟨_, hst⟩ k hk d hd hP => ?_⟩
  · have hi : Capped P L c.store := (hrun.sound hg).1.inv
    refine Nat.le_trans ?_ hi.within
    have hsub : ids ⊆ (occupants P c.store).toFinset := by
      intro id hid
      obtain ⟨hpassed, k, hrow, hcounted⟩ := hids id hid
      rw [List.mem_toFinset, occupants, List.mem_filter]
      refine ⟨(hi.listed.mem id).mpr ⟨k, hrow⟩, ?_⟩
      rw [isOccupant, hpassed, hrow, Bool.true_and, Option.any_some]
      exact hcounted
    exact Nat.le_trans (Finset.card_le_card hsub) (List.toFinset_card_le _)
  · have hself : ∀ l : List (Commit TrialRow TrialEntry), l ≠ k :: l := fun l he => by
      have hlength := congrArg List.length he
      rw [List.length_cons] at hlength
      omega
    rcases hst with rfl | ⟨-, hst⟩
    · exact absurd hk (hself _)
    · cases hst with
      | act w _ => exact absurd hk (hself _)
      | commit t hheld ht =>
        cases hk
        have hdecision := CapacityRule.decisionTx ht hd
        subst hP
        exact ⟨hdecision.others, hdecision.lost rfl, hdecision.kept⟩

/-! Two users and a panel for one. -/

def smallPanel : TrialPanel := { id := 1, testMaxConcurrentAccounts := some 1 }

def noClaims : TrialStore where
  rows
    | .user _ => some {}
    | .userLock _ | .panelLock _ => (0 : ℕ)
    | .claim _ | .entitlement _ | .service _ => none
  log := []
  world := {}

theorem noClaims_capped : Capped 1 1 noClaims := by
  refine ⟨⟨fun id => ⟨fun h => (nomatch h), fun ⟨_, h⟩ => (nomatch h)⟩, List.nodup_nil⟩,
    fun d hd => (nomatch hd), Nat.zero_le _⟩

def twoUsers : ℕ → TrialProcess
  | 0 => .claimFreeTrial 1 1 smallPanel
  | 1 => .claimFreeTrial 2 2 smallPanel
  | _ => .tick

theorem twoUsers_limit : ∀ p claimId userId panel, twoUsers p = .claimFreeTrial claimId userId panel →
    panel.id = 1 → panel.testMaxConcurrentAccounts = some 1 := by
  intro p claimId userId panel hp _
  match p with
  | 0 => cases hp; rfl
  | 1 => cases hp; rfl
  | p + 2 => cases hp

/-- Claim 2 decides while claim 1 is in flight, and loses; claim 1 decides later, and passes. -/
def laterFirst : List (Event TrialChoice) :=
  List.replicate 10 (.run 0 {}) ++ List.replicate 20 (.run 1 {}) ++ List.replicate 10 (.run 0 {})

theorem laterFirst_runs :
    ((Config.start noClaims fun p => (twoUsers p).program).exec laterFirst).any (fun c =>
      isOccupant 1 c.store 1 ∧ (c.store.rows (.claim 2)).any fun k => k.status = .CANCELLED) = true := by
  decide +kernel

theorem capacity_kept_for_one : ∃ c : TrialConfig, isOccupant 1 c.store 1 = true ∧
    ∀ ids : Finset ℕ, (∀ id ∈ ids, isPassed 1 c.store.journal id = true ∧
      ∃ k, c.store.rows (.claim id) = some k ∧ isCounted 1 c.store.world.now k = true) →
        ids.card ≤ 1 := by
  obtain ⟨c, hrun, hc⟩ := Run.of_exec_any laterFirst_runs
  obtain ⟨hoccupant, -⟩ := of_decide_eq_true hc
  obtain ⟨hwithin, -⟩ := capacity_kept twoUsers twoUsers_limit noClaims_capped hrun
  exact ⟨c, hoccupant, hwithin⟩

end ZedBot.Trials
