import ZedBot.Trials.Accepted

/-! The units of an entitlement are those of its claims, in every run. -/

namespace ZedBot.Trials
open ReadCommitted

variable {p : ℕ} {s s' : TrialStore} {t : TrialTx} {base : ℕ → ℤ}

/-- A claim that holds a unit of an entitlement. -/
def holdsUnit (e : ℕ) (c : FreeTrialClaim) : Bool :=
  c.entitlementId = some e ∧ c.allowanceReleasedAt = none

/-- The claims that are linked to an entitlement and have not given their unit back. -/
def unitsHeld (s : TrialStore) (e : ℕ) : ℕ :=
  (claimIds s.journal).countP fun id => (s.rows (.claim id)).any (holdsUnit e)

/-- The journal lists the claims, each once. -/
structure Listed (s : TrialStore) : Prop where
  mem : ∀ id, id ∈ claimIds s.journal ↔ ∃ c, s.rows (.claim id) = some c
  nodup : (claimIds s.journal).Nodup

/-- The books of the allowances: `base` are the units that no claim stands for. -/
structure Accounted (base : ℕ → ℤ) (s : TrialStore) : Prop where
  nonneg : ∀ e, 0 ≤ base e
  listed : Listed s
  consumed : ∀ e x, s.rows (.entitlement e) = some x → x.consumed = base e + unitsHeld s e
  allowance : ∀ e x, s.rows (.entitlement e) = some x → x.consumed ≤ x.allowance
  full : ∀ e x, s.rows (.entitlement e) = some x → x.status = .CONSUMED → x.consumed = x.allowance
  missing : ∀ e, s.rows (.entitlement e) = none → base e = 0 ∧ unitsHeld s e = 0
  released : ∀ id c, s.rows (.claim id) = some c → c.allowanceReleasedAt ≠ none →
    c.status = .FAILED ∨ c.status = .CANCELLED

/-- Entries that insert no claim. -/
def noClaim (j : TrialEntry) : Prop := ∀ id, j ≠ .claim id

/-- What may be committed. -/
inductive AllowanceRule (t : TrialTx) : Prop
  | claims (h : ClaimsTx noClaim t)
  | entitlements (h : EntitlementsTx t)
  | insert (id : ℕ) (c : FreeTrialClaim) (h : InsertTx t id c c.entitlementId)
  | giveBack (id : ℕ) (c c' : FreeTrialClaim) (h : GiveBackTx t id c c' c.entitlementId)

/-! ### Counting -/

theorem claimIds_of_noClaim {js : List TrialEntry} (h : ∀ j ∈ js, noClaim j) : claimIds js = [] := by
  refine List.filterMap_eq_nil_iff.mpr fun j hj => ?_
  cases j with
  | claim id => exact absurd rfl (h _ hj id)
  | entitlement id => rfl
  | decision d => rfl

/-- A count that drops at one element only. -/
theorem countP_drop {l : List ℕ} (hl : l.Nodup) {a : ℕ} (ha : a ∈ l) {f g : ℕ → Bool}
    (hf : f a = true) (hg : g a = false) (h : ∀ b ∈ l, b ≠ a → f b = g b) :
    l.countP f = l.countP g + 1 := by
  have hperm := List.perm_cons_erase ha
  have hrest : (l.erase a).countP f = (l.erase a).countP g := by
    refine List.countP_congr fun b hb => ?_
    obtain ⟨hne, hmem⟩ := hl.mem_erase_iff.mp hb
    rw [h b hmem hne]
  rw [hperm.countP_eq, hperm.countP_eq, List.countP_cons_of_pos hf,
    List.countP_cons_of_neg (by simp [hg]), hrest]

/-- The units held stay where no claim is inserted or gives its unit back. -/
theorem unitsHeld_commit {e : ℕ} (hentries : claimIds t.entries = [])
    (h : ∀ id, ((s.commit p t).rows (.claim id)).any (holdsUnit e) =
      (s.rows (.claim id)).any (holdsUnit e)) : unitsHeld (s.commit p t) e = unitsHeld s e := by
  rw [unitsHeld, Store.journal_commit, claimIds_append, hentries, List.append_nil]
  exact List.countP_congr fun id _ => by rw [h id]

/-! ### Steps -/

/-- A commit that inserts and removes no claim. -/
theorem Listed.moved (hl : Listed s) (hids : claimIds t.entries = [])
    (h : ∀ id, (∃ c, s.rows (.claim id) = some c) ↔
      ∃ c, (s.commit p t).rows (.claim id) = some c) : Listed (s.commit p t) := by
  have hsame : claimIds (s.commit p t).journal = claimIds s.journal := by
    rw [Store.journal_commit, claimIds_append, hids, List.append_nil]
  exact ⟨fun id => by rw [hsame, hl.mem id, h id], hsame ▸ hl.nodup⟩

theorem Listed.fresh (hl : Listed s) {id : ℕ} (h : s.rows (.claim id) = none) :
    id ∉ claimIds s.journal := by
  intro hmem
  obtain ⟨c, hc⟩ := (hl.mem id).mp hmem
  rw [h] at hc
  cases hc

theorem Listed.inserted {id : ℕ} {c : FreeTrialClaim} {unit : Option ℕ} (hl : Listed s)
    (hheld : t.Held s.rows) (h : InsertTx t id c unit) : Listed (s.commit p t) := by
  have hfresh := hl.fresh (hheld _ _ _ h.claim).symm
  have hids : claimIds (s.commit p t).journal = claimIds s.journal ++ [id] := by
    rw [Store.journal_commit, claimIds_append, h.entries]
    rfl
  refine ⟨fun id' => ?_, ?_⟩
  · rw [hids, List.mem_append, List.mem_singleton]
    by_cases hid : id' = id
    · subst hid
      exact ⟨fun _ => ⟨c, row_of_some h.claim⟩, fun _ => .inr rfl⟩
    · rw [row_of_none (h.others id' hid), ← hl.mem id']
      simp [hid]
  · rw [hids]
    exact List.nodup_append.mpr ⟨hl.nodup, List.nodup_singleton id, fun a ha b hb he => by
      rw [List.mem_singleton.mp hb] at he
      exact hfresh (he ▸ ha)⟩

theorem Listed.gaveBack {id : ℕ} {c c' : FreeTrialClaim} {unit : Option ℕ} (hl : Listed s)
    (hheld : t.Held s.rows) (h : GiveBackTx t id c c' unit) : Listed (s.commit p t) := by
  refine hl.moved (by rw [h.entries]; rfl) fun id' => ?_
  by_cases hid : id' = id
  · subst hid
    rw [← hheld _ _ _ h.claim, row_of_some h.claim]
    simp
  · rw [row_of_none (h.others id' hid)]

/-- A claim after claims moved on. -/
theorem ClaimsTx.row {E : TrialEntry → Prop} (h : ClaimsTx E t) (hheld : t.Held s.rows) (id : ℕ) :
    (s.rows (.claim id) = none ∧ (s.commit p t).rows (.claim id) = none) ∨
      ∃ c c', s.rows (.claim id) = some c ∧ (s.commit p t).rows (.claim id) = some c' ∧
        ClaimMove c c' := by
  rcases s.commit_rows p hheld (.claim id) with ⟨he, -⟩ | hchg
  · cases hrow : s.rows (.claim id) with
    | none => exact .inl ⟨rfl, he.trans hrow⟩
    | some c => exact .inr ⟨c, c, rfl, he.trans hrow, .refl c⟩
  · obtain ⟨c, c', hc, hc', hmove⟩ := h.claims id _ _ hchg
    exact .inr ⟨c, c', hc, hc', hmove⟩

theorem ClaimMove.holdsUnit {c c' : FreeTrialClaim} (h : ClaimMove c c') (e : ℕ) :
    holdsUnit e c' = holdsUnit e c := by
  rw [Trials.holdsUnit, Trials.holdsUnit, h.unit, h.released]

theorem ClaimMove.ended {c c' : FreeTrialClaim} (h : ClaimMove c c')
    (hc : c.status = .FAILED ∨ c.status = .CANCELLED) : c'.status = c.status := by
  rcases h.status with ⟨he, -⟩ | hlive | ⟨ha, -⟩
  · exact he
  · rcases hc with hc | hc <;> rw [hc] at hlive <;> exact absurd hlive (by decide)
  · rcases hc with hc | hc <;> rw [hc] at ha <;> cases ha

theorem Accounted.claims (hi : Accounted base s) (hheld : t.Held s.rows) (h : ClaimsTx noClaim t) :
    Accounted base (s.commit p t) := by
  have hids := claimIds_of_noClaim h.entries
  have hrows (e : ℕ) : (s.commit p t).rows (.entitlement e) = s.rows (.entitlement e) :=
    row_of_none (h.entitlements e)
  have hunits (e : ℕ) : unitsHeld (s.commit p t) e = unitsHeld s e := by
    refine unitsHeld_commit hids fun id => ?_
    rcases h.row (p := p) hheld id with ⟨hn, hn'⟩ | ⟨c, c', hc, hc', hmove⟩
    · rw [hn, hn']
    · rw [hc, hc', Option.any_some, Option.any_some, hmove.holdsUnit]
  refine ⟨hi.nonneg, hi.listed.moved hids fun id => ?_, fun e x hx => ?_, fun e x hx => ?_,
    fun e x hx => ?_, fun e hx => ?_, fun id c' hrow hreleased => ?_⟩
  · rcases h.row (p := p) hheld id with ⟨hn, hn'⟩ | ⟨c, c', hc, hc', -⟩
    · rw [hn, hn']
    · rw [hc, hc']
      simp
  · rw [hunits]
    exact hi.consumed e x (hrows e ▸ hx)
  · exact hi.allowance e x (hrows e ▸ hx)
  · exact hi.full e x (hrows e ▸ hx)
  · rw [hunits]
    exact hi.missing e (hrows e ▸ hx)
  · rcases h.row (p := p) hheld id with ⟨-, hn'⟩ | ⟨c, c₁, hc, hc₁, hmove⟩
    · rw [hrow] at hn'
      cases hn'
    · rw [hrow] at hc₁
      cases hc₁
      have hended := hi.released id c hc (hmove.released ▸ hreleased)
      rw [hmove.ended hended]
      exact hended

theorem EntitlementsTx.noClaim (h : EntitlementsTx t) : ∀ j ∈ t.entries, noClaim j := by
  intro j hj id he
  obtain ⟨id', he'⟩ := h.entries j hj
  rw [he] at he'
  cases he'

theorem Accounted.entitlements (hi : Accounted base s) (hheld : t.Held s.rows)
    (h : EntitlementsTx t) : Accounted base (s.commit p t) := by
  have hids : claimIds t.entries = [] := claimIds_of_noClaim h.noClaim
  have hrows (id : ℕ) : (s.commit p t).rows (.claim id) = s.rows (.claim id) :=
    row_of_none (h.claims id)
  have hunits (e : ℕ) : unitsHeld (s.commit p t) e = unitsHeld s e :=
    unitsHeld_commit hids fun id => by rw [hrows]
  -- an entitlement after the commit was there before, or is new
  have hfrom (e : ℕ) (x' : FreeTrialEntitlement)
      (hx' : (s.commit p t).rows (.entitlement e) = some x') :
      (∃ x, s.rows (.entitlement e) = some x ∧ x'.consumed = x.consumed ∧
        x'.allowance = x.allowance ∧ (x'.status = .CONSUMED → x.status = .CONSUMED)) ∨
      s.rows (.entitlement e) = none ∧ NewEntitlement x' := by
    rcases s.commit_rows p hheld (.entitlement e) with ⟨he, -⟩ | hchg
    · exact .inl ⟨x', he.symm.trans hx', rfl, rfl, id⟩
    · rcases h.entitlements e _ _ hchg with ⟨x, n, hx, hn, hmove⟩ | ⟨hnone, n, hn, hnew⟩
      · cases hx'.symm.trans hn
        refine .inl ⟨x, hx, hmove.consumed, hmove.allowance, fun hs => ?_⟩
        rcases hmove.status with he | ⟨-, he | he⟩
        · exact he ▸ hs
        · rw [hs] at he
          cases he
        · rw [hs] at he
          cases he
      · cases hx'.symm.trans hn
        exact .inr ⟨hnone, hnew⟩
  refine ⟨hi.nonneg, hi.listed.moved hids fun id => by rw [hrows], fun e x' hx' => ?_,
    fun e x' hx' => ?_, fun e x' hx' hs => ?_, fun e hx' => ?_,
    fun id c hrow => hi.released id c (hrows id ▸ hrow)⟩
  · rw [hunits]
    rcases hfrom e x' hx' with ⟨x, hx, hconsumed, -, -⟩ | ⟨hnone, hnew⟩
    · rw [hconsumed]
      exact hi.consumed e x hx
    · obtain ⟨hb, hu⟩ := hi.missing e hnone
      rw [hnew.consumed, hb, hu]
      rfl
  · rcases hfrom e x' hx' with ⟨x, hx, hconsumed, hallowance, -⟩ | ⟨-, hnew⟩
    · rw [hconsumed, hallowance]
      exact hi.allowance e x hx
    · rw [hnew.consumed]
      exact hnew.allowance
  · rcases hfrom e x' hx' with ⟨x, hx, hconsumed, hallowance, hfull⟩ | ⟨-, hnew⟩
    · rw [hconsumed, hallowance]
      exact hi.full e x hx (hfull hs)
    · exact absurd hs hnew.status
  · rw [hunits]
    rcases s.commit_rows p hheld (.entitlement e) with ⟨he, -⟩ | hchg
    · exact hi.missing e (he.symm.trans hx')
    · rcases h.entitlements e _ _ hchg with ⟨x, n, -, hn, -⟩ | ⟨-, n, hn, -⟩
      · rw [hx'] at hn
        cases hn
      · rw [hx'] at hn
        cases hn

/-- What moves a unit: the consumption by `d`, within the allowance. -/
structure MovesBy (d : ℤ) (x y : FreeTrialEntitlement) : Prop where
  consumed : y.consumed = x.consumed + d
  allowance : y.allowance = x.allowance
  within : x.consumed ≤ x.allowance → y.consumed ≤ y.allowance
  full : y.status = .CONSUMED → x.consumed ≤ x.allowance → y.consumed = y.allowance

theorem take_moves {x y : FreeTrialEntitlement} (h : take x = some y) : MovesBy 1 x y := by
  rw [take] at h
  split at h
  · rename_i hc
    obtain ⟨hactive, hrest⟩ := hc
    cases h
    refine ⟨rfl, rfl, fun _ => ?_, fun hs _ => ?_⟩
    · change x.consumed + 1 ≤ x.allowance
      omega
    · change (if x.consumed + 1 ≥ x.allowance then _ else _) = _ at hs
      change x.consumed + 1 = x.allowance
      split at hs
      · omega
      · rw [hactive] at hs
        cases hs
  · cases h

theorem giveBack_moves {x y : FreeTrialEntitlement} (h : giveBack x = some y) :
    MovesBy (-1) x y := by
  rw [giveBack] at h
  split at h
  · cases h
    refine ⟨rfl, rfl, fun hx => ?_, fun hs _ => ?_⟩
    · change x.consumed - 1 ≤ x.allowance
      omega
    · change (if x.status = .CONSUMED then FreeTrialEntitlementStatus.ACTIVE else x.status) = _ at hs
      split at hs
      · cases hs
      · exact absurd hs ‹_›
  · cases h

theorem UnitTx.row_after {unit : Option ℕ} {f : FreeTrialEntitlement → Option FreeTrialEntitlement}
    (h : UnitTx t unit f) (hheld : t.Held s.rows) (e : ℕ) :
    unit ≠ some e ∧ (s.commit p t).rows (.entitlement e) = s.rows (.entitlement e) ∨
      unit = some e ∧ ∃ x y, s.rows (.entitlement e) = some x ∧
        (s.commit p t).rows (.entitlement e) = some y ∧ f x = some y := by
  by_cases he : unit = some e
  · obtain ⟨x, y, hchg, hf⟩ := h.row e he
    exact .inr ⟨he, x, y, (hheld _ _ _ hchg).symm, row_of_some hchg, hf⟩
  · exact .inl ⟨he, row_of_none (h.others e he)⟩

/-- A unit is moved on an entitlement, and the claims that hold one change with it. -/
theorem Accounted.moved {unit : Option ℕ} {d : ℤ}
    {f : FreeTrialEntitlement → Option FreeTrialEntitlement} (hi : Accounted base s)
    (hheld : t.Held s.rows) (h : UnitTx t unit f) (hf : ∀ x y, f x = some y → MovesBy d x y)
    (hunits : ∀ e, (unitsHeld (s.commit p t) e : ℤ) =
      unitsHeld s e + if unit = some e then d else 0)
    (hlisted : Listed (s.commit p t))
    (hreleased : ∀ id c, (s.commit p t).rows (.claim id) = some c → c.allowanceReleasedAt ≠ none →
      c.status = .FAILED ∨ c.status = .CANCELLED) : Accounted base (s.commit p t) := by
  refine ⟨hi.nonneg, hlisted, fun e y hy => ?_, fun e y hy => ?_, fun e y hy hs => ?_,
    fun e hy => ?_, hreleased⟩
  all_goals rcases h.row_after (p := p) hheld e with ⟨hne, he⟩ | ⟨heq, x, y', hx, hy', hxy⟩
  · rw [hunits, if_neg hne, Int.add_zero]
    exact hi.consumed e y (he ▸ hy)
  · cases hy.symm.trans hy'
    rw [hunits, if_pos heq, (hf x y hxy).consumed, hi.consumed e x hx]
    omega
  · exact hi.allowance e y (he ▸ hy)
  · cases hy.symm.trans hy'
    exact (hf x y hxy).within (hi.allowance e x hx)
  · exact hi.full e y (he ▸ hy) hs
  · cases hy.symm.trans hy'
    exact (hf x y hxy).full hs (hi.allowance e x hx)
  · obtain ⟨hb, hu⟩ := hi.missing e (he ▸ hy)
    refine ⟨hb, ?_⟩
    have hcount := hunits e
    rw [if_neg hne, hu] at hcount
    omega
  · rw [hy] at hy'
    cases hy'

theorem Accounted.inserted {id : ℕ} {c : FreeTrialClaim} (hi : Accounted base s)
    (hheld : t.Held s.rows) (h : InsertTx t id c c.entitlementId) :
    Accounted base (s.commit p t) := by
  have hnone : s.rows (.claim id) = none := (hheld _ _ _ h.claim).symm
  have hsome : (s.commit p t).rows (.claim id) = some c := row_of_some h.claim
  have hfresh := hi.listed.fresh hnone
  have hids : claimIds (s.commit p t).journal = claimIds s.journal ++ [id] := by
    rw [Store.journal_commit, claimIds_append, h.entries]
    rfl
  refine hi.moved hheld h.units (fun _ _ => take_moves) (fun e => ?_) (hi.listed.inserted hheld h)
    fun id' c' hrow hreleased => ?_
  · have hold : (claimIds s.journal).countP (fun id' =>
        ((s.commit p t).rows (.claim id')).any (holdsUnit e)) = unitsHeld s e := by
      refine List.countP_congr fun id' hid' => ?_
      rw [row_of_none (h.others id' fun he => hfresh (he ▸ hid'))]
    have hnew : holdsUnit e c = true ↔ c.entitlementId = some e := by
      simp [holdsUnit, h.unreleased]
    rw [unitsHeld, hids, List.countP_append, hold, List.countP_singleton, hsome, Option.any_some]
    simp only [hnew]
    split <;> rfl
  · by_cases hid : id' = id
    · subst hid
      rw [hsome] at hrow
      cases hrow
      exact absurd h.unreleased hreleased
    · exact hi.released id' c' (row_of_none (h.others id' hid) ▸ hrow) hreleased

/-- A claim that is releasable holds its unit. -/
theorem isReleasable_iff {c : FreeTrialClaim} : isReleasable c = true ↔
    c.allowanceReleasedAt = none ∧ (c.status = .FAILED ∨ c.status = .CANCELLED) := by
  simp [isReleasable]

theorem Accounted.gaveBack {id : ℕ} {c c' : FreeTrialClaim} (hi : Accounted base s)
    (hheld : t.Held s.rows) (h : GiveBackTx t id c c' c.entitlementId) :
    Accounted base (s.commit p t) := by
  have hrow : s.rows (.claim id) = some c := (hheld _ _ _ h.claim).symm
  have hsome : (s.commit p t).rows (.claim id) = some c' := row_of_some h.claim
  have hmem : id ∈ claimIds s.journal := (hi.listed.mem id).mpr ⟨c, hrow⟩
  obtain ⟨hunreleased, hended⟩ := isReleasable_iff.mp h.releasable
  obtain ⟨now, hstamp⟩ := h.stamp
  have hids : claimIds (s.commit p t).journal = claimIds s.journal := by
    rw [Store.journal_commit, claimIds_append, h.entries]
    exact List.append_nil _
  refine hi.moved hheld h.units (fun _ _ => giveBack_moves) (fun e => ?_)
    (hi.listed.gaveBack hheld h) fun id' x hx hreleased => ?_
  · have hothers : ∀ b ∈ claimIds s.journal, b ≠ id → (s.rows (.claim b)).any (holdsUnit e) =
        ((s.commit p t).rows (.claim b)).any (holdsUnit e) := fun b _ hb => by
      rw [row_of_none (h.others b hb)]
    have hgone : ((s.commit p t).rows (.claim id)).any (holdsUnit e) = false := by
      rw [hsome, Option.any_some, hstamp]
      simp [holdsUnit]
    by_cases he : c.entitlementId = some e
    · have hheldUnit : (s.rows (.claim id)).any (holdsUnit e) = true := by
        rw [hrow, Option.any_some]
        simp [holdsUnit, he, hunreleased]
      have hdrop := countP_drop hi.listed.nodup hmem hheldUnit hgone hothers
      rw [if_pos he, unitsHeld, unitsHeld, hids, hdrop]
      omega
    · rw [if_neg he, unitsHeld, unitsHeld, hids, Int.add_zero]
      refine congrArg _ (List.countP_congr fun b hb => ?_)
      by_cases hid : b = id
      · subst hid
        rw [hgone, hrow, Option.any_some]
        simp [holdsUnit, he]
      · rw [hothers b hb hid]
  · by_cases hid : id' = id
    · subst hid
      rw [hsome] at hx
      cases hx
      rw [hstamp]
      exact hended
    · exact hi.released id' x (row_of_none (h.others id' hid) ▸ hx) hreleased

theorem AllowanceRule.accounted (h : AllowanceRule t) (hi : Accounted base s)
    (hheld : t.Held s.rows) : Accounted base (s.commit p t) := by
  cases h with
  | claims h => exact hi.claims hheld h
  | entitlements h => exact hi.entitlements hheld h
  | insert id c h => exact hi.inserted hheld h
  | giveBack id c c' h => exact hi.gaveBack hheld h

/-- The rules of the allowances. -/
def accounting (base : ℕ → ℤ) : Discipline TrialRow TrialEntry TrialWorld where
  Inv := Accounted base
  Commits _ _ _ t := AllowanceRule t
  Acts _ _ s w := onward s.world w
  commits_empty _ := .claims .empty
  inv_commit hi hheld h := h.accounted hi hheld
  inv_act hi _ := ⟨hi.nonneg, ⟨hi.listed.mem, hi.listed.nodup⟩, hi.consumed, hi.allowance, hi.full,
    hi.missing, hi.released⟩

/-- A claim that still has its unit is counted, so its entitlement has a unit to give back. -/
theorem Accounted.unit_there (hi : Accounted base s) {id e : ℕ} {c : FreeTrialClaim}
    (hrow : s.rows (.claim id) = some c) (hc : c.allowanceReleasedAt = none)
    (he : c.entitlementId = some e) :
    ∃ x, s.rows (.entitlement e) = some x ∧ 0 < x.consumed := by
  have hpos : 0 < unitsHeld s e := by
    refine List.countP_pos_iff.mpr ⟨id, (hi.listed.mem id).mpr ⟨c, hrow⟩, ?_⟩
    rw [hrow, Option.any_some]
    simp [holdsUnit, hc, he]
  cases hx : s.rows (.entitlement e) with
  | none =>
    have hzero := (hi.missing e hx).2
    omega
  | some x =>
    refine ⟨x, rfl, ?_⟩
    have hconsumed := hi.consumed e x hx
    have hbase := hi.nonneg e
    omega

theorem ClaimsTx.mono {E E' : TrialEntry → Prop} (h : ClaimsTx E t) (hE : ∀ j, E j → E' j) :
    ClaimsTx E' t := ⟨h.claims, h.entitlements, fun j hj => hE j (h.entries j hj)⟩

/-- The decision on capacity inserts no claim. -/
theorem decisionRules : StmtRules (accounting base) p (ClaimsStmt noClaim) onward
    fun _ t => ClaimsTx noClaim t where
  start _ := .empty
  env _ _ h := h
  add _ h he := h.add he
  commits _ _ h := .claims h
  acts _ h := h

theorem accepts_decideCapacity (claimId panelId limit now : ℕ) :
    Accepts (accounting base) p (decideCapacity claimId panelId limit now) := by
  have hnote (d : Decision) : (noteDecision d).Each (ClaimsStmt noClaim) onward :=
    .sql fun v => ⟨fun _ _ h => (nomatch h), fun _ _ h => (nomatch h), fun j hj id he => by
      cases (List.mem_singleton.mp hj).symm.trans he⟩
  refine decisionRules.accepts_transaction (.bind (.sql fun v => .of_elsewhere _ trivial) fun _ =>
    .bind (.select _) fun others => ?_)
  split
  · exact .bind (hnote _) fun _ => .pure _
  · exact .bind (hnote _) fun _ => .bind (each_updateClaim fun c now h =>
      ⟨rfl, rfl, rfl, rfl, .inr (.inl (live_of_open (.inl (of_decide_eq_true h))))⟩) fun _ => .pure _

theorem accountingRules : TrialRules (accounting base) p (fun _ => False) fun _ _ => True where
  movesClaims _ _ h := .claims (h.mono fun _ => False.elim)
  movesEntitlements _ _ h := .entitlements h
  inserts _ _ h := .insert _ _ h
  givesBack _ _ h hunit := by
    rcases hunit with rfl | hno
    · exact .giveBack _ _ _ h
    · exact hno.elim
  idle hi hrow hc he hno := by
    obtain ⟨x, hx, hpos⟩ := Accounted.unit_there hi hrow (isReleasable_iff.mp hc).1 he
    exact hno x hx hpos
  acts _ h := h
  advances h := by
    cases h with
    | commit t _ _ => exact Nat.le_refl _
    | act w hw => exact hw
  decides hi _ _ _ := (accepts_decideCapacity _ _ _ _).run _ _ hi

/-! ### What a commit does -/

/-- A unit is taken, with the claim that is inserted for it. -/
def TakesUnit (t : TrialTx) (e : ℕ) : Prop :=
  ∃ id c x, t.chg (.claim id) = some (none, some c) ∧ c.entitlementId = some e ∧
    t.chg (.entitlement e) = some (some x, some x.taken)

/-- A unit is given back, by a claim that came to nothing and still has it. -/
def ReturnsUnit (t : TrialTx) (e id : ℕ) : Prop :=
  ∃ c c' x, t.chg (.claim id) = some (some c, some c') ∧ c.entitlementId = some e ∧
    isReleasable c = true ∧ c'.status = c.status ∧ c'.allowanceReleasedAt ≠ none ∧
    t.chg (.entitlement e) = some (some x, some x.givenBack)

/-- The unit of a claim is stamped as returned. -/
def stamps (id : ℕ) (t : TrialTx) : Bool :=
  match t.chg (.claim id) with
  | some (some c, some c') => c.allowanceReleasedAt = none ∧ c'.allowanceReleasedAt ≠ none
  | _ => false

theorem take_eq {x y : FreeTrialEntitlement} (h : take x = some y) :
    x.status = .ACTIVE ∧ y = x.taken := by
  rw [take] at h
  split at h
  · rename_i hc
    cases h
    exact ⟨hc.1, rfl⟩
  · cases h

theorem giveBack_eq {x y : FreeTrialEntitlement} (h : giveBack x = some y) : y = x.givenBack := by
  rw [giveBack] at h
  split at h
  · cases h
    rfl
  · cases h

/-- The consumption of an entitlement changes with a claim only. -/
theorem AllowanceRule.unit_move (h : AllowanceRule t) {e : ℕ} {x y : FreeTrialEntitlement}
    (hchg : t.chg (.entitlement e) = some (some x, some y)) :
    y.consumed = x.consumed ∨ TakesUnit t e ∨ ∃ id, ReturnsUnit t e id := by
  cases h with
  | claims h =>
    rw [h.entitlements e] at hchg
    cases hchg
  | entitlements h =>
    rcases h.entitlements e _ _ hchg with ⟨x', y', hx, hy, hmove⟩ | ⟨hx, -⟩
    · cases hx
      cases hy
      exact .inl hmove.consumed
    · cases hx
  | insert id c h =>
    by_cases he : c.entitlementId = some e
    · obtain ⟨x', y', hchg', htake⟩ := h.units.row e he
      obtain ⟨-, rfl⟩ := take_eq htake
      exact .inr (.inl ⟨id, c, x', h.claim, he, hchg'⟩)
    · rw [h.units.others e he] at hchg
      cases hchg
  | giveBack id c c' h =>
    by_cases he : c.entitlementId = some e
    · obtain ⟨x', y', hchg', hback⟩ := h.units.row e he
      obtain ⟨now, hstamp⟩ := h.stamp
      cases giveBack_eq hback
      refine .inr (.inr ⟨id, c, c', x', h.claim, he, h.releasable, ?_, ?_, hchg'⟩)
      · rw [hstamp]
      · rw [hstamp]
        exact fun hno => nomatch hno
    · rw [h.units.others e he] at hchg
      cases hchg

/-- A commit that moves the status of a claim changes no entitlement. -/
theorem AllowanceRule.status_move (h : AllowanceRule t) {id : ℕ} {c c' : FreeTrialClaim}
    (hchg : t.chg (.claim id) = some (some c, some c')) (hs : c'.status ≠ c.status) (e : ℕ) :
    t.chg (.entitlement e) = none := by
  cases h with
  | claims h => exact h.entitlements e
  | entitlements h =>
    rw [h.claims id] at hchg
    cases hchg
  | insert id' d h =>
    by_cases hid : id = id'
    · subst hid
      rw [h.claim] at hchg
      cases hchg
    · rw [h.others id hid] at hchg
      cases hchg
  | giveBack id' d d' h =>
    by_cases hid : id = id'
    · subst hid
      obtain ⟨now, hstamp⟩ := h.stamp
      rw [h.claim] at hchg
      cases hchg
      exact absurd (congrArg FreeTrialClaim.status hstamp) hs
    · rw [h.others id hid] at hchg
      cases hchg

/-- An entitlement that has ended stays so. -/
theorem AllowanceRule.ended (h : AllowanceRule t) (hheld : t.Held s.rows) {e : ℕ}
    {x : FreeTrialEntitlement} (hx : s.rows (.entitlement e) = some x)
    (hended : x.status = .REVOKED ∨ x.status = .EXPIRED) :
    ∃ y, (s.commit p t).rows (.entitlement e) = some y ∧ y.status = x.status := by
  have hstays (hnone : t.chg (.entitlement e) = none) :
      ∃ y, (s.commit p t).rows (.entitlement e) = some y ∧ y.status = x.status :=
    ⟨x, (row_of_none hnone).trans hx, rfl⟩
  cases h with
  | claims h => exact hstays (h.entitlements e)
  | entitlements h =>
    rcases s.commit_rows p hheld (.entitlement e) with ⟨he, -⟩ | hchg
    · exact ⟨x, he.trans hx, rfl⟩
    · rcases h.entitlements e _ _ hchg with ⟨x', y, hx', hy, hmove⟩ | ⟨hnone, -⟩
      · cases hx.symm.trans hx'
        refine ⟨y, hy, ?_⟩
        rcases hmove.status with he | ⟨hactive, -⟩
        · exact he
        · rw [hactive] at hended
          rcases hended with hended | hended <;> cases hended
      · rw [hx] at hnone
        cases hnone
  | insert id c h =>
    rcases h.units.row_after (p := p) hheld e with ⟨-, he⟩ | ⟨-, x', y, hx', hy, htake⟩
    · exact ⟨x, he.trans hx, rfl⟩
    · cases hx.symm.trans hx'
      rw [(take_eq htake).1] at hended
      rcases hended with hended | hended <;> cases hended
  | giveBack id c c' h =>
    rcases h.units.row_after (p := p) hheld e with ⟨-, he⟩ | ⟨-, x', y, hx', hy, hback⟩
    · exact ⟨x, he.trans hx, rfl⟩
    · cases hx.symm.trans hx'
      refine ⟨y, hy, ?_⟩
      rw [giveBack_eq hback]
      exact if_neg fun hfull => by rcases hended with he | he <;> rw [he] at hfull <;> cases hfull

/-- The stamp of a claim stays. -/
theorem AllowanceRule.stamp_stays (h : AllowanceRule t) (hheld : t.Held s.rows) {id : ℕ}
    {c : FreeTrialClaim} (hrow : s.rows (.claim id) = some c) (hc : c.allowanceReleasedAt ≠ none) :
    ∃ c', (s.commit p t).rows (.claim id) = some c' ∧
      c'.allowanceReleasedAt = c.allowanceReleasedAt := by
  have hstays (hnone : t.chg (.claim id) = none) :
      ∃ c', (s.commit p t).rows (.claim id) = some c' ∧
        c'.allowanceReleasedAt = c.allowanceReleasedAt := ⟨c, (row_of_none hnone).trans hrow, rfl⟩
  cases h with
  | claims h =>
    rcases h.row (p := p) hheld id with ⟨hn, -⟩ | ⟨c₁, c', hc₁, hc', hmove⟩
    · rw [hrow] at hn
      cases hn
    · cases hrow.symm.trans hc₁
      exact ⟨c', hc', hmove.released⟩
  | entitlements h => exact hstays (h.claims id)
  | insert id' d h =>
    refine hstays (h.others id fun hid => ?_)
    subst hid
    cases (hheld _ _ _ h.claim).trans hrow
  | giveBack id' d d' h =>
    refine hstays (h.others id fun hid => ?_)
    subst hid
    cases (hheld _ _ _ h.claim).trans hrow
    exact hc (isReleasable_iff.mp h.releasable).1

/-- The unit of a claim was given back. -/
def isStamped (s : TrialStore) (id : ℕ) : Bool :=
  (s.rows (.claim id)).any fun c => c.allowanceReleasedAt ≠ none

/-- STEP: the commits that stamp a claim, counted, are at most one, and none before it is stamped. -/
theorem AllowanceRule.stamped_once (h : AllowanceRule t) (hheld : t.Held s.rows) {id n : ℕ}
    (hn : n ≤ if isStamped s id then 1 else 0) :
    (n + if stamps id t then 1 else 0) ≤ if isStamped (s.commit p t) id then 1 else 0 := by
  by_cases hstamps : stamps id t = true
  · have hsplit := hstamps
    rw [stamps] at hsplit
    split at hsplit
    case h_2 => cases hsplit
    rename_i c c' hchg
    obtain ⟨hbefore, hafter⟩ := of_decide_eq_true hsplit
    have hnot : isStamped s id = false := by
      rw [isStamped, ← hheld _ _ _ hchg]
      simp [hbefore]
    have hyes : isStamped (s.commit p t) id = true := by
      rw [isStamped, row_of_some hchg, Option.any_some]
      exact decide_eq_true hafter
    simp only [hnot, hyes, hstamps, if_true, Bool.false_eq_true, if_false] at hn ⊢
    omega
  · rw [if_neg hstamps, Nat.add_zero]
    refine Nat.le_trans hn ?_
    split
    · rename_i hyes
      obtain ⟨c, hrow, hc⟩ := (Option.any_eq_true _ _).mp hyes
      obtain ⟨c', hrow', hc'⟩ := h.stamp_stays (p := p) hheld hrow (of_decide_eq_true hc)
      have hstill : isStamped (s.commit p t) id = true := by
        rw [isStamped, hrow', Option.any_some, hc']
        exact hc
      rw [if_pos hstill]
    · exact Nat.zero_le _

/-! ### Runs -/

section Runs

variable {procs : ℕ → TrialProcess} {s₀ : TrialStore} {c : TrialConfig}

theorem within_any (process : TrialProcess) : process.Within fun _ _ => True := by
  cases process with
  | claimFreeTrial claimId userId panel => exact fun _ _ => trivial
  | _ => trivial

theorem accounting_good (h₀ : Accounted base s₀) :
    Good (accounting base) (Config.start s₀ fun p => (procs p).program) :=
  good_start h₀ fun p => wp_mono _ (fun _ _ _ _ => trivial)
    ((accountingRules.accepts_process (within_any (procs p))).run [] s₀ h₀)

/-- RETURNED ONCE: at most one commit of a run stamps a claim. -/
theorem stamped_at_most_once (h₀ : Accounted base s₀)
    (hrun : Run anyStep (Config.start s₀ fun p => (procs p).program) c) (id : ℕ) :
    (c.store.since s₀).countP (fun k => stamps id k.tx) ≤ 1 := by
  suffices s₀.log.length ≤ c.store.log.length ∧
      (c.store.since s₀).countP (fun k => stamps id k.tx) ≤ if isStamped c.store id then 1 else 0 by
    have hle := this.2
    split at hle <;> omega
  refine hrun.keeps (accounting_good h₀) (P := fun s => s₀.log.length ≤ s.log.length ∧
    (s.since s₀).countP (fun k => stamps id k.tx) ≤ if isStamped s id then 1 else 0)
    (fun hi hst _ hs => ?_) ⟨Nat.le_refl _, ?_⟩
  · cases hst with
    | act w _ => exact hs
    | commit t hheld ht =>
      refine ⟨Nat.le_succ_of_le hs.1, ?_⟩
      rw [Store.since_commit hs.1, List.countP_cons]
      exact AllowanceRule.stamped_once ht hheld hs.2
  · change (s₀.since s₀).countP _ ≤ _
    rw [Store.since_self, List.countP_nil]
    exact Nat.zero_le _

/-- ACCOUNTED: in every run the units of an entitlement are those of its claims and within the
    allowance; they change only with a claim, which gives its unit back at most once and only where
    it came to nothing; what has ended stays so; and a transaction that cancels a claim, or that does
    not commit, changes no entitlement. -/
theorem allowance_accounted (procs : ℕ → TrialProcess) {s₀ : TrialStore} {base : ℕ → ℤ}
    (h₀ : Accounted base s₀) {c : TrialConfig}
    (hrun : Run anyStep (Config.start s₀ fun p => (procs p).program) c) :
    (∀ e x, c.store.rows (.entitlement e) = some x → 0 ≤ x.consumed ∧ x.consumed ≤ x.allowance ∧
      x.consumed = base e + unitsHeld c.store e ∧
      (x.status = .CONSUMED → x.consumed = x.allowance)) ∧
    (∀ k ∈ c.store.since s₀,
      (∀ e x y, k.tx.chg (.entitlement e) = some (some x, some y) →
        y.consumed = x.consumed ∨ TakesUnit k.tx e ∨ ∃ id, ReturnsUnit k.tx e id) ∧
      ∀ id x y, k.tx.chg (.claim id) = some (some x, some y) → y.status ≠ x.status →
        ∀ e, k.tx.chg (.entitlement e) = none) ∧
    (∀ id, (c.store.since s₀).countP (fun k => stamps id k.tx) ≤ 1) ∧
    (∀ c', Run anyStep c c' →
      (∀ id x, c.store.rows (.claim id) = some x → x.allowanceReleasedAt ≠ none →
        ∃ y, c'.store.rows (.claim id) = some y ∧ y.allowanceReleasedAt = x.allowanceReleasedAt ∧
          (y.status = .FAILED ∨ y.status = .CANCELLED)) ∧
      ∀ e x, c.store.rows (.entitlement e) = some x → x.status = .REVOKED ∨ x.status = .EXPIRED →
        ∃ y, c'.store.rows (.entitlement e) = some y ∧ y.status = x.status) ∧
    ∀ ev c', c.step ev = some c' → (c.threads ev.pid).loc.tx ≠ none →
      (∀ ch k, ¬ (ev = .run ev.pid ch ∧ (c.threads ev.pid).prog = .commit k)) →
      ∀ e, c'.store.rows (.entitlement e) = c.store.rows (.entitlement e) := by
  have hg : Good (accounting base) (Config.start s₀ fun p => (procs p).program) :=
    accounting_good h₀
  have hg' : Good (accounting base) c := (hrun.sound hg).1
  have hi : Accounted base c.store := hg'.inv
  refine ⟨fun e x hx => ⟨?_, hi.allowance e x hx, hi.consumed e x hx, hi.full e x hx⟩, ?_,
    stamped_at_most_once h₀ hrun, fun c' hrun' => ⟨fun id x hx hreleased => ?_,
      fun e x hx hended => ?_⟩, fun ev c' hstep htx hcommit e => ?_⟩
  · have hconsumed := hi.consumed e x hx
    have hbase := hi.nonneg e
    omega
  · have hall := hrun.commits_since hg (P := AllowanceRule) fun _ _ h => h
    intro k hk
    exact ⟨fun e x y hchg => (hall k hk).unit_move hchg,
      fun id x y hchg hs e => (hall k hk).status_move hchg hs e⟩
  · have hi' : Accounted base c'.store := (hrun'.sound hg').1.inv
    have hkept : ∃ y, c'.store.rows (.claim id) = some y ∧
        y.allowanceReleasedAt = x.allowanceReleasedAt := by
      refine hrun'.keeps hg' (P := fun s => ∃ y, s.rows (.claim id) = some y ∧
        y.allowanceReleasedAt = x.allowanceReleasedAt) (fun _ hst _ hs => ?_) ⟨x, hx, rfl⟩
      obtain ⟨y, hy, hstamp⟩ := hs
      cases hst with
      | act w _ => exact ⟨y, hy, hstamp⟩
      | commit t hheld ht =>
        obtain ⟨z, hz, hstamp'⟩ := AllowanceRule.stamp_stays ht hheld hy (hstamp ▸ hreleased)
        exact ⟨z, hz, hstamp'.trans hstamp⟩
    obtain ⟨y, hy, hstamp⟩ := hkept
    exact ⟨y, hy, hstamp, hi'.released id y hy (hstamp ▸ hreleased)⟩
  · refine hrun'.keeps hg' (P := fun s => ∃ y, s.rows (.entitlement e) = some y ∧
      y.status = x.status) (fun _ hst _ hs => ?_) ⟨x, hx, rfl⟩
    obtain ⟨y, hy, hsame⟩ := hs
    cases hst with
    | act w _ => exact ⟨y, hy, hsame⟩
    | commit t hheld ht =>
      obtain ⟨z, hz, hsame'⟩ := AllowanceRule.ended ht hheld hy (hsame ▸ hended)
      exact ⟨z, hz, hsame'.trans hsame⟩
  · rw [(Config.step_in_transaction hstep htx hcommit).1]

end Runs

/-! One user with one unit. -/

def onePanel : TrialPanel := { id := 1 }

def oneUnit : TrialStore where
  rows
    | .user 1 => some {}
    | .entitlement 1 => some { userId := 1, allowance := 1 }
    | .userLock _ | .panelLock _ => (0 : ℕ)
    | .claim _ | .entitlement _ | .user _ | .service _ => none
  log := [⟨0, { entries := [.entitlement 1] }⟩]
  world := {}

theorem oneUnit_accounted : Accounted (fun _ => 0) oneUnit := by
  have hentitlement : ∀ e x, oneUnit.rows (.entitlement e) = some x →
      x = { userId := 1, allowance := 1 } := by
    intro e x hx
    match e with
    | 0 => cases hx
    | 1 => cases hx; rfl
    | e + 2 => cases hx
  refine ⟨fun _ => Int.le_refl _, ⟨fun id => ⟨fun h => (nomatch h), fun ⟨_, h⟩ => (nomatch h)⟩,
    List.nodup_nil⟩, fun e x hx => ?_, fun e x hx => ?_, fun e x hx hs => ?_, fun e _ => ⟨rfl, rfl⟩,
    fun id c hrow => nomatch hrow⟩
  all_goals cases hentitlement e x hx
  · rfl
  · decide
  · cases hs

/-- The first claim finds no lock backend and gives its unit back; the second is provisioned. -/
def claimants : ℕ → TrialProcess
  | 0 => .claimFreeTrial 1 1 onePanel
  | 1 => .claimFreeTrial 2 1 onePanel
  | _ => .expire

def unitTwice : List (Event TrialChoice) :=
  List.replicate 26 (.run 0 { lockBackend := false }) ++ List.replicate 28 (.run 1 {})

theorem unitTwice_runs :
    ((Config.start oneUnit fun p => (claimants p).program).exec unitTwice).any (fun c =>
      ((c.store.rows (.claim 1)).any fun x => x.status = .CANCELLED ∧ x.allowanceReleasedAt ≠ none) ∧
      ((c.store.rows (.claim 2)).any fun x => x.status = .ACTIVE) ∧
      (c.store.rows (.entitlement 1)).any fun x => x.status = .CONSUMED) = true := by
  decide +kernel

theorem allowance_accounted_twice : ∃ c : TrialConfig,
    (∃ x, c.store.rows (.entitlement 1) = some x ∧ x.consumed = x.allowance ∧
      x.consumed = unitsHeld c.store 1) ∧
    (c.store.since oneUnit).countP (fun k => stamps 1 k.tx) ≤ 1 := by
  obtain ⟨c, hrun, hc⟩ := Run.of_exec_any unitTwice_runs
  obtain ⟨-, -, hfull⟩ := of_decide_eq_true hc
  obtain ⟨x, hx, hs⟩ := (Option.any_eq_true _ _).mp hfull
  obtain ⟨hbooks, -, honce, -⟩ := allowance_accounted claimants oneUnit_accounted hrun
  obtain ⟨-, -, hconsumed, hall⟩ := hbooks 1 x hx
  exact ⟨c, ⟨x, hx, hall (of_decide_eq_true hs), hconsumed.trans (Int.zero_add _)⟩, honce 1⟩

end ZedBot.Trials
