import ZedBot.Discounts.Codes

/-! The limits of a discount code hold under any number of concurrent payments.

    A transaction counts a user's usages and compares the counter only after it has locked the code,
    and no usage of a code is committed without its lock; so between the check and the commit neither
    the counter nor the user's usages move. -/

namespace ZedBot.Discounts
open ReadCommitted

theorem usagesOf_append (codeId : ℕ) (us vs : List DiscountCodeUsage) :
    usagesOf codeId (us ++ vs) = usagesOf codeId us + usagesOf codeId vs := List.countP_append

theorem usagesBy_append (codeId userId : ℕ) (us vs : List DiscountCodeUsage) :
    usagesBy codeId userId (us ++ vs) = usagesBy codeId userId us + usagesBy codeId userId vs :=
  List.countP_append

theorem usagesBy_le (codeId userId : ℕ) (us : List DiscountCodeUsage) :
    usagesBy codeId userId us ≤ usagesOf codeId us := by
  refine List.countP_mono_left fun u _ h => ?_
  simp only [decide_eq_true_eq] at h ⊢
  exact h.1

/-- The counter of a code after `n` more usages. -/
def DiscountCode.bump (n : ℕ) (c : DiscountCode) : DiscountCode :=
  { c with totalUsedCount := c.totalUsedCount + n }

@[simp] theorem DiscountCode.bump_zero (c : DiscountCode) : c.bump 0 = c := rfl

@[simp] theorem DiscountCode.bump_bump (m n : ℕ) (c : DiscountCode) :
    (c.bump m).bump n = c.bump (m + n) := by simp [bump, Nat.add_assoc]

/-- `n` usages `added` to a code stay within its limits, if the usages `before` do. -/
structure Within (id : ℕ) (c : DiscountCode) (before added : List DiscountCodeUsage) : Prop where
  total : ∀ limit, c.totalUsageLimit = some limit → c.totalUsedCount ≤ limit →
    c.totalUsedCount + usagesOf id added ≤ limit
  perUser : ∀ limit user, c.perUserUsageLimit = some limit → usagesBy id user before ≤ limit →
    usagesBy id user (before ++ added) ≤ limit

/-- What a transaction may commit: a code changes by the usages it inserts, within the limits, and a
    usage is inserted under the lock of its code only. -/
structure Claims (s : DiscountStore) (t : DiscountTx) : Prop where
  code : ∀ id o n, t.chg (.code id) = some (o, n) → ∃ c, o = some c ∧
    n = some (c.bump (usagesOf id t.entries)) ∧ Within id c s.journal t.entries
  free : ∀ id, t.chg (.code id) = none → usagesOf id t.entries = 0

theorem Within.append {id : ℕ} {c : DiscountCode} {before added more : List DiscountCodeUsage}
    (h : Within id c before added)
    (hmore : Within id (c.bump (usagesOf id added)) (before ++ added) more) :
    Within id c before (added ++ more) := by
  refine ⟨fun limit hl hle => ?_, fun limit user hl hle => ?_⟩
  · have := hmore.total limit hl (h.total limit hl hle)
    simp only [DiscountCode.bump] at this
    rw [usagesOf_append]
    omega
  · rw [← List.append_assoc]
    exact hmore.perUser limit user hl (h.perUser limit user hl hle)

theorem Within.of_none {id : ℕ} {c : DiscountCode} {before added : List DiscountCodeUsage}
    (h : usagesOf id added = 0) : Within id c before added := by
  refine ⟨fun limit _ hle => by omega, fun limit user _ hle => ?_⟩
  have := usagesBy_le id user added
  rw [usagesBy_append]
  omega

theorem Claims.empty (s : DiscountStore) : Claims s {} where
  code _ _ _ h := nomatch h
  free _ _ := rfl

/-- The rules of the payments. -/
def limits : Discipline DiscountRow DiscountCodeUsage Unit where
  Inv _ := True
  Commits _ _ s t := Claims s t
  Acts _ _ _ _ := True
  commits_empty _ := Claims.empty _
  inv_commit _ _ _ := trivial
  inv_act _ _ := trivial

/-! ### One step -/

/-- A commit that leaves the row of a code inserts no usage of it. -/
theorem Claims.none_of_row_eq {s : DiscountStore} {t : DiscountTx} {p id : ℕ} (h : Claims s t)
    (hh : t.Held s.rows) (hrow : (s.commit p t).rows (.code id) = s.rows (.code id)) :
    usagesOf id t.entries = 0 := by
  cases hchg : t.chg (.code id) with
  | none => exact h.free id hchg
  | some x =>
    obtain ⟨o, n⟩ := x
    obtain ⟨c, rfl, rfl, -⟩ := h.code id o n hchg
    have hold := hh _ _ _ hchg
    simp only [Store.commit, Tx.row, hchg] at hrow
    rw [← hold] at hrow
    simpa [DiscountCode.bump] using congrArg DiscountCode.totalUsedCount (Option.some.inj hrow)

variable {p q : ℕ} {r : List DiscountStore} {s s' : DiscountStore} {t : DiscountTx}

/-- While a code is locked nobody else inserts a usage of it. -/
theorem usages_spared {id : ℕ} (hst : limits.Step q r s s')
    (hrow : s'.rows (.code id) = s.rows (.code id)) :
    ∃ added, s'.journal = s.journal ++ added ∧ usagesOf id added = 0 := by
  cases hst with
  | commit t' hh h => exact ⟨t'.entries, s.journal_commit q t', h.none_of_row_eq hh hrow⟩
  | act w _ => exact ⟨[], (List.append_nil _).symm, rfl⟩

theorem usagesBy_spared {id user : ℕ} (hst : limits.Step q r s s')
    (hrow : s'.rows (.code id) = s.rows (.code id)) :
    usagesBy id user s'.journal = usagesBy id user s.journal := by
  obtain ⟨added, hj, h0⟩ := usages_spared hst hrow
  have hle := usagesBy_le id user added
  rw [hj, usagesBy_append]
  omega

/-- What may be committed may still be committed after steps of the others. -/
theorem Claims.step (h : Claims s t) (hst : limits.Step q r s s')
    (hk : ∀ k, t.Holds k → s'.rows k = s.rows k) : Claims s' t := by
  refine ⟨fun id o n hchg => ?_, h.free⟩
  obtain ⟨c, ho, hn, hw⟩ := h.code id o n hchg
  have hrow := hk (.code id) (by simp [Tx.Holds, hchg])
  refine ⟨c, ho, hn, hw.total, fun limit user hl hle => ?_⟩
  rw [usagesBy_append, usagesBy_spared hst hrow] at *
  have := hw.perUser limit user hl hle
  rwa [usagesBy_append] at this

theorem Claims.later (h : Claims s t) (hl : limits.Later p t.Holds s s') : Claims s' t :=
  hl.stable_spared (P := fun s => Claims s t) (fun _ _ hst hk h => h.step hst hk) trivial h

/-! ### The claim -/

/-- The transaction has locked the code and changed nothing. -/
structure Locked (id : ℕ) (c : DiscountCode) (t : DiscountTx) : Prop where
  chg : t.chg (.code id) = some (some c, some c)
  others : ∀ k, k ≠ .code id → t.chg k = none
  entries : t.entries = []

theorem Locked.claims {id : ℕ} {c : DiscountCode} (h : Locked id c t) : Claims s t := by
  refine ⟨fun id' o n hchg => ?_, fun id' _ => by rw [h.entries]; rfl⟩
  rcases eq_or_ne id' id with rfl | hne
  · rw [h.chg] at hchg
    cases hchg
    rw [h.entries]
    exact ⟨c, rfl, rfl, .of_none rfl⟩
  · rw [h.others _ (by simpa using hne)] at hchg
    cases hchg

/-- Below its limits, as the claim has checked them under the lock. -/
structure Claimable (args : DiscountClaimArgs) (c : DiscountCode) (s : DiscountStore) : Prop where
  active : c.isActive = true
  total : ∀ limit, c.totalUsageLimit = some limit → c.totalUsedCount < limit
  perUser : ∀ limit, c.perUserUsageLimit = some limit →
    usagesBy args.discountCodeId args.userId s.journal < limit

theorem Claimable.later {args : DiscountClaimArgs} {c : DiscountCode} (h : Claimable args c s)
    (hheld : t.Holds (.code args.discountCodeId)) (hl : limits.Later p t.Holds s s') :
    Claimable args c s' := by
  refine hl.stable_spared (P := Claimable args c) (fun _ _ hst hk h => ?_) trivial h
  refine ⟨h.active, h.total, fun limit hlim => ?_⟩
  rw [usagesBy_spared hst (hk _ hheld)]
  exact h.perUser limit hlim

/-- One more usage of a claimable code is within the limits. -/
theorem Claimable.within {args : DiscountClaimArgs} {c : DiscountCode} (h : Claimable args c s) :
    Within args.discountCodeId c s.journal [args.usage] := by
  have hone : usagesOf args.discountCodeId [args.usage] = 1 := by
    simp [usagesOf, DiscountClaimArgs.usage]
  refine ⟨fun limit hl _ => ?_, fun limit user hl hle => ?_⟩
  · have := h.total limit hl
    omega
  · rw [usagesBy_append]
    rcases eq_or_ne user args.userId with rfl | hne
    · have := h.perUser limit hl
      have := usagesBy_le args.discountCodeId args.userId [args.usage]
      omega
    · have hzero : usagesBy args.discountCodeId user [args.usage] = 0 := by
        simp [usagesBy, DiscountClaimArgs.usage, hne.symm]
      omega

/-- A statement's result leaves a transaction that may be committed. -/
def EndsClaimable {α : Type} : Except PaymentThrow α → Local DiscountRow DiscountCodeUsage Unit →
    DiscountStore → Prop
  | .ok _, l, s => ∃ t, l.tx = some t ∧ Claims s t
  | .error _, _, _ => True

/-- The claim's two writes under the lock. -/
theorem Locked.consume {args : DiscountClaimArgs} {c : DiscountCode}
    (h : Locked args.discountCodeId c t) (hc : Claimable args c s) (rows rows' : ∀ k, DiscountRow k) :
    Claims s (((t.write rows ⟨.usageOfCheckout args.checkoutSessionId, some args.usage⟩).append
      [args.usage]).write rows' ⟨.code args.discountCodeId, some (c.bump 1)⟩) := by
  have hone : usagesOf args.discountCodeId [args.usage] = 1 := by
    simp [usagesOf, DiscountClaimArgs.usage]
  refine ⟨fun id o n hchg => ?_, fun id hchg => ?_⟩
  · rcases eq_or_ne id args.discountCodeId with rfl | hne
    · simp only [Tx.chg_write_self, Tx.base, Tx.chg_append, h.chg, ne_eq, reduceCtorEq,
        not_false_eq_true, Tx.chg_write_ne] at hchg
      cases hchg
      simp only [Tx.entries_write, Tx.entries_append, h.entries, List.nil_append]
      exact ⟨c, rfl, by rw [hone], hc.within⟩
    · rw [Tx.chg_write_ne _ (by simpa using hne), Tx.chg_append, Tx.chg_write_ne _ (by simp),
        h.others _ (by simpa using hne)] at hchg
      cases hchg
  · rcases eq_or_ne id args.discountCodeId with rfl | hne
    · rw [Tx.chg_write_self] at hchg
      cases hchg
    · simp [h.entries, usagesOf, DiscountClaimArgs.usage, hne.symm]

theorem wp_createUsage {u : DiscountCodeUsage}
    {Q : Bool → Local DiscountRow DiscountCodeUsage Unit → DiscountStore → Prop}
    (hfalse : ∀ s', Q false ⟨some t, r⟩ s')
    (htrue : ∀ s', limits.Later p t.Holds s s' → Q true ⟨some ((t.write s'.rows
      ⟨.usageOfCheckout u.checkoutSessionId, some u⟩).append [u]), r⟩ s') :
    wp limits p (createUsage u) Q ⟨some t, r⟩ s := by
  refine wp_sql_tx fun s' hl _ _ => ?_
  simp only [Store.view]
  cases hfree : t.row s'.rows (.usageOfCheckout u.checkoutSessionId) with
  | some _ => simpa [Tx.add] using hfalse s'
  | none => simpa [Tx.add] using htrue s' hl

theorem wp_consumeCode {args : DiscountClaimArgs} {c : DiscountCode}
    (ht : Locked args.discountCodeId c t) (hc : Claimable args c s) :
    wp limits p (consumeCode args) EndsClaimable ⟨some t, r⟩ s := by
  have hheld : t.Holds (.code args.discountCodeId) := by simp [Tx.Holds, ht.chg]
  refine (wp_seq _ _).mpr (wp_createUsage (fun _ => trivial) fun s₁ hl₁ => ?_)
  have hc₁ := hc.later hheld hl₁
  refine (wp_seq _ _).mpr (wp_update_tx fun s₂ hl₂ _ _ => ?_)
  have hc₂ := hc₁.later (by simp [Tx.Holds, ht.chg]) hl₂
  refine ⟨fun hnone => ?_, fun n hn => ?_⟩
  · -- the locked row is still active
    have hact := onRow_eq_none.mp hnone c (by simp [Tx.row, ht.chg])
    rw [hc₂.active] at hact
    cases hact
  · obtain ⟨c', hc', -, rfl⟩ := onRow_eq_some.mp hn
    obtain rfl : c = c' := by simpa [Tx.row, ht.chg] using hc'
    exact ⟨_, rfl, ht.consume hc₂ s₁.rows s₂.rows⟩

/-- The lock is taken over no change, so a transaction that only holds it may be committed. -/
theorem Locked.of_lock (id : ℕ) (c : DiscountCode) (rows : ∀ k, DiscountRow k)
    (hrow : rows (.code id) = some c) :
    Locked id c (Tx.write {} rows ⟨.code id, some c⟩) := by
  refine ⟨?_, fun k hk => ?_, rfl⟩
  · simp [hrow]
  · rw [Tx.chg_write_ne _ hk]

theorem wp_claimDiscountUsage {args : DiscountClaimArgs} :
    wp limits p (claimDiscountUsage args) EndsClaimable ⟨some {}, r⟩ s := by
  refine (wp_seq _ _).mpr (wp_select _ fun s₁ _ _ => ?_)
  split
  · exact ⟨_, rfl, Claims.empty _⟩
  refine (wp_seq _ _).mpr (wp_selectForUpdate_tx fun s₂ _ _ _ => ⟨fun hnone => ?_, fun hsome => ?_⟩)
  · refine (wp_seq _ _).mpr (wp_ask _ fun now => ?_)
    rw [Option.isSome_eq_false_iff, Option.isNone_iff_eq_none] at hnone
    rw [hnone]
    exact ⟨_, rfl, Claims.empty _⟩
  · refine (wp_seq _ _).mpr (wp_ask _ fun now => ?_)
    obtain ⟨c, hc⟩ := Option.isSome_iff_exists.mp hsome
    rw [hc]
    have hlock := Locked.of_lock args.discountCodeId c s₂.rows hc
    have hheld := hlock.chg
    dsimp only
    split
    · exact ⟨_, rfl, hlock.claims⟩
    rename_i hclaimable
    simp only [isClaimable, decide_eq_true_eq, not_not] at hclaimable
    obtain ⟨hact, -, -, htotal⟩ := hclaimable
    split
    · rename_i hnolimit
      refine wp_consumeCode hlock ⟨hact, fun limit hl => htotal limit hl, fun limit hl => ?_⟩
      rw [hnolimit] at hl
      cases hl
    · rename_i limit hlimit
      refine (wp_seq _ _).mpr (wp_select _ fun s₃ hl₃ _ => ?_)
      split
      · exact ⟨_, rfl, hlock.claims⟩
      rename_i hused
      refine wp_consumeCode hlock ⟨hact, fun limit hl => htotal limit hl, fun limit' hl => ?_⟩
      rw [hlimit] at hl
      cases hl
      simpa [Local.pending, Store.view, Store.journal] using hused

/-! ### The payments -/

theorem wp_finalizeDiscount {path : PaymentPath} {checkout : DiscountedCheckout} {orderId : ℕ} :
    wp limits p (finalizeDiscount path checkout orderId) EndsClaimable ⟨some {}, r⟩ s := by
  unfold finalizeDiscount
  split
  · exact ⟨_, rfl, Claims.empty _⟩
  split
  · exact ⟨_, rfl, Claims.empty _⟩
  refine (wp_seq _ _).mpr (wp_mono _ (fun x l s₁ hx => ?_) wp_claimDiscountUsage)
  rcases x with e | outcome
  · trivial
  rcases outcome with b | _
  · exact hx
  · dsimp only
    split
    · trivial
    · exact hx

theorem accepts_paymentTransaction (path : PaymentPath) (checkout : DiscountedCheckout) :
    Accepts limits p (paymentTransaction path checkout) := by
  refine ⟨fun r s _ => wp_transaction ((wp_seq _ _).mpr (wp_ask _ fun proceeds => ?_))⟩
  have hthrow : ∀ {l : Local DiscountRow DiscountCodeUsage Unit} {s : DiscountStore},
      (⟨none, l.reads⟩ : Local DiscountRow DiscountCodeUsage Unit).tx = none ∧ limits.Inv s :=
    ⟨rfl, trivial⟩
  split
  · exact hthrow
  refine (wp_seq _ _).mpr (wp_ask _ fun orderId => ?_)
  refine (wp_seq _ _).mpr (wp_mono _ (fun x l s₁ hx => ?_) wp_finalizeDiscount)
  obtain ⟨tx, reads⟩ := l
  rcases x with e | _
  · exact hthrow
  refine (wp_seq _ _).mpr (wp_ask _ fun proceeds' => ?_)
  split
  · exact hthrow
  obtain ⟨t, rfl, ht⟩ := hx
  exact fun s₂ hl _ _ => ⟨ht.later hl, rfl, trivial⟩

theorem accepts_payments (calls : List (PaymentPath × DiscountedCheckout)) :
    Accepts limits p (payments calls) :=
  .forEach (fun c => .bind (accepts_paymentTransaction c.1 c.2) fun _ => .pure _) calls

/-! ### Runs -/

/-- Code `id`, that was `c` in `s₀`: its counter has grown by the usages inserted since, and they
    are within its limits. -/
def Counted (id : ℕ) (c : DiscountCode) (s₀ s : DiscountStore) : Prop :=
  ∃ added, s.journal = s₀.journal ++ added ∧
    s.rows (.code id) = some (c.bump (usagesOf id added)) ∧ Within id c s₀.journal added

theorem Counted.step {id : ℕ} {c : DiscountCode} {s₀ : DiscountStore} (h : Counted id c s₀ s)
    (hst : limits.Step q r s s') : Counted id c s₀ s' := by
  obtain ⟨added, hj, hrow, hw⟩ := h
  cases hst with
  | act w _ => exact ⟨added, hj, hrow, hw⟩
  | commit t hh ht =>
    refine ⟨added ++ t.entries, by rw [Store.journal_commit, hj, List.append_assoc], ?_⟩
    cases hchg : t.chg (.code id) with
    | none =>
      have hzero := ht.free id hchg
      refine ⟨?_, hw.append (.of_none hzero)⟩
      rw [Store.commit_rows_of_free _ _ (by simp [Tx.Holds, hchg]), hrow, usagesOf_append, hzero,
        Nat.add_zero]
    | some x =>
      obtain ⟨o, n⟩ := x
      obtain ⟨c', rfl, rfl, hw'⟩ := ht.code id o n hchg
      have hold := hh _ _ _ hchg
      rw [hrow] at hold
      cases hold
      refine ⟨?_, hw.append (hj ▸ hw')⟩
      simp [Store.commit, Tx.row, hchg, usagesOf_append]

/-- LIMITS: in every committed state of every run the counter of a code has grown by the usages
    inserted and no limit that was respected is exceeded; and until it commits a transaction leaves
    no usage and no increment behind. -/
theorem discount_limits_kept (calls : ℕ → List (PaymentPath × DiscountedCheckout))
    {s₀ : DiscountStore} {c : DiscountConfig}
    (hrun : Run anyStep (Config.start s₀ fun p => payments (calls p)) c) :
    (∀ id code, s₀.rows (.code id) = some code → Counted id code s₀ c.store) ∧
    ∀ e c', c.step e = some c' → (c.threads e.pid).loc.tx ≠ none →
      (∀ ch k, ¬ (e = .run e.pid ch ∧ (c.threads e.pid).prog = .commit k)) →
      c'.store.rows = c.store.rows ∧ c'.store.journal = c.store.journal := by
  refine ⟨fun id code hcode => ?_, fun e c' hstep htx hcommit => ?_⟩
  · have hgood : Good limits (Config.start s₀ fun p => payments (calls p)) :=
      good_start trivial fun p => wp_mono _ (fun _ _ _ _ => trivial)
        ((accepts_payments (calls p)).run [] s₀ trivial)
    refine hrun.keeps (P := Counted id code s₀) hgood (fun _ hst _ h => h.step hst) ?_
    exact ⟨[], (List.append_nil _).symm, hcode, .of_none rfl⟩
  · obtain ⟨hrows, hlog⟩ := Config.step_in_transaction hstep htx hcommit
    exact ⟨hrows, by rw [Store.journal, Store.journal, hlog]⟩

/-- Two buyers of a code that may be used once. -/
def lastUseStore : DiscountStore where
  rows
    | .code 1 => some { totalUsageLimit := some 1, perUserUsageLimit := some 1 }
    | .code _ => none
    | .usageOfCheckout _ => none
  world := ()

def lastUseCalls (p : ℕ) : List (PaymentPath × DiscountedCheckout) :=
  if p < 2 then
    [(.wallet, { id := p, userId := p, discountCodeId := some 1, discountAmountToman := 500 })]
  else []

/-- Both look for a usage before the first one locks the code; the second one claims after its
    commit. -/
def lastUseRun : List (Event DiscountChoice) :=
  (List.replicate 4 [.run 0 {}, .run 1 {}]).flatten ++ List.replicate 7 (.run 0 {}) ++
    List.replicate 3 (.run 1 {})

theorem lastUseRun_runs : ((Config.start lastUseStore fun p => payments (lastUseCalls p)).exec
    lastUseRun).any (fun c => c.store.rows (.code 1) =
      some { totalUsageLimit := some 1, totalUsedCount := 1, perUserUsageLimit := some 1 } ∧
      c.store.journal.length = 1) = true := by decide +kernel

theorem discount_limits_kept_last_use : ∃ c : DiscountConfig,
    Counted 1 { totalUsageLimit := some 1, perUserUsageLimit := some 1 } lastUseStore c.store ∧
    c.store.journal.length = 1 := by
  obtain ⟨c, hrun, hc⟩ := Run.of_exec_any lastUseRun_runs
  rw [decide_eq_true_eq] at hc
  exact ⟨c, (discount_limits_kept lastUseCalls hrun).1 1 _ rfl, hc.2⟩

end ZedBot.Discounts
