import ZedBot.MiniApp.Checkouts

/-! Checkout creation converges.

    All calls of one request return the checkout that was recorded first. It stays PENDING, and the
    user has one PENDING draft of the target at most, as long as each call finds what it left: no
    result recorded when it cancels, no draft pending when it creates one, and its own draft pending
    when it records it. Between these statements another call can come, and none of them looks
    again. For a purchase the advisory lock closes the second gap. -/

namespace ZedBot
open ReadCommitted

namespace DraftRequest

variable (req : DraftRequest)

/-- The row under which a result is recorded. -/
def key : Key := .miniAppRequest req.userId req.clientRequestId

/-- The checkout is for the target of the request. -/
def ofTarget (c : CheckoutSession) : Prop :=
  c.userId = req.userId ∧ match req.target with
    | .operation _ serviceId _ => c.serviceId = some serviceId
    | .purchase productId => c.productId = some productId

/-- The checkout is a PENDING draft of the target. -/
def IsDraft (c : CheckoutSession) : Prop := req.ofTarget c ∧ c.status = .PENDING

/-- The recorded result of the request is checkout `c`. -/
def Recorded (s : AppStore) (c : ℕ) : Prop :=
  ∃ m : MiniAppRequestIdempotency,
    s.rows (.miniAppRequest req.userId req.clientRequestId) = some m ∧
      m.resultCheckoutSessionId = some c

def Unrecorded (s : AppStore) : Prop :=
  s.rows (.miniAppRequest req.userId req.clientRequestId) = none

/-- The target has one PENDING draft at most. -/
def OneDraft (s : AppStore) : Prop :=
  ∀ c d x y, s.rows (.checkout c) = some x → s.rows (.checkout d) = some y →
    req.IsDraft x → req.IsDraft y → c = d

/-- What is claimed of every state that the calls reach. -/
structure Converged (s : AppStore) : Prop where
  same : ∀ p q c d, .replied p (.draft c) ∈ s.world.http → .replied q (.draft d) ∈ s.world.http →
    c = d
  kept : ∀ p c, .replied p (.draft c) ∈ s.world.http →
    ∃ row, s.rows (.checkout c) = some row ∧ row.status = .PENDING
  oneDraft : req.OneDraft s

/-- The lock row of a purchase. -/
def lock? : Option (ℕ × ℕ) :=
  match req.target with
  | .operation .. => none
  | .purchase productId => some (req.userId, productId)

end DraftRequest

/-! ### What the calls may do -/

variable {req : DraftRequest} {s s' : AppStore} {t : AppTx} {p : ℕ} {r : List AppStore}

/-- The change of one checkout row by a call. -/
def DraftStep (req : DraftRequest) (o n : Option CheckoutSession) : Prop :=
  (∃ row, o = some row ∧ req.IsDraft row ∧ n = some { row with status := .CANCELLED }) ∨
    (o = none ∧ ∃ row, n = some row ∧ req.IsDraft row)

/-- What one commit of a call may do. -/
structure DraftTx (req : DraftRequest) (s : AppStore) (t : AppTx) : Prop where
  checkout : ∀ c o n, t.chg (.checkout c) = some (o, n) → DraftStep req o n
  listed : ∀ c n, t.chg (.checkout c) = some (none, n) → .draft c ∈ t.entries
  single : ∀ c d n m, t.chg (.checkout c) = some (none, n) → t.chg (.checkout d) = some (none, m) →
    c = d
  /-- A result is recorded once, alone, for a checkout that exists. -/
  recorded : ∀ o n, t.chg (.miniAppRequest req.userId req.clientRequestId) = some (o, n) →
    o = none ∧ (∀ c, t.chg (.checkout c) = none) ∧
      ∃ m c, n = some m ∧ m.resultCheckoutSessionId = some c ∧ s.rows (.checkout c) ≠ none
  /-- A purchase creates its draft under the lock, and cancels every other one. -/
  locked : ∀ u i, req.lock? = some (u, i) → ∀ c n, t.chg (.checkout c) = some (none, n) →
    (∃ k : ℕ, t.chg (.purchaseCheckoutLock u i) = some (k, k + 1)) ∧
      ∀ d row, s.rows (.checkout d) = some row → req.IsDraft row → t.chg (.checkout d) ≠ none

/-- What holds of the committed state at all times. -/
structure DraftInv (req : DraftRequest) (s : AppStore) : Prop where
  listed : ∀ c row, s.rows (.checkout c) = some row → req.IsDraft row → .draft c ∈ s.journal
  recorded : ∀ m, s.rows (.miniAppRequest req.userId req.clientRequestId) = some m →
    ∃ c, m.resultCheckoutSessionId = some c ∧ s.rows (.checkout c) ≠ none
  answered : ∀ p c, .replied p (.draft c) ∈ s.world.http → req.Recorded s c

theorem not_isDraft_cancelled (row : CheckoutSession) :
    ¬ req.IsDraft { row with status := .CANCELLED } := by
  rintro ⟨-, h⟩
  cases h

theorem draftStep_some {o n : Option CheckoutSession} (h : DraftStep req o n) :
    ∃ row, n = some row := by
  rcases h with ⟨row, -, -, hn⟩ | ⟨-, row, hn, -⟩
  · exact ⟨_, hn⟩
  · exact ⟨row, hn⟩

/-- A checkout never goes. -/
theorem DraftTx.checkout_stays (h : DraftTx req s t) (hh : t.Held s.rows) {c : ℕ}
    (hc : s.rows (.checkout c) ≠ none) : (s.commit p t).rows (.checkout c) ≠ none := by
  rcases s.commit_rows p hh (.checkout c) with ⟨he, -⟩ | hchg
  · rwa [he]
  · obtain ⟨row, hrow⟩ := draftStep_some (h.checkout c _ _ hchg)
    simp [hrow]

/-- A recorded result is final. -/
theorem DraftTx.recorded_stays (h : DraftTx req s t) (hh : t.Held s.rows) {m}
    (hm : s.rows (.miniAppRequest req.userId req.clientRequestId) = some m) :
    (s.commit p t).rows (.miniAppRequest req.userId req.clientRequestId) = some m := by
  rcases s.commit_rows p hh (.miniAppRequest req.userId req.clientRequestId) with ⟨he, -⟩ | hchg
  · rwa [he]
  · have hnone := (h.recorded _ _ hchg).1
    rw [hm] at hnone
    cases hnone

theorem DraftInv.commit (hi : DraftInv req s) (hh : t.Held s.rows) (h : DraftTx req s t) :
    DraftInv req (s.commit p t) where
  listed c row hrow hd := by
    rw [Store.journal_commit, List.mem_append]
    rcases s.commit_rows p hh (.checkout c) with ⟨he, -⟩ | hchg
    · exact .inl (hi.listed c row (by rw [← he, hrow]) hd)
    · rw [hrow] at hchg
      rcases h.checkout c _ _ hchg with ⟨o, -, -, hn⟩ | ⟨ho, -⟩
      · cases hn
        exact absurd hd (not_isDraft_cancelled o)
      · rw [ho] at hchg
        exact .inr (h.listed c _ hchg)
  recorded m hm := by
    rcases s.commit_rows p hh (.miniAppRequest req.userId req.clientRequestId) with ⟨he, -⟩ | hchg
    · obtain ⟨c, hc, hrow⟩ := hi.recorded m (by rw [← he, hm])
      exact ⟨c, hc, h.checkout_stays hh hrow⟩
    · rw [hm] at hchg
      obtain ⟨-, -, m', c, hm', hc, hrow⟩ := h.recorded _ _ hchg
      cases hm'
      exact ⟨c, hc, h.checkout_stays hh hrow⟩
  answered q c hq := by
    obtain ⟨m, hm, hc⟩ := hi.answered q c hq
    exact ⟨m, h.recorded_stays hh hm, hc⟩

/-- The discipline of the calls of one request. -/
def draftCalls (req : DraftRequest) : Discipline Row Entry World where
  Inv := DraftInv req
  Commits _ _ s t := DraftTx req s t
  Acts _ _ s w := ∃ q reply, w.http = .replied q reply :: s.world.http ∧
    ∀ c, reply = .draft c → req.Recorded s c
  commits_empty _ := ⟨by rintro _ _ _ ⟨⟩, by rintro _ _ ⟨⟩, by rintro _ _ _ _ ⟨⟩, by rintro _ _ ⟨⟩,
    by rintro _ _ _ _ _ ⟨⟩⟩
  inv_commit hi hh h := hi.commit hh h
  inv_act hi h := by
    obtain ⟨q, reply, hw, hr⟩ := h
    refine ⟨hi.listed, hi.recorded, fun q' c hmem => ?_⟩
    simp only [hw, List.mem_cons, HttpEvent.replied.injEq] at hmem
    rcases hmem with ⟨-, rfl⟩ | hmem
    · exact hr c rfl
    · exact hi.answered q' c hmem

/-! ### The statements of a call -/

theorem checkout_step (hst : (draftCalls req).Step p r s s') {c : ℕ}
    (hc : s.rows (.checkout c) ≠ none) : s'.rows (.checkout c) ≠ none := by
  cases hst with
  | commit t hh h => exact h.checkout_stays hh hc
  | act w h => exact hc

theorem recorded_step (hst : (draftCalls req).Step p r s s') {c : ℕ} (hc : req.Recorded s c) :
    req.Recorded s' c := by
  obtain ⟨m, hm, hmc⟩ := hc
  cases hst with
  | commit t hh h => exact ⟨m, h.recorded_stays hh hm, hmc⟩
  | act w h => exact ⟨m, hm, hmc⟩

/-- Cancelling drafts of the target is a step of a call. -/
theorem draftTx_cancel {cond : CheckoutSession → Bool}
    (hcond : ∀ row, cond row = true → req.IsDraft row) :
    DraftTx req s (Tx.add {} s.rows (cancelEffect cond (s.view {}))) where
  checkout c o n h := by
    rcases chg_cancelEffect h with h | ⟨rfl, row, hrow, hc, rfl⟩
    · cases h
    · exact .inl ⟨row, hrow, hcond row hc, rfl⟩
  listed c n h := by
    rcases chg_cancelEffect h with h | ⟨ho, row, hrow, -⟩
    · cases h
    · cases ho.trans hrow
  single c _ n _ h := by
    rcases chg_cancelEffect h with h | ⟨ho, row, hrow, -⟩
    · cases h
    · cases ho.trans hrow
  recorded o n h := by
    rw [chg_cancelEffect_other (by simp)] at h
    cases h
  locked u i hl c n h := by
    rcases chg_cancelEffect h with h | ⟨ho, row, hrow, -⟩
    · cases h
    · cases ho.trans hrow

/-- Creating a draft of the target is a step of a call for an operation. -/
theorem draftTx_insert {c : ℕ} {row : CheckoutSession} (hop : req.lock? = none)
    (hd : req.IsDraft row) (hnone : s.rows (.checkout c) = none) :
    DraftTx req s (Tx.append (Tx.write {} s.rows ⟨.checkout c, some row⟩) [.draft c]) where
  checkout d o n h := by
    rw [Tx.chg_append] at h
    by_cases hdc : d = c
    · subst hdc
      simp only [Tx.chg_write_self, Tx.base_empty, Option.some.injEq, Prod.mk.injEq] at h
      exact .inr ⟨by rw [← h.1, hnone], row, h.2.symm, hd⟩
    · rw [Tx.chg_write_ne _ (by simpa using hdc)] at h
      cases h
  listed d n h := by
    rw [Tx.chg_append] at h
    by_cases hdc : d = c
    · simp [hdc]
    · rw [Tx.chg_write_ne _ (by simpa using hdc)] at h
      cases h
  single d e n m hd he := by
    have honly : ∀ d n, (Tx.append (Tx.write ({} : AppTx) s.rows ⟨.checkout c, some row⟩)
        [.draft c]).chg (.checkout d) = some (none, n) → d = c := by
      intro d n h
      by_contra hdc
      rw [Tx.chg_append, Tx.chg_write_ne _ (by simpa using hdc)] at h
      cases h
    rw [honly d n hd, honly e m he]
  recorded o n h := by
    rw [Tx.chg_append, Tx.chg_write_ne _ (by simp)] at h
    cases h
  locked u i hl := by
    rw [hop] at hl
    cases hl

/-- What `createOperationCheckout` creates for a request is its draft. -/
theorem isDraft_operation {op : ServiceOperation} {serviceId productId : ℕ}
    (ht : req.target = .operation op serviceId productId) (terms : DraftTerms) (minutes now : ℕ) :
    req.IsDraft (operationCheckout ⟨req.userId, op, serviceId, productId⟩ terms minutes now) := by
  refine ⟨⟨rfl, ?_⟩, rfl⟩
  rw [ht]
  rfl

theorem isDraft_purchase {productId : ℕ} (ht : req.target = .purchase productId)
    (terms : DraftTerms) (minutes now : ℕ) :
    req.IsDraft (purchaseCheckout ⟨req.userId, productId⟩ terms minutes now) := by
  refine ⟨⟨rfl, ?_⟩, rfl⟩
  rw [ht]
  rfl

/-- What a creator leaves: the checkout that it returns exists. -/
def Created (req : DraftRequest) (x : Except DraftFailure (ℕ × CheckoutSession))
    (l : Local Row Entry World) (s : AppStore) : Prop :=
  l.tx = none ∧ DraftInv req s ∧ ∀ id c, x = .ok (id, c) → s.rows (.checkout id) ≠ none

theorem wp_createOperationCheckout {op : ServiceOperation} {serviceId productId : ℕ}
    (ht : req.target = .operation op serviceId productId) (hi : DraftInv req s) :
    wp (draftCalls req) p (createOperationCheckout ⟨req.userId, op, serviceId, productId⟩)
      (Created req) ⟨none, r⟩ s := by
  have hop : req.lock? = none := by rw [DraftRequest.lock?, ht]
  refine (wp_seq _ _).mpr (wp_ask _ fun ch => ?_)
  split
  · exact ⟨rfl, hi, by simp⟩
  rename_i terms hterms
  refine (wp_seq _ _).mpr (wp_ask _ fun minutes => ?_)
  refine (wp_seq _ _).mpr (wp_ask _ fun now => ?_)
  refine (wp_seq _ _).mpr fun s₁ _ hi₁ hh₁ => ?_
  have hcancel : DraftTx req s₁ (Tx.add {} s₁.rows (cancelEffect (fun c =>
      c.userId = req.userId ∧ c.serviceId = some serviceId ∧ c.status = .PENDING)
        (s₁.view {}))) := by
    refine draftTx_cancel fun row hrow => ?_
    simp only [decide_eq_true_eq] at hrow
    refine ⟨⟨hrow.1, ?_⟩, hrow.2.2⟩
    rw [ht]
    exact hrow.2.1
  refine ⟨hcancel, ?_⟩
  refine (wp_seq _ _).mpr (wp_ask _ fun id => ?_)
  refine (wp_seq _ _).mpr fun s₂ _ hi₂ hh₂ => ?_
  simp only [Local.pending, Option.getD_none, Store.view, Tx.row_empty]
  split
  · refine ⟨(draftCalls req).commits_empty (p := p) (r := r) hi₂, rfl, ?_, by simp⟩
    exact (draftCalls req).inv_commit (p := p) (r := r) hi₂ hh₂
      ((draftCalls req).commits_empty (p := p) (r := r) hi₂)
  · rename_i hnone
    have hins := draftTx_insert (s := s₂) hop
      (isDraft_operation ht terms minutes.number now.now) hnone
    refine ⟨hins, rfl, hi₂.commit ((Tx.Held.empty _).add _) hins, ?_⟩
    rintro _ _ ⟨⟩
    simp [Store.commit, Tx.row, Tx.add]

/-! ### The purchase transaction -/

/-- The transaction of a purchase after its cancellation: it holds the lock, and nothing but drafts
    are cancelled. -/
structure Cleared (req : DraftRequest) (u i : ℕ) (t : AppTx) : Prop where
  lock : ∃ k : ℕ, t.chg (.purchaseCheckoutLock u i) = some (k, k + 1)
  checkout : ∀ c o n, t.chg (.checkout c) = some (o, n) →
    ∃ row, o = some row ∧ req.IsDraft row ∧ n = some { row with status := .CANCELLED }
  request : t.chg (.miniAppRequest req.userId req.clientRequestId) = none
  entries : t.entries = []

/-- Every draft of the target is one that `t` cancels. -/
def Covered (req : DraftRequest) (t : AppTx) (s : AppStore) : Prop :=
  ∀ d row, s.rows (.checkout d) = some row → req.IsDraft row → t.chg (.checkout d) ≠ none

/-- While the lock is held no other call brings a draft. -/
theorem covered_spared {u i : ℕ} (hl : req.lock? = some (u, i)) (hst : (draftCalls req).Step p r s s')
    (hspare : s'.rows (.purchaseCheckoutLock u i) = s.rows (.purchaseCheckoutLock u i))
    (h : Covered req t s) : Covered req t s' := by
  cases hst with
  | act w _ => exact h
  | commit t' hh htx =>
    intro d row hrow hd
    rcases s.commit_rows p hh (.checkout d) with ⟨he, -⟩ | hchg
    · exact h d row (by rw [← he, hrow]) hd
    · rw [hrow] at hchg
      rcases htx.checkout d _ _ hchg with ⟨o, -, -, hn⟩ | ⟨ho, -⟩
      · cases hn
        exact absurd hd (not_isDraft_cancelled o)
      · -- a commit that creates a draft has moved the lock
        rw [ho] at hchg
        obtain ⟨⟨k, hk⟩, -⟩ := htx.locked u i hl d _ hchg
        have hold : k = s.rows (.purchaseCheckoutLock u i) := hh _ _ _ hk
        have hnew : (s.commit p t').rows (.purchaseCheckoutLock u i) = k + 1 := by
          simp only [Store.commit, Tx.row, hk]
        rw [hnew, ← hold] at hspare
        exact absurd hspare (Nat.succ_ne_self k)

theorem Covered.later {u i : ℕ} (hl : req.lock? = some (u, i)) (hc : Cleared req u i t)
    (hlater : (draftCalls req).Later p t.Holds s s') (hi : DraftInv req s) (h : Covered req t s) :
    Covered req t s' := by
  refine hlater.stable_spared (fun _ _ hst hspare hcov => ?_) hi h
  refine covered_spared hl hst (hspare _ ?_) hcov
  obtain ⟨k, hk⟩ := hc.lock
  simp [Tx.Holds, hk]

/-- The cancellation under the lock: it covers every draft. -/
theorem cleared_cancel {u i k : ℕ} (rows : ∀ k, Row k) {cond : CheckoutSession → Bool}
    (hcond : ∀ row, cond row = true ↔ req.IsDraft row) (hi : DraftInv req s)
    (hk : rows (.purchaseCheckoutLock u i) = k) :
    let t : AppTx := Tx.write {} rows ⟨.purchaseCheckoutLock u i, k + 1⟩
    Cleared req u i (t.add s.rows (cancelEffect cond (s.view t))) ∧
      Covered req (t.add s.rows (cancelEffect cond (s.view t))) s := by
  intro t
  have hnone : ∀ c, t.chg (.checkout c) = none := fun c => Tx.chg_write_ne _ (by simp)
  have hview : ∀ c, (s.view t).rows (.checkout c) = s.rows (.checkout c) :=
    fun c => Tx.row_of_chg (hnone c)
  refine ⟨⟨⟨k, ?_⟩, fun c o n h => ?_, ?_, ?_⟩, fun d row hrow hd hno => ?_⟩
  · rw [chg_cancelEffect_other (by simp), Tx.chg_write_self, Tx.base_empty, hk]
  · rcases chg_cancelEffect h with h | ⟨ho, row, hrow, hc, hn⟩
    · rw [hnone c] at h
      cases h
    · rw [Tx.base_of_chg (hnone c), ← hview c, hrow] at ho
      exact ⟨row, ho, (hcond row).mp hc, hn⟩
  · rw [chg_cancelEffect_other (by simp)]
    exact Tx.chg_write_ne _ (by simp)
  · rw [Tx.entries_add]
    rfl
  · have hmem : (d, row) ∈ matchingDrafts cond (s.view t) := by
      refine mem_matchingDrafts.mpr ⟨?_, by rw [hview, hrow], (hcond row).mpr hd⟩
      rw [Store.view]
      exact List.mem_append_left _ (hi.listed d row hrow hd)
    have hholds : (t.add s.rows (cancelEffect cond (s.view t))).Holds (.checkout d) := by
      refine Tx.holds_add.mpr (.inl ?_)
      simp only [cancelEffect, List.map_map, List.mem_map]
      exact ⟨(d, row), hmem, rfl⟩
    exact hholds hno

/-- The transaction of a purchase with its new draft. -/
theorem Cleared.insert {u i : ℕ} {rows : ∀ k, Row k} {c : ℕ} {row : CheckoutSession}
    (h : Cleared req u i t) (hlock : req.lock? = some (u, i)) (hd : req.IsDraft row)
    (hfree : t.row rows (.checkout c) = none) (hcov : Covered req t s) :
    DraftTx req s ((t.write rows ⟨.checkout c, some row⟩).append [.draft c]) := by
  -- the new id was not cancelled: the row would be visible
  have hnone : t.chg (.checkout c) = none := by
    cases hc : t.chg (.checkout c) with
    | none => rfl
    | some x =>
      obtain ⟨y, -, -, hn⟩ := h.checkout c x.1 x.2 hc
      rw [Tx.row, hc] at hfree
      cases (show none = x.2 from hfree.symm).trans hn
  have honly : ∀ d n, ((t.write rows ⟨.checkout c, some row⟩).append [.draft c]).chg
      (.checkout d) = some (none, n) → d = c := by
    intro d n hc
    by_contra hdc
    rw [Tx.chg_append, Tx.chg_write_ne _ (by simpa using hdc)] at hc
    obtain ⟨_, ho, -⟩ := h.checkout d none n hc
    cases ho
  refine ⟨fun d o n hc => ?_, fun d n hc => ?_, fun d e n m hd he => ?_, fun o n hc => ?_,
    fun u' i' hl d n hc => ?_⟩
  · rw [Tx.chg_append] at hc
    by_cases hdc : d = c
    · subst hdc
      rw [Tx.chg_write_self, Tx.base_of_chg hnone, Option.some.injEq, Prod.mk.injEq] at hc
      rw [Tx.row_of_chg hnone] at hfree
      exact .inr ⟨by rw [← hc.1, hfree], row, hc.2.symm, hd⟩
    · rw [Tx.chg_write_ne _ (by simpa using hdc)] at hc
      exact .inl (h.checkout d o n hc)
  · simp [honly d n hc]
  · rw [honly d n hd, honly e m he]
  · rw [Tx.chg_append, Tx.chg_write_ne _ (by simp), h.request] at hc
    cases hc
  · rw [hlock] at hl
    cases hl
    obtain ⟨k, hk⟩ := h.lock
    refine ⟨⟨k, by rw [Tx.chg_append, Tx.chg_write_ne _ (by simp), hk]⟩, fun e x hx hdx => ?_⟩
    rw [Tx.chg_append]
    by_cases hec : e = c
    · subst hec
      simp
    · rw [Tx.chg_write_ne _ (by simpa using hec)]
      exact hcov e x hx hdx

theorem wp_createPurchaseCheckout {productId : ℕ} (ht : req.target = .purchase productId)
    (hi : DraftInv req s) :
    wp (draftCalls req) p (createPurchaseCheckout ⟨req.userId, productId⟩) (Created req)
      ⟨none, r⟩ s := by
  have hlock : req.lock? = some (req.userId, productId) := by rw [DraftRequest.lock?, ht]
  refine (wp_seq _ _).mpr (wp_ask _ fun ch => ?_)
  split
  · exact ⟨rfl, hi, by simp⟩
  rename_i terms hterms
  refine (wp_seq _ _).mpr (wp_ask _ fun held => ?_)
  split
  · exact ⟨rfl, hi, by simp⟩
  refine (wp_seq _ _).mpr (wp_ask _ fun minutes => ?_)
  refine (wp_seq _ _).mpr (wp_ask _ fun now => ?_)
  refine wp_transaction ?_
  refine (wp_seq _ _).mpr (wp_update_tx fun s₁ _ hi₁ _ => ⟨fun h => ?_, fun n hn => ?_⟩)
  · cases h
  cases hn
  refine (wp_seq _ _).mpr (wp_sql_tx fun s₂ _ hi₂ _ => ?_)
  have hcond : ∀ row : CheckoutSession, decide (row.userId = req.userId ∧
      row.productId = some productId ∧ row.status = .PENDING) = true ↔ req.IsDraft row := by
    intro row
    simp [DraftRequest.IsDraft, DraftRequest.ofTarget, ht, and_assoc]
  obtain ⟨hcl, hcov⟩ := cleared_cancel (u := req.userId) (i := productId) s₁.rows hcond hi₂ rfl
  simp only [Tx.row_empty] at hcl hcov ⊢
  generalize Tx.add (Tx.write ({} : AppTx) s₁.rows _) s₂.rows _ = t at hcl hcov ⊢
  refine (wp_seq _ _).mpr (wp_ask _ fun id => ?_)
  refine (wp_seq _ _).mpr (wp_insertDraft_tx fun s₃ hl₃ hi₃ =>
    ⟨⟨rfl, hi₃, by simp⟩, fun hfree => ?_⟩)
  have hcov₃ := Covered.later hlock hcl hl₃ hi₂ hcov
  refine (wp_seq _ _).mpr (wp_ask _ fun claimed => ?_)
  split
  · exact ⟨rfl, hi₃, by simp⟩
  intro s₄ hl₄ hi₄ hh₄
  -- the drafts stay covered until the commit
  have hl₄' := hl₄.mono fun k hk => Tx.holds_write.mpr (.inr hk)
  have hcov₄ := Covered.later hlock hcl hl₄' hi₃ hcov₃
  have htx := hcl.insert hlock (isDraft_purchase ht terms minutes.number now.now) hfree hcov₄
  refine ⟨htx, rfl, hi₄.commit hh₄ htx, ?_⟩
  rintro _ _ ⟨⟩
  simp [Store.commit, Tx.row, Local.pending]

/-! ### The whole call -/

theorem wp_create (hi : DraftInv req s) :
    wp (draftCalls req) p req.create (Created req) ⟨none, r⟩ s := by
  unfold DraftRequest.create
  split
  · exact wp_createOperationCheckout ‹_› hi
  · exact wp_createPurchaseCheckout ‹_› hi

/-- Recording a result is a step of a call. -/
theorem draftTx_record {m : MiniAppRequestIdempotency} {c : ℕ}
    (hnone : s.rows (.miniAppRequest req.userId req.clientRequestId) = none)
    (hm : m.resultCheckoutSessionId = some c) (hc : s.rows (.checkout c) ≠ none) :
    DraftTx req s (Tx.write {} s.rows ⟨.miniAppRequest req.userId req.clientRequestId, some m⟩) where
  checkout d o n h := by
    rw [Tx.chg_write_ne _ (by simp)] at h
    cases h
  listed d n h := by
    rw [Tx.chg_write_ne _ (by simp)] at h
    cases h
  single d _ n _ h := by
    rw [Tx.chg_write_ne _ (by simp)] at h
    cases h
  recorded o n h := by
    rw [Tx.chg_write_self, Tx.base_empty, Option.some.injEq, Prod.mk.injEq] at h
    refine ⟨by rw [← h.1, hnone], fun d => Tx.chg_write_ne _ (by simp), m, c, h.2.symm, hm, hc⟩
  locked u i hl d n h := by
    rw [Tx.chg_write_ne _ (by simp)] at h
    cases h

/-- The checkout that an outcome names is the recorded one. -/
def Settled (req : DraftRequest) (x : Except DraftFailure RunIdempotentOutcome)
    (l : Local Row Entry World) (s : AppStore) : Prop :=
  l.tx = none ∧ DraftInv req s ∧ ∀ c, draftReply x = .draft c → req.Recorded s c

theorem recorded_of_row (hi : DraftInv req s) {m : MiniAppRequestIdempotency}
    (hm : s.rows (.miniAppRequest req.userId req.clientRequestId) = some m) {c : ℕ}
    (hc : draftReply (.ok (.replayed (storedResult m))) = .draft c) : req.Recorded s c := by
  obtain ⟨d, hd, -⟩ := hi.recorded m hm
  simp only [draftReply, storedResult, hd, Reply.draft.injEq] at hc
  exact ⟨m, hm, hc ▸ hd⟩

theorem wp_runIdempotentCommerce :
    wp (draftCalls req) p (runIdempotentCommerce
      ⟨req.userId, req.clientRequestId, "commerce-checkout-confirm", req.fingerprint⟩ req.execute)
      (Settled req) ⟨none, r⟩ s := by
  refine (wp_seq _ _).mpr (wp_select _ fun s₁ _ hi₁ => ?_)
  simp only [Local.pending, Local.read, Option.getD_none, Store.view, Tx.row_empty]
  split
  · rename_i row hrow
    split
    · exact ⟨rfl, hi₁, by simp [draftReply]⟩
    · exact ⟨rfl, hi₁, fun c hc => recorded_of_row hi₁ hrow hc⟩
  · refine (wp_seq _ _).mpr ((wp_seq _ _).mpr (wp_mono _ (fun x l s₂ hx => ?_) (wp_create hi₁)))
    obtain ⟨tx, reads⟩ := l
    obtain ⟨rfl, hi₂, hcreated⟩ := hx
    rcases x with e | ⟨id, row⟩
    · exact ⟨rfl, hi₂, fun c hc => by cases e <;> cases hc⟩
    have hrow : s₂.rows (.checkout id) ≠ none := hcreated id row rfl
    refine (wp_seq _ _).mpr (wp_update fun s₃ hl₃ hi₃ => ⟨fun _ => ?_, fun n hn => ?_⟩)
    · -- another call has recorded its result
      have hi₃' := (draftCalls req).inv_commit (p := p) (r := reads) hi₃ (Tx.Held.empty _)
        ((draftCalls req).commits_empty hi₃)
      simp only [Nat.zero_ne_one, if_false]
      refine (wp_seq _ _).mpr (wp_select _ fun s₄ _ hi₄ => ?_)
      simp only [Local.pending, Local.read, Option.getD_none, Store.view, Tx.row_empty]
      split
      · rename_i winner hwinner
        split
        · exact ⟨rfl, hi₄, fun c hc => recorded_of_row hi₄ hwinner hc⟩
        · exact ⟨rfl, hi₄, by simp [draftReply]⟩
      · exact ⟨rfl, hi₄, by simp [draftReply]⟩
    · obtain ⟨hnone, rfl⟩ := onFree_eq_some.mp hn
      have hrow₃ : s₃.rows (.checkout id) ≠ none :=
        hl₃.stable (fun _ _ hst h => checkout_step hst h) hi₂ hrow
      have htx := draftTx_record (c := id) hnone
        (m := ⟨"commerce-checkout-confirm", req.fingerprint, some id, none⟩) rfl hrow₃
      refine ⟨htx, ?_⟩
      rw [if_pos rfl]
      refine ⟨rfl, hi₃.commit ((Tx.Held.empty _).write _) htx, ?_⟩
      rintro c ⟨⟩
      exact ⟨_, Tx.row_write_self .., rfl⟩

theorem accepts_call (q : ℕ) : Accepts (draftCalls req) p (req.call q) := by
  refine ⟨fun r s hi => (wp_seq _ _).mpr (wp_mono _ (fun x l s' hx => ?_)
    wp_runIdempotentCommerce)⟩
  obtain ⟨tx, reads⟩ := l
  obtain ⟨rfl, hi', hrec⟩ := hx
  refine wp_ext _ fun s₁ hl₁ hi₁ _ => ?_
  have hact : (draftCalls req).Acts p reads s₁
      { s₁.world with http := .replied q (draftReply x) :: s₁.world.http } := by
    refine ⟨q, draftReply x, rfl, fun c hc => ?_⟩
    exact hl₁.stable (fun _ _ hst h => recorded_step hst h) hi' (hrec c hc)
  exact ⟨hact, rfl, (draftCalls req).inv_act (p := p) (r := reads) hi₁ hact⟩

/-! ### Every run -/

/-- Each statement of a call finds what the call left: no result recorded when it cancels, no draft
    pending when it creates one for an operation, its own draft pending when it records it. -/
structure Undisturbed (req : DraftRequest) (s s' : AppStore) : Prop where
  cancels : ∀ c o n, s.rows (.checkout c) = some o → s'.rows (.checkout c) = some n →
    o.status ≠ n.status → req.Unrecorded s
  creates : req.lock? = none → ∀ c n, s.rows (.checkout c) = none →
    s'.rows (.checkout c) = some n → ∀ d row, s.rows (.checkout d) = some row → ¬ req.IsDraft row
  records : ∀ c row, req.Unrecorded s → req.Recorded s' c → s.rows (.checkout c) = some row →
    row.status = .PENDING

def UndisturbedStep (req : DraftRequest) : StepCond Row Entry World :=
  fun _ _ s s' => Undisturbed req s s'

/-- Any number of calls of one request, each a process of its own. -/
def callPool (req : DraftRequest) (calls : ℕ → Bool) (p : ℕ) : App Unit :=
  if calls p then req.call p else return ()

/-- The recorded checkout is still PENDING. -/
def RecordedPending (req : DraftRequest) (s : AppStore) : Prop :=
  ∀ c row, req.Recorded s c → s.rows (.checkout c) = some row → row.status = .PENDING

theorem draftCalls_good (calls : ℕ → Bool) (hi : DraftInv req s) :
    Good (draftCalls req) (Config.start s (callPool req calls)) := by
  refine good_start hi fun q => ?_
  unfold callPool
  split
  · exact wp_mono _ (fun _ _ _ _ => trivial) ((accepts_call q).run [] s hi)
  · trivial

/-- A draft after a commit stood before, or the commit created it. -/
theorem draft_commit (hh : t.Held s.rows) (h : DraftTx req s t) {c : ℕ} {row : CheckoutSession}
    (hrow : (s.commit p t).rows (.checkout c) = some row) (hd : req.IsDraft row) :
    (s.rows (.checkout c) = some row ∧ t.chg (.checkout c) = none) ∨
      (s.rows (.checkout c) = none ∧ t.chg (.checkout c) = some (none, some row)) := by
  rcases s.commit_rows p hh (.checkout c) with ⟨he, hnone⟩ | hchg
  · exact .inl ⟨by rw [← he, hrow], hnone⟩
  · rw [hrow] at hchg
    rcases h.checkout c _ _ hchg with ⟨o, -, -, hn⟩ | ⟨ho, -⟩
    · cases hn
      exact absurd hd (not_isDraft_cancelled o)
    · exact .inr ⟨ho, by rw [hchg, ho]⟩

/-- A commit that creates a draft leaves no other one. -/
theorem created_alone (hh : t.Held s.rows) (h : DraftTx req s t)
    (hC : Undisturbed req s (s.commit p t)) {c : ℕ} {x : CheckoutSession}
    (hx : s.rows (.checkout c) = none) (hc : t.chg (.checkout c) = some (none, some x)) {d : ℕ}
    {y : CheckoutSession} (hy : (s.commit p t).rows (.checkout d) = some y) (hd : req.IsDraft y) :
    d = c := by
  rcases draft_commit hh h hy hd with ⟨hold, hnone⟩ | ⟨-, hnew⟩
  · cases hl : req.lock? with
    | none =>
      have hrow : (s.commit p t).rows (.checkout c) = some x := by
        simp only [Store.commit, Tx.row, hc]
      exact absurd hd (hC.creates hl c x hx hrow d y hold)
    | some ui => exact absurd hnone ((h.locked ui.1 ui.2 hl c _ hc).2 d y hold hd)
  · exact h.single d c _ _ hnew hc

theorem oneDraft_commit (hh : t.Held s.rows) (h : DraftTx req s t)
    (hC : Undisturbed req s (s.commit p t)) (hone : req.OneDraft s) :
    req.OneDraft (s.commit p t) := by
  intro c d x y hx hy hcx hdy
  rcases draft_commit hh h hx hcx with ⟨hx', -⟩ | ⟨hx', hc⟩
  · rcases draft_commit hh h hy hdy with ⟨hy', -⟩ | ⟨hy', hd⟩
    · exact hone c d x y hx' hy' hcx hdy
    · exact created_alone hh h hC hy' hd hx hcx
  · exact (created_alone hh h hC hx' hc hy hdy).symm

theorem recordedPending_commit (hi : DraftInv req s) (hh : t.Held s.rows) (h : DraftTx req s t)
    (hC : Undisturbed req s (s.commit p t)) (hp : RecordedPending req s) :
    RecordedPending req (s.commit p t) := by
  rintro c row ⟨m, hm, hmc⟩ hrow
  cases hs : s.rows (.miniAppRequest req.userId req.clientRequestId) with
  | some m' =>
    rw [h.recorded_stays hh hs] at hm
    cases hm
    obtain ⟨c', hc', hex⟩ := hi.recorded m hs
    rw [hmc] at hc'
    cases hc'
    obtain ⟨o, ho⟩ := Option.ne_none_iff_exists'.mp hex
    have hpend := hp c o ⟨m, hs, hmc⟩ ho
    by_contra hne
    have hun := hC.cancels c o row ho hrow (by rw [hpend]; exact Ne.symm hne)
    rw [DraftRequest.Unrecorded, hs] at hun
    cases hun
  | none =>
    -- the result is recorded now, and nothing else happens
    rcases s.commit_rows p hh (.miniAppRequest req.userId req.clientRequestId) with ⟨he, -⟩ | hchg
    · rw [he, hs] at hm
      cases hm
    · have hsame := s.commit_rows_of_free p (t := t) (k := .checkout c)
        (by simp [Tx.Holds, (h.recorded _ _ hchg).2.1 c])
      exact hC.records c row hs ⟨m, hm, hmc⟩ (by rw [← hsame, hrow])

theorem DraftRequest.Recorded.unique {c d : ℕ} (hc : req.Recorded s c) (hd : req.Recorded s d) :
    c = d := by
  obtain ⟨m, hm, hmc⟩ := hc
  obtain ⟨m', hm', hmd⟩ := hd
  rw [hm] at hm'
  cases hm'
  rw [hmc] at hmd
  exact Option.some.inj hmd

/-- A renewal of service 5. -/
def renewalRequest : DraftRequest := ⟨1, "request", "f", .operation .RENEWAL 5 7⟩

def draftEvent (p : ℕ) : Event Choice :=
  .run p { id := p + 1, terms := .ok ⟨{}, 100, 0, 100, none⟩ }

theorem emptyStore_oneDraft : req.OneDraft emptyStore := by
  intro c _ x _ hx
  cases hx

theorem emptyStore_listed (c : ℕ) (row : CheckoutSession)
    (h : emptyStore.rows (.checkout c) = some row) : Entry.draft c ∈ emptyStore.journal := by
  cases h

theorem undisturbed_of_rows (h : s'.rows = s.rows) : Undisturbed req s s' := by
  refine ⟨fun c o n ho hn hne => ?_, fun _ c n ho hn => ?_, fun c row hun hrec => ?_⟩
  · rw [h, ho] at hn
    cases hn
    exact absurd rfl hne
  · rw [h, ho] at hn
    cases hn
  · obtain ⟨m, hm, -⟩ := hrec
    rw [h] at hm
    cases hun.symm.trans hm

theorem undisturbed_of_empty (h : ∀ c, s.rows (.checkout c) = none) : Undisturbed req s s' := by
  refine ⟨fun c o n ho => ?_, fun _ c n _ _ d row hrow => ?_, fun c row _ _ hrow => ?_⟩
  · cases (h c).symm.trans ho
  · cases (h d).symm.trans hrow
  · cases (h c).symm.trans hrow

theorem undisturbed_of_pending (hsame : ∀ c, s'.rows (.checkout c) = s.rows (.checkout c))
    (hp : ∀ c row, s.rows (.checkout c) = some row → row.status = .PENDING) :
    Undisturbed req s s' := by
  refine ⟨fun c o n ho hn hne => ?_, fun _ c n ho hn => ?_, fun c row _ _ hrow => hp c row hrow⟩
  · rw [hsame, ho] at hn
    cases hn
    exact absurd rfl hne
  · rw [hsame, ho] at hn
    cases hn

/-- One call from the empty database. -/
theorem renewalRequest_runs : ∃ c : AppConfig,
    Run (UndisturbedStep renewalRequest)
      (Config.start emptyStore (callPool renewalRequest (· == 0))) c ∧
    .replied 0 (.draft 1) ∈ c.store.world.http := by
  have h₁ := Run.tail (C := UndisturbedStep renewalRequest) (draftEvent 0)
    (.refl (c := Config.start emptyStore (callPool renewalRequest (· == 0)))) rfl
    (undisturbed_of_rows rfl)
  have h₂ := Run.tail (draftEvent 0) h₁ rfl (undisturbed_of_rows rfl)
  have h₃ := Run.tail (draftEvent 0) h₂ rfl (undisturbed_of_rows rfl)
  have h₄ := Run.tail (draftEvent 0) h₃ rfl (undisturbed_of_rows rfl)
  have h₅ := Run.tail (draftEvent 0) h₄ rfl (undisturbed_of_rows rfl)
  have h₆ := Run.tail (draftEvent 0) h₅ rfl (undisturbed_of_rows rfl)
  -- the draft is created, then its result recorded
  have h₇ := Run.tail (draftEvent 0) h₆ rfl (undisturbed_of_empty fun _ => rfl)
  have h₈ := Run.tail (draftEvent 0) h₇ rfl
    (undisturbed_of_pending (fun _ => rfl) fun c row h => by
      match c, h with
      | 0, h => cases h
      | 1, h => cases h; rfl
      | c + 2, h => cases h)
  have h₉ := Run.tail (draftEvent 0) h₈ rfl (undisturbed_of_rows rfl)
  exact ⟨_, h₉, .head _⟩

/-- Both calls look, the first creates and records its draft, the second cancels it. -/
def overlapEvents : List (Event Choice) :=
  [draftEvent 1] ++ List.replicate 8 (draftEvent 0) ++ List.replicate 9 (draftEvent 1) ++
    [draftEvent 0]

theorem overlapEvents_run :
    ((Config.start emptyStore (callPool renewalRequest (· < 2))).exec overlapEvents).any (fun c =>
      .replied 0 (.draft 1) ∈ c.store.world.http ∧
        (c.store.rows (.checkout 1)).any fun row => row.status = .CANCELLED) = true := by
  decide +kernel

end ZedBot
