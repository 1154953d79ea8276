import ZedBot.Bot.Checkouts
import ZedBot.Payments.OpenPayments

/-! Superseding a draft and the money that is on its way to it.

    Every creator of a checkout cancels the older PENDING ones of its target. A cancelled checkout
    cannot be claimed, so a receipt in review or a gateway payment in flight for it is stranded.
    `materializePendingOtherProductCheckout` leaves checkouts with a payment awaiting settlement
    alone, as far as its read showed them; the other creators do not look. -/

namespace ZedBot
open ReadCommitted

/-- One call of a creator. -/
inductive DraftCall
  | createOperationCheckout (args : OperationCheckoutArgs)
  | createPurchaseCheckout (args : PurchaseCheckoutArgs)
  | createRenewalCheckoutSession (args : ServiceCheckoutArgs)
  | createExtraVolumeCheckout (args : ServiceCheckoutArgs)
  | createExtraTimeCheckout (args : ServiceCheckoutArgs)
  | createCheckoutSession (args : ProductCheckoutArgs)
  | createWalletTopupCheckout (userId : ℕ) (amountToman : ℤ)
  | materializePendingOtherProductCheckout (args : MaterializeArgs)

/-- The program of a call. -/
def DraftCall.prog : DraftCall → App Unit
  | createOperationCheckout args => discard (ZedBot.createOperationCheckout args)
  | createPurchaseCheckout args => discard (ZedBot.createPurchaseCheckout args)
  | createRenewalCheckoutSession args => discard (ZedBot.createRenewalCheckoutSession args)
  | createExtraVolumeCheckout args => discard (ZedBot.createExtraVolumeCheckout args)
  | createExtraTimeCheckout args => discard (ZedBot.createExtraTimeCheckout args)
  | createCheckoutSession args => discard (ZedBot.createCheckoutSession args)
  | createWalletTopupCheckout userId amount =>
    discard (ZedBot.createWalletTopupCheckout userId amount)
  | materializePendingOtherProductCheckout args =>
    discard (ZedBot.materializePendingOtherProductCheckout args)

/-- PENDING checkouts of a user and service. -/
def ofService (userId serviceId : ℕ) (c : CheckoutSession) : Bool :=
  c.userId = userId ∧ c.serviceId = some serviceId ∧ c.status = .PENDING

/-- PENDING checkouts of a user and product. -/
def ofProduct (userId productId : ℕ) (c : CheckoutSession) : Bool :=
  c.userId = userId ∧ c.productId = some productId ∧ c.status = .PENDING

/-- The checkouts that a call supersedes. -/
def DraftCall.supersedes : DraftCall → CheckoutSession → Bool
  | createOperationCheckout args => ofService args.userId args.serviceId
  | createPurchaseCheckout args => ofProduct args.userId args.productId
  | createRenewalCheckoutSession args | createExtraVolumeCheckout args
  | createExtraTimeCheckout args => ofService args.userId args.serviceId
  | createCheckoutSession args => ofProduct args.userId args.productId
  | createWalletTopupCheckout userId _ => fun c =>
    c.userId = userId ∧ c.purpose = .WALLET_CHARGE ∧ c.status = .PENDING
  | materializePendingOtherProductCheckout args => ofProduct args.userId args.productId

/-- The call asks for the payments of the checkouts it supersedes. -/
def DraftCall.looks : DraftCall → Bool
  | materializePendingOtherProductCheckout _ => true
  | _ => false

/-! ### Payments on their way -/

/-- A receipt in review, or a gateway payment that is being paid or verified and not decided yet. -/
def carriesMoney (p : Payment) : Bool :=
  p.status = .PENDING_REVIEW ∨ (isOnlineProvider p.provider ∧ isOpen p)

theorem awaitsSettlement_of_carriesMoney {p : Payment} (h : carriesMoney p) :
    awaitsSettlement p := by
  simp only [carriesMoney, isOpen, awaitsSettlement, decide_eq_true_eq] at h ⊢
  tauto

/-- Checkout `c` has a payment on its way. -/
def Carries (s : AppStore) (c : ℕ) : Prop :=
  ∃ pid q, s.rows (.payment pid) = some q ∧ q.checkoutSessionId = some c ∧ carriesMoney q

/-- Checkout `c` has a payment awaiting settlement. -/
def Awaited (s : AppStore) (c : ℕ) : Prop :=
  ∃ pid q, s.rows (.payment pid) = some q ∧ q.checkoutSessionId = some c ∧ awaitsSettlement q

/-- A checkout with a payment on its way is left as it is, so that the payment can still claim it. -/
def Spares (s s' : AppStore) : Prop :=
  ∀ c row, s.rows (.checkout c) = some row → Carries s c → s'.rows (.checkout c) = some row

/-- A checkout with a payment on its way goes from PENDING to CANCELLED. -/
def Strands (s s' : AppStore) : Prop :=
  ∃ c row row', s.rows (.checkout c) = some row ∧ row.status = .PENDING ∧ Carries s c ∧
    s'.rows (.checkout c) = some row' ∧ row'.status = .CANCELLED

theorem Spares.not_strands {s s' : AppStore} (h : Spares s s') : ¬ Strands s s' := by
  rintro ⟨c, row, row', hrow, hst, hcar, hrow', hst'⟩
  rw [h c row hrow hcar] at hrow'
  cases hrow'
  rw [hst] at hst'
  cases hst'

/-- Some checkout is replaced. -/
def Supersedes (s s' : AppStore) : Prop :=
  ∃ c row, s.rows (.checkout c) = some row ∧ s'.rows (.checkout c) ≠ some row

/-- What a call that cancels finds: none of the checkouts it supersedes has a payment on its way;
    or, where it looks, none but those that its read showed. -/
def Unpaid (d : DraftCall) (reads : List AppStore) (s : AppStore) : Prop :=
  if d.looks then ∀ x ∈ reads, ∀ c row, x.rows (.checkout c) = some row → d.supersedes row →
    Carries s c → Awaited x c
  else ∀ c row, s.rows (.checkout c) = some row → d.supersedes row → ¬ Carries s c

/-! ### The rules -/

/-- A call may replace checkout row `row`. -/
def MayCancel (d : DraftCall) (reads : List AppStore) (c : ℕ) (row : CheckoutSession) : Prop :=
  if d.looks then ∃ x ∈ reads, (∃ old, x.rows (.checkout c) = some old ∧ d.supersedes old) ∧
    ¬ Awaited x c
  else d.supersedes row

/-- Which checkouts the changes of a call replace. -/
def SupersedeTx (d : DraftCall) (reads : List AppStore) (t : AppTx) : Prop :=
  ∀ c o n, t.chg (.checkout c) = some (o, n) → ∀ row, o = some row → MayCancel d reads c row

/-- The open payments that a transaction leaves are listed. -/
def ListsTx (s : AppStore) (t : AppTx) : Prop :=
  ∀ pid o q, t.chg (.payment pid) = some (o, some q) → awaitsSettlement q →
    .openPayment pid ∈ s.journal ++ t.entries

/-- A statement of a call that does not look. -/
def Supersede (d : DraftCall) : StmtCond Row Entry := fun v writes entries =>
  ListsOpen v writes entries ∧ ∀ c n, ⟨.checkout c, n⟩ ∈ writes → ∀ row,
    v.rows (.checkout c) = some row → d.supersedes row

variable {drafts : ℕ → Option DraftCall} {s s' : AppStore} {t : AppTx} {p : ℕ}
  {r : List AppStore} {d : DraftCall}

theorem Listed.commit (hi : Listed s) (hh : t.Held s.rows) (h : ListsTx s t) :
    Listed (s.commit p t) := by
  intro pid q hq haw
  rw [Store.journal_commit]
  rcases s.commit_rows p hh (.payment pid) with ⟨he, -⟩ | hchg
  · exact List.mem_append_left _ (hi pid q (by rw [← he, hq]) haw)
  · rw [hq] at hchg
    exact h pid _ q hchg haw

theorem ListsTx.empty (s : AppStore) : ListsTx s {} := by
  intro pid o q h
  cases h

theorem SupersedeTx.empty (d : DraftCall) (r : List AppStore) : SupersedeTx d r {} := by
  intro c o n h
  cases h

/-- The rules: open payments are listed, and a call replaces what it may. -/
def superseding (drafts : ℕ → Option DraftCall) : Discipline Row Entry World where
  Inv := Listed
  Commits p r s t := ListsTx s t ∧ ∀ d, drafts p = some d → SupersedeTx d r t
  Acts _ _ _ _ := True
  commits_empty _ := ⟨.empty _, fun d _ => .empty d _⟩
  inv_commit hi hh h := hi.commit hh h.1
  inv_act hi _ := hi

theorem ListsTx.later {q : ℕ} (hst : (superseding drafts).Step q r s s') (h : ListsTx s t) :
    ListsTx s' t := by
  intro pid o x hchg haw
  have hmem := h pid o x hchg haw
  cases hst with
  | commit t' hh hc =>
    rw [Store.journal_commit]
    simp only [List.mem_append] at hmem ⊢
    tauto
  | act w _ => exact hmem

/-- The row that a statement sees under a change, or the committed one. -/
theorem ListsTx.add {β : Type} {e : Effect Row Entry β} (hi : Listed s) (h : ListsTx s t)
    (hΦ : ListsOpen (s.view t) e.writes e.entries) : ListsTx s (t.add s.rows e) := by
  intro pid o q hchg haw
  rw [Tx.entries_add, ← List.append_assoc]
  rcases Tx.chg_add hchg with hold | ⟨-, hmem⟩
  · exact List.mem_append_left _ (h pid o q hold haw)
  · rcases hΦ pid q hmem haw with ⟨x, hx, hxaw⟩ | hlisted
    · refine List.mem_append_left _ ?_
      rcases Tx.chg_of_row hx with ⟨hnone, hbase⟩ | hold
      · rw [Tx.base_of_chg hnone] at hbase
        exact List.mem_append_left _ (hi pid x hbase hxaw)
      · exact h pid _ x hold hxaw
    · exact List.mem_append_right _ hlisted

theorem SupersedeTx.add {β : Type} {e : Effect Row Entry β} (h : SupersedeTx d r t)
    (hw : ∀ c n, ⟨.checkout c, n⟩ ∈ e.writes → ∀ row, t.row s.rows (.checkout c) = some row →
      MayCancel d r c row) : SupersedeTx d r (t.add s.rows e) := by
  intro c o n hchg row hrow
  rcases Tx.chg_add hchg with hold | ⟨hbase, hmem⟩
  · exact h c o n hold row hrow
  · cases hc : t.chg (.checkout c) with
    | none =>
      rw [Tx.base_of_chg hc] at hbase
      exact hw c n hmem row (by rw [Tx.row_of_chg hc, ← hbase, hrow])
    | some x =>
      have ho : o = x.1 := by rw [hbase, Tx.base, hc]
      exact h c x.1 x.2 hc row (by rw [← ho, hrow])

/-- A new checkout replaces none. -/
theorem SupersedeTx.create (h : SupersedeTx d r t) {id : ℕ} {c : CheckoutSession}
    (hfree : t.row s.rows (.checkout id) = none) :
    SupersedeTx d r (t.write s.rows ⟨.checkout id, some c⟩) := by
  have hadd := h.add (s := s) (e := ⟨(), [⟨.checkout id, some c⟩], []⟩)
    fun c' n hmem row hrow => by
      simp only [List.mem_singleton, Sigma.mk.injEq, Key.checkout.injEq] at hmem
      rw [hmem.1, hfree] at hrow
      cases hrow
  simpa [Tx.add] using hadd

/-! ### The calls follow the rules -/

theorem listsRules (hp : drafts p = none) :
    StmtRules (superseding drafts) p ListsOpen (fun _ _ => True) ListsTx where
  start _ := .empty _
  env _ hst h := h.later hst
  add hi h hΦ := h.add hi hΦ
  commits _ _ h := ⟨h, fun d hd => by rw [hp] at hd; cases hd⟩
  acts _ _ := trivial

/-- A program that lists what it opens is accepted. -/
theorem wp_listsOpen {m : App Unit} (hp : drafts p = none) (h : m.Each ListsOpen)
    (hi : Listed s) : wp (superseding drafts) p m (fun _ _ _ => True) {} s :=
  wp_mono _ (fun _ _ _ _ => trivial) ((listsRules hp).wp_each h hi (.empty s))

theorem mayCancel_iff (hd : d.looks = false) {c : ℕ} {row : CheckoutSession} :
    MayCancel d r c row ↔ d.supersedes row := by
  simp [MayCancel, hd]

theorem supersedeRules (hp : drafts p = some d) (hd : d.looks = false) :
    StmtRules (superseding drafts) p (Supersede d) (fun _ _ => True)
      fun s t => ListsTx s t ∧ SupersedeTx d [] t where
  start _ := ⟨.empty _, .empty d []⟩
  env _ hst h := ⟨h.1.later hst, h.2⟩
  add hi h hΦ := by
    refine ⟨h.1.add hi hΦ.1, h.2.add fun c n hmem row hrow => ?_⟩
    exact (mayCancel_iff hd).mpr (hΦ.2 c n hmem row hrow)
  commits _ _ h := by
    refine ⟨h.1, fun d' hd' c o n hchg row hrow => ?_⟩
    rw [hp] at hd'
    cases hd'
    exact (mayCancel_iff hd).mpr ((mayCancel_iff hd).mp (h.2 c o n hchg row hrow))
  acts _ _ := trivial

/-- A call that does not look is accepted. -/
theorem wp_supersede {m : App Unit} (hp : drafts p = some d) (hd : d.looks = false)
    (h : m.Each (Supersede d)) (hi : Listed s) :
    wp (superseding drafts) p m (fun _ _ _ => True) {} s :=
  wp_mono _ (fun _ _ _ _ => trivial)
    ((supersedeRules hp hd).wp_each h hi ⟨.empty s, .empty d []⟩)

theorem each_cancelDrafts {cond : CheckoutSession → Bool}
    (h : ∀ row, cond row → d.supersedes row) : (cancelDrafts cond).Each (Supersede d) := by
  refine .sql fun v => ⟨fun pid q hmem => ?_, fun c n hmem row hrow => ?_⟩
  · obtain ⟨x, -, hx⟩ := List.mem_map.mp hmem
    cases hx
  · obtain ⟨⟨id, old⟩, hx, heq⟩ := List.mem_map.mp hmem
    cases heq
    obtain ⟨-, hold, hcond⟩ := mem_matchingDrafts.mp hx
    rw [hrow] at hold
    cases hold
    exact h row hcond

theorem each_insertDraft (id : ℕ) (c : CheckoutSession) :
    (insertDraft id c).Each (Supersede d) := by
  refine .sql fun v => ?_
  cases hrow : v.rows (.checkout id) with
  | some _ => exact ⟨fun _ _ hmem => by simp at hmem, fun _ _ hmem => by simp at hmem⟩
  | none =>
    refine ⟨fun pid q hmem => by simp at hmem, fun c' n hmem row hold => ?_⟩
    simp only [List.mem_singleton, Sigma.mk.injEq, Key.checkout.injEq] at hmem
    rw [hmem.1, hrow] at hold
    cases hold

theorem each_lockPurchaseCheckout (userId productId : ℕ) :
    (lockPurchaseCheckout userId productId).Each (Supersede d) := by
  have hnone : ∀ v, Supersede d v [] [] := fun v =>
    ⟨fun _ _ hmem => by simp at hmem, fun _ _ hmem => by simp at hmem⟩
  exact .update hnone fun v n _ =>
    ⟨fun _ _ hmem => by simp at hmem, fun _ _ hmem => by simp at hmem⟩

theorem each_createOperationCheckout (args : OperationCheckoutArgs) :
    (createOperationCheckout args).Each (Supersede (.createOperationCheckout args)) := by
  refine .bind (.ask _) fun terms => ?_
  cases terms with
  | error code => exact .pure _
  | ok terms =>
    refine .bind (.ask _) fun minutes => .bind (.ask _) fun now => ?_
    refine .bind (each_cancelDrafts fun row h => h) fun _ => .bind (.ask _) fun id => ?_
    refine .bind (each_insertDraft _ _) fun created => ?_
    split <;> exact .pure _

theorem each_createPurchaseCheckout (args : PurchaseCheckoutArgs) :
    (createPurchaseCheckout args).Each (Supersede (.createPurchaseCheckout args)) := by
  refine .bind (.ask _) fun terms => ?_
  cases terms with
  | error code => exact .pure _
  | ok terms =>
    refine .bind (.ask _) fun held => ?_
    split
    · exact .pure _
    refine .bind (.ask _) fun minutes => .bind (.ask _) fun now => .transaction ?_
    refine .bind (each_lockPurchaseCheckout _ _) fun _ => ?_
    refine .bind (each_cancelDrafts fun row h => h) fun _ => .bind (.ask _) fun id => ?_
    refine .bind (each_insertDraft _ _) fun created => ?_
    split
    · exact .pure _
    refine .bind (.ask _) fun claimed => ?_
    split <;> exact .pure _

/-- The three creators of the bot for a service. -/
theorem each_createServiceCheckout {orderType : OrderType} {args : ServiceCheckoutArgs}
    (h : ∀ row, ofService args.userId args.serviceId row → d.supersedes row) :
    (createServiceCheckout orderType args).Each (Supersede d) := by
  refine .bind (.ask _) fun minutes => .bind (each_cancelDrafts h) fun _ => ?_
  refine .bind (.ask _) fun now => .bind (.ask _) fun id => ?_
  refine .bind (each_insertDraft _ _) fun created => ?_
  split <;> exact .pure _

theorem each_createCheckoutSession (args : ProductCheckoutArgs) :
    (createCheckoutSession args).Each (Supersede (.createCheckoutSession args)) := by
  refine .bind (.ask _) fun minutes => .bind (.ask _) fun now => .transaction ?_
  refine .bind (each_cancelDrafts fun row h => h) fun _ => .bind (.ask _) fun id => ?_
  refine .bind (each_insertDraft _ _) fun created => ?_
  split
  · exact .pure _
  refine .bind (.ask _) fun claimed => ?_
  split <;> exact .pure _

theorem each_createWalletTopupCheckout (userId : ℕ) (amount : ℤ) :
    (createWalletTopupCheckout userId amount).Each
      (Supersede (.createWalletTopupCheckout userId amount)) := by
  refine .bind (.ask _) fun enabled => ?_
  split
  · exact .pure _
  refine .bind (.ask _) fun minutes => .bind (each_cancelDrafts fun row h => h) fun _ => ?_
  refine .bind (.ask _) fun now => .bind (.ask _) fun id => ?_
  refine .bind (each_insertDraft _ _) fun created => ?_
  split <;> exact .pure _

/-- The calls that do not look supersede what is theirs. -/
theorem each_draftCall (hd : d.looks = false) : d.prog.Each (Supersede d) := by
  cases d with
  | createOperationCheckout args => exact each_discard (each_createOperationCheckout args)
  | createPurchaseCheckout args => exact each_discard (each_createPurchaseCheckout args)
  | createRenewalCheckoutSession args | createExtraVolumeCheckout args
  | createExtraTimeCheckout args =>
    exact each_discard (each_createServiceCheckout fun row h => h)
  | createCheckoutSession args => exact each_discard (each_createCheckoutSession args)
  | createWalletTopupCheckout userId amount =>
    exact each_discard (each_createWalletTopupCheckout userId amount)
  | materializePendingOtherProductCheckout args => cases hd

/-- The scan misses no payment. -/
theorem not_awaited {c : ℕ} (hi : Listed s) (h : hasAwaitingPayment (s.view {}) c = false) :
    ¬ Awaited s c := by
  rintro ⟨pid, q, hq, hc, haw⟩
  have hmem : pid ∈ openPaymentIds (s.view {}).journal :=
    mem_openPaymentIds.mpr (List.mem_append_left _ (hi pid q hq haw))
  rw [hasAwaitingPayment, List.any_eq_false] at h
  refine h pid hmem ?_
  have hrow : (s.view {}).rows (.payment pid) = some q := hq
  simp [hrow, hc, haw]

theorem mem_findSuperseded {args : MaterializeArgs} {ids : List ℕ} {c : ℕ} (hi : Listed s)
    (h : c ∈ ids.filter fun id =>
      match (s.view {}).rows (.checkout id) with
      | some c =>
        decide (c.userId = args.userId ∧ c.productId = some args.productId ∧
          c.status = .PENDING ∧ ¬ hasAwaitingPayment (s.view {}) id)
      | none => false) :
    (∃ row, s.rows (.checkout c) = some row ∧ ofProduct args.userId args.productId row) ∧
      ¬ Awaited s c := by
  obtain ⟨-, h⟩ := List.mem_filter.mp h
  split at h
  · rename_i row hrow
    obtain ⟨hu, hp, hst, haw⟩ := of_decide_eq_true h
    refine ⟨⟨row, hrow, ?_⟩, not_awaited hi (Bool.not_eq_true _ ▸ haw)⟩
    simp [ofProduct, hu, hp, hst]
  · cases h

/-- The cancellation by ids writes these checkouts. -/
theorem wp_cancelCheckouts {D : Discipline Row Entry World} {ids : List ℕ}
    {Q : ℕ → Local Row Entry World → AppStore → Prop}
    (h : ∀ s' (e : Effect Row Entry ℕ), D.Inv s' →
      (∀ w ∈ e.writes, ∃ c ∈ ids, w.1 = .checkout c) →
      Q e.result ⟨some (t.add s'.rows e), r⟩ s') :
    wp D p (cancelCheckouts ids) Q ⟨some t, r⟩ s := by
  refine wp_sql_tx fun s' _ hi _ => h s' _ hi fun w hw => ?_
  obtain ⟨x, hx, rfl⟩ := List.mem_map.mp hw
  obtain ⟨id, hid, heq⟩ := List.mem_filterMap.mp hx
  obtain ⟨c, -, rfl⟩ := Option.map_eq_some_iff.mp heq
  exact ⟨id, hid, rfl⟩

theorem wp_materialize {args : MaterializeArgs}
    (hp : drafts p = some (.materializePendingOtherProductCheckout args)) :
    wp (superseding drafts) p (materializePendingOtherProductCheckout args) (fun _ _ _ => True)
      {} s := by
  refine (wp_seq _ _).mpr (wp_ask _ fun minutes => (wp_seq _ _).mpr (wp_ask _ fun now => ?_))
  refine wp_transaction ((wp_seq _ _).mpr (wp_ask _ fun checkoutIds => ?_))
  refine (wp_seq _ _).mpr (wp_select _ fun s₁ _ hi₁ => ?_)
  refine (wp_seq _ _).mpr (wp_cancelCheckouts fun s₂ e hi₂ hwrites => ?_)
  have hlists : ListsTx s₂ (Tx.add {} s₂.rows e) := by
    refine (ListsTx.empty s₂).add hi₂ fun pid q hmem => ?_
    obtain ⟨c, -, hc⟩ := hwrites _ hmem
    cases hc
  -- whatever is cancelled was free of payments when it was read
  have hmay : SupersedeTx (.materializePendingOtherProductCheckout args) [s₁]
      (Tx.add {} s₂.rows e) := by
    refine (SupersedeTx.empty _ _).add fun c n hmem row _ => ?_
    obtain ⟨c', hc', hc⟩ := hwrites _ hmem
    cases hc
    obtain ⟨hold, haw⟩ := mem_findSuperseded hi₁ hc'
    exact ⟨s₁, .head _, hold, haw⟩
  refine (wp_seq _ _).mpr (wp_ask _ fun id => ?_)
  refine (wp_seq _ _).mpr (wp_update_tx fun s₃ hl₃ hi₃ _ => ⟨fun _ => trivial, fun n hn => ?_⟩)
  obtain ⟨hfree, rfl⟩ := onFree_eq_some.mp hn
  have hlists₃ := hl₃.stable (P := fun s => ListsTx s _) (fun _ _ hst h => h.later hst) hi₂ hlists
  have hnew : ListsTx s₃ ((Tx.add {} s₂.rows e).write s₃.rows
      ⟨.checkout id.id, some (pendingCheckout args minutes.number now.now)⟩) := by
    intro pid o q hchg
    rw [Tx.chg_write_ne _ (by simp)] at hchg
    exact hlists₃ pid o q hchg
  have hsup := hmay.create (c := pendingCheckout args minutes.number now.now) hfree
  refine fun s' hl hi _ => ⟨⟨hl.stable (P := fun s => ListsTx s _) (fun _ _ hst h => h.later hst)
    hi₃ hnew, fun d hd => ?_⟩, trivial⟩
  rw [hp] at hd
  cases hd
  exact hsup

/-- Every call of a creator is accepted. -/
theorem wp_draftCall (hp : drafts p = some d) (hi : Listed s) :
    wp (superseding drafts) p d.prog (fun _ _ _ => True) {} s := by
  cases hd : d.looks with
  | false => exact wp_supersede hp hd (each_draftCall hd) hi
  | true =>
    cases d with
    | materializePendingOtherProductCheckout args =>
      exact (wp_seq _ _).mpr (wp_mono _ (fun _ _ _ _ => trivial) (wp_materialize hp))
    | _ => cases hd

/-- One step of a creator that finds nothing on its way. -/
theorem spares_step (hp : drafts p = some d) (hst : (superseding drafts).Step p r s s')
    (hun : Supersedes s s' → Unpaid d r s) : Spares s s' := by
  intro c row hrow hcar
  cases hst with
  | act w _ => exact hrow
  | commit t hh hc =>
    by_contra hne
    have hfree := hun ⟨c, row, hrow, hne⟩
    rcases s.commit_rows p hh (.checkout c) with ⟨he, -⟩ | hchg
    · exact hne (he.trans hrow)
    have hmay := hc.2 d hp c _ _ hchg row hrow
    unfold MayCancel at hmay
    unfold Unpaid at hfree
    split at hmay
    · rename_i hd
      rw [if_pos hd] at hfree
      obtain ⟨x, hx, ⟨old, hold, hsup⟩, hnot⟩ := hmay
      exact hnot (hfree x hx c old hold hsup hcar)
    · rename_i hd
      rw [if_neg hd] at hfree
      exact hfree c row hrow hmay hcar

/-! ### Any number of calls -/

/-- One call of a creator or of a payment operation. -/
inductive CommerceCall
  | draft (d : DraftCall)
  | payment (c : PaymentCall)
  | getOrCreateGatewayPayment (userId checkoutId : ℕ) (c : CheckoutSession)
    (gateway : PaymentGateway)
  | submitReceipt (userId checkoutId : ℕ) (c : CheckoutSession)

/-- The program of a call. -/
def CommerceCall.prog : CommerceCall → App Unit
  | draft d => d.prog
  | payment c => c.prog
  | getOrCreateGatewayPayment userId checkoutId c gateway =>
    discard (ZedBot.getOrCreateGatewayPayment userId checkoutId c gateway)
  | submitReceipt userId checkoutId c => discard (ZedBot.submitReceipt userId checkoutId c)

/-- The creator that a call runs. -/
def CommerceCall.draft? : CommerceCall → Option DraftCall
  | draft d => some d
  | payment (.materializePendingOtherProductCheckout args) =>
    some (.materializePendingOtherProductCheckout args)
  | _ => none

/-- Any number of calls, each a process of its own. -/
def commercePool (calls : ℕ → Option CommerceCall) (p : ℕ) : App Unit :=
  match calls p with
  | some c => c.prog
  | none => return ()

/-- The creators of a pool. -/
def draftsOf (calls : ℕ → Option CommerceCall) (p : ℕ) : Option DraftCall :=
  (calls p).bind (·.draft?)

/-- A creator that replaces checkouts finds no payment on its way to those it supersedes. -/
def whenUnpaid (drafts : ℕ → Option DraftCall) : StepCond Row Entry World := fun p r s s' =>
  ∀ d, drafts p = some d → Supersedes s s' → Unpaid d r s

/-- The creators leave the checkouts with a payment on its way alone. -/
def sparing (drafts : ℕ → Option DraftCall) : StepCond Row Entry World := fun p _ s s' =>
  ∀ d, drafts p = some d → Spares s s'

theorem commerce_good {calls : ℕ → Option CommerceCall} (hi : Listed s) :
    Good (superseding (draftsOf calls)) (Config.start s (commercePool calls)) := by
  refine good_start hi fun p => ?_
  unfold commercePool
  cases hc : calls p with
  | none => trivial
  | some c =>
    have hp : draftsOf calls p = c.draft? := by simp [draftsOf, hc]
    cases hd : c.draft? with
    | some d =>
      rw [hd] at hp
      suffices c.prog = d.prog by
        simp only [this]
        exact wp_draftCall hp hi
      cases c with
      | draft d' => cases hd; rfl
      | payment c => cases c <;> cases hd; rfl
      | getOrCreateGatewayPayment userId checkoutId c gateway => cases hd
      | submitReceipt userId checkoutId c => cases hd
    | none =>
      rw [hd] at hp
      refine wp_listsOpen hp ?_ hi
      cases c with
      | draft d => cases hd
      | payment c => exact each_paymentCall c
      | getOrCreateGatewayPayment userId checkoutId c gateway =>
        exact each_discard (each_getOrCreateGatewayPayment _ _ _ _)
      | submitReceipt userId checkoutId c => exact each_discard (each_submitReceipt _ _ _)

def pendingRenewal : CheckoutSession where
  userId := 1
  purpose := .ORDER_PAYMENT
  serviceId := some 7
  orderType := some .SERVICE_RENEWAL
  originalPriceToman := 100
  finalPriceToman := 100
  expiresAt := 1000

/-- The provider has reported SUCCESS; the settlement has not run yet. -/
def verifiedPayment : Payment where
  userId := 1
  checkoutSessionId := some 10
  purpose := .ORDER_PAYMENT
  status := .PROCESSING
  amountToman := 100
  payableAmountToman := 100
  provider := some .NOWPAYMENTS
  providerStatus := some .SUCCESS

/-- A PENDING renewal of service 7 and its payment. -/
def renewalStore (payment : Option Payment) : AppStore where
  rows
    | .user 1 => some {}
    | .checkout 10 => some pendingRenewal
    | .payment 20 => payment
    | k => emptyRows k
  log := [⟨2, { entries := [.draft 10, .openPayment 20] }⟩]
  world := {}

/-- The user opens the volume page of the service; the settlement of the payment runs. -/
def volumeThenSettle : ℕ → Option CommerceCall
  | 0 => some (.draft (.createOperationCheckout ⟨1, .EXTRA_VOLUME, 7, 3⟩))
  | 1 => some (.payment (.settleGatewayPayment 20))
  | _ => none

def volumeEvent : Event Choice := .run 0 { id := 11, now := 1, terms := .ok ⟨{}, 50, 0, 50, none⟩ }

theorem renewalStore_payment {payment : Option Payment} {pid : ℕ} {q : Payment}
    (h : (renewalStore payment).rows (.payment pid) = some q) : pid = 20 ∧ payment = some q := by
  by_cases hp : pid = 20
  · subst hp
    exact ⟨rfl, h⟩
  · simp [renewalStore, hp, emptyRows] at h

theorem renewalStore_listed (payment : Option Payment) : Listed (renewalStore payment) := by
  intro pid q h _
  rw [(renewalStore_payment h).1]
  simp [renewalStore, Store.journal, journalOf]

/-- The fourth statement of the new draft cancels the paid renewal; then the settlement files a
    duplicate success instead of creating the order. -/
theorem volumeThenSettle_run :
    ((Config.start (renewalStore (some verifiedPayment)) (commercePool volumeThenSettle)).exec
      (List.replicate 3 volumeEvent)).any (fun c =>
        c.store.rows (.checkout 10) = some pendingRenewal ∧
        c.store.rows (.payment 20) = some verifiedPayment ∧
        (c.step volumeEvent).any fun c' =>
          (c'.store.rows (.checkout 10)).any (·.status = .CANCELLED) ∧
          (c'.exec (List.replicate 14 (.run 1 { now := 2, flag := false }))).any fun c'' =>
            c''.store.rows (.orderOfCheckout 10) = none ∧
            (c''.store.rows (.payment 20)).any (·.settlementStatus = .DUPLICATE_SUCCESS_REVIEW)) =
      true := by
  decide +kernel

end ZedBot
