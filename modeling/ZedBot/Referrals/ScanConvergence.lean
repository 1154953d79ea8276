import ZedBot.ReadCommitted.Solo
import ZedBot.Referrals.CreditScan

/-! The scan converges: in every run a credit that returns without an error leaves the order with a
    commission, so no later scan selects it, and the credit of any other order commits nothing. -/

namespace ZedBot
open ReadCommitted

variable {payouts : ReferralPayoutSettings} {settings : Choice → ReferralConfig} {me o : ℕ}
  {s₀ s s' : AppStore} {progs : ℕ → App Unit} {c c' : AppConfig}

/-! ### A credit does not act on the world -/

/-- Any statement, and no act. -/
abbrev OnlyStatements {α : Type} (m : App α) : Prop := m.Each (fun _ _ _ => True) fun _ _ => False

theorem statements_createCommission (orderId : ℕ) (row : ReferralCommission) :
    OnlyStatements (createCommission orderId row) := .sql fun _ => trivial

theorem statements_update (k : Key) (f : Row k → Option (Row k)) :
    OnlyStatements (update k f) := .update (fun _ => trivial) fun _ _ _ => trivial

theorem statements_recordNoCommissionMarker (orderId : ℕ) (referral : Referral) (userId : ℕ)
    (percent : ℤ) : OnlyStatements (recordNoCommissionMarker orderId referral userId percent) :=
  .bind (statements_createCommission _ _) fun _ => .pure _

theorem statements_creditReferrer (orderId userId : ℕ) (amount price : ℤ) :
    OnlyStatements (creditReferrer orderId userId amount price) := by
  refine .bind (statements_update _ _) fun _ => ?_
  refine .ite (fun _ => .pure _) fun _ => .bind (.select _) fun balance => ?_
  cases balance with
  | none => exact .pure _
  | some balance => exact .bind (.sql fun _ => trivial) fun _ => .pure _

theorem statements_payCommission (orderId : ℕ) (order : Order) (referral : Referral)
    (decision : ReferralCommissionDecision) (now : ℕ) :
    OnlyStatements (payCommission orderId order referral decision now) := by
  refine .bind (statements_createCommission _ _) fun _ => ?_
  refine .ite (fun _ => .pure _) fun _ => .bind (statements_creditReferrer _ _ _ _) fun x => ?_
  cases x with
  | error e => exact .pure _
  | ok y => exact .bind (statements_update _ _) fun _ => .ite (fun _ => .pure _) fun _ => .pure _

theorem statements_creditTransaction (orderId : ℕ) (order : Order) (referral : Referral)
    (decision : ReferralCommissionDecision) (first : Bool) (now : ℕ) :
    OnlyStatements (creditTransaction orderId order referral decision first now) := by
  refine .transaction (.bind (statements_update _ _) fun _ => ?_)
  refine .ite (fun _ => .bind (.select _) fun _ => .ite (fun _ => ?_) fun _ => ?_) fun _ => ?_
  · exact .bind (statements_createCommission _ _) fun _ => .ite (fun _ => .pure _) fun _ => .pure _
  · exact statements_payCommission _ _ _ _ _
  · exact statements_payCommission _ _ _ _ _

theorem statements_creditUnder (payouts : ReferralPayoutSettings) (settings : Choice → ReferralConfig)
    (orderId : ℕ) : OnlyStatements (creditUnder payouts settings orderId) := by
  refine .bind (.ask _) fun _ => .ite (fun _ => .pure _) fun _ => .bind (.select _) fun order => ?_
  cases order with
  | none => exact .pure _
  | some order =>
  refine .ite (fun _ => .pure _) fun _ => .bind (.ask _) fun _ => .ite (fun _ => .pure _) fun _ => ?_
  refine .bind (.select _) fun referral => ?_
  cases referral with
  | none => exact .pure _
  | some referral =>
  have hmarker : ∀ (percent : ℤ) (x : ReferralCreditResult),
      OnlyStatements (recordNoCommissionMarker orderId referral order.userId percent >>= fun _ =>
        (pure x : App ReferralCreditResult)) := fun percent x =>
    .bind (statements_recordNoCommissionMarker _ _ _ _) fun _ => .pure _
  refine .ite (fun _ => hmarker _ _) fun _ => .bind (.ask _) fun _ => ?_
  refine .ite (fun _ => hmarker _ _) fun _ => .bind (.ask _) fun config => ?_
  refine .ite (fun _ => hmarker _ _) fun _ => .bind (.ask _) fun now => ?_
  refine .bind (statements_creditTransaction _ _ _ _ _ _) fun result => ?_
  match result with
  | .ok outcome => exact .pure _
  | .error .p2002 => exact .pure _
  | .error .crash => exact .pure _

/-! ### Runs -/

instance : Inhabited World := ⟨{}⟩

instance : Inhabited Choice := ⟨{}⟩

theorem good_creditScan (hme : progs me = answering (creditUnder payouts settings o))
    (hothers : ∀ q, q ≠ me → (progs q).Each (SparesOrder o)) :
    Good (creditOf payouts me o s₀) (Config.start s₀ progs) := by
  refine good_start .refl fun q => ?_
  rcases eq_or_ne q me with rfl | hq
  · rw [hme]
    refine (wp_bind _ _).mpr (wp_mono _ (fun x l s _ => ?_) (wp_creditUnder_ends .refl))
    exact fun s' _ _ _ => ⟨trivial, trivial⟩
  · exact wp_mono _ (fun _ _ _ _ => trivial)
      ((sparesRules hq).wp_each (l := {}) (hothers q hq) .refl .empty)

/-- What process `me` has committed since the start: nothing, or the commission of the order. -/
def OwnCommits (payouts : ReferralPayoutSettings) (me o : ℕ) (s₀ s : AppStore) : Prop :=
  ∀ k ∈ s.since s₀, k.pid = me → k.tx = {} ∨ ScanSelects payouts s₀ o ∧ CreatesCommission o k.tx

theorem own_commits (hg : Good (creditOf payouts me o s₀) (Config.start s₀ progs))
    (hrun : Run anyStep (Config.start s₀ progs) c) : OwnCommits payouts me o s₀ c.store := by
  refine (hrun.keeps hg (P := fun s => s₀.log.length ≤ s.log.length ∧ OwnCommits payouts me o s₀ s)
    (fun _ hst _ hs => ?_) ⟨le_rfl, fun k hk => ?_⟩).2
  · cases hst with
    | act w _ => exact hs
    | commit t hh ht =>
      refine ⟨Nat.le_succ_of_le hs.1, fun k hk hpid => ?_⟩
      rw [Store.since_commit hs.1] at hk
      rcases List.mem_cons.mp hk with rfl | hk
      · exact ht.2 hpid
      · exact hs.2 k hk hpid
  · simp [Config.start] at hk

/-- CONVERGES: whatever other programs do that leave the order as the filter sees it, a credit of an order
    that the scan selected ends, unless it throws, with a commission, and no page of a later scan holds
    the order again. All that the credit ever commits is the commission of a selected order, paid or a
    marker; an order that was not selected is never credited. -/
theorem credit_scan_converges (hme : progs me = answering (creditUnder payouts settings o))
    (hothers : ∀ q, q ≠ me → (progs q).Each (SparesOrder o))
    (hrun : Run anyStep (Config.start s₀ progs) c) :
    (ScanSelects payouts s₀ o → ∀ x : ReferralCreditResult, (c.threads me).prog = answered x →
      x ≠ .threw →
      c.store.rows (.commission o) ≠ none ∧
      ∀ c', Run anyStep c c' → ∀ ranges table, o ∉ creditScanPage ranges table (c'.store.view {})) ∧
    (¬ ScanSelects payouts s₀ o → ∀ x : ReferralCreditResult, (c.threads me).prog = answered x →
      ∀ n, x ≠ .credited n) ∧
    OwnCommits payouts me o s₀ c.store := by
  have hg : Good (creditOf payouts me o s₀) (Config.start s₀ progs) := good_creditScan hme hothers
  have hended : ∀ x : ReferralCreditResult, (c.threads me).prog = answered x → ∃ s,
      (creditOf payouts me o s₀).Later me (c.threads me).loc.Holds s c.store ∧
        CallCredited payouts me o s₀ x (c.threads me).loc s := fun x hx =>
    hrun.answers hg hme (statements_creditUnder _ _ _).quiet (wp_creditUnder_ends .refl) hx
  refine ⟨fun hsel x hx hok => ?_, fun hnot x hx n hn => ?_, own_commits hg hrun⟩
  · obtain ⟨s, hl, hdone⟩ := hended x hx
    have hthere : s.rows (.commission o) ≠ none := hdone.left fun hfailed =>
      hfailed.elim hok fun hno => hno (scanSelects_iff.mp hsel).1
    have hnow := hl.stable (fun _ => commission_kept) hdone.inv hthere
    refine ⟨hnow, fun c' hrun' ranges table hmem => ?_⟩
    have hlater := hrun'.keeps (hrun.sound hg).1 (fun hi hst _ => commission_kept hi hst) hnow
    have hcandidate := (List.mem_filter.mp (List.mem_mergeSort.mp (List.mem_of_mem_take hmem))).2
    exact hlater (free_of_candidate hcandidate)
  · obtain ⟨s, -, hdone⟩ := hended x hx
    exact hnot (hdone.selected ⟨n, hn⟩)

/-! An open window, and a completed order inside it that nobody has credited. -/

def openPayouts : ReferralPayoutSettings where
  systemEnabled := some true
  windows := .array [.object (some 0) .null]

/-- One credit, and a referrer who spends in the meantime. -/
def scanProgs : ℕ → App Unit
  | 0 => answering (creditUnder openPayouts (fun _ => {}) 7)
  | _ => spendMost

theorem spendMost_spares : spendMost.Each (SparesOrder 7) := by
  refine .bind (.update (fun v => ?_) fun v n _ => ?_) fun _ => .pure _
  · exact ⟨by simp, by simp, by simp⟩
  · exact ⟨by simp, by simp, by simp⟩

/-- Where a lone credit ends: it has its result to hand out. -/
theorem solo_credited (ch : ℕ → Choice) : ∃ c : AppConfig,
    Run anyStep (Config.start referredStore scanProgs) c ∧
    c.Alone 0 (answered ((creditUnder openPayouts (fun _ => {}) 7).solo 0 ch
      { store := referredStore }).1)
      ((creditUnder openPayouts (fun _ => {}) 7).solo 0 ch { store := referredStore }).2 :=
  Run.of_solo ch (creditUnder openPayouts (fun _ => {}) 7) answered ⟨rfl, rfl, rfl, fun _ => .inl rfl⟩

/-- The order is selected, credited, and never selected again. -/
theorem credit_scan_converges_seven : ScanSelects openPayouts referredStore 7 ∧
    ∃ c : AppConfig, Run anyStep (Config.start referredStore scanProgs) c ∧
      (c.threads 0).prog = answered (ReferralCreditResult.credited 100) ∧
      ∀ c', Run anyStep c c' → ∀ ranges table, 7 ∉ creditScanPage ranges table (c'.store.view {}) := by
  have hsel : ScanSelects openPayouts referredStore 7 := by decide +kernel
  obtain ⟨c, hrun, halone⟩ := solo_credited fun _ => { flag := false }
  have hresult : ((creditUnder openPayouts (fun _ => {}) 7).solo 0 (fun _ => { flag := false })
      { store := referredStore }).1 = .credited 100 := by decide +kernel
  have hprog := halone.prog
  rw [hresult] at hprog
  have hothers : ∀ q, q ≠ 0 → (scanProgs q).Each (SparesOrder 7)
    | 0, h => (h rfl).elim
    | _ + 1, _ => spendMost_spares
  exact ⟨hsel, c, hrun, hprog, ((credit_scan_converges rfl hothers hrun).1 hsel _ hprog nofun).2⟩

end ZedBot
