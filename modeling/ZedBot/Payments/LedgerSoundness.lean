import ZedBot.Payments.Ledger

/-! The wallet ledger is sound in every state of every run of payment operations. -/

namespace ZedBot
open ReadCommitted RunningBalance

/-- The ledger of user `u` against the user's row: every row adds its signed amount, rows follow each
    other, the last one ends at the current balance. -/
structure SoundLedger (s : AppStore) (u : ℕ) (q : User) : Prop where
  signed : ∀ w ∈ ledgerOf u s.journal,
    w.balanceAfterToman = w.balanceBeforeToman + w.type.sign * w.amountToman
  consecutive : (ledgerOf u s.journal).IsChain fun w w' =>
    w'.balanceBeforeToman = w.balanceAfterToman
  current : ∀ w ∈ (ledgerOf u s.journal).getLast?, w.balanceAfterToman = q.balanceToman

theorem soundLedger_iff {s : AppStore} {u : ℕ} {q : User} :
    SoundLedger s u q ↔ ∃ b, Chain wallet b (ledgerOf u s.journal) q.balanceToman := by
  constructor
  · rintro ⟨h1, h2, h3⟩; exact chain_of_rows (A := wallet) _ h1 h2 h3
  · rintro ⟨b, h⟩; exact ⟨h.row_sound, h.consecutive, h.last⟩

/-! ### From one state to a later one -/

/-- The ledger grew by `js`, which leads every user from the old balance to the new one. -/
structure LedgerGrew (s s' : AppStore) (js : List Entry) : Prop where
  journal : s'.journal = s.journal ++ js
  user : ∀ u q, s.rows (.user u) = some q →
    ∃ n, s'.rows (.user u) = some n ∧ UserStep (ledgerOf u js) (some q) (some n)
  absent : ∀ u, s.rows (.user u) = none → s'.rows (.user u) = none

theorem LedgerGrew.refl (s : AppStore) : LedgerGrew s s [] where
  journal := by simp
  user u q h := ⟨q, h, rfl, rfl, fun _ h => h⟩
  absent _ h := h

theorem LedgerGrew.trans {s s' s'' : AppStore} {js ks : List Entry} (h₁ : LedgerGrew s s' js)
    (h₂ : LedgerGrew s' s'' ks) : LedgerGrew s s'' (js ++ ks) where
  journal := by rw [h₂.journal, h₁.journal, List.append_assoc]
  user u q h := by
    obtain ⟨n, hn, hc, hneg, hpos⟩ := h₁.user u q h
    obtain ⟨m, hm, hc', hneg', hpos'⟩ := h₂.user u n hn
    refine ⟨m, hm, ?_, hneg'.trans hneg, fun ha hb => ?_⟩
    · rw [ledgerOf_append]; exact hc.append hc'
    · exact hpos' (hneg.trans ha) (hpos ha hb)
  absent u h := h₂.absent u (h₁.absent u h)

/-- The step lemma: a commit appends its own ledger rows. -/
theorem ledger_step {p : ℕ} {r : List AppStore} {s s' : AppStore} (h : ledger.Step p r s s') :
    ∃ js, LedgerGrew s s' js := by
  cases h with
  | act w h => exact h.elim
  | commit t hh h =>
    refine ⟨t.entries, s.journal_commit p t, fun u q hq => ?_, fun u hu => ?_⟩
    · rcases s.commit_rows p hh (.user u) with ⟨he, hc⟩ | hc
      · refine ⟨q, by rw [he, hq], ?_⟩
        rw [h.locked u hc]; exact ⟨rfl, rfl, fun _ hb => hb⟩
      · have hs := h.user u _ _ hc
        rw [hq] at hs
        cases hn : (s.commit p t).rows (.user u) with
        | none => rw [hn] at hs; exact hs.elim
        | some n => rw [hn] at hs; exact ⟨n, rfl, hs⟩
    · exact ledger_user_absent (.commit t hh h) hu

/-- The run lemma. -/
theorem ledger_run {C : StepCond Row Entry World} {c c' : AppConfig} (hg : Good ledger c)
    (h : Run C c c') : ∃ js, LedgerGrew c.store c'.store js := by
  refine h.keeps (P := fun s => ∃ js, LedgerGrew c.store s js) hg (fun _ hst _ hs => ?_)
    ⟨[], .refl _⟩
  obtain ⟨js, hjs⟩ := hs
  obtain ⟨ks, hks⟩ := ledger_step hst
  exact ⟨js ++ ks, hjs.trans hks⟩

/-! ### Soundness -/

/-- In every state that a pool of payment operations reaches from a sound one, the ledger of every
    user is sound and no balance is negative unless the user may be overdrawn; and a statement of an
    open transaction other than its commit, a rollback or the death of the process among them,
    changes neither a row nor the ledger. -/
theorem wallet_ledger_sound {calls : ℕ → Option PaymentCall} {s₀ : AppStore}
    (ha : AmountsNonneg s₀)
    (h₀ : ∀ u q, s₀.rows (.user u) = some q → SoundLedger s₀ u q ∧ 0 ≤ q.balanceToman)
    {c : AppConfig} (h : Run anyStep (Config.start s₀ (pool calls)) c) :
    (∀ u q, c.store.rows (.user u) = some q →
      SoundLedger c.store u q ∧ (q.allowNegativeBalance = false → 0 ≤ q.balanceToman)) ∧
    ∀ e c', c.step e = some c' → (c.threads e.pid).loc.tx ≠ none →
      (∀ ch k, ¬ (e = .run e.pid ch ∧ (c.threads e.pid).prog = .commit k)) →
      c'.store.rows = c.store.rows ∧ c'.store.journal = c.store.journal := by
  obtain ⟨js, hgrew⟩ := ledger_run (ledger_good ha) h
  refine ⟨fun u n hn => ?_, fun e c' hs ht hc => ?_⟩
  · cases hq : s₀.rows (.user u) with
    | none => rw [hgrew.absent u hq] at hn; cases hn
    | some q =>
      obtain ⟨n', hn', hchain, hneg, hpos⟩ := hgrew.user u q hq
      rw [hn] at hn'; cases hn'
      obtain ⟨hsound, hbal⟩ := h₀ u q hq
      obtain ⟨b, hb⟩ := soundLedger_iff.mp hsound
      refine ⟨soundLedger_iff.mpr ⟨b, ?_⟩, fun hn => hpos (hneg ▸ hn) hbal⟩
      rw [hgrew.journal, ledgerOf_append]; exact hb.append hchain
  · obtain ⟨hr, hl⟩ := Config.step_in_transaction hs ht hc
    exact ⟨hr, by rw [Store.journal, Store.journal, hl]⟩

/-- A user, a wallet-charge checkout and its open gateway payment, with what the provider
    reported. -/
def topupRows (reported : Option NormalizedPaymentStatus) : ∀ k, Row k
  | .user 1 => some {}
  | .checkout 1 => some { userId := 1, purpose := .WALLET_CHARGE, finalPriceToman := 500 }
  | .payment 1 =>
    some
      { userId := 1
        checkoutSessionId := some 1
        purpose := .WALLET_CHARGE
        amountToman := 500
        payableAmountToman := 500
        provider := some .ZARINPAL
        providerStatus := reported }
  | .receipts _ => []
  | .user _ | .checkout _ | .payment _ | .order _ | .orderOfCheckout _ | .paymentOfKey _
  | .paymentOfAuthority _ | .paymentOfCharge _ _ | .reconciliation _ | .commission _
  | .referral _ | .miniAppRequest _ _ => none
  | .purchaseCheckoutLock _ _ => (0 : ℕ)

/-- One call. -/
def oneCall (c : PaymentCall) (p : ℕ) : Option PaymentCall := if p = 0 then some c else none

/-- The database of a top-up. -/
def topupStore (reported : Option NormalizedPaymentStatus) : AppStore :=
  { rows := topupRows reported, world := {} }

theorem topupStore_payment {reported : Option NormalizedPaymentStatus} {pid : ℕ} {q : Payment}
    (h : (topupStore reported).rows (.payment pid) = some q) :
    q.checkoutSessionId = some 1 ∧ q.userId = 1 ∧ q.amountToman = 500 ∧
      q.settlementStatus = .UNSETTLED ∧ q.status = .PENDING := by
  match pid, h with
  | 1, h => cases h; exact ⟨rfl, rfl, rfl, rfl, rfl⟩

theorem topupStore_user {reported : Option NormalizedPaymentStatus} {u : ℕ} {q : User}
    (h : (topupStore reported).rows (.user u) = some q) : q.balanceToman = 0 := by
  match u, h with
  | 1, h => cases h; rfl

/-- Its settlement, run alone. -/
def topupRun : List (Event Choice) := List.replicate 13 (.run 0 { flag := false })

theorem topupRun_runs : ((Config.start (topupStore (some .SUCCESS)) (pool (oneCall (.settleGatewayPayment 1)))).exec
    topupRun).any (fun c =>
      c.store.rows (.user 1) = some { balanceToman := 500, totalChargedToman := 500 }) = true := by
  decide +kernel

theorem wallet_ledger_sound_topup : ∃ c : AppConfig,
    c.store.rows (.user 1) = some { balanceToman := 500, totalChargedToman := 500 } ∧
    ∀ u q, c.store.rows (.user u) = some q →
      SoundLedger c.store u q ∧ (q.allowNegativeBalance = false → 0 ≤ q.balanceToman) := by
  obtain ⟨c, hc, hu⟩ := Run.of_exec_any topupRun_runs
  refine ⟨c, by simpa using hu, (wallet_ledger_sound ?_ ?_ hc).1⟩
  · intro pid q hq
    obtain ⟨_, _, h, _⟩ := topupStore_payment hq
    rw [h]; decide
  · intro u q hq
    refine ⟨⟨?_, .nil, ?_⟩, Int.le_of_eq (topupStore_user hq).symm⟩
    · intro w hw; cases hw
    · intro w hw; cases hw

end ZedBot
