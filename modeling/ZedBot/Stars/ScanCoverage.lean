import ZedBot.Stars.RecoveryScan

/-! What the passes have evaluated.

    What is below the offset of a pass has been evaluated or is left on its page, and what is below the
    offset of the cursor has been evaluated. A short page ends at the end of the history, so nothing is
    left when the bootstrap is marked completed. -/

namespace ZedBot.Stars.Scan
open GrowingHistory

variable {configs : ℕ → StarsSubscriptionConfig} {s s' : System} {p q : ℕ} {run : PassRun}
  {transactions rest : List StarTransaction} {o : ℕ}

/-- Some pass has evaluated the transaction. -/
def Seen (s : System) (tx : StarTransaction) : Prop := ∃ e ∈ s.evaluations, e.tx = tx

/-- Pass `p` has evaluated the transaction. -/
def SeenBy (s : System) (p : ℕ) (tx : StarTransaction) : Prop :=
  ∃ e ∈ s.evaluations, e.pass = p ∧ e.tx = tx

/-- The transactions below `o` have been evaluated, or are left on the page. -/
structure Cover (s : System) (p : ℕ) (run : PassRun) (o : ℕ) (rest : List StarTransaction) :
    Prop where
  cursor : ∃ c, s.cursor = some c ∧ (run.bootstrap = false → c.bootstrapCompleted = true)
  suffix : run.atStart <:+ s.history
  boot : run.bootstrap = true →
    run.cursorOffset + run.counters.transactionsChecked + rest.length = o ∧
    Below (fun x => Seen s x ∨ x ∈ rest) s.history s.atBootstrap o
  steady : run.bootstrap = false →
    Below (fun x => SeenBy s p x ∨ x ∈ rest) s.history run.atStart o

/-- What ends a pass: a short page leaves nothing, and one past the lookback window nothing newer. -/
structure Ends (configs : ℕ → StarsSubscriptionConfig) (s : System) (p : ℕ) (run : PassRun)
    (transactions rest : List StarTransaction) : Prop where
  boot : run.bootstrap = true → transactions.length < (configs p).transactionPageSize →
    ∀ x ∈ s.atBootstrap, Seen s x ∨ x ∈ rest
  short : run.bootstrap = false → transactions.length < (configs p).transactionPageSize →
    ∀ x ∈ run.atStart, SeenBy s p x ∨ x ∈ rest
  older : run.bootstrap = false → pastLookback run.oldestRelevant transactions = true →
    ∀ x ∈ run.atStart, run.oldestRelevant ≤ x.date * 1000 → SeenBy s p x ∨ x ∈ rest

/-- A steady pass has asked for full pages from the start. -/
def FullPages (configs : ℕ → StarsSubscriptionConfig) (p : ℕ) (run : PassRun) : Prop :=
  run.page ≤ (configs p).maxPagesPerRun ∧
    (run.bootstrap = false → run.runOffset = run.page * (configs p).transactionPageSize)

/-- What fits the state of a pass. -/
def Fits (configs : ℕ → StarsSubscriptionConfig) (s : System) (p : ℕ) : Pass → Prop
  | .paging run => FullPages configs p run ∧ Cover s p run run.runOffset []
  | .scanning run transactions rest => FullPages configs p run ∧
    (run.page < (configs p).maxPagesPerRun ∧
      transactions.length ≤ (configs p).transactionPageSize) ∧
    Cover s p run (run.runOffset + transactions.length) rest ∧
    Ends configs s p run transactions rest
  | .ready | .done .. | .skipped | .dead => True

structure Sound (configs : ℕ → StarsSubscriptionConfig) (s : System) : Prop where
  sorted : s.history.Pairwise fun a b => b.date ≤ a.date
  suffix : s.cursor ≠ none → s.atBootstrap <:+ s.history
  below : ∀ c, s.cursor = some c → Below (Seen s) s.history s.atBootstrap c.nextOffset
  completed : ∀ c, s.cursor = some c → c.bootstrapCompleted = true → ∀ x ∈ s.atBootstrap, Seen s x
  fits : ∀ p, Fits configs s p (s.passes p)

/-! ### Other steps -/

/-- What a step leaves: the history and the evaluations grow, and a completed bootstrap stays so. -/
structure Grows (s s' : System) : Prop where
  history : s.history <:+ s'.history
  evaluations : s.evaluations ⊆ s'.evaluations
  atBootstrap : s.cursor ≠ none → s'.atBootstrap = s.atBootstrap
  cursor : ∀ c, s.cursor = some c →
    ∃ c', s'.cursor = some c' ∧ (c.bootstrapCompleted = true → c'.bootstrapCompleted = true)

namespace Grows

theorem seen (h : Grows s s') {x : StarTransaction} (hx : Seen s x) : Seen s' x := by
  obtain ⟨e, he, htx⟩ := hx
  exact ⟨e, h.evaluations he, htx⟩

theorem seenBy (h : Grows s s') {x : StarTransaction} (hx : SeenBy s p x) : SeenBy s' p x := by
  obtain ⟨e, he, htx⟩ := hx
  exact ⟨e, h.evaluations he, htx⟩

theorem cover (h : Grows s s') (hc : Cover s p run o rest) : Cover s' p run o rest := by
  obtain ⟨⟨c, hcursor, hsteady⟩, hsuffix, hboot, hown⟩ := hc
  obtain ⟨c', hcursor', hcompleted⟩ := h.cursor c hcursor
  have hbase := h.atBootstrap (by rw [hcursor]; nofun)
  refine ⟨⟨c', hcursor', fun hb => hcompleted (hsteady hb)⟩, hsuffix.trans h.history, fun hb => ?_,
    fun hb => ?_⟩
  · obtain ⟨ho, hbelow⟩ := hboot hb
    rw [hbase]
    exact ⟨ho, (hbelow.grow h.history.length_le).imp fun x _ hx => hx.imp_left h.seen⟩
  · exact ((hown hb).grow h.history.length_le).imp fun x _ hx => hx.imp_left h.seenBy

theorem ends (h : Grows s s') (hcursor : s.cursor ≠ none)
    (he : Ends configs s p run transactions rest) : Ends configs s' p run transactions rest := by
  refine ⟨fun hb hshort x hx => ?_, fun hb hshort x hx => ?_, fun hb hold x hx hnewer => ?_⟩
  · rw [h.atBootstrap hcursor] at hx
    exact (he.boot hb hshort x hx).imp_left h.seen
  · exact (he.short hb hshort x hx).imp_left h.seenBy
  · exact (he.older hb hold x hx hnewer).imp_left h.seenBy

theorem fits (h : Grows s s') {x : Pass} (hx : Fits configs s p x) : Fits configs s' p x := by
  cases x with
  | paging run => exact ⟨hx.1, h.cover hx.2⟩
  | scanning run transactions rest =>
    obtain ⟨hfull, hlimit, hcover, hends⟩ := hx
    obtain ⟨c, hc, -⟩ := hcover.cursor
    exact ⟨hfull, hlimit, h.cover hcover, h.ends (by rw [hc]; nofun) hends⟩
  | ready | done | skipped | dead => trivial

end Grows

/-- A step of one pass that fits, and leaves the others. -/
theorem Sound.of_grows (h : Sound configs s) (hg : Grows s s')
    (hsorted : s'.history.Pairwise fun a b => b.date ≤ a.date)
    (hsuffix : s'.cursor ≠ none → s'.atBootstrap <:+ s'.history)
    (hcursor : ∀ c, s'.cursor = some c → Below (Seen s') s'.history s'.atBootstrap c.nextOffset ∧
      (c.bootstrapCompleted = true → ∀ x ∈ s'.atBootstrap, Seen s' x))
    (hother : ∀ q, q ≠ p → s'.passes q = s.passes q)
    (hp : Fits configs s' p (s'.passes p)) : Sound configs s' := by
  refine ⟨hsorted, hsuffix, fun c hc => (hcursor c hc).1, fun c hc => (hcursor c hc).2, fun q => ?_⟩
  by_cases hq : q = p
  · exact hq ▸ hp
  · rw [hother q hq]
    exact hg.fits (h.fits q)

/-! ### The steps of a pass -/

/-- A step that leaves the history, the evaluations and the bootstrap. -/
theorem Grows.still {cursor : Option TelegramStarsReconciliationCursor} {passes : ℕ → Pass}
    (h : ∀ c, s.cursor = some c →
      ∃ c', cursor = some c' ∧ (c.bootstrapCompleted = true → c'.bootstrapCompleted = true)) :
    Grows s { s with cursor := cursor, passes := passes } where
  history := List.suffix_refl _
  evaluations := List.Subset.refl _
  atBootstrap _ := rfl
  cursor := h

/-- A step of a pass that leaves everything else. -/
theorem Sound.setPass (h : Sound configs s) {x : Pass} (hx : Fits configs s p x) :
    Sound configs (s.setPass p x) := by
  refine ⟨h.sorted, h.suffix, h.below, h.completed, fun q => ?_⟩
  have hg : Grows s (s.setPass p x) := .still fun c hc => ⟨c, hc, id⟩
  by_cases hq : q = p
  · rw [hq, System.setPass_self]
    exact hg.fits hx
  · rw [System.setPass_of_ne _ _ hq]
    exact hg.fits (h.fits q)

theorem Sound.prepend (h : Sound configs s) {tx : StarTransaction}
    (hnewest : ∀ x ∈ s.history, x.date ≤ tx.date) :
    Sound configs { s with history := tx :: s.history } := by
  have hg : Grows s { s with history := tx :: s.history } :=
    ⟨List.suffix_cons _ _, List.Subset.refl _, fun _ => rfl, fun c hc => ⟨c, hc, id⟩⟩
  refine ⟨List.pairwise_cons.mpr ⟨hnewest, h.sorted⟩,
    fun hc => (h.suffix hc).trans hg.history, fun c hc => ?_, h.completed, fun q => hg.fits (h.fits q)⟩
  exact (h.below c hc).grow hg.history.length_le

/-- The first pass creates the cursor row, and the bootstrap begins. -/
theorem Sound.startFirst (h : Sound configs s) (hcursor : s.cursor = none) {now : ℕ} :
    Sound configs (s.startPass configs p now) := by
  have hg : Grows s (s.startPass configs p now) := by
    refine ⟨List.suffix_refl _, List.Subset.refl _, fun hc => (hc hcursor).elim, fun c hc => ?_⟩
    rw [hcursor] at hc
    cases hc
  have hbase : (s.startPass configs p now).atBootstrap = s.history := if_pos hcursor
  have hnew : (s.startPass configs p now).cursor = some {} := by
    simp only [System.startPass, hcursor, Option.getD_none]
  refine h.of_grows (p := p) hg h.sorted (fun _ => hbase ▸ List.suffix_refl _) (fun c hc => ?_)
    (fun q hq => s.setPass_of_ne _ hq) ?_
  · rw [hnew] at hc
    cases hc
    exact ⟨.zero, nofun⟩
  · rw [System.startPass]
    simp only [hcursor, Option.getD_none, System.setPass_self]
    exact ⟨⟨Nat.zero_le _, nofun⟩, ⟨_, rfl, nofun⟩, List.suffix_refl _, fun _ => ⟨rfl, .zero⟩, nofun⟩

/-- A later pass continues the bootstrap, or starts from the front. -/
theorem Sound.startLater (h : Sound configs s) {c : TelegramStarsReconciliationCursor}
    (hcursor : s.cursor = some c) {now : ℕ} : Sound configs (s.startPass configs p now) := by
  have hbase : (s.startPass configs p now).atBootstrap = s.atBootstrap :=
    if_neg (by rw [hcursor]; nofun)
  have hsame : (s.startPass configs p now).cursor = some c := by
    simp only [System.startPass, hcursor, Option.getD_some]
  have hg : Grows s (s.startPass configs p now) := by
    refine ⟨List.suffix_refl _, List.Subset.refl _, fun _ => hbase, fun c' hc' => ⟨c, hsame, ?_⟩⟩
    rw [hcursor] at hc'
    cases hc'
    exact id
  refine h.of_grows (p := p) hg h.sorted (fun _ => ?_) (fun c' hc' => ?_)
    (fun q hq => s.setPass_of_ne _ hq) ?_
  · rw [hbase]
    exact h.suffix (by rw [hcursor]; nofun)
  · rw [hsame] at hc'
    cases hc'
    rw [hbase]
    exact ⟨h.below c hcursor, h.completed c hcursor⟩
  · have hpass : (s.startPass configs p now).passes p = .paging _ := s.setPass_self _ _
    rw [hpass]
    refine ⟨⟨Nat.zero_le _, fun hb => ?_⟩, ⟨c, hsame, fun hb => ?_⟩, List.suffix_refl _,
      fun hb => ?_, fun hb => ?_⟩
    all_goals simp only [hcursor, Option.getD_some, decide_eq_false_iff_not, decide_eq_true_eq,
      Bool.not_eq_true, Bool.not_eq_false] at hb ⊢
    · rw [if_pos hb, Nat.zero_mul]
    · exact hb
    · rw [hbase, if_neg (by rw [hb]; exact Bool.false_ne_true)]
      exact ⟨rfl, (h.below c hcursor).imp fun _ _ hx => .inl hx⟩
    · rw [if_pos hb]
      exact .zero

theorem fits_fetch (h : Sound configs s) (hpass : s.passes p = .paging run)
    (hpage : run.page < (configs p).maxPagesPerRun) :
    Fits configs s p (.scanning run
      (slice s.history run.runOffset (configs p).transactionPageSize)
      (slice s.history run.runOffset (configs p).transactionPageSize)) := by
  have hfits := h.fits p
  rw [hpass] at hfits
  obtain ⟨hfull, hcover⟩ := hfits
  obtain ⟨c, hc, -⟩ := hcover.cursor
  have hbase : s.atBootstrap <:+ s.history := h.suffix (by rw [hc]; nofun)
  have hboot : run.bootstrap = true → Below (Seen s) s.history s.atBootstrap run.runOffset :=
    fun hb => (hcover.boot hb).2.imp fun x _ hx => hx.resolve_right List.not_mem_nil
  have hsteady : run.bootstrap = false →
      Below (SeenBy s p) s.history run.atStart run.runOffset :=
    fun hb => (hcover.steady hb).imp fun x _ hx => hx.resolve_right List.not_mem_nil
  refine ⟨hfull, ⟨hpage, List.length_take_le _ _⟩, ⟨hcover.cursor, hcover.suffix, fun hb => ⟨?_,
    (hboot hb).page hbase⟩, fun hb => (hsteady hb).page hcover.suffix⟩, fun hb hshort => ?_,
    fun hb hshort => ?_, fun hb hold => ?_⟩
  · rw [← (hcover.boot hb).1, List.length_nil, Nat.add_zero]
  · exact ((hboot hb).page hbase).all hbase (length_le_of_short hshort)
  · exact ((hsteady hb).page hcover.suffix).all hcover.suffix (length_le_of_short hshort)
  · obtain ⟨y, hy, hlt⟩ := List.any_eq_true.mp hold
    have hsorted : s.history.Pairwise fun a b => b.date * 1000 ≤ a.date * 1000 :=
      h.sorted.imp fun hle => Nat.mul_le_mul_right 1000 hle
    exact ((hsteady hb).page hcover.suffix).newer hsorted hcover.suffix hy (of_decide_eq_true hlt)

/-- The evaluation of a transaction is recorded, and the transaction leaves the page. -/
theorem Sound.evaluate (h : Sound configs s) {tx : StarTransaction}
    (hpass : s.passes p = .scanning run transactions (tx :: rest)) (oracle : Oracle) :
    Sound configs { s.setPass p (.scanning
      { run with counters := (scanOne oracle run.counters tx).1 } transactions rest) with
        evaluations := ⟨p, tx, (scanOne oracle run.counters tx).2⟩ :: s.evaluations } := by
  generalize hs' : ({ s.setPass p (.scanning
      { run with counters := (scanOne oracle run.counters tx).1 } transactions rest) with
        evaluations := ⟨p, tx, (scanOne oracle run.counters tx).2⟩ :: s.evaluations } : System) = s'
  have hg : Grows s s' := by
    subst hs'
    exact ⟨List.suffix_refl _, List.subset_cons_self _ _, fun _ => rfl, fun c hc => ⟨c, hc, id⟩⟩
  have hby : SeenBy s' p tx := by
    subst hs'
    exact ⟨_, .head _, rfl, rfl⟩
  have hseen : Seen s' tx := by
    obtain ⟨e, he, -, htx⟩ := hby
    exact ⟨e, he, htx⟩
  have hfits := h.fits p
  rw [hpass] at hfits
  obtain ⟨hfull, hlimit, hcover, hends⟩ := hfits
  obtain ⟨c, hc, -⟩ := hcover.cursor
  have hends' := hg.ends (by rw [hc]; nofun) hends
  have hcover' := hg.cover hcover
  have hleft : ∀ {P : StarTransaction → Prop}, P tx → ∀ {x}, P x ∨ x ∈ tx :: rest →
      P x ∨ x ∈ rest := by
    rintro P htx x (hx | hx)
    · exact .inl hx
    · rcases List.mem_cons.mp hx with rfl | hx
      · exact .inl htx
      · exact .inr hx
  have hsteps : Fits configs s' p (.scanning
      { run with counters := (scanOne oracle run.counters tx).1 } transactions rest) := by
    refine ⟨hfull, hlimit, ⟨hcover'.cursor, hcover'.suffix, fun hb => ⟨?_, ?_⟩, fun hb => ?_⟩,
      fun hb hshort x hx => hleft hseen (hends'.boot hb hshort x hx),
      fun hb hshort x hx => hleft hby (hends'.short hb hshort x hx),
      fun hb hold x hx hnewer => hleft hby (hends'.older hb hold x hx hnewer)⟩
    · have ho := (hcover'.boot hb).1
      rw [List.length_cons] at ho
      change run.cursorOffset + (scanOne oracle run.counters tx).1.transactionsChecked +
        rest.length = run.runOffset + transactions.length
      rw [scanOne_checked]
      omega
    · exact (hcover'.boot hb).2.imp fun x _ hx => hleft hseen hx
    · exact (hcover'.steady hb).imp fun x _ hx => hleft hby hx
  refine h.of_grows (p := p) hg ?_ ?_ ?_ ?_ ?_ <;> subst hs'
  · exact h.sorted
  · exact h.suffix
  · intro c hc
    exact ⟨(h.below c hc).imp fun _ _ => hg.seen, fun hb x hx => hg.seen (h.completed c hc hb x hx)⟩
  · exact fun q hq => s.setPass_of_ne _ hq
  · change Fits configs _ p ((s.setPass p _).passes p)
    rw [System.setPass_self]
    exact hsteps

/-- What is left when the last transaction of a page has been evaluated. -/
structure PageDone (configs : ℕ → StarsSubscriptionConfig) (s : System) (p : ℕ) (run : PassRun)
    (transactions : List StarTransaction) : Prop where
  page : run.page < (configs p).maxPagesPerRun
  full : ¬ transactions.length < (configs p).transactionPageSize → run.bootstrap = false →
    run.runOffset + transactions.length = (run.page + 1) * (configs p).transactionPageSize
  cover : Cover s p run (run.runOffset + transactions.length) []
  ends : Ends configs s p run transactions []

theorem Sound.pageDone (h : Sound configs s) (hpass : s.passes p = .scanning run transactions []) :
    PageDone configs s p run transactions := by
  have hfits := h.fits p
  rw [hpass] at hfits
  obtain ⟨hfull, hlimit, hcover, hends⟩ := hfits
  refine ⟨hlimit.1, fun hlong hb => ?_, hcover, hends⟩
  rw [hfull.2 hb, Nat.add_mul, Nat.one_mul, Nat.le_antisymm hlimit.2 (Nat.not_lt.mp hlong)]

/-- A short page ends a pass, and so does one past the lookback window in a steady pass. -/
def EndsPass (configs : ℕ → StarsSubscriptionConfig) (p : ℕ) (run : PassRun)
    (transactions : List StarTransaction) : Prop :=
  transactions.length < (configs p).transactionPageSize ∨
    run.bootstrap = false ∧ pastLookback run.oldestRelevant transactions = true

instance : Decidable (EndsPass configs p run transactions) := instDecidableOr

theorem persistPage_pass : (s.persistPage configs p run transactions).passes p =
    if EndsPass configs p run transactions then .done (run.afterPage transactions) false
    else .paging (run.afterPage transactions) := by
  rw [System.persistPage, System.setPass_self]
  refine if_congr ?_ rfl rfl
  rw [EndsPass, decide_eq_true_eq, Bool.not_eq_true]
  rfl

/-- PERSIST: the cursor is moved over what has been evaluated. -/
theorem Sound.persistPage (h : Sound configs s)
    (hpass : s.passes p = .scanning run transactions []) :
    Sound configs (s.persistPage configs p run transactions) := by
  obtain ⟨hpage, hfull, hcover, hends⟩ := h.pageDone hpass
  obtain ⟨c, hc, hsteady⟩ := hcover.cursor
  have hnil : ∀ {P : StarTransaction → Prop} {x}, P x ∨ x ∈ ([] : List StarTransaction) → P x :=
    fun hx => hx.resolve_right List.not_mem_nil
  have hcursor' : (s.persistPage configs p run transactions).cursor =
      some ((run.afterPage transactions).advance
        (decide (transactions.length < (configs p).transactionPageSize)) c) := by
    change Option.map _ s.cursor = _
    rw [hc]
    rfl
  have hg : Grows s (s.persistPage configs p run transactions) := by
    refine ⟨List.suffix_refl _, List.Subset.refl _, fun _ => rfl, fun c' hc' => ⟨_, hcursor', ?_⟩⟩
    rw [hc] at hc'
    cases hc'
    intro hcompleted
    simp only [PassRun.advance, hcompleted, Bool.true_or]
  refine h.of_grows (p := p) hg h.sorted (fun _ => h.suffix (by rw [hc]; nofun)) (fun c' hc' => ?_)
    (fun q hq => System.setPass_of_ne _ _ hq) ?_
  · rw [hcursor'] at hc'
    cases hc'
    cases hb : run.bootstrap with
    | true =>
      obtain ⟨ho, hbelow⟩ := hcover.boot hb
      refine ⟨?_, fun hcompleted x hx => ?_⟩
      · simp only [PassRun.advance, PassRun.afterPage, hb, if_true]
        rw [List.length_nil, Nat.add_zero] at ho
        rw [ho]
        exact hbelow.imp fun _ _ => hnil
      · simp only [PassRun.advance, PassRun.afterPage, hb, Bool.true_and, Bool.or_eq_true,
          decide_eq_true_eq] at hcompleted
        rcases hcompleted with hcompleted | hshort
        · exact h.completed c hc hcompleted x hx
        · exact hnil (hends.boot hb hshort x hx)
    | false =>
      have hall := h.completed c hc (hsteady hb)
      exact ⟨of_all hall, fun _ => hall⟩
  · rw [persistPage_pass]
    split_ifs with hend
    · trivial
    · have hlong : ¬ transactions.length < (configs p).transactionPageSize :=
        fun hshort => hend (.inl hshort)
      have hcover' := hg.cover hcover
      exact ⟨⟨hpage, hfull hlong⟩, hcover'.cursor, hcover'.suffix, hcover'.boot, hcover'.steady⟩

/-- A failed request is counted, and the cursor is not reset. -/
theorem Sound.countFailure (h : Sound configs s)
    (data : TelegramStarsReconciliationCursor → TelegramStarsReconciliationCursor)
    (hdata : ∀ c, (data c).nextOffset = c.nextOffset ∧
      (data c).bootstrapCompleted = c.bootstrapCompleted) : Sound configs (s.updateCursor data) := by
  have hcursor : ∀ c', (s.updateCursor data).cursor = some c' →
      ∃ c, s.cursor = some c ∧ data c = c' := fun c' hc' => Option.map_eq_some_iff.mp hc'
  have hg : Grows s (s.updateCursor data) := by
    refine .still fun c hc => ⟨data c, ?_, fun hb => by rw [(hdata c).2, hb]⟩
    rw [hc, Option.map_some]
  refine ⟨h.sorted, fun hc => h.suffix fun hnone => hc ?_, fun c' hc' => ?_, fun c' hc' hb => ?_,
    fun q => hg.fits (h.fits q)⟩
  · rw [System.updateCursor, hnone, Option.map_none]
  · obtain ⟨c, hc, rfl⟩ := hcursor c' hc'
    rw [(hdata c).1]
    exact h.below c hc
  · obtain ⟨c, hc, rfl⟩ := hcursor c' hc'
    exact h.completed c hc ((hdata c).2 ▸ hb)

/-! ### Runs -/

theorem Sound.step (h : Sound configs s) {e : Event} (hs : s.step configs e = some s') :
    Sound configs s' := by
  cases e with
  | prepend tx =>
    rw [System.step] at hs
    split_ifs at hs with hnewest
    cases hs
    exact h.prepend hnewest
  | start p now token =>
    rw [System.step] at hs
    split_ifs at hs with hready htoken
    · cases hs
      cases hcursor : s.cursor with
      | none => exact h.startFirst hcursor
      | some c => exact h.startLater hcursor
    · cases hs
      exact h.setPass trivial
  | fetch p answered =>
    rw [System.step] at hs
    split at hs
    · rename_i run hpass
      split_ifs at hs with hpage hanswered
      · cases hs
        exact h.setPass (fits_fetch h hpass hpage)
      · cases hs
        have hcount := h.countFailure
          (fun c => { c with consecutiveFailureCount := c.consecutiveFailureCount + 1 })
          fun _ => ⟨rfl, rfl⟩
        exact hcount.setPass trivial
      · cases hs
        exact h.setPass trivial
    · cases hs
  | evaluate p oracle =>
    rw [System.step] at hs
    split at hs
    · cases hs
      exact h.evaluate ‹_› oracle
    · cases hs
  | persist p =>
    rw [System.step] at hs
    split at hs
    · cases hs
      exact h.persistPage ‹_›
    · cases hs
  | die p =>
    cases hs
    exact h.setPass trivial

/-- Before the first pass. -/
def System.start (history : List StarTransaction) : System := { history := history }

/-- Telegram lists the newest transaction first. -/
def NewestFirst (history : List StarTransaction) : Prop :=
  history.Pairwise fun a b => b.date ≤ a.date

theorem sound_start {history : List StarTransaction} (h : NewestFirst history) :
    Sound configs (.start history) :=
  ⟨h, fun hc => (hc rfl).elim, nofun, nofun, fun _ => trivial⟩

theorem Sound.reaches (h : Sound configs s) (hrun : s.Reaches configs s') : Sound configs s' := by
  induction hrun with
  | refl => exact h
  | tail e _ hs ih => exact ih.step hs

/-- What a steady pass is about: what is not older than its lookback window. -/
def PassRun.Newer (run : PassRun) (tx : StarTransaction) : Prop :=
  run.oldestRelevant ≤ tx.date * 1000

instance : DecidablePred run.Newer := fun _ => inferInstanceAs (Decidable (_ ≤ _))

/-- END: a steady pass that comes to its end has evaluated what is newer, if its pages could hold it. -/
theorem Sound.steady_end (h : Sound configs s) {e : Event} (hs : s.step configs e = some s')
    (hbefore : s.passes p ≠ .done run false) (hdone : s'.passes p = .done run false)
    (hb : run.bootstrap = false) (hcount : s'.history.countP run.Newer ≤
      (configs p).maxPagesPerRun * (configs p).transactionPageSize) :
    ∀ tx ∈ run.atStart, run.Newer tx → SeenBy s' p tx := by
  have hnil : ∀ {P : StarTransaction → Prop} {x}, P x ∨ x ∈ ([] : List StarTransaction) → P x :=
    fun hx => hx.resolve_right List.not_mem_nil
  -- a step of another pass, and one that leaves pass `p` somewhere else, is not its end
  have hset : ∀ {q : ℕ} {x : Pass}, s'.passes = Function.update s.passes q x →
      q = p ∧ x = .done run false := by
    intro q x hpasses
    rw [hpasses] at hdone
    by_cases hq : p = q
    · rw [hq, Function.update_self] at hdone
      exact ⟨hq.symm, hdone⟩
    · rw [Function.update_of_ne hq] at hdone
      exact (hbefore hdone).elim
  cases e with
  | prepend tx =>
    rw [System.step] at hs
    split_ifs at hs
    cases hs
    exact (hbefore hdone).elim
  | start q now token =>
    rw [System.step] at hs
    split_ifs at hs
    · cases hs
      cases (hset rfl).2
    · cases hs
      cases (hset rfl).2
  | fetch q answered =>
    rw [System.step] at hs
    split at hs
    · rename_i run' hpass
      split_ifs at hs with hpage
      · cases hs
        cases (hset rfl).2
      · cases hs
        cases (hset rfl).2
      · cases hs
        obtain ⟨rfl, hrun⟩ := hset rfl
        cases hrun
        have hfits := h.fits q
        rw [hpass] at hfits
        obtain ⟨⟨hpages, hoffset⟩, hcover⟩ := hfits
        have hall := hcover.steady hb
        rw [hoffset hb, Nat.le_antisymm hpages (Nat.not_lt.mp hpage)] at hall
        have hsorted : s.history.Pairwise fun a b => b.date * 1000 ≤ a.date * 1000 :=
          h.sorted.imp fun hle => Nat.mul_le_mul_right 1000 hle
        exact fun tx htx hnewer => hnil (hall.count hsorted hcover.suffix hcount tx htx hnewer)
    · cases hs
  | evaluate q oracle =>
    rw [System.step] at hs
    split at hs
    · cases hs
      cases (hset rfl).2
    · cases hs
  | persist q =>
    rw [System.step] at hs
    split at hs
    · rename_i run' transactions hpass
      cases hs
      obtain ⟨rfl, -⟩ := hset rfl
      obtain ⟨-, -, -, hends⟩ := h.pageDone hpass
      rw [persistPage_pass] at hdone
      split_ifs at hdone with hend
      cases hdone
      intro tx htx hnewer
      rcases hend with hshort | ⟨-, hold⟩
      · exact hnil (hends.short hb hshort tx htx)
      · exact hnil (hends.older hb hold tx htx hnewer)
    · cases hs
  | die q =>
    cases hs
    cases (hset rfl).2

/-- When the bootstrap is marked completed, `P` holds of the payments that existed when it started. -/
def AtCompletion (configs : ℕ → StarsSubscriptionConfig) (history : List StarTransaction)
    (P : System → StarTransaction → Prop) : Prop :=
  ∀ s, System.Reaches configs (.start history) s → ∀ c, s.cursor = some c →
    c.bootstrapCompleted = true → ∀ tx ∈ s.atBootstrap, isSubscriptionPayment tx = true → P s tx

/-- A later pass that ends so has evaluated every transaction newer than the lookback, unless more of
    them exist than its pages hold. -/
def SteadyEvaluates (configs : ℕ → StarsSubscriptionConfig) (history : List StarTransaction)
    (cursorStale : Bool) : Prop :=
  ∀ s s' e, System.Reaches configs (.start history) s → s.step configs e = some s' →
    ∀ p run, s.passes p ≠ .done run cursorStale → s'.passes p = .done run cursorStale →
    run.bootstrap = false → s'.history.countP run.Newer ≤
      (configs p).maxPagesPerRun * (configs p).transactionPageSize →
    ∀ tx ∈ run.atStart, run.Newer tx → SeenBy s' p tx

/-- A payment was evaluated without an exception. -/
def Recovered (s : System) (tx : StarTransaction) : Prop :=
  ∃ e ∈ s.evaluations, e.tx = tx ∧ e.ok = true

/-- An evaluation of a payment threw. -/
def Threw (s : System) (tx : StarTransaction) : Prop :=
  ∃ e ∈ s.evaluations, e.tx = tx ∧ e.ok = false

/-- COVERAGE: whatever comes in, fails, throws or dies, when the bootstrap is marked completed every
    payment was evaluated, and a steady pass without a failed request evaluates what is newer. -/
theorem recovery_covers (configs : ℕ → StarsSubscriptionConfig) (history : List StarTransaction)
    (hsorted : NewestFirst history) :
    AtCompletion configs history (fun s tx => Recovered s tx ∨ Threw s tx) ∧
      SteadyEvaluates configs history false := by
  refine ⟨fun s hrun c hc hcompleted tx htx _ => ?_, fun s s' e hrun hs p run => ?_⟩
  · obtain ⟨e, he, rfl⟩ := ((sound_start hsorted).reaches hrun).completed c hc hcompleted tx htx
    cases hok : e.ok with
    | true => exact .inl ⟨e, he, rfl, hok⟩
    | false => exact .inr ⟨e, he, rfl, hok⟩
  · exact ((sound_start hsorted).reaches hrun).steady_end hs

/-! A history of one payment: its evaluation throws in the bootstrap; and a later pass whose only request
    fails. -/

def onePayment : StarTransaction where
  id := "charge"
  amount := 100
  date := 0
  source := some
    { type := "user"
      transactionType := some "invoice_payment"
      invoicePayload := some "zedbot:sub:aaaaaaaaaaaaaaaa"
      subscriptionPeriod := some STARS_SUBSCRIPTION_PERIOD_SECONDS }

theorem onePayment_newest : NewestFirst [onePayment] := List.pairwise_singleton _ _

/-- A bootstrap whose evaluation throws, and a pass whose request fails. -/
def unluckyPasses : List Event :=
  [.start 0 0 true, .fetch 0 true, .evaluate 0 { recover := none }, .persist 0, .start 1 0 true,
    .fetch 1 false]

theorem reaches_exec : ∀ (es : List Event) {s' s'' : System}, s.Reaches configs s' →
    s'.exec configs es = some s'' → s.Reaches configs s''
  | [], _, _, h, hs => Option.some.inj hs ▸ h
  | e :: es, _, _, h, hs => by
    obtain ⟨s₁, hs₁, hs⟩ := Option.bind_eq_some_iff.mp hs
    exact reaches_exec es (h.tail e hs₁) hs

/-- The system after the first events of the two passes. -/
def unluckyAfter (n : ℕ) : System :=
  ((System.start [onePayment]).exec (fun _ => {}) (unluckyPasses.take n)).getD (.start [])

theorem unlucky_reached {n : ℕ} (h : ((System.start [onePayment]).exec (fun _ => {})
    (unluckyPasses.take n)).isSome) :
    System.Reaches (fun _ => {}) (.start [onePayment]) (unluckyAfter n) := by
  obtain ⟨s, hs⟩ := Option.isSome_iff_exists.mp h
  refine reaches_exec (unluckyPasses.take n) .refl ?_
  rw [unluckyAfter, hs, Option.getD_some]

/-- The locals of the second pass. -/
def steadyRun : PassRun where
  bootstrap := false
  cursorOffset := 1
  oldestRelevant := 0
  runOffset := 0
  persistentOffset := 1
  atStart := [onePayment]

/-- The bootstrap of one payment is completed, and the payment was evaluated, if not successfully. -/
theorem recovery_covers_one : ∃ s c, System.Reaches (fun _ => {}) (.start [onePayment]) s ∧
    s.cursor = some c ∧ c.bootstrapCompleted = true ∧
    (Recovered s onePayment ∨ Threw s onePayment) := by
  have hrun := unlucky_reached (n := 4) (by decide +kernel)
  have hcursor : (unluckyAfter 4).cursor = some { nextOffset := 1, bootstrapCompleted := true } := by
    decide +kernel
  refine ⟨_, _, hrun, hcursor, rfl, ?_⟩
  refine (recovery_covers (fun _ => {}) [onePayment] onePayment_newest).1 _ hrun _ hcursor rfl
    onePayment ?_ ?_ <;> decide +kernel

/-- MISSED: a payment whose evaluation threw, and one that a pass with a failed request has not seen. -/
theorem recovery_misses :
    ¬ (∀ configs history, NewestFirst history → AtCompletion configs history Recovered) ∧
      ¬ ∀ configs history, NewestFirst history → ∀ cursorStale,
        SteadyEvaluates configs history cursorStale := by
  constructor
  · intro h
    have hcursor : (unluckyAfter 4).cursor =
        some { nextOffset := 1, bootstrapCompleted := true } := by decide +kernel
    obtain ⟨e, he, -, hok⟩ := h _ [onePayment] onePayment_newest _
      (unlucky_reached (n := 4) (by decide +kernel)) _ hcursor rfl onePayment (by decide +kernel)
      (by decide +kernel)
    have hall : (unluckyAfter 4).evaluations.all (fun e => !e.ok) := by decide +kernel
    have hnot := List.all_eq_true.mp hall e he
    rw [hok] at hnot
    cases hnot
  · intro h
    have hstep : (unluckyAfter 5).step (fun _ => {}) (.fetch 1 false) = some (unluckyAfter 6) := rfl
    obtain ⟨e, he, hpass, -⟩ := h _ [onePayment] onePayment_newest true _ _ _
      (unlucky_reached (n := 5) (by decide +kernel)) hstep 1 steadyRun (by decide +kernel)
      (by decide +kernel) rfl (by decide +kernel) onePayment (.head _) (Nat.zero_le _)
    have hall : (unluckyAfter 6).evaluations.all (fun e => e.pass = 0) := by decide +kernel
    have hzero := of_decide_eq_true (List.all_eq_true.mp hall e he)
    omega

end ZedBot.Stars.Scan
