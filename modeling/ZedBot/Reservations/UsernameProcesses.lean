import ZedBot.Reservations.UsernameRules

/-! Every process of the reservations keeps the rules. -/

namespace ZedBot.Reservations
open ReadCommitted

variable {procs : ℕ → ReservationProcess} {process : ReservationProcess} {p q : ℕ}
  {s s' : ReservationStore} {t t' : ReservationTx} {v : ReservationView}

/-! ### Single statements -/

/-- The status of a reservation that a statement replaces: nothing bound ends, except for a failed
    order. -/
def KeepsBound (entries : List ReservationEntry) (id : ℕ) (r r' : ServiceUsernameReservation) :
    Prop :=
  r' = r ∨ r.status = .HELD ∨ r'.status.isActive = true ∨ FailedRelease entries id r'

/-- A statement that moves reservations on and lists the payments and orders it inserts. -/
structure MovesOn (v : ReservationView) (writes : List (Write ReservationRow))
    (entries : List ReservationEntry) : Prop where
  rows : ∀ id n, ⟨.reservation id, n⟩ ∈ writes → ∃ r r', v.rows (.reservation id) = some r ∧
    n = some r' ∧ Moves r r' ∧ KeepsBound entries id r r'
  payments : ∀ id n, ⟨.payment id, n⟩ ∈ writes → v.rows (.payment id) = none →
    .payment id ∈ entries
  orders : ∀ id n, ⟨.order id, n⟩ ∈ writes → v.rows (.order id) = none → .order id ∈ entries

/-- What a transaction of such statements has done. -/
structure MovingTx (t : ReservationTx) : Prop where
  rows : ∀ id o n, t.chg (.reservation id) = some (o, n) →
    ∃ r r', o = some r ∧ n = some r' ∧ Moves r r' ∧ (Sound r → r.status = .BOUND →
      r'.status.isActive = false → FailedRelease t.entries id r')
  payments : ∀ id o n, t.chg (.payment id) = some (o, n) → o = none → .payment id ∈ t.entries
  orders : ∀ id o n, t.chg (.order id) = some (o, n) → o = none → .order id ∈ t.entries

theorem MovingTx.empty : MovingTx {} :=
  ⟨fun _ _ _ h => (by cases h), fun _ _ _ h => (by cases h), fun _ _ _ h => by cases h⟩

/-- An inserted row of a listed table is listed by the transaction. -/
theorem listed_add {β : Type} {e : Effect ReservationRow ReservationEntry β} {k : ReservationKey}
    {absent o n : ReservationRow k} {x : ReservationEntry}
    (h : ∀ o n, t.chg k = some (o, n) → o = absent → x ∈ t.entries)
    (he : ∀ n, ⟨k, n⟩ ∈ e.writes → t.row s.rows k = absent → x ∈ e.entries)
    (hchg : (t.add s.rows e).chg k = some (o, n)) (ho : o = absent) :
    x ∈ (t.add s.rows e).entries := by
  rw [Tx.entries_add, List.mem_append]
  rcases Tx.chg_add hchg with hchg | ⟨hbase, hmem⟩
  · exact .inl (h o n hchg ho)
  · rcases Tx.chg_of_row (rfl : t.row s.rows k = t.row s.rows k) with ⟨hnone, hrow⟩ | hsome
    · exact .inr (he n hmem (hrow.symm.trans (hbase.symm.trans ho)))
    · exact .inl (h _ _ hsome (hbase.symm.trans ho))

theorem MovingTx.add {β : Type} {e : Effect ReservationRow ReservationEntry β} (h : MovingTx t)
    (he : MovesOn (s.view t) e.writes e.entries) : MovingTx (t.add s.rows e) where
  rows id o n hchg := by
    rw [Tx.entries_add]
    rcases Tx.chg_add hchg with hchg | ⟨rfl, hmem⟩
    · obtain ⟨r, r', ho, hn, hmoves, hkept⟩ := h.rows id o n hchg
      exact ⟨r, r', ho, hn, hmoves, fun hs hb ha =>
        (hkept hs hb ha).mono (List.subset_append_left _ _)⟩
    · obtain ⟨x, r', hx, rfl, hmoves, hkeeps⟩ := he.rows id n hmem
      have hrow : t.row s.rows (.reservation id) = some x := hx
      rcases Tx.chg_of_row hrow with ⟨-, hbase⟩ | hsome
      · refine ⟨x, r', hbase, rfl, hmoves, fun hs hb ha => ?_⟩
        rcases hkeeps with rfl | he | he | he
        · rw [hb] at ha
          cases ha
        · rw [hb] at he
          cases he
        · rw [ha] at he
          cases he
        · exact he.mono (List.subset_append_right _ _)
      · -- the row was changed before in the transaction
        obtain ⟨r, x', hr, hx', hmoves₀, hkept⟩ := h.rows id _ _ hsome
        cases hx'
        refine ⟨r, r', hr, rfl, hmoves₀.trans hmoves, fun hs hb ha => ?_⟩
        have hadvance := (hmoves₀ hs).2.status
        rw [hb] at hadvance
        rcases hkeeps with rfl | he | he | he
        · exact (hkept hs hb ha).mono (List.subset_append_left _ _)
        · exact absurd he hadvance.bound_to
        · rw [ha] at he
          cases he
        · exact he.mono (List.subset_append_right _ _)
  payments id o n := listed_add (h.payments id) (he.payments id)
  orders id o n := listed_add (h.orders id) (he.orders id)

theorem MovingTx.usernameTx (h : MovingTx t) (hi : Reserved s) (hheld : t.Held s.rows) :
    UsernameTx process s t where
  rows id o n hchg := by
    obtain ⟨r, r', ho, hn, hmoves, -⟩ := h.rows id o n hchg
    exact .inl ⟨r, r', ho, hn, hmoves⟩
  kept id r r' hchg hb ha := by
    obtain ⟨x, x', hx, hx', -, hkept⟩ := h.rows id _ _ hchg
    cases hx
    cases hx'
    exact .inl (hkept (hi.sound id r (hheld _ _ _ hchg).symm) hb ha)
  payments := h.payments
  orders := h.orders

theorem movingRules : StmtRules (usernames procs) p MovesOn (fun _ _ => True)
    fun _ t => MovingTx t where
  start _ := .empty
  env _ _ h := h
  add _ h he := h.add he
  commits hi hheld h := h.usernameTx hi hheld
  acts _ _ := trivial

/-! ### Updates of the table -/

theorem mem_reservationsOf {x : ℕ × ServiceUsernameReservation} (h : x ∈ reservationsOf v) :
    v.rows (.reservation x.1) = some x.2 := by
  obtain ⟨e, -, he⟩ := List.mem_filterMap.mp h
  cases e with
  | reservation id =>
    obtain ⟨r, hr, rfl⟩ := Option.map_eq_some_iff.mp he
    exact hr
  | payment id | order id | failedRelease _ _ _ => cases he

/-- A listed row is among the rows of the table. -/
theorem reservationsOf_of_mem {id : ℕ} {r : ServiceUsernameReservation}
    (hr : v.rows (.reservation id) = some r) (hmem : .reservation id ∈ v.journal) :
    (id, r) ∈ reservationsOf v :=
  List.mem_filterMap.mpr ⟨.reservation id, hmem, by simp [hr]⟩

section Update

variable {pick : ReservationView → List (ℕ × ServiceUsernameReservation)}
  {data : ServiceUsernameReservation → ServiceUsernameReservation} {note : ℕ → List ReservationEntry}
  {hits : List (ℕ × ServiceUsernameReservation)}

/-- An update writes the rows it hits, and what they give up of the index. -/
theorem mem_rowWrites {w : Write ReservationRow} (h : w ∈ hits.flatMap (rowWrites data)) :
    (∃ x ∈ hits, w = ⟨.reservation x.1, some (data x.2)⟩) ∨
      ∃ name, w = ⟨.activeUsername name, none⟩ := by
  obtain ⟨x, hx, hw⟩ := List.mem_flatMap.mp h
  rw [rowWrites, List.mem_cons] at hw
  rcases hw with rfl | hw
  · exact .inl ⟨x, hx, rfl⟩
  · split at hw
    · exact .inr ⟨_, List.mem_singleton.mp hw⟩
    · cases hw

theorem reservation_of_mem_rowWrites {id : ℕ} {n : Option ServiceUsernameReservation}
    (h : (⟨.reservation id, n⟩ : Write ReservationRow) ∈ hits.flatMap (rowWrites data)) :
    ∃ r, (id, r) ∈ hits ∧ n = some (data r) := by
  rcases mem_rowWrites h with ⟨x, hx, he⟩ | ⟨name, he⟩
  · cases he
    exact ⟨x.2, hx, rfl⟩
  · cases he

theorem MovesOn.of_hits
    (hpick : ∀ x ∈ hits, v.rows (.reservation x.1) = some x.2 ∧ Moves x.2 (data x.2) ∧
      KeepsBound (note x.1) x.1 x.2 (data x.2)) :
    MovesOn v (hits.flatMap (rowWrites data)) (hits.flatMap fun x => note x.1) where
  rows id n hmem := by
    obtain ⟨r, hx, rfl⟩ := reservation_of_mem_rowWrites hmem
    obtain ⟨hrow, hmoves, hkeeps⟩ := hpick _ hx
    refine ⟨r, data r, hrow, rfl, hmoves, hkeeps.imp_right (.imp_right (.imp_right fun h => h.mono ?_))⟩
    exact fun e he => List.mem_flatMap.mpr ⟨_, hx, he⟩
  payments id n hmem := by
    rcases mem_rowWrites hmem with ⟨x, -, he⟩ | ⟨name, he⟩ <;> cases he
  orders id n hmem := by
    rcases mem_rowWrites hmem with ⟨x, -, he⟩ | ⟨name, he⟩ <;> cases he

theorem movesOn_updateReservations {cond : ℕ → ServiceUsernameReservation → Bool}
    (h : ∀ id r, cond id r = true → Moves r (data r) ∧ KeepsBound (note id) id r (data r)) :
    (updateReservations cond data note).Each MovesOn := by
  refine .sql fun v => .of_hits fun x hx => ?_
  rw [List.mem_filter] at hx
  exact ⟨mem_reservationsOf hx.1, h x.1 x.2 hx.2⟩

/-- An update outside a transaction, with what it may end. -/
theorem accepts_updatePicked
    (hpick : ∀ v x, x ∈ pick v → v.rows (.reservation x.1) = some x.2 ∧ Moves x.2 (data x.2))
    (hkept : ∀ s x, Reserved s → x ∈ pick (s.view {}) → x.2.status = .BOUND →
      (data x.2).status.isActive = false →
      FailedRelease (note x.1) x.1 (data x.2) ∨ ¬ Protected s x.2 ∨
        ∀ t, Frees (procs p) t x.1 x.2) :
    Accepts (usernames procs) p (updatePicked pick data note) := by
  refine .sql fun _ s hi => ⟨fun id o n h => ?_, fun id r r' h hb ha => ?_, fun id o n h => ?_,
    fun id o n h => ?_⟩
  · obtain ⟨rfl, hmem⟩ := Tx.chg_add_empty h
    obtain ⟨r, hx, rfl⟩ := reservation_of_mem_rowWrites hmem
    obtain ⟨hrow, hmoves⟩ := hpick _ _ hx
    exact .inl ⟨r, data r, hrow, rfl, hmoves⟩
  · obtain ⟨hbase, hmem⟩ := Tx.chg_add_empty h
    obtain ⟨x, hx, hdata⟩ := reservation_of_mem_rowWrites hmem
    cases hdata
    cases hbase.trans (hpick _ _ hx).1
    rcases hkept s _ hi hx hb ha with hfailed | hdead | hfrees
    · refine .inl (hfailed.mono fun e he => ?_)
      rw [Tx.entries_add]
      exact List.mem_append_right _ (List.mem_flatMap.mpr ⟨_, hx, he⟩)
    · exact .inr (.inl hdead)
    · exact .inr (.inr (hfrees _))
  · obtain ⟨-, hmem⟩ := Tx.chg_add_empty h
    rcases mem_rowWrites hmem with ⟨x, -, he⟩ | ⟨name, he⟩ <;> cases he
  · obtain ⟨-, hmem⟩ := Tx.chg_add_empty h
    rcases mem_rowWrites hmem with ⟨x, -, he⟩ | ⟨name, he⟩ <;> cases he

end Update

/-- The same for an update of all rows that meet a condition. -/
theorem accepts_updateReservations {cond : ℕ → ServiceUsernameReservation → Bool}
    {data : ServiceUsernameReservation → ServiceUsernameReservation}
    (hmoves : ∀ id r, cond id r = true → Moves r (data r))
    (hkept : ∀ id r, cond id r = true → r.status = .BOUND → ∀ t, Frees (procs p) t id r) :
    Accepts (usernames procs) p (updateReservations cond data) := by
  refine accepts_updatePicked (fun v x hx => ?_) fun s x _ hx hb _ => ?_
  · rw [List.mem_filter] at hx
    exact ⟨mem_reservationsOf hx.1, hmoves x.1 x.2 hx.2⟩
  · rw [List.mem_filter] at hx
    exact .inr (.inr (hkept x.1 x.2 hx.2 hb))

/-! ### Transactions -/

theorem movesOn_claim (args : ReservationClaimArgs) (checkoutSessionId : ℕ) :
    (claimReservationForCheckout args checkoutSessionId).Each MovesOn := by
  refine .bind (.ask _) fun now => .bind (movesOn_updateReservations fun id r h => ?_) fun _ => .pure _
  simp only [ReservationClaimArgs.matches, decide_eq_true_eq] at h
  exact ⟨r.moves_boundTo _ _ h.2.2.2.2.2.2.2.1, .inr (.inr (.inl rfl))⟩

theorem movesOn_attach (args : ReservationOrderBindArgs) :
    (attachReservationToOrder args).Each MovesOn := by
  refine .bind (.ask _) fun now => .bind (movesOn_updateReservations fun id r h => ?_) fun _ => ?_
  · simp only [decide_eq_true_eq] at h
    exact ⟨r.moves_attachedTo _ _ h.2.1, .inr (.inr (.inl rfl))⟩
  · refine .ite (fun _ => .pure _) fun _ => .bind (.select _) fun already => ?_
    cases already <;> exact .pure _

theorem movesOn_bindSettled (args : ReservationOrderBindArgs) :
    (bindSettledReservation args).Each MovesOn := by
  refine .bind (movesOn_attach args) fun attached => ?_
  split <;> exact .pure _

theorem movesOn_consume (orderId serviceId : ℕ) (normalizedUsername : String) :
    (consumeReservationForOrder orderId serviceId normalizedUsername).Each MovesOn := by
  refine .bind (.ask _) fun now => .bind (movesOn_updateReservations fun id r h => ?_) fun _ => .pure _
  simp only [decide_eq_true_eq] at h
  exact ⟨r.moves_consumedBy _ _ h.1 h.2.2, .inr (.inr (.inl rfl))⟩

/-- A lock writes back the row it found. -/
theorem movesOn_lock (reservationId : ℕ) :
    (lockReservationForSettlement reservationId).Each MovesOn := by
  refine .bind (.sql fun v => ?_) fun _ => .pure _
  have hmem_iff : ∀ w ∈ (if (v.rows (.reservation reservationId)).isSome then
      [(⟨.reservation reservationId, v.rows (.reservation reservationId)⟩ : Write ReservationRow)]
      else []), (v.rows (.reservation reservationId)).isSome = true ∧
      w = ⟨.reservation reservationId, v.rows (.reservation reservationId)⟩ := by
    intro w hw
    split at hw
    · exact ⟨‹_›, List.mem_singleton.mp hw⟩
    · cases hw
  refine ⟨fun id n hmem => ?_, fun id n hmem => ?_, fun id n hmem => ?_⟩
  · obtain ⟨hsome, he⟩ := hmem_iff _ hmem
    obtain ⟨r, hr⟩ := Option.isSome_iff_exists.mp hsome
    cases he
    exact ⟨r, r, hr, hr, fun hs => ⟨hs, .refl r⟩, .inl rfl⟩
  · cases (hmem_iff _ hmem).2
  · cases (hmem_iff _ hmem).2

theorem movesOn_releaseForFailedOrder (orderId : ℕ) (checkoutSessionId : Option ℕ) :
    (releaseReservationForFailedOrder orderId checkoutSessionId).Each MovesOn := by
  refine .bind (.ask _) fun now => .bind (movesOn_updateReservations fun id r h => ?_) fun _ => .pure _
  simp only [decide_eq_true_eq] at h
  refine ⟨r.moves_released now h.1, .inr (.inr (.inr ⟨orderId, checkoutSessionId, .head _, ?_⟩))⟩
  rcases h.2 with horder | hcheckout
  · exact .inl horder
  · obtain ⟨c, hc, hr⟩ := (Option.any_eq_true _ _).mp hcheckout
    exact .inr ⟨c, hc, of_decide_eq_true hr⟩

theorem movesOn_writePayment (id : ℕ) (row : Payment) : (writePayment id row).Each MovesOn := by
  refine .sql fun v => ⟨fun id' n hmem => ?_, fun id' n hmem hnone => ?_, fun id' n hmem => ?_⟩
  · cases List.mem_singleton.mp hmem
  · cases List.mem_singleton.mp hmem
    simp [hnone]
  · cases List.mem_singleton.mp hmem

theorem movesOn_writeOrder (id : ℕ) (row : Order) : (writeOrder id row).Each MovesOn := by
  refine .sql fun v => ⟨fun id' n hmem => ?_, fun id' n hmem => ?_, fun id' n hmem hnone => ?_⟩
  · cases List.mem_singleton.mp hmem
  · cases List.mem_singleton.mp hmem
  · cases List.mem_singleton.mp hmem
    simp [hnone]

theorem movesOn_writeCheckout (id : ℕ) (row : CheckoutSession) :
    (writeCheckout id row).Each MovesOn := by
  refine .sql fun v => ⟨fun id' n hmem => ?_, fun id' n hmem => ?_, fun id' n hmem => ?_⟩
  all_goals cases List.mem_singleton.mp hmem

theorem movesOn_statement (x : ReservationStatement) : x.run.Each MovesOn := by
  cases x with
  | claim args checkoutSessionId => exact .bind (movesOn_claim args checkoutSessionId) fun _ => .pure _
  | attach args => exact movesOn_attach args
  | bindSettled args => exact .bind (movesOn_bindSettled args) fun _ => .pure _
  | consume orderId serviceId name =>
    exact .bind (movesOn_consume orderId serviceId name) fun _ => .pure _
  | lock id => exact .bind (movesOn_lock id) fun _ => .pure _
  | releaseForFailedOrder orderId checkoutSessionId =>
    exact .bind (movesOn_releaseForFailedOrder orderId checkoutSessionId) fun _ => .pure _
  | checkout id row => exact .bind (movesOn_writeCheckout id row) fun _ => .pure _
  | payment id row => exact .bind (movesOn_writePayment id row) fun _ => .pure _
  | order id row => exact .bind (movesOn_writeOrder id row) fun _ => .pure _

theorem movesOn_statements : ∀ xs, (runStatements xs).Each MovesOn
  | [] => .pure _
  | x :: xs => .bind (movesOn_statement x) fun result => by
    cases result with
    | ok _ => exact movesOn_statements xs
    | error e => exact .pure _

/-! ### Sweeps -/

/-- A sweep of rows that nothing keeps. -/
theorem accepts_expireBatches {cond : ReservationView → ServiceUsernameReservation → Bool}
    (hcond : ∀ v r, cond v r = true → r.status.isRebindable = true)
    (hkept : ∀ s r, Reserved s → cond (s.view {}) r = true → r.status = .BOUND → ¬ Protected s r)
    (now : ℕ) : ∀ n, Accepts (usernames procs) p (expireBatches cond now n)
  | 0 => .pure _
  | n + 1 => by
    have hpicked : ∀ {locked : List ℕ} {v x}, x ∈ ((reservationsOf v).filter fun r =>
        cond v r.2 ∧ r.1 ∉ locked).take SCAN_BATCH →
        v.rows (.reservation x.1) = some x.2 ∧ cond v x.2 = true := by
      intro locked v x hx
      have hx := List.mem_filter.mp (List.mem_of_mem_take hx)
      exact ⟨mem_reservationsOf hx.1, (of_decide_eq_true hx.2).1⟩
    refine .bind (.bind (.ask _) fun locked => accepts_updatePicked (fun v x hx => ?_)
      fun s x hi hx hb _ => ?_) fun affected => ?_
    · obtain ⟨hrow, hc⟩ := hpicked hx
      exact ⟨hrow, x.2.moves_expired now (hcond _ _ hc)⟩
    · exact .inr (.inl (hkept s x.2 hi (hpicked hx).2 hb))
    · split
      · exact .pure _
      · exact .bind (accepts_expireBatches hcond hkept now n) fun _ => .pure _

/-- What the sweep finds dead, nothing keeps: it reads every payment and every order. -/
theorem not_protected_of_isDeadBound {now : ℕ} {r : ServiceUsernameReservation} (hi : Reserved s)
    (h : isDeadBound now (s.view {}) r = true) : ¬ Protected s r := by
  simp only [isDeadBound, decide_eq_true_eq] at h
  obtain ⟨-, -, hdead⟩ := h
  obtain ⟨c, hc, hdead⟩ := (Option.any_eq_true _ _).mp hdead
  simp only [decide_eq_true_eq] at hdead
  obtain ⟨-, hpayment, horder, hown⟩ := hdead
  have hview : ∀ k, (s.view {}).rows k = s.rows k := fun _ => rfl
  have hjournal : (s.view {}).journal = s.journal := List.append_nil _
  rintro (⟨c', hc', ⟨id, pay, hrow, hsettleable⟩ | ⟨id, o, hrow, ho, hlive⟩⟩ | ⟨id, o, hid, hrow, hlive⟩)
  · cases hc.symm.trans hc'
    refine hpayment (List.any_eq_true.mpr ⟨.payment id, ?_, ?_⟩)
    · rw [hjournal]
      exact hi.payments id (by simp [hrow])
    · simp [hview, hrow, hsettleable]
  · cases hc.symm.trans hc'
    refine horder (List.any_eq_true.mpr ⟨.order id, ?_, ?_⟩)
    · rw [hjournal]
      exact hi.orders id (by simp [hrow])
    · simp [hview, hrow, ho, hlive]
  · exact hown (by simp [hid, hview, hrow, hlive])

theorem accepts_cleanup (now : ℕ) :
    Accepts (usernames procs) p (runReservationCleanup now) := by
  refine .bind (accepts_expireBatches (fun v r h => ?_) (fun s r _ h hb => ?_) now _) fun _ =>
    .bind (accepts_expireBatches (fun v r h => ?_) (fun s r hi h _ => ?_) now _) fun _ => .pure _
  · rw [(of_decide_eq_true h).1]
    rfl
  · rw [(of_decide_eq_true h).1] at hb
    cases hb
  · simp only [isDeadBound, decide_eq_true_eq] at h
    rw [h.1]
    rfl
  · exact not_protected_of_isDeadBound hi h

/-! ### Replacing the holds of a draft -/

/-- `toRelease` are holds of the draft on the panel, among them all that are HELD. -/
structure Known (args : ReserveArgs) (toRelease : List ℕ) (s : ReservationStore) : Prop where
  held : ∀ id r, s.rows (.reservation id) = some r → args.owns r = true → r.status = .HELD →
    id ∈ toRelease
  owned : ∀ id ∈ toRelease, ∃ r, s.rows (.reservation id) = some r ∧ args.owns r = true

variable {args : ReserveArgs} {toRelease : List ℕ}
  {D : Discipline ReservationRow ReservationEntry Unit}

/-- Nobody obtains another hold of the draft while its lock is held. -/
theorem Known.step {r : List ReservationStore} (h : Known args toRelease s) (hi : Reserved s)
    (hst : (usernames procs).Step q r s s')
    (hlock : s'.rows (.draftLock args.userId (args.draftNonce.getD "")) =
      s.rows (.draftLock args.userId (args.draftNonce.getD ""))) : Known args toRelease s' := by
  cases hst with
  | act w _ => exact ⟨h.held, h.owned⟩
  | commit t hheld ht =>
    have ht : UsernameTx (procs q) s t := ht
    refine ⟨fun id r' hr' howns hstatus => ?_, fun id hid => ?_⟩
    · rcases s.commit_rows q hheld (.reservation id) with ⟨he, -⟩ | hchg
      · exact h.held id r' (he.symm.trans hr') howns hstatus
      · rw [hr'] at hchg
        rcases ht.rows id _ _ hchg with ⟨x, x', hx, hx', hmoves⟩ | ⟨-, args', now, -, hn, hobtains⟩
        · cases hx'
          have hmove := (hmoves (hi.sound id x hx)).2
          rw [hmove.owns] at howns
          have hadvance := hmove.status
          rw [hstatus] at hadvance
          exact h.held id x hx howns hadvance.to_held
        · -- an insertion for this draft would have moved its lock
          cases hn
          obtain ⟨huser, hnonce, -⟩ : args'.userId = args.userId ∧
            args'.draftNonce = args.draftNonce ∧ args'.panelId = args.panelId :=
            of_decide_eq_true howns
          obtain ⟨k, hk⟩ := hobtains.locked
          rw [huser, hnonce] at hk
          rcases s.commit_rows q hheld (.draftLock args.userId (args.draftNonce.getD "")) with
            ⟨-, hnone⟩ | hsome
          · rw [hk] at hnone
            cases hnone
          · rw [hlock, hk] at hsome
            obtain ⟨hold, hnew⟩ := Prod.mk.inj (Option.some.inj hsome)
            exact absurd (hnew.trans hold.symm) (Nat.succ_ne_self k)
    · obtain ⟨r, hr, howns⟩ := h.owned id hid
      rcases s.commit_rows q hheld (.reservation id) with ⟨he, -⟩ | hchg
      · exact ⟨r, he.trans hr, howns⟩
      · rcases ht.rows id _ _ hchg with ⟨x, x', hx, hx', hmoves⟩ | ⟨hnone, -⟩
        · cases hx.symm.trans hr
          exact ⟨x', hx', ((hmoves (hi.sound id r hr)).2.owns).trans howns⟩
        · rw [hr] at hnone
          cases hnone

theorem Known.later {ks : ReservationKey → Prop} (h : Known args toRelease s)
    (hl : (usernames procs).Later p ks s s') (hi : Reserved s)
    (hk : ks (.draftLock args.userId (args.draftNonce.getD ""))) : Known args toRelease s' :=
  hl.stable_spared (fun _ hi hst hspare h => h.step hi hst (hspare _ hk)) hi h

/-- A transaction that has locked the draft and done nothing else. -/
structure DraftLocked (args : ReserveArgs) (t : ReservationTx) : Prop where
  locked : ∃ k, t.chg (.draftLock args.userId (args.draftNonce.getD "")) = some (k, k + 1)
  others : ∀ k, k ≠ .draftLock args.userId (args.draftNonce.getD "") → t.chg k = none
  entries : t.entries = []

theorem wp_lockDraft {r : List ReservationStore}
    {Q : ℕ → ReservationLocal → ReservationStore → Prop}
    (hQ : ∀ s' t, D.Inv s' → DraftLocked args t → Q 1 ⟨some t, r⟩ s') :
    wp D p (lockDraft args.userId args.draftNonce) Q ⟨some {}, r⟩ s := by
  refine wp_update_tx fun s' _ hi _ => ⟨fun hnone => (nomatch hnone), fun n hn => ?_⟩
  cases hn
  exact hQ s' _ hi ⟨⟨_, Tx.chg_write_self _ _⟩, fun k hk => Tx.chg_write_ne _ hk, rfl⟩

theorem DraftLocked.movingTx (h : DraftLocked args t) : MovingTx t where
  rows id o n hchg := by
    rw [h.others _ (by simp)] at hchg
    cases hchg
  payments id o n hchg := by
    rw [h.others _ (by simp)] at hchg
    cases hchg
  orders id o n hchg := by
    rw [h.others _ (by simp)] at hchg
    cases hchg

/-- What a replacement has done once the new hold is inserted. -/
structure Inserted (args : ReserveArgs) (id now : ℕ) (t : ReservationTx) : Prop where
  row : t.chg (.reservation id) = some (none, some (args.hold now))
  others : ∀ id' ≠ id, t.chg (.reservation id') = none
  locked : ∃ k, t.chg (.draftLock args.userId (args.draftNonce.getD "")) = some (k, k + 1)
  payments : ∀ id', t.chg (.payment id') = none
  orders : ∀ id', t.chg (.order id') = none
  entries : t.entries = [.reservation id]

/-- The insertion violates a unique index, or obtains the hold. -/
theorem wp_createReservation {r : List ReservationStore} {id now : ℕ}
    {Q : Bool → ReservationLocal → ReservationStore → Prop} (h : DraftLocked args t)
    (hfalse : ∀ l s', D.Inv s' → Q false l s')
    (htrue : ∀ s' t', D.Later p t.Holds s s' → D.Inv s' →
      s'.rows (.reservation id) = none → Inserted args id now t' → Q true ⟨some t', r⟩ s') :
    wp D p (createReservation id (args.hold now)) Q ⟨some t, r⟩ s := by
  refine wp_sql_tx fun s' hl hi _ => ?_
  have hrow : (s'.view t).rows (.reservation id) = s'.rows (.reservation id) :=
    Tx.row_of_chg (h.others _ (by simp))
  split
  · rename_i hnone _
    rw [hrow] at hnone
    have hkept : ∀ k, k ≠ .reservation id → k ≠ .activeUsername (args.hold now).normalizedUsername →
        (t.add s'.rows (⟨true, [⟨.reservation id, some (args.hold now)⟩,
          ⟨.activeUsername (args.hold now).normalizedUsername, some id⟩], [.reservation id]⟩ :
          Effect ReservationRow ReservationEntry Bool)).chg k = t.chg k :=
      fun k hk hk' => Tx.chg_add_of_notMem (by simp [hk, hk'])
    refine htrue s' _ hl hi hnone ⟨?_, fun id' hne => ?_, ?_, fun id' => ?_, fun id' => ?_, ?_⟩
    · have hbase : t.base s'.rows (.reservation id) = none :=
        (Tx.base_of_chg (h.others _ (by simp))).trans hnone
      simp [Tx.add, hbase]
    · rw [hkept _ (by simpa using hne) (by simp), h.others _ (by simp)]
    · obtain ⟨k, hk⟩ := h.locked
      exact ⟨k, by rw [hkept _ (by simp) (by simp), hk]⟩
    · rw [hkept _ (by simp) (by simp), h.others _ (by simp)]
    · rw [hkept _ (by simp) (by simp), h.others _ (by simp)]
    · rw [Tx.entries_add, h.entries]
      rfl
  · exact hfalse _ _ hi

/-- An update inside a transaction hits the rows that it sees. -/
theorem wp_updateReservations {r : List ReservationStore}
    {cond : ℕ → ServiceUsernameReservation → Bool}
    {data : ServiceUsernameReservation → ServiceUsernameReservation} {note : ℕ → List ReservationEntry}
    {Q : ℕ → ReservationLocal → ReservationStore → Prop}
    (h : ∀ s' (hits : List (ℕ × ServiceUsernameReservation))
      (e : Effect ReservationRow ReservationEntry ℕ),
      D.Later p t.Holds s s' → D.Inv s' →
      (∀ x, x ∈ hits ↔ x ∈ reservationsOf (s'.view t) ∧ cond x.1 x.2 = true) →
      e.writes = hits.flatMap (rowWrites data) → e.entries = hits.flatMap (fun x => note x.1) →
      Q e.result ⟨some (t.add s'.rows e), r⟩ s') :
    wp D p (updateReservations cond data note) Q ⟨some t, r⟩ s :=
  wp_sql_tx fun s' hl hi _ => h s' _ _ hl hi (fun _ => List.mem_filter) rfl rfl

/-- What it has done once the other holds are released too. -/
structure Replaced (args : ReserveArgs) (toRelease : List ℕ) (id now : ℕ) (t : ReservationTx) :
    Prop where
  row : t.chg (.reservation id) = some (none, some (args.hold now))
  others : ∀ id' o n, id' ≠ id → t.chg (.reservation id') = some (o, n) →
    id' ∈ toRelease ∧ ∃ r now', o = some r ∧ n = some (r.released now') ∧ r.status.isRebindable = true
  locked : ∃ k, t.chg (.draftLock args.userId (args.draftNonce.getD "")) = some (k, k + 1)
  payments : ∀ id', t.chg (.payment id') = none
  orders : ∀ id', t.chg (.order id') = none
  entries : t.entries = [.reservation id]

/-- A reservation that is no longer HELD. -/
def Unheld (id : ℕ) (s : ReservationStore) : Prop :=
  ∃ r, s.rows (.reservation id) = some r ∧ r.status ≠ .HELD

theorem Unheld.step {r : List ReservationStore} {id : ℕ} (h : Unheld id s) (hi : Reserved s)
    (hst : (usernames procs).Step q r s s') : Unheld id s' := by
  obtain ⟨r, hr, hstatus⟩ := h
  cases hst with
  | act w _ => exact ⟨r, hr, hstatus⟩
  | commit t hheld ht =>
    have ht : UsernameTx (procs q) s t := ht
    rcases s.commit_rows q hheld (.reservation id) with ⟨he, -⟩ | hchg
    · exact ⟨r, he.trans hr, hstatus⟩
    · rcases ht.rows id _ _ hchg with ⟨x, x', hx, hx', hmoves⟩ | ⟨hnone, -⟩
      · cases hx.symm.trans hr
        refine ⟨x', hx', fun hheld => hstatus ?_⟩
        have hadvance := (hmoves (hi.sound id r hr)).2.status
        rw [hheld] at hadvance
        exact hadvance.to_held
      · rw [hr] at hnone
        cases hnone

theorem Unheld.later {ks : ReservationKey → Prop} {id : ℕ} (h : Unheld id s)
    (hl : (usernames procs).Later p ks s s') (hi : Reserved s) : Unheld id s' :=
  hl.stable (fun _ hi hst h => h.step hi hst) hi h

/-- The release of the other holds, which are read again by it. -/
theorem Inserted.release {id now now' : ℕ} {hits : List (ℕ × ServiceUsernameReservation)}
    {e : Effect ReservationRow ReservationEntry ℕ} (h : Inserted args id now t)
    (hknown : Known args toRelease s) (hnew : id ∉ toRelease)
    (hhits : ∀ x, x ∈ hits ↔ x ∈ reservationsOf (s.view t) ∧
      decide (x.1 ∈ toRelease ∧ x.2.status.isRebindable = true) = true)
    (hi : Reserved s) (hwrites : e.writes = hits.flatMap (rowWrites (.released now')))
    (hentries : e.entries = []) :
    Replaced args toRelease id now (t.add s.rows e) ∧ ∀ id' ∈ toRelease,
      (t.add s.rows e).chg (.reservation id') = none → Unheld id' s := by
  have hkept : ∀ k, (∀ id', k = .reservation id' → id' = id) → (∀ name, k ≠ .activeUsername name) →
      (t.add s.rows e).chg k = t.chg k := by
    intro k hk hname
    refine Tx.chg_add_of_notMem fun hmem => ?_
    obtain ⟨w, hw, rfl⟩ := List.mem_map.mp hmem
    rw [hwrites] at hw
    rcases mem_rowWrites hw with ⟨x, hx, rfl⟩ | ⟨name, rfl⟩
    · exact hnew (hk _ rfl ▸ (of_decide_eq_true ((hhits x).mp hx).2).1)
    · exact hname name rfl
  refine ⟨⟨?_, fun id' o n hne hchg => ?_, ?_, fun id' => ?_, fun id' => ?_, ?_⟩,
    fun id' hid hnone => ?_⟩
  · rw [hkept _ (fun id' he => by cases he; rfl) (by simp)]
    exact h.row
  · rcases Tx.chg_add hchg with hchg | ⟨hbase, hmem⟩
    · rw [h.others id' hne] at hchg
      cases hchg
    · rw [hwrites] at hmem
      obtain ⟨r, hx, rfl⟩ := reservation_of_mem_rowWrites hmem
      obtain ⟨hlisted, hc⟩ := (hhits _).mp hx
      obtain ⟨hid, hstatus⟩ := of_decide_eq_true hc
      have hrow : t.row s.rows (.reservation id') = some r := mem_reservationsOf hlisted
      rw [Tx.row_of_chg (h.others id' hne)] at hrow
      rw [Tx.base_of_chg (h.others id' hne), hrow] at hbase
      exact ⟨hid, r, now', hbase, rfl, hstatus⟩
  · obtain ⟨k, hk⟩ := h.locked
    exact ⟨k, by rw [hkept _ (by simp) (by simp), hk]⟩
  · rw [hkept _ (by simp) (by simp), h.payments]
  · rw [hkept _ (by simp) (by simp), h.orders]
  · rw [Tx.entries_add, h.entries, hentries, List.append_nil]
  · obtain ⟨r, hr, -⟩ := hknown.owned id' hid
    refine ⟨r, hr, fun hstatus => ?_⟩
    have hne : id' ≠ id := fun he => hnew (he ▸ hid)
    have hview : (s.view t).rows (.reservation id') = some r :=
      (Tx.row_of_chg (h.others id' hne)).trans hr
    have hlisted : (id', r) ∈ reservationsOf (s.view t) :=
      reservationsOf_of_mem hview (List.mem_append_left _ (hi.reservations id' (by simp [hr])))
    have hhit : (id', r) ∈ hits := (hhits _).mpr ⟨hlisted, decide_eq_true ⟨hid, by rw [hstatus]; rfl⟩⟩
    have hholds : (t.add s.rows e).Holds (.reservation id') := by
      refine Tx.holds_add.mpr (.inl (List.mem_map.mpr
        ⟨⟨.reservation id', some (r.released now')⟩, ?_, rfl⟩))
      rw [hwrites]
      exact List.mem_flatMap.mpr ⟨_, hhit, .head _⟩
    exact hholds hnone

/-- A replacement may be committed. -/
theorem Replaced.usernameTx {id now : ℕ} (h : Replaced args toRelease id now t)
    (hknown : Known args toRelease s) (hheld : t.Held s.rows)
    (hrest : ∀ id' ∈ toRelease, t.chg (.reservation id') = none → Unheld id' s) :
    UsernameTx (.reserve args) s t where
  rows id' o n hchg := by
    rcases eq_or_ne id' id with rfl | hne
    · rw [h.row] at hchg
      cases hchg
      refine .inr ⟨rfl, args, now, rfl, rfl, ?_, h.locked, fun id'' n hchg => ?_,
        fun id'' r hr hstatus howns => ?_⟩
      · rw [h.entries]
        exact .head _
      · by_contra hne
        obtain ⟨-, r, now', ho, -⟩ := h.others id'' _ _ hne hchg
        cases ho
      · have hid := hknown.held id'' r hr howns hstatus
        cases hchg : t.chg (.reservation id'') with
        | none =>
          obtain ⟨r', hr', hstatus'⟩ := hrest id'' hid hchg
          cases hr.symm.trans hr'
          exact absurd hstatus hstatus'
        | some c =>
          obtain ⟨o, n⟩ := c
          have hbase := hheld _ _ _ hchg
          have hne : id'' ≠ id' := by
            rintro rfl
            rw [h.row] at hchg
            cases hchg
            rw [hr] at hbase
            cases hbase
          obtain ⟨-, r', now', ho, hn, -⟩ := h.others id'' o n hne hchg
          rw [hr] at hbase
          cases ho.symm.trans hbase
          exact ⟨r.released now', by rw [ho, hn], nofun⟩
    · obtain ⟨-, r, now', ho, hn, hstatus⟩ := h.others id' o n hne hchg
      exact .inl ⟨r, r.released now', ho, hn, r.moves_released now' hstatus⟩
  kept id' r r' hchg _ _ := by
    rcases eq_or_ne id' id with rfl | hne
    · rw [h.row] at hchg
      cases hchg
    · obtain ⟨hid, -⟩ := h.others id' _ _ hne hchg
      obtain ⟨r₀, hr₀, howns⟩ := hknown.owned id' hid
      cases (hheld _ _ _ hchg).trans hr₀
      refine .inr (.inr ⟨howns, id, ?_⟩)
      rw [h.entries]
      exact .head _
  payments id' o n hchg := by
    rw [h.payments] at hchg
    cases hchg
  orders id' o n hchg := by
    rw [h.orders] at hchg
    cases hchg

theorem movesOn_refreshHold (id : ℕ) : (refreshHold id).Each MovesOn := by
  refine .bind (.ask _) fun now => movesOn_updateReservations fun id' r h => ?_
  exact ⟨r.moves_refreshed now, .inr (.inl (of_decide_eq_true h).2)⟩

/-- The holds that the transaction reads under the lock. -/
theorem DraftLocked.known (h : DraftLocked args t) (hi : Reserved s) :
    Known args ((((reservationsOf (s.view t)).filter fun r =>
      args.owns r.2 ∧ r.2.status.isRebindable)).map (·.1)) s := by
  have hrow : ∀ id, (s.view t).rows (.reservation id) = s.rows (.reservation id) :=
    fun id => Tx.row_of_chg (h.others _ (by simp))
  refine ⟨fun id r hr howns hstatus => ?_, fun id hid => ?_⟩
  · refine List.mem_map.mpr ⟨(id, r), List.mem_filter.mpr ⟨?_, ?_⟩, rfl⟩
    · exact reservationsOf_of_mem ((hrow id).trans hr)
        (List.mem_append_left _ (hi.reservations id (by simp [hr])))
    · simp [howns, hstatus, ServiceUsernameReservationStatus.isRebindable]
  · obtain ⟨x, hx, rfl⟩ := List.mem_map.mp hid
    obtain ⟨hlisted, hc⟩ := List.mem_filter.mp hx
    exact ⟨x.2, (hrow _).symm.trans (mem_reservationsOf hlisted), (of_decide_eq_true hc).1⟩

/-- REPLACE: under the lock of the draft the new hold is obtained and the others released. -/
theorem accepts_replaceHolds (hp : procs p = .reserve args) :
    Accepts (usernames procs) p (replaceHolds args) := by
  refine .transaction_pending fun r s _ => (wp_seq _ _).mpr (wp_lockDraft fun s₁ t₁ hi₁ ht₁ => ?_)
  refine (wp_seq _ _).mpr (wp_select _ fun s₂ hl₂ hi₂ => ?_)
  have hknown := ht₁.known hi₂
  dsimp only [Local.pending, Local.read, Option.getD_some]
  generalize hactive : (reservationsOf (s₂.view t₁)).filter _ = currentActive
  rw [hactive] at hknown
  have hlocked : t₁.Holds (.draftLock args.userId (args.draftNonce.getD "")) := by
    obtain ⟨k, hk⟩ := ht₁.locked
    simp [Tx.Holds, hk]
  split
  · refine (wp_seq _ _).mpr (wp_mono _ (fun _ l s hx => ?_)
      (movingRules.wp_each (movesOn_refreshHold _) hi₂ ht₁.movingTx))
    exact fun s' _ hi' hheld => hx.2.usernameTx hi' hheld
  · refine (wp_seq _ _).mpr (wp_ask _ fun c => (wp_seq _ _).mpr (wp_ask _ fun c' =>
      (wp_seq _ _).mpr (wp_createReservation ht₁ (fun _ _ _ => trivial)
        fun s₃ t₂ hl₃ hi₃ hnone ht₂ => ?_)))
    have hknown₃ := hknown.later hl₃ hi₂ hlocked
    have hnew : c.id ∉ currentActive.map (·.1) := by
      intro hmem
      obtain ⟨r, hr, -⟩ := hknown₃.owned _ hmem
      rw [hnone] at hr
      cases hr
    have hlocked₂ : t₂.Holds (.draftLock args.userId (args.draftNonce.getD "")) := by
      obtain ⟨k, hk⟩ := ht₂.locked
      simp [Tx.Holds, hk]
    refine (wp_seq _ _).mpr (wp_ask _ fun c'' => (wp_seq _ _).mpr
      (wp_updateReservations fun s₄ hits e hl₄ hi₄ hhits hwrites hentries => ?_))
    have hknown₄ := hknown₃.later hl₄ hi₃ hlocked₂
    obtain ⟨ht₃, hrest⟩ := ht₂.release hknown₄ hnew hhits hi₄ hwrites
      (hentries.trans (List.flatMap_eq_nil_iff.mpr fun _ _ => rfl))
    refine (wp_seq _ _).mpr (wp_ask _ fun c₅ => ?_)
    split
    · trivial
    · intro s₅ hl₅ hi₅ hheld
      have hlocked₃ : Tx.Holds (t₂.add s₄.rows e)
          (.draftLock args.userId (args.draftNonce.getD "")) := by
        obtain ⟨k, hk⟩ := ht₃.locked
        simp [Tx.Holds, hk]
      have hc : UsernameTx (procs p) s₅ (t₂.add s₄.rows e) := by
        rw [hp]
        exact ht₃.usernameTx (hknown₄.later hl₅ hi₄ hlocked₃) hheld fun id' hid hchg =>
          (hrest id' hid hchg).later hl₅ hi₄
      exact hc

/-- The check of the availability only reads. -/
theorem accepts_check (active : Bool) (name : String) (userId : ℕ) (nonce : Option String) :
    Accepts D p (checkServiceUsernameAvailability active name userId nonce) := by
  rw [checkServiceUsernameAvailability]
  split
  · exact .pure _
  split
  · exact .pure _
  refine .bind (.ask _) fun taken => ?_
  split
  · exact .pure _
  refine .bind (.select _) fun heldByOther => ?_
  split
  · exact .pure _
  refine .bind (.ask _) fun probe => ?_
  cases probe <;> exact .pure _

/-- RESERVE: outside the replacement it only renews a hold of its own. -/
theorem accepts_reserve (hp : procs p = .reserve args) :
    Accepts (usernames procs) p (reserveServiceUsername args) := by
  have hrefresh : ∀ id, Accepts (usernames procs) p (refreshHold id) := fun id =>
    .bind (.ask _) fun now => accepts_updateReservations
      (fun _ r h => r.moves_refreshed now) fun _ r h hb => by
        rw [(of_decide_eq_true h).2] at hb
        cases hb
  rw [reserveServiceUsername]
  split
  · exact .pure _
  · refine .bind (.ask _) fun panelActive => ?_
    split
    · exact .pure _
    · refine .bind (.select _) fun priorActive => ?_
      split
      · split
        · exact .pure _
        · exact .bind (hrefresh _) fun _ => .pure _
      · refine .bind (accepts_check _ _ _ _) fun availability => ?_
        split
        · exact .pure _
        · refine .bind (accepts_replaceHolds hp) fun created => ?_
          split <;> exact .pure _

/-- A release of rows that are HELD. -/
theorem accepts_releaseHeld {cond : ℕ → ServiceUsernameReservation → Bool}
    (h : ∀ id r, cond id r = true → r.status = .HELD) (now : ℕ) :
    Accepts (usernames procs) p (updateReservations cond (.released now)) := by
  refine accepts_updateReservations (fun id r hc => r.moves_released now ?_) fun id r hc hb => ?_
  · rw [h id r hc]
    rfl
  · rw [h id r hc] at hb
    cases hb

/-- Every process keeps the rules. -/
theorem accepts_process (p : ℕ) : Accepts (usernames procs) p (procs p).program := by
  cases hp : procs p with
  | reserve args => exact .bind (accepts_reserve hp) fun _ => .pure _
  | transaction statements =>
    exact .bind (movingRules.accepts_transaction (movesOn_statements statements)) fun _ => .pure _
  | releaseHeld userId draftNonce id =>
    refine .bind (.ask _) fun now => .bind (accepts_releaseHeld (fun id' r h => ?_) now) fun _ => .pure _
    exact (of_decide_eq_true h).2.2.2
  | releaseDraft userId draftNonce =>
    refine .bind (.ask _) fun now => .bind (accepts_releaseHeld (fun id' r h => ?_) now) fun _ => .pure _
    exact (of_decide_eq_true h).2.2
  | release id =>
    refine .bind (.ask _) fun now => .bind (accepts_updateReservations
      (fun id' r h => r.moves_released now (of_decide_eq_true h).2) fun id' r h _ t => ?_) fun _ => .pure _
    rw [hp]
    exact (of_decide_eq_true h).1
  | cleanup now => exact .bind (accepts_cleanup now) fun _ => .pure _

end ZedBot.Reservations
