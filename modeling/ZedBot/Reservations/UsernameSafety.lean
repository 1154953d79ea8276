import ZedBot.Reservations.UsernameProcesses

/-! The reservations of usernames are safe, except where a draft reserves on a second panel, or reserves
    again after its reservation was bound and paid for. -/

namespace ZedBot.Reservations
open ReadCommitted

variable {procs : ℕ → ReservationProcess} {p : ℕ} {r : List ReservationStore}
  {s s' : ReservationStore} {t : ReservationTx}

/-! ### The condition -/

/-- `Protected`, read off the listed rows. -/
def isProtected (s : ReservationStore) (r : ServiceUsernameReservation) : Bool :=
  (r.checkoutSessionId.any fun c => hasSettleablePayment c (s.view {}) || hasLiveOrder c (s.view {})) ||
    r.orderId.any fun o => (s.rows (.order o)).any isLive

theorem Protected.isProtected {r : ServiceUsernameReservation} (hi : Reserved s)
    (h : Protected s r) : isProtected s r = true := by
  have hjournal : (s.view {}).journal = s.journal := List.append_nil _
  rw [Reservations.isProtected, Bool.or_eq_true]
  rcases h with ⟨c, hc, hkeeps⟩ | ⟨id, o, hid, hrow, hlive⟩
  · refine .inl ?_
    rw [hc, Option.any_some, Bool.or_eq_true]
    rcases hkeeps with ⟨id, pay, hrow, hsettleable⟩ | ⟨id, o, hrow, ho, hlive⟩
    · refine .inl (List.any_eq_true.mpr ⟨.payment id, ?_, ?_⟩)
      · rw [hjournal]
        exact hi.payments id (by simp [hrow])
      · simp [Store.view, hrow, hsettleable]
    · refine .inr (List.any_eq_true.mpr ⟨.order id, ?_, ?_⟩)
      · rw [hjournal]
        exact hi.orders id (by simp [hrow])
      · simp [Store.view, hrow, ho, hlive]
  · exact .inr (by simp [hid, hrow, hlive])

/-- A step inserts a reservation. -/
def inserts (s s' : ReservationStore) : Bool :=
  (s'.journal.drop s.journal.length).any fun
    | .reservation _ => true
    | _ => false

/-- A new hold of a draft finds the other holds of the draft on its own panel, and none of its bound
    reservations there is still paid for; a plain release finds no bound reservation that is. -/
def keepsDrafts (procs : ℕ → ReservationProcess) (p : ℕ) (s s' : ReservationStore) : Bool :=
  match procs p with
  | .reserve args => ¬ inserts s s' ∨ (reservationsOf (s.view {})).all fun x =>
    (x.2.status = .HELD ∧ x.2.userId = args.userId ∧ x.2.draftNonce = args.draftNonce →
      x.2.panelId = args.panelId) ∧
    (x.2.status = .BOUND ∧ args.owns x.2 → ¬ isProtected s x.2)
  | .release id => s'.log.length = s.log.length ∨ ¬ (s.rows (.reservation id)).any fun r =>
    r.status = .BOUND ∧ isProtected s r
  | _ => true

/-! ### The laws -/

/-- Every key is the username exactly while the reservation is active. -/
def KeysActive (s : ReservationStore) : Prop := ∀ id r, s.rows (.reservation id) = some r →
  r.activeUsernameKey = if r.status.isActive then some r.normalizedUsername else none

/-- Reservations begin HELD, stay, and only move on. -/
def StatusesAdvance (s s' : ReservationStore) : Prop :=
  (∀ id r, s.rows (.reservation id) = some r →
    ∃ r', s'.rows (.reservation id) = some r' ∧ Advance r.status r'.status) ∧
  ∀ id r', s.rows (.reservation id) = none → s'.rows (.reservation id) = some r' → r'.status = .HELD

/-- At most one reservation of a draft is HELD. -/
def OneHeld (s : ReservationStore) : Prop := ∀ id id' r r', s.rows (.reservation id) = some r →
  s.rows (.reservation id') = some r' → r.status = .HELD → r'.status = .HELD → r.userId = r'.userId →
  r.draftNonce = r'.draftNonce → id = id'

/-- A bound reservation that is paid for ends only with its failed order. -/
def BoundKept (s s' : ReservationStore) : Prop := ∀ id r r', s.rows (.reservation id) = some r →
  s'.rows (.reservation id) = some r' → r.status = .BOUND → Protected s r →
  r'.status.isActive = false → FailedRelease (s'.journal.drop s.journal.length) id r'

theorem UsernameTx.statusesAdvance (h : UsernameTx (procs p) s t) (hi : Reserved s)
    (hheld : t.Held s.rows) : StatusesAdvance s (s.commit p t) := by
  refine ⟨fun id x hx => ?_, fun id x' hnone hx' => ?_⟩
  · rcases s.commit_rows p hheld (.reservation id) with ⟨he, -⟩ | hchg
    · exact ⟨x, he.trans hx, .refl⟩
    · rcases h.rows id _ _ hchg with ⟨y, y', hy, hy', hmoves⟩ | ⟨hnone, -⟩
      · cases hy.symm.trans hx
        exact ⟨y', hy', (hmoves (hi.sound id x hx)).2.status⟩
      · rw [hx] at hnone
        cases hnone
  · rcases s.commit_rows p hheld (.reservation id) with ⟨he, -⟩ | hchg
    · rw [he, hnone] at hx'
      cases hx'
    · rcases h.rows id _ _ hchg with ⟨y, y', hy, -⟩ | ⟨-, args, now, -, hn, -⟩
      · rw [hnone] at hy
        cases hy
      · cases hx'.symm.trans hn
        rfl

/-- A reservation that is HELD was HELD before, or the process has obtained it. -/
theorem UsernameTx.held_from (h : UsernameTx (procs p) s t) (hi : Reserved s)
    (hheld : t.Held s.rows) {id : ℕ} {x' : ServiceUsernameReservation}
    (hx' : (s.commit p t).rows (.reservation id) = some x') (hstatus : x'.status = .HELD) :
    (∃ x, s.rows (.reservation id) = some x ∧ x.status = .HELD ∧ Move x x') ∨
      ∃ args now, procs p = .reserve args ∧ x' = args.hold now ∧ Obtains args s t id ∧
        t.chg (.reservation id) = some (none, some x') := by
  rcases s.commit_rows p hheld (.reservation id) with ⟨he, -⟩ | hchg
  · exact .inl ⟨x', he.symm.trans hx', hstatus, .refl x'⟩
  · rcases h.rows id _ _ hchg with ⟨x, y', hx, hy', hmoves⟩ | ⟨hnone, args, now, hp, hn, hobtains⟩
    · cases hx'.symm.trans hy'
      have hmove := (hmoves (hi.sound id x hx)).2
      have hadvance := hmove.status
      rw [hstatus] at hadvance
      exact .inl ⟨x, hx, hadvance.to_held, hmove⟩
    · rw [hnone, hx'] at hchg
      cases hx'.symm.trans hn
      exact .inr ⟨args, now, hp, rfl, hobtains, hchg⟩

theorem mem_view_reservations {id : ℕ} {x : ServiceUsernameReservation} (hi : Reserved s)
    (hx : s.rows (.reservation id) = some x) : (id, x) ∈ reservationsOf (s.view {}) :=
  reservationsOf_of_mem hx (List.mem_append_left _ (hi.reservations id (by simp [hx])))

/-- What the condition says of a process that obtains a hold. -/
theorem keepsDrafts_reserve {args : ReserveArgs} (hi : Reserved s) (hp : procs p = .reserve args)
    (hC : keepsDrafts procs p s (s.commit p t) = true) {new : ℕ} (hnew : .reservation new ∈ t.entries)
    {id : ℕ} {x : ServiceUsernameReservation} (hx : s.rows (.reservation id) = some x) :
    (x.status = .HELD ∧ x.userId = args.userId ∧ x.draftNonce = args.draftNonce →
      x.panelId = args.panelId) ∧ (x.status = .BOUND ∧ args.owns x → ¬ isProtected s x) := by
  have hinserts : inserts s (s.commit p t) = true := by
    rw [inserts, Store.journal_commit, List.drop_left]
    exact List.any_eq_true.mpr ⟨_, hnew, rfl⟩
  simp only [keepsDrafts, hp, hinserts, not_true_eq_false, false_or, decide_eq_true_eq,
    List.all_eq_true] at hC
  exact hC _ (mem_view_reservations hi hx)

theorem UsernameTx.oneHeld (h : UsernameTx (procs p) s t) (hi : Reserved s) (hheld : t.Held s.rows)
    (hC : keepsDrafts procs p s (s.commit p t) = true) (hone : OneHeld s) :
    OneHeld (s.commit p t) := by
  -- a hold that was there stands in the way of a new one of its draft
  have hmixed : ∀ {id id' args now x x'}, procs p = .reserve args → Obtains args s t id →
      s.rows (.reservation id') = some x → x.status = .HELD → Move x x' →
      (s.commit p t).rows (.reservation id') = some x' → x'.status = .HELD →
      (args.hold now).userId = x'.userId → (args.hold now).draftNonce = x'.draftNonce → False := by
    intro id id' args now x x' hp hobtains hx hstatus hmove hx' hstatus' huser hnonce
    rw [hmove.userId] at huser
    rw [hmove.draftNonce] at hnonce
    have hpanel := (keepsDrafts_reserve hi hp hC hobtains.listed hx).1
      ⟨hstatus, huser.symm, hnonce.symm⟩
    obtain ⟨y', hchg, hy'⟩ := hobtains.others id' x hx hstatus
      (decide_eq_true ⟨huser.symm, hnonce.symm, hpanel⟩)
    simp only [Store.commit, Tx.row, hchg, Option.some.injEq] at hx'
    rw [hx'] at hy'
    exact hy' hstatus'
  intro id id' x x' hx hx' hstatus hstatus' huser hnonce
  rcases h.held_from hi hheld hx hstatus with ⟨y, hy, hheld₁, hmove⟩ | ⟨args, now, hp, rfl, hobtains, -⟩
  · rcases h.held_from hi hheld hx' hstatus' with
      ⟨y', hy', hheld₂, hmove'⟩ | ⟨args, now, hp, rfl, hobtains, -⟩
    · refine hone id id' y y' hy hy' hheld₁ hheld₂ ?_ ?_
      · rw [← hmove.userId, ← hmove'.userId, huser]
      · rw [← hmove.draftNonce, ← hmove'.draftNonce, hnonce]
    · exact (hmixed hp hobtains hy hheld₁ hmove hx hstatus huser.symm hnonce.symm).elim
  · rcases h.held_from hi hheld hx' hstatus' with
      ⟨y', hy', hheld₂, hmove'⟩ | ⟨-, -, -, -, -, hchg⟩
    · exact (hmixed hp hobtains hy' hheld₂ hmove' hx' hstatus' huser hnonce).elim
    · exact (hobtains.only id' _ hchg).symm

theorem UsernameTx.boundKept (h : UsernameTx (procs p) s t) (hi : Reserved s)
    (hheld : t.Held s.rows) (hC : keepsDrafts procs p s (s.commit p t) = true) :
    BoundKept s (s.commit p t) := by
  intro id x x' hx hx' hbound hprotected hended
  rw [Store.journal_commit, List.drop_left]
  rcases s.commit_rows p hheld (.reservation id) with ⟨he, -⟩ | hchg
  · cases hx.symm.trans (he.symm.trans hx')
    rw [hbound] at hended
    cases hended
  · rw [hx, hx'] at hchg
    rcases h.kept id x x' hchg hbound hended with hfailed | hdead | hfrees
    · exact hfailed
    · exact absurd hprotected hdead
    · have hprotected := hprotected.isProtected hi
      cases hp : procs p with
      | reserve args =>
        rw [hp] at hfrees
        obtain ⟨howns, new, hnew⟩ := hfrees
        exact absurd hprotected ((keepsDrafts_reserve hi hp hC hnew hx).2 ⟨hbound, howns⟩)
      | release id' =>
        rw [hp] at hfrees
        cases (hfrees : id = id')
        simp [keepsDrafts, hp, hx, hbound, hprotected, Store.commit] at hC
      | transaction _ | releaseHeld _ _ _ | releaseDraft _ _ | cleanup _ =>
        rw [hp] at hfrees
        exact hfrees.elim

/-! ### Runs -/

/-- SAFE: in every run the keys are the usernames of the active reservations and every reservation only
    moves on; in a run where no draft reserves against its holds on another panel or against a bound
    reservation that is paid for, at most one reservation of a draft is HELD, and what is bound and
    paid for ends only with its failed order. -/
theorem usernames_safe (procs : ℕ → ReservationProcess) {s₀ : ReservationStore} (h₀ : Reserved s₀)
    (hone : OneHeld s₀) {c : ReservationConfig}
    (hrun : Run anyStep (Config.start s₀ fun p => (procs p).program) c) :
    KeysActive c.store ∧
    Run (fun _ _ s s' => StatusesAdvance s s') (Config.start s₀ fun p => (procs p).program) c ∧
    (Run (fun p _ s s' => keepsDrafts procs p s s' = true)
        (Config.start s₀ fun p => (procs p).program) c →
      OneHeld c.store ∧
      Run (fun _ _ s s' => BoundKept s s') (Config.start s₀ fun p => (procs p).program) c) := by
  have hg : Good (usernames procs) (Config.start s₀ fun p => (procs p).program) :=
    good_start h₀ fun p => wp_mono _ (fun _ _ _ _ => trivial) ((accepts_process p).run [] s₀ h₀)
  refine ⟨?_, ?_, fun hkept => ⟨?_, ?_⟩⟩
  · have hi : Reserved c.store := (hrun.sound hg).1.inv
    exact fun id r hr => (hi.sound id r hr).key
  · refine (hrun.allowed hg).mono fun p r s s' ⟨_, hst⟩ => ?_
    have hsame : StatusesAdvance s s := ⟨fun id x hx => ⟨x, hx, .refl⟩, fun id x hnone hx => by
      rw [hnone] at hx
      cases hx⟩
    rcases hst with rfl | ⟨hi, hst⟩
    · exact hsame
    · cases hst with
      | act w _ => exact hsame
      | commit t hheld ht => exact UsernameTx.statusesAdvance ht hi hheld
  · refine hkept.keeps hg (fun hi hst hC h => ?_) hone
    cases hst with
    | act w _ => exact h
    | commit t hheld ht => exact UsernameTx.oneHeld ht hi hheld hC h
  · refine (hkept.allowed hg).mono fun p r s s' ⟨hC, hst⟩ => ?_
    have hsame : BoundKept s s := by
      intro id x x' hx hx' hbound _ hended
      cases hx.symm.trans hx'
      rw [hbound] at hended
      cases hended
    rcases hst with rfl | ⟨hi, hst⟩
    · exact hsame
    · cases hst with
      | act w _ => exact hsame
      | commit t hheld ht => exact UsernameTx.boundKept ht hi hheld hC

/-! A user reserves for the request "request-1" on panel 1 and checks out; the payment is approved. Then
    the same request reserves once more, on the same panel or on another one. -/

def requestHold (panelId : ℕ) (normalizedUsername : String) : ReserveArgs where
  userId := 1
  panelId := panelId
  mode := .CUSTOM
  normalizedUsername := normalizedUsername
  draftNonce := some "request-1"

def firstClaim : ReservationClaimArgs where
  reservationId := 1
  userId := 1
  draftNonce := some "request-1"
  normalizedUsername := "first_name"
  mode := .CUSTOM
  panelId := 1

def firstOrder : ReservationOrderBindArgs where
  reservationId := 1
  userId := 1
  checkoutSessionId := 1
  panelId := 1
  normalizedUsername := "first_name"
  orderId := 1

def firstCheckout : CheckoutSession where
  userId := 1
  purpose := .ORDER_PAYMENT
  expiresAt := 900000

def approvedPayment : Payment where
  userId := 1
  checkoutSessionId := some 1
  purpose := .ORDER_PAYMENT
  status := .APPROVED
  amountToman := 100
  payableAmountToman := 100

def paidOrder : Order where
  userId := 1
  checkoutSessionId := some 1
  type := .SERVICE_PURCHASE
  status := .PAID

def requestProcs : ℕ → ReservationProcess
  | 0 => .reserve (requestHold 1 "first_name")
  | 1 => .transaction [.checkout 1 firstCheckout, .claim firstClaim 1]
  | 2 => .transaction [.payment 1 approvedPayment, .order 1 paidOrder, .attach firstOrder]
  | 3 => .reserve (requestHold 1 "other_name")
  | _ => .reserve (requestHold 2 "other_name")

def noReservations : ReservationStore where
  rows
    | .reservation _ | .activeUsername _ | .checkout _ | .payment _ | .order _ => none
    | .draftLock _ _ => (0 : ℕ)
  world := ()

theorem noReservations_reserved : Reserved noReservations :=
  ⟨fun _ _ h => (nomatch h), fun _ h => absurd rfl h, fun _ h => absurd rfl h, fun _ h => absurd rfl h⟩

theorem noReservations_oneHeld : OneHeld noReservations := fun _ _ _ _ h => (nomatch h)

def reserved : List (Event ReservationChoice) := List.replicate 15 (.run 0 { id := 1 })

def paidFor : List (Event ReservationChoice) :=
  reserved ++ List.replicate 5 (.run 1 {}) ++ List.replicate 6 (.run 2 {})

theorem paidFor_runs :
    ((Config.start noReservations fun p => (requestProcs p).program).execWhile
      (fun p _ => keepsDrafts requestProcs p) paidFor).any (fun c =>
        (c.store.rows (.reservation 1)).any fun r =>
          r.status = .BOUND ∧ r.orderId = some 1) = true := by decide +kernel

/-- The reservation that was paid for is bound to its order. -/
theorem usernames_safe_paid : ∃ (c : ReservationConfig) (r : ServiceUsernameReservation),
    c.store.rows (.reservation 1) = some r ∧ r.status = .BOUND ∧ r.orderId = some 1 ∧
    KeysActive c.store ∧ OneHeld c.store ∧ Run (fun _ _ s s' => BoundKept s s')
      (Config.start noReservations fun p => (requestProcs p).program) c := by
  obtain ⟨c, hrun, hc⟩ := Run.of_execWhile_any paidFor_runs
  obtain ⟨r, hr, hc⟩ := (Option.any_eq_true _ _).mp hc
  obtain ⟨hstatus, horder⟩ := of_decide_eq_true hc
  obtain ⟨hkeys, -, hsafe⟩ := usernames_safe requestProcs noReservations_reserved
    noReservations_oneHeld (hrun.mono fun _ _ _ _ _ => trivial)
  exact ⟨c, r, hr, hstatus, horder, hkeys, hsafe hrun⟩

theorem second_hold_runs :
    ((Config.start noReservations fun p => (requestProcs p).program).exec
      (reserved ++ List.replicate 15 (.run 4 { id := 2 }))).any (fun c =>
        (c.store.rows (.reservation 1)).any fun r => (c.store.rows (.reservation 2)).any fun r' =>
          r.status = .HELD ∧ r'.status = .HELD ∧ r.userId = r'.userId ∧
          r.draftNonce = r'.draftNonce) = true := by decide +kernel

theorem taken_away_runs :
    ((Config.start noReservations fun p => (requestProcs p).program).exec
      (paidFor ++ List.replicate 14 (.run 3 { id := 2 }))).any (fun c =>
        (c.step (.run 3 { id := 2 })).any fun c' =>
          (c.store.rows (.reservation 1)).any fun r => (c'.store.rows (.reservation 1)).any fun r' =>
            (c.store.rows (.order 1)).any fun o =>
              r.status = .BOUND ∧ r.orderId = some 1 ∧ o.status = .PAID ∧ r'.status = .RELEASED ∧
              c'.store.journal = c.store.journal ++ [.reservation 2]) = true := by decide +kernel

/-- UNSAFE: the request holds a username on each panel, or its bound reservation is released although
    the order is PAID. -/
theorem usernames_unsafe :
    (∃ c : ReservationConfig, Run anyStep
      (Config.start noReservations fun p => (requestProcs p).program) c ∧ ¬ OneHeld c.store) ∧
    ∃ c c' : ReservationConfig, Run anyStep
      (Config.start noReservations fun p => (requestProcs p).program) c ∧
      c.step (.run 3 { id := 2 }) = some c' ∧ ¬ BoundKept c.store c'.store := by
  constructor
  · obtain ⟨c, hrun, hc⟩ := Run.of_exec_any second_hold_runs
    obtain ⟨r, hr, hc⟩ := (Option.any_eq_true _ _).mp hc
    obtain ⟨r', hr', hc⟩ := (Option.any_eq_true _ _).mp hc
    obtain ⟨hheld, hheld', huser, hnonce⟩ := of_decide_eq_true hc
    refine ⟨c, hrun, fun hone => ?_⟩
    cases hone 1 2 r r' hr hr' hheld hheld' huser hnonce
  · obtain ⟨c, hrun, hc⟩ := Run.of_exec_any taken_away_runs
    obtain ⟨c', hstep, hc⟩ := (Option.any_eq_true _ _).mp hc
    obtain ⟨r, hr, hc⟩ := (Option.any_eq_true _ _).mp hc
    obtain ⟨r', hr', hc⟩ := (Option.any_eq_true _ _).mp hc
    obtain ⟨o, ho, hc⟩ := (Option.any_eq_true _ _).mp hc
    obtain ⟨hbound, horder, hpaid, hreleased, hjournal⟩ := of_decide_eq_true hc
    refine ⟨c, c', hrun, hstep, fun hkept => ?_⟩
    have hprotected : Protected c.store r := .inr ⟨1, o, horder, ho, by simp [isLive, hpaid]⟩
    obtain ⟨orderId, checkoutSessionId, hmem, -⟩ :=
      hkept 1 r r' hr hr' hbound hprotected (by rw [hreleased]; rfl)
    rw [hjournal, List.drop_left] at hmem
    simp at hmem

end ZedBot.Reservations
