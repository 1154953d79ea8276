import ZedBot.Reservations.UsernameProcesses

/-! What a hold is made of, whatever the processes do.

    A row that is HELD owns its username and is linked to nothing, nothing becomes HELD again, and a
    reservation keeps its draft, its username and its mode. Every statement of the processes keeps
    this, so no lock is needed for it. -/

namespace ZedBot.Reservations
open ReadCommitted

variable {procs : ℕ → ReservationProcess} {p : ℕ} {s s' : ReservationStore} {t : ReservationTx}
  {v : ReservationView} {r r' r'' : ServiceUsernameReservation} {Ψ : Unit → Unit → Prop}

/-! ### Rows -/

/-- The reservation owns its username and is linked to no checkout, order or service. -/
structure Unlinked (r : ServiceUsernameReservation) : Prop where
  key : r.activeUsernameKey = some r.normalizedUsername
  checkout : r.checkoutSessionId = none
  order : r.orderId = none
  service : r.serviceId = none

/-- A hold is linked to nothing. -/
def Unbound (r : ServiceUsernameReservation) : Prop := r.status = .HELD → Unlinked r

/-- What a reservation keeps. -/
structure HoldMove (r r' : ServiceUsernameReservation) : Prop where
  userId : r'.userId = r.userId
  draftNonce : r'.draftNonce = r.draftNonce
  panelId : r'.panelId = r.panelId
  normalizedUsername : r'.normalizedUsername = r.normalizedUsername
  mode : r'.mode = r.mode
  status : r'.status = .HELD → r.status = .HELD
  unlinked : r'.status = .HELD → Unlinked r → Unlinked r'

theorem HoldMove.refl (r : ServiceUsernameReservation) : HoldMove r r :=
  ⟨rfl, rfl, rfl, rfl, rfl, id, fun _ h => h⟩

theorem HoldMove.trans (h : HoldMove r r') (h' : HoldMove r' r'') : HoldMove r r'' where
  userId := h'.userId.trans h.userId
  draftNonce := h'.draftNonce.trans h.draftNonce
  panelId := h'.panelId.trans h.panelId
  normalizedUsername := h'.normalizedUsername.trans h.normalizedUsername
  mode := h'.mode.trans h.mode
  status hheld := h.status (h'.status hheld)
  unlinked hheld hr := h'.unlinked hheld (h.unlinked (h'.status hheld) hr)

theorem HoldMove.unbound (h : HoldMove r r') (hr : Unbound r) : Unbound r' :=
  fun hheld => h.unlinked hheld (hr (h.status hheld))

/-- A move to a status that is not HELD. -/
theorem HoldMove.ended (huser : r'.userId = r.userId) (hnonce : r'.draftNonce = r.draftNonce)
    (hpanel : r'.panelId = r.panelId) (hname : r'.normalizedUsername = r.normalizedUsername)
    (hmode : r'.mode = r.mode) (hstatus : r'.status ≠ .HELD) : HoldMove r r' :=
  ⟨huser, hnonce, hpanel, hname, hmode, fun h => absurd h hstatus, fun h => absurd h hstatus⟩

namespace ServiceUsernameReservation

theorem holdMove_refreshed (now : ℕ) (r : ServiceUsernameReservation) :
    HoldMove r (r.refreshed now) :=
  ⟨rfl, rfl, rfl, rfl, rfl, id, fun _ h => ⟨h.key, h.checkout, h.order, h.service⟩⟩

theorem holdMove_released (now : ℕ) (r : ServiceUsernameReservation) :
    HoldMove r (r.released now) := .ended rfl rfl rfl rfl rfl nofun

theorem holdMove_expired (now : ℕ) (r : ServiceUsernameReservation) :
    HoldMove r (r.expired now) := .ended rfl rfl rfl rfl rfl nofun

theorem holdMove_boundTo (checkoutSessionId now : ℕ) (r : ServiceUsernameReservation) :
    HoldMove r (r.boundTo checkoutSessionId now) := .ended rfl rfl rfl rfl rfl nofun

theorem holdMove_attachedTo (orderId now : ℕ) (r : ServiceUsernameReservation) :
    HoldMove r (r.attachedTo orderId now) := .ended rfl rfl rfl rfl rfl nofun

theorem holdMove_consumedBy (serviceId now : ℕ) (r : ServiceUsernameReservation) :
    HoldMove r (r.consumedBy serviceId now) := .ended rfl rfl rfl rfl rfl nofun

end ServiceUsernameReservation

theorem ReserveArgs.unbound_hold (args : ReserveArgs) (now : ℕ) : Unbound (args.hold now) :=
  fun _ => ⟨rfl, rfl, rfl, rfl⟩

/-! ### The rules -/

/-- The reservations that a table lists. -/
def listedIds (es : List ReservationEntry) : List ℕ := es.filterMap fun
  | .reservation id => some id
  | _ => none

theorem mem_listedIds {es : List ReservationEntry} {id : ℕ} :
    id ∈ listedIds es ↔ .reservation id ∈ es := by
  rw [listedIds, List.mem_filterMap]
  refine ⟨fun ⟨e, he, hid⟩ => ?_, fun h => ⟨_, h, rfl⟩⟩
  cases e with
  | reservation id' => cases hid; exact he
  | payment _ | order _ | failedRelease _ _ _ => cases hid

theorem listedIds_append (es es' : List ReservationEntry) :
    listedIds (es ++ es') = listedIds es ++ listedIds es' := List.filterMap_append

/-- The table of the reservations: every row is listed once, and a hold is linked to nothing. -/
structure Table (s : ReservationStore) : Prop where
  unbound : ∀ id r, s.rows (.reservation id) = some r → Unbound r
  listed : ∀ id, id ∈ listedIds s.journal ↔ s.rows (.reservation id) ≠ none
  nodup : (listedIds s.journal).Nodup

/-- A statement that moves reservations on, or inserts them. -/
structure HoldStmt (v : ReservationView) (writes : List (Write ReservationRow))
    (entries : List ReservationEntry) : Prop where
  moved : ∀ id n r, ⟨.reservation id, n⟩ ∈ writes → v.rows (.reservation id) = some r →
    ∃ r', n = some r' ∧ HoldMove r r'
  inserted : ∀ id n, ⟨.reservation id, n⟩ ∈ writes → v.rows (.reservation id) = none →
    id ∈ listedIds entries ∧ ∃ r', n = some r' ∧ Unbound r'
  listed : ∀ id ∈ listedIds entries, v.rows (.reservation id) = none ∧
    .reservation id ∈ writes.map (·.1)
  nodup : (listedIds entries).Nodup

/-- What a transaction of such statements has done. -/
structure HoldTx (t : ReservationTx) : Prop where
  moved : ∀ id r n, t.chg (.reservation id) = some (some r, n) → ∃ r', n = some r' ∧ HoldMove r r'
  inserted : ∀ id n, t.chg (.reservation id) = some (none, n) →
    id ∈ listedIds t.entries ∧ ∃ r', n = some r' ∧ Unbound r'
  listed : ∀ id ∈ listedIds t.entries, ∃ n, t.chg (.reservation id) = some (none, n)
  nodup : (listedIds t.entries).Nodup

theorem HoldTx.empty : HoldTx {} :=
  ⟨fun _ _ _ h => (nomatch h), fun _ _ h => (nomatch h), fun _ h => (nomatch h), List.nodup_nil⟩

/-- A row that a transaction sees is the base row, or was changed before. -/
theorem HoldTx.seen {id : ℕ} (h : HoldTx t) (hrow : t.row s.rows (.reservation id) = none) :
    t.chg (.reservation id) = none ∧ t.base s.rows (.reservation id) = none := by
  rcases Tx.chg_of_row hrow with ⟨hnone, hbase⟩ | hsome
  · exact ⟨hnone, hbase⟩
  · cases hbase : t.base s.rows (.reservation id) with
    | none =>
      rw [hbase] at hsome
      obtain ⟨-, r', hr', -⟩ := h.inserted id _ hsome
      cases hr'
    | some r =>
      rw [hbase] at hsome
      obtain ⟨r', hr', -⟩ := h.moved id r _ hsome
      cases hr'

theorem HoldTx.add {β : Type} {e : Effect ReservationRow ReservationEntry β} (h : HoldTx t)
    (he : HoldStmt (s.view t) e.writes e.entries) : HoldTx (t.add s.rows e) where
  moved id r n hchg := by
    rcases Tx.chg_add hchg with hchg | ⟨hbase, hmem⟩
    · exact h.moved id r n hchg
    · cases hrow : t.row s.rows (.reservation id) with
      | none =>
        rw [(h.seen hrow).2] at hbase
        cases hbase
      | some x =>
        obtain ⟨r', rfl, hmove⟩ := he.moved id n x hmem hrow
        refine ⟨r', rfl, ?_⟩
        rcases Tx.chg_of_row hrow with ⟨-, hx⟩ | hsome
        · cases hbase.trans hx
          exact hmove
        · rw [← hbase] at hsome
          obtain ⟨x', hx', hmove'⟩ := h.moved id r _ hsome
          cases hx'
          exact hmove'.trans hmove
  inserted id n hchg := by
    rw [Tx.entries_add, listedIds_append, List.mem_append]
    rcases Tx.chg_add hchg with hchg | ⟨hbase, hmem⟩
    · obtain ⟨hlisted, hr'⟩ := h.inserted id n hchg
      exact ⟨.inl hlisted, hr'⟩
    · cases hrow : t.row s.rows (.reservation id) with
      | none =>
        obtain ⟨hlisted, hr'⟩ := he.inserted id n hmem hrow
        exact ⟨.inr hlisted, hr'⟩
      | some x =>
        obtain ⟨r', rfl, hmove⟩ := he.moved id n x hmem hrow
        rcases Tx.chg_of_row hrow with ⟨-, hx⟩ | hsome
        · cases hbase.trans hx
        · rw [← hbase] at hsome
          obtain ⟨hlisted, x', hx', hunbound⟩ := h.inserted id _ hsome
          cases hx'
          exact ⟨.inl hlisted, r', rfl, hmove.unbound hunbound⟩
  listed id hid := by
    rw [Tx.entries_add, listedIds_append, List.mem_append] at hid
    have hholds : (t.add s.rows e).Holds (.reservation id) := by
      refine Tx.holds_add.mpr (hid.symm.imp (fun hid => (he.listed id hid).2) fun hid => ?_)
      obtain ⟨n, hn⟩ := h.listed id hid
      simp [Tx.Holds, hn]
    obtain ⟨⟨o, n⟩, hchg⟩ := Option.ne_none_iff_exists'.mp hholds
    refine ⟨n, hchg.trans ?_⟩
    rcases hid with hid | hid
    · obtain ⟨n', hn'⟩ := h.listed id hid
      rcases Tx.chg_add hchg with hchg | ⟨rfl, -⟩
      · rw [hn'] at hchg
        cases hchg
        rfl
      · simp [Tx.base, hn']
    · obtain ⟨hnone, hbase⟩ := h.seen (he.listed id hid).1
      rcases Tx.chg_add hchg with hchg | ⟨rfl, -⟩
      · rw [hnone] at hchg
        cases hchg
      · rw [hbase]
  nodup := by
    rw [Tx.entries_add, listedIds_append]
    refine List.nodup_append'.mpr ⟨h.nodup, he.nodup, fun id hid hid' => ?_⟩
    obtain ⟨n, hn⟩ := h.listed id hid
    rw [(h.seen (he.listed id hid').1).1] at hn
    cases hn

theorem HoldTx.table (h : HoldTx t) (hi : Table s) (hheld : t.Held s.rows) :
    Table (s.commit p t) where
  unbound id r' hr' := by
    rcases s.commit_rows p hheld (.reservation id) with ⟨he, -⟩ | hchg
    · exact hi.unbound id r' (he.symm.trans hr')
    · rw [hr'] at hchg
      cases hrow : s.rows (.reservation id) with
      | none =>
        rw [hrow] at hchg
        obtain ⟨-, x, hx, hunbound⟩ := h.inserted id _ hchg
        cases hx
        exact hunbound
      | some r =>
        rw [hrow] at hchg
        obtain ⟨x, hx, hmove⟩ := h.moved id r _ hchg
        cases hx
        exact hmove.unbound (hi.unbound id r hrow)
  listed id := by
    rw [Store.journal_commit, listedIds_append, List.mem_append, hi.listed]
    rcases s.commit_rows p hheld (.reservation id) with ⟨he, hnone⟩ | hchg
    · rw [he, or_iff_left_iff_imp]
      intro hid
      obtain ⟨n, hn⟩ := h.listed id hid
      rw [hnone] at hn
      cases hn
    · cases hrow : s.rows (.reservation id) with
      | none =>
        rw [hrow] at hchg
        obtain ⟨hid, x, hx, -⟩ := h.inserted id _ hchg
        simp [hid, hx]
      | some r =>
        rw [hrow] at hchg
        obtain ⟨x, hx, -⟩ := h.moved id r _ hchg
        simp [hx]
  nodup := by
    rw [Store.journal_commit, listedIds_append]
    refine List.nodup_append'.mpr ⟨hi.nodup, h.nodup, fun id hid hid' => ?_⟩
    obtain ⟨n, hn⟩ := h.listed id hid'
    exact (hi.listed id).mp hid (hheld _ _ _ hn).symm

/-- The rules of the processes. -/
def holding : Discipline ReservationRow ReservationEntry Unit where
  Inv := Table
  Commits _ _ _ t := HoldTx t
  Acts _ _ _ _ := True
  commits_empty _ := .empty
  inv_commit hi hheld h := h.table hi hheld
  inv_act hi _ := ⟨hi.unbound, hi.listed, hi.nodup⟩

theorem holdingRules : StmtRules holding p HoldStmt (fun _ _ => True) fun _ t => HoldTx t where
  start _ := .empty
  env _ _ h := h
  add _ h he := h.add he
  commits _ _ h := h
  acts _ _ := trivial

/-! ### The processes -/

/-- A statement that leaves the reservations. -/
theorem HoldStmt.other {ws : List (Write ReservationRow)} {es : List ReservationEntry}
    (hws : ∀ w ∈ ws, ∀ id, w.1 ≠ .reservation id) (hes : listedIds es = []) : HoldStmt v ws es where
  moved id _ _ hmem := absurd rfl (hws _ hmem id)
  inserted id _ hmem := absurd rfl (hws _ hmem id)
  listed id hid := by
    rw [hes] at hid
    cases hid
  nodup := hes ▸ List.nodup_nil

theorem HoldStmt.nil : HoldStmt v [] [] := .other (fun _ hw => (nomatch hw)) rfl

section Update

variable {data : ServiceUsernameReservation → ServiceUsernameReservation}
  {note : ℕ → List ReservationEntry} {hits : List (ℕ × ServiceUsernameReservation)}
  {es : List ReservationEntry}

theorem HoldStmt.of_hits (hpick : ∀ x ∈ hits, v.rows (.reservation x.1) = some x.2)
    (hdata : ∀ r, HoldMove r (data r)) (hes : listedIds es = []) :
    HoldStmt v (hits.flatMap (rowWrites data)) es where
  moved id n r hmem hr := by
    obtain ⟨x, hx, rfl⟩ := reservation_of_mem_rowWrites hmem
    cases (hpick _ hx).symm.trans hr
    exact ⟨_, rfl, hdata x⟩
  inserted id n hmem hnone := by
    obtain ⟨x, hx, -⟩ := reservation_of_mem_rowWrites hmem
    rw [hpick _ hx] at hnone
    cases hnone
  listed id hid := by
    rw [hes] at hid
    cases hid
  nodup := hes ▸ List.nodup_nil

theorem each_updatePicked {pick : ReservationView → List (ℕ × ServiceUsernameReservation)}
    (hpick : ∀ v, ∀ x ∈ pick v, v.rows (.reservation x.1) = some x.2)
    (hdata : ∀ r, HoldMove r (data r)) (hnote : ∀ id, listedIds (note id) = []) :
    (updatePicked pick data note).Each HoldStmt Ψ := by
  refine .sql fun v => .of_hits (hpick v) hdata ?_
  dsimp only
  induction pick v with
  | nil => rfl
  | cons x xs ih =>
    rw [List.flatMap_cons, listedIds_append, hnote, ih]
    rfl

theorem each_updateReservations {cond : ℕ → ServiceUsernameReservation → Bool}
    (hdata : ∀ r, HoldMove r (data r)) (hnote : ∀ id, listedIds (note id) = []) :
    (updateReservations cond data note).Each HoldStmt Ψ :=
  each_updatePicked (fun _ _ hx => mem_reservationsOf (List.mem_filter.mp hx).1) hdata hnote

end Update

/-- An insertion of a hold. -/
theorem HoldStmt.insert {id : ℕ} (args : ReserveArgs) (now : ℕ)
    (hnone : v.rows (.reservation id) = none) :
    HoldStmt v [⟨.reservation id, some (args.hold now)⟩,
      ⟨.activeUsername (args.hold now).normalizedUsername, some id⟩] [.reservation id] := by
  refine ⟨fun id' n r hmem hr => ?_, fun id' n hmem _ => ?_, fun id' hid => ?_, ?_⟩
  · have he : id' = id := by simpa using (List.mem_map_of_mem (f := (·.1)) hmem)
    rw [he, hnone] at hr
    cases hr
  · have he : id' = id ∧ n = some (args.hold now) := by simpa using hmem
    refine ⟨?_, _, he.2, args.unbound_hold now⟩
    rw [he.1]
    exact List.mem_singleton_self id
  · cases List.mem_singleton.mp hid
    exact ⟨hnone, List.mem_map_of_mem (List.mem_cons_self ..)⟩
  · exact List.nodup_singleton id

theorem each_createReservation (id now : ℕ) (args : ReserveArgs) :
    (createReservation id (args.hold now)).Each HoldStmt Ψ := by
  refine .sql fun v => ?_
  split
  · rename_i hnone _
    exact .insert args now hnone
  · exact .nil

/-- A lock writes back the row it found. -/
theorem each_lockReservation (reservationId : ℕ) :
    (lockReservationForSettlement reservationId).Each HoldStmt Ψ := by
  refine .bind (.sql fun v => ?_) fun _ => .pure _
  dsimp only
  split
  · refine ⟨fun id n r hmem hr => ?_, fun id n hmem hnone => ?_, fun _ h => (nomatch h),
      List.nodup_nil⟩
    · cases List.mem_singleton.mp hmem
      exact ⟨r, hr, .refl r⟩
    · rename_i hsome
      cases List.mem_singleton.mp hmem
      rw [hnone] at hsome
      cases hsome
  · exact .nil

theorem each_claim (args : ReservationClaimArgs) (checkoutSessionId : ℕ) :
    (claimReservationForCheckout args checkoutSessionId).Each HoldStmt Ψ :=
  .bind (.ask _) fun now =>
    .bind (each_updateReservations (fun r => r.holdMove_boundTo _ now) fun _ => rfl) fun _ => .pure _

theorem each_attach (args : ReservationOrderBindArgs) :
    (attachReservationToOrder args).Each HoldStmt Ψ := by
  refine .bind (.ask _) fun now => .bind
    (each_updateReservations (fun r => r.holdMove_attachedTo _ now) fun _ => rfl) fun _ => ?_
  refine .ite (fun _ => .pure _) fun _ => .bind (.select _) fun already => ?_
  cases already <;> exact .pure _

theorem each_statement (x : ReservationStatement) : x.run.Each HoldStmt Ψ := by
  cases x with
  | claim args checkoutSessionId => exact .bind (each_claim args checkoutSessionId) fun _ => .pure _
  | attach args => exact each_attach args
  | bindSettled args =>
    refine .bind (.bind (each_attach args) fun attached => ?_) fun _ => .pure _
    split <;> exact .pure _
  | consume orderId serviceId name =>
    exact .bind (.bind (.ask _) fun now => .bind (each_updateReservations
      (fun r => r.holdMove_consumedBy _ now) fun _ => rfl) fun _ => .pure _) fun _ => .pure _
  | lock id => exact .bind (each_lockReservation id) fun _ => .pure _
  | releaseForFailedOrder orderId checkoutSessionId =>
    exact .bind (.bind (.ask _) fun now => .bind (each_updateReservations
      (fun r => r.holdMove_released now) fun _ => rfl) fun _ => .pure _) fun _ => .pure _
  | checkout id row =>
    refine .bind (.sql fun v => .other (fun w hw id' => ?_) rfl) fun _ => .pure _
    rw [List.mem_singleton.mp hw]
    nofun
  | payment id row =>
    refine .bind (.sql fun v => .other (fun w hw id' => ?_) ?_) fun _ => .pure _
    · rw [List.mem_singleton.mp hw]
      nofun
    · dsimp only
      split <;> rfl
  | order id row =>
    refine .bind (.sql fun v => .other (fun w hw id' => ?_) ?_) fun _ => .pure _
    · rw [List.mem_singleton.mp hw]
      nofun
    · dsimp only
      split <;> rfl

theorem each_statements : ∀ xs, (runStatements xs).Each HoldStmt Ψ
  | [] => .pure _
  | x :: xs => .bind (each_statement x) fun result => by
    cases result with
    | ok _ => exact each_statements xs
    | error e => exact .pure _

theorem each_expireBatches (cond : ReservationView → ServiceUsernameReservation → Bool) (now : ℕ) :
    ∀ n, (expireBatches cond now n).Each HoldStmt Ψ
  | 0 => .pure _
  | n + 1 => by
    refine .bind (.bind (.ask _) fun locked => each_updatePicked (fun v x hx => ?_)
      (fun r => r.holdMove_expired now) fun _ => rfl) fun affected => ?_
    · exact mem_reservationsOf (List.mem_filter.mp (List.mem_of_mem_take hx)).1
    · exact .ite (fun _ => .pure _) fun _ => .bind (each_expireBatches cond now n) fun _ => .pure _

theorem each_refreshHold (id : ℕ) : (refreshHold id).Each HoldStmt Ψ :=
  .bind (.ask _) fun now =>
    each_updateReservations (fun r => r.holdMove_refreshed now) fun _ => rfl

theorem each_lockDraft (userId : ℕ) (draftNonce : Option String) :
    (lockDraft userId draftNonce).Each HoldStmt Ψ := by
  refine .update (fun _ => .nil) fun v n _ => .other (fun w hw id => ?_) rfl
  rw [List.mem_singleton.mp hw]
  nofun

theorem each_replaceHolds (args : ReserveArgs) : (replaceHolds args).Each HoldStmt Ψ := by
  refine .transaction (.bind (each_lockDraft _ _) fun _ => .bind (.select _) fun active => ?_)
  split
  · exact .bind (each_refreshHold _) fun _ => .pure _
  · refine .bind (.ask _) fun id => .bind (.ask _) fun now => ?_
    refine .bind (each_createReservation id now args) fun created => ?_
    refine .ite (fun _ => .pure _) fun _ => .bind (.ask _) fun now => .bind
      (each_updateReservations (fun r => r.holdMove_released now) fun _ => rfl) fun _ => ?_
    exact .bind (.ask _) fun throws => .ite (fun _ => .pure _) fun _ => .pure _

theorem each_check (active : Bool) (name : String) (userId : ℕ) (nonce : Option String) :
    (checkServiceUsernameAvailability active name userId nonce).Each HoldStmt Ψ := by
  refine .ite (fun _ => .pure _) fun _ => .ite (fun _ => .pure _) fun _ => ?_
  refine .bind (.ask _) fun taken => .ite (fun _ => .pure _) fun _ => ?_
  refine .bind (.select _) fun held => .ite (fun _ => .pure _) fun _ => .bind (.ask _) fun probe => ?_
  cases probe <;> exact .pure _

theorem each_reserve (args : ReserveArgs) : (reserveServiceUsername args).Each HoldStmt Ψ := by
  refine .ite (fun _ => .pure _) fun _ => .bind (.ask _) fun active => ?_
  refine .ite (fun _ => .pure _) fun _ => .bind (.select _) fun prior => ?_
  split
  · exact .ite (fun _ => .pure _) fun _ => .bind (each_refreshHold _) fun _ => .pure _
  · refine .bind (each_check _ _ _ _) fun availability => .ite (fun _ => .pure _) fun _ => ?_
    refine .bind (each_replaceHolds args) fun created => ?_
    split <;> exact .pure _

/-- Every process keeps what a hold is made of. -/
theorem each_process (process : ReservationProcess) : process.program.Each HoldStmt Ψ := by
  have hrelease : ∀ cond : ℕ → ServiceUsernameReservation → Bool,
      (do let now ← ask (·.now)
          let _ ← updateReservations cond (.released now)
          return () : Reserving Unit).Each HoldStmt Ψ := fun cond =>
    .bind (.ask _) fun now => .bind (each_updateReservations
      (fun r => r.holdMove_released now) fun _ => rfl) fun _ => .pure _
  cases process with
  | reserve args => exact .bind (each_reserve args) fun _ => .pure _
  | transaction statements => exact .bind (.transaction (each_statements statements)) fun _ => .pure _
  | releaseHeld userId draftNonce id => exact hrelease _
  | releaseDraft userId draftNonce => exact hrelease _
  | release id => exact hrelease _
  | cleanup now =>
    refine .bind (.bind (each_expireBatches _ now _) fun _ => ?_) fun _ => .pure _
    exact .bind (each_expireBatches _ now _) fun _ => .pure _

end ZedBot.Reservations
