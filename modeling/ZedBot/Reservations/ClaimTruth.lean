import ZedBot.Reservations.Claimable
import ZedBot.Reservations.UsernameSafety

/-! Every call that answers AVAILABLE has the row of its answer. -/

namespace ZedBot.Reservations
open ReadCommitted

variable {p id now : ℕ} {s s' : ReservationStore} {t : ReservationTx} {v : ReservationView}
  {r held : ServiceUsernameReservation} {args : ReserveArgs} {reads : List ReservationStore}

/-! ### The renewal of a hold -/

/-- The hold that was found is there, and renewed if it is still HELD. -/
structure Renewed (id : ℕ) (held : ServiceUsernameReservation) (s : ReservationStore)
    (r : ServiceUsernameReservation) : Prop where
  row : s.rows (.reservation id) = some r
  move : HoldMove held r
  lives : r.status = .HELD → ∃ e, r.expiresAt = some e ∧ 0 < e

/-- The renewal in a transaction that has not touched the reservations: the row is renewed and locked, or
    it was not HELD. -/
structure Renewing (id : ℕ) (held : ServiceUsernameReservation) (t : ReservationTx)
    (s : ReservationStore) : Prop where
  tx : HoldTx t
  row : (∃ o x now, t.chg (.reservation id) = some (o, some (x.refreshed now)) ∧ HoldMove held x) ∨
    t.chg (.reservation id) = none ∧ ∃ x, Kept id x s ∧ x.status ≠ .HELD

theorem Renewing.later {ks : ReservationKey → Prop} (h : Renewing id held t s)
    (hl : holding.Later p ks s s') (hi : Table s) : Renewing id held t s' :=
  ⟨h.tx, h.row.imp_right fun ⟨hnone, x, hx, hstatus⟩ => ⟨hnone, x, hx.later hl hi, hstatus⟩⟩

theorem Renewing.commit (h : Renewing id held t s) (hkept : Kept id held s) :
    ∃ r, Renewed id held (s.commit p t) r := by
  rcases h.row with ⟨o, x, now, hchg, hmove⟩ | ⟨hnone, x, ⟨r, hr, hx⟩, hstatus⟩
  · refine ⟨x.refreshed now, by simp [Store.commit, Tx.row, hchg],
      hmove.trans (x.holdMove_refreshed now), fun _ => ⟨_, rfl, ?_⟩⟩
    simp [ServiceUsernameReservation.RESERVATION_HELD_TTL_MS]
  · obtain ⟨r', hr', hmove⟩ := hkept
    cases hr.symm.trans hr'
    exact ⟨r, by simp [Store.commit, Tx.row, hnone, hr], hmove, fun hheld =>
      absurd (hx.status hheld) hstatus⟩

/-- The statement of the renewal. -/
theorem renewing_add (hits : List (ℕ × ServiceUsernameReservation))
    (e : Effect ReservationRow ReservationEntry ℕ) (now : ℕ) (ht : HoldTx t)
    (hnone : t.chg (.reservation id) = none)
    (hhits : ∀ x, x ∈ hits ↔ x ∈ reservationsOf (s.view t) ∧ (x.1 = id ∧ x.2.status = .HELD))
    (hwrites : e.writes = hits.flatMap (rowWrites (.refreshed now))) (hentries : e.entries = [])
    (hjournal : id ∈ listedIds (s.view t).journal) (hkept : Kept id held s) :
    Renewing id held (t.add s.rows e) s := by
  have hpick : ∀ x ∈ hits, (s.view t).rows (.reservation x.1) = some x.2 :=
    fun x hx => mem_reservationsOf ((hhits x).mp hx).1
  refine ⟨ht.add ?_, ?_⟩
  · rw [hwrites, hentries]
    exact .of_hits hpick (ServiceUsernameReservation.holdMove_refreshed now) rfl
  obtain ⟨x, hx, hmove⟩ := hkept
  have hseen : (s.view t).rows (.reservation id) = some x := (Tx.row_of_chg hnone).trans hx
  by_cases hheld : x.status = .HELD
  · have hhit : (id, x) ∈ hits := (hhits _).mpr
      ⟨reservationsOf_of_mem hseen (mem_listedIds.mp hjournal), rfl, hheld⟩
    have hholds : (t.add s.rows e).Holds (.reservation id) := by
      have hw : (⟨.reservation id, some (x.refreshed now)⟩ : Write ReservationRow) ∈ e.writes := by
        rw [hwrites]
        exact List.mem_flatMap.mpr ⟨_, hhit, List.mem_cons_self ..⟩
      exact Tx.holds_add.mpr (.inl (List.mem_map_of_mem hw))
    obtain ⟨⟨o, n⟩, hchg⟩ := Option.ne_none_iff_exists'.mp hholds
    rcases Tx.chg_add hchg with hold | ⟨-, hmem⟩
    · rw [hnone] at hold
      cases hold
    · rw [hwrites] at hmem
      obtain ⟨y, hy, rfl⟩ := reservation_of_mem_rowWrites hmem
      cases (hpick _ hy).symm.trans hseen
      exact .inl ⟨o, y, now, hchg, hmove⟩
  · refine .inr ⟨(Tx.chg_add_of_notMem ?_).trans hnone, x, ⟨x, hx, .refl x⟩, hheld⟩
    rw [hwrites]
    intro hmem
    obtain ⟨⟨k, n⟩, hw, hk⟩ := List.mem_map.mp hmem
    cases hk
    obtain ⟨y, hy, -⟩ := reservation_of_mem_rowWrites hw
    cases (hpick _ hy).symm.trans hseen
    exact hheld ((hhits _).mp hy).2.2

/-- An update outside a transaction. -/
theorem wp_updateReservations_alone {cond : ℕ → ServiceUsernameReservation → Bool}
    {data : ServiceUsernameReservation → ServiceUsernameReservation}
    {Q : ℕ → ReservationLocal → ReservationStore → Prop}
    (h : ∀ s' (hits : List (ℕ × ServiceUsernameReservation))
      (e : Effect ReservationRow ReservationEntry ℕ),
      holding.Later p (Tx.Holds ({} : ReservationTx)) s s' → Table s' →
      (∀ x, x ∈ hits ↔ x ∈ reservationsOf (s'.view {}) ∧ cond x.1 x.2 = true) →
      e.writes = hits.flatMap (rowWrites data) → e.entries = [] →
      HoldTx (Tx.add {} s'.rows e) ∧
        Q e.result ⟨none, reads⟩ (s'.commit p (Tx.add {} s'.rows e))) :
    wp holding p (updateReservations cond data) Q ⟨none, reads⟩ s :=
  wp_sql fun s' hl hi => h s' _ _ hl hi (fun _ => List.mem_filter) rfl
    (List.flatMap_eq_nil_iff.mpr fun _ _ => rfl)

/-- A row that is there is listed. -/
theorem Table.mem_journal {x : ServiceUsernameReservation} (ht : Table s)
    (hx : s.rows (.reservation id) = some x) (t : ReservationTx) :
    id ∈ listedIds (s.view t).journal := by
  rw [Store.view, listedIds_append, List.mem_append]
  exact .inl ((ht.listed id).mpr (by simp [hx]))

theorem wp_refreshHold (hi : Table s) (hkept : Kept id held s)
    {Q : ℕ → ReservationLocal → ReservationStore → Prop}
    (hQ : ∀ n s' r, Table s' → Renewed id held s' r → Q n ⟨none, reads⟩ s') :
    wp holding p (refreshHold id) Q ⟨none, reads⟩ s := by
  refine (wp_seq _ _).mpr (wp_ask _ fun c => ?_)
  refine wp_updateReservations_alone fun s' hits e hl hi' hhits hwrites hentries => ?_
  have hkept' := hkept.later hl hi
  have ⟨x, hx, _⟩ := hkept'
  have h := renewing_add hits e c.now .empty rfl (fun y => by rw [hhits, decide_eq_true_eq]) hwrites
    hentries (hi'.mem_journal hx _) hkept'
  obtain ⟨r, hr⟩ := h.commit (p := p) hkept'
  exact ⟨h.tx, hQ _ _ r (h.tx.table hi' ((Tx.Held.empty _).add _)) hr⟩

theorem wp_refreshHold_tx (ht : HoldTx t) (hnone : t.chg (.reservation id) = none)
    (hi : Table s) (hkept : Kept id held s) {Q : ℕ → ReservationLocal → ReservationStore → Prop}
    (hQ : ∀ n s' t', Table s' → Kept id held s' → Renewing id held t' s' →
      Q n ⟨some t', reads⟩ s') :
    wp holding p (refreshHold id) Q ⟨some t, reads⟩ s := by
  refine (wp_seq _ _).mpr (wp_ask _ fun c => ?_)
  refine wp_updateReservations fun s' hits e hl hi' hhits hwrites hentries => ?_
  have hkept' := hkept.later hl hi
  have ⟨x, hx, _⟩ := hkept'
  exact hQ _ s' _ hi' hkept' (renewing_add hits e c.now ht hnone
    (fun y => by rw [hhits, decide_eq_true_eq]) hwrites
    (hentries.trans (List.flatMap_eq_nil_iff.mpr fun _ _ => rfl)) (hi'.mem_journal hx _) hkept')

/-! ### The replacement of the holds -/

theorem DraftLocked.holdTx (h : DraftLocked args t) : HoldTx t := by
  have hnone : ∀ id, t.chg (.reservation id) = none := fun id => h.others _ (by simp)
  refine ⟨fun id r n hchg => ?_, fun id n hchg => ?_, fun id hid => ?_, ?_⟩
  · rw [hnone] at hchg
    cases hchg
  · rw [hnone] at hchg
    cases hchg
  · rw [h.entries] at hid
    cases hid
  · rw [h.entries]
    exact List.nodup_nil

theorem Inserted.holdTx (h : Inserted args id now t) : HoldTx t := by
  have hid : ∀ id' o n, t.chg (.reservation id') = some (o, n) →
      id' = id ∧ o = none ∧ n = some (args.hold now) := by
    intro id' o n hchg
    by_cases hne : id' = id
    · subst hne
      rw [h.row] at hchg
      cases hchg
      exact ⟨rfl, rfl, rfl⟩
    · rw [h.others id' hne] at hchg
      cases hchg
  refine ⟨fun id' r n hchg => ?_, fun id' n hchg => ?_, fun id' hmem => ?_, ?_⟩
  · cases (hid _ _ _ hchg).2.1
  · obtain ⟨rfl, -, rfl⟩ := hid _ _ _ hchg
    rw [h.entries]
    exact ⟨List.mem_singleton_self _, _, rfl, args.unbound_hold now⟩
  · rw [h.entries] at hmem
    cases List.mem_singleton.mp hmem
    exact ⟨_, h.row⟩
  · rw [h.entries]
    exact List.nodup_singleton id

/-- The table that the lock of a draft leaves to be seen. -/
theorem DraftLocked.view_eq (h : DraftLocked args t) :
    reservationsOf (s.view t) = reservationsOf (s.view {}) := by
  rw [reservationsOf_eq, reservationsOf_eq]
  have hjournal : (s.view t).journal = (s.view {}).journal := by
    simp only [Store.view, h.entries]
  have hrow : ∀ id, (s.view t).rows (.reservation id) = (s.view {}).rows (.reservation id) :=
    fun id => Tx.row_of_chg (h.others _ (by simp))
  rw [hjournal]
  simp only [hrow]

/-- What a call may answer. -/
def AnswersTruly (args : ReserveArgs) (x : ReserveServiceUsernameResult) (l : ReservationLocal)
    (s : ReservationStore) : Prop :=
  ∀ id name mode, x = .available id name mode →
    name = args.normalizedUsername ∧ mode = args.mode ∧ ∃ r, Answer args l.reads s id r

/-- A hold of the draft that was found and renewed is the row of an answer. -/
theorem Renewed.answer {x : ReservationStore} (h : Renewed id held s r)
    (hfind : args.findHold (x.view {}) = some (id, held)) : Answer args (x :: reads) s id r := by
  have hfound := List.find?_some hfind
  simp only [decide_eq_true_eq] at hfound
  obtain ⟨howns, hname, -⟩ := hfound
  refine ⟨h.row, ?_, h.move.normalizedUsername.trans hname, h.lives, x, reads, rfl, ?_⟩
  · rw [← howns]
    simp only [ReserveArgs.owns, h.move.userId, h.move.draftNonce, h.move.panelId]
  · rw [hfind]
    exact ⟨rfl, h.move.mode⟩

theorem findHold_row {x : ReservationStore} (h : args.findHold (x.view {}) = some (id, held)) :
    Kept id held x := ⟨held, mem_reservationsOf (List.mem_of_find?_eq_some h), .refl held⟩

/-- REPLACE: the row of a replacement is a hold that it found under the lock, or a new one. -/
theorem wp_replaceHolds :
    wp holding p (replaceHolds args) (fun x l s => l.tx = none ∧ Table s ∧
      ∀ id, x = .ok id → ∃ r, Answer args l.reads s id r) ⟨none, reads⟩ s := by
  refine wp_transaction (wp_mono (Q := fun x l s => match x with
    | .ok id => ∀ s', holding.Later p l.Holds s s' → Table s' → l.pending.Held s'.rows →
      HoldTx l.pending ∧ ∃ r, Answer args l.reads (s'.commit p l.pending) id r
    | .error _ => Table s) _ (fun x l s hx => ?_) ?_)
  · cases x with
    | error e => exact ⟨rfl, hx, fun id hid => (nomatch hid)⟩
    | ok id =>
      intro s' hl hi' hheld
      obtain ⟨ht, hanswer⟩ := hx s' hl hi' hheld
      refine ⟨ht, rfl, ht.table hi' hheld, fun id' hid => ?_⟩
      cases hid
      exact hanswer
  refine (wp_seq _ _).mpr (wp_lockDraft fun s₁ t₁ hi₁ ht₁ => ?_)
  refine (wp_seq _ _).mpr (wp_select _ fun s₂ hl₂ hi₂ => ?_)
  dsimp only [Local.pending, Local.read, Option.getD_some]
  have hview : args.findHold (s₂.view t₁) = args.findHold (s₂.view {}) := by
    rw [ReserveArgs.findHold, ht₁.view_eq, ReserveArgs.findHold]
  rw [findHold_of_current, hview, ht₁.view_eq]
  cases hfind : args.findHold (s₂.view {}) with
  | some hold =>
    obtain ⟨id, held⟩ := hold
    refine (wp_seq _ _).mpr (wp_refreshHold_tx ht₁.holdTx (ht₁.others _ (by simp)) hi₂
      (findHold_row hfind) fun n s₃ t₂ hi₃ hkept hrenew => ?_)
    intro s₄ hl₄ hi₄ hheld
    refine ⟨hrenew.tx, ?_⟩
    obtain ⟨r, hr⟩ := (hrenew.later hl₄ hi₃).commit (p := p) (hkept.later hl₄ hi₃)
    exact ⟨r, hr.answer hfind⟩
  | none =>
    refine (wp_seq _ _).mpr (wp_ask _ fun c => (wp_seq _ _).mpr (wp_ask _ fun c' =>
      (wp_seq _ _).mpr (wp_createReservation ht₁ (fun _ s' hi' => ?_)
        fun s₃ t₂ hl₃ hi₃ hnone ht₂ => ?_)))
    · exact hi'
    -- the new row is none of the rows that were read
    have hnew : c.id ∉ ((reservationsOf (s₂.view {})).filter fun r =>
        args.owns r.2 ∧ r.2.status.isRebindable).map (·.1) := by
      intro hmem
      obtain ⟨x, hx, he⟩ := List.mem_map.mp hmem
      have hrow : Kept x.1 x.2 s₂ :=
        ⟨x.2, mem_reservationsOf (List.mem_filter.mp hx).1, .refl x.2⟩
      obtain ⟨r, hr, -⟩ := hrow.later hl₃ hi₂
      rw [he, hnone] at hr
      cases hr
    refine (wp_seq _ _).mpr (wp_ask _ fun c'' => (wp_seq _ _).mpr
      (wp_updateReservations fun s₄ hits e hl₄ hi₄ hhits hwrites hentries => ?_))
    have ht₃ : HoldTx (t₂.add s₄.rows e) := by
      refine ht₂.holdTx.add ?_
      rw [hwrites, hentries, List.flatMap_eq_nil_iff.mpr fun _ _ => rfl]
      exact .of_hits (fun x hx => mem_reservationsOf ((hhits x).mp hx).1)
        (ServiceUsernameReservation.holdMove_released _) rfl
    have hrow : (t₂.add s₄.rows e).chg (.reservation c.id) = some (none, some (args.hold c'.now)) := by
      refine (Tx.chg_add_of_notMem fun hmem => ?_).trans ht₂.row
      obtain ⟨⟨k, n⟩, hw, hk⟩ := List.mem_map.mp hmem
      cases hk
      rw [hwrites] at hw
      obtain ⟨y, hy, -⟩ := reservation_of_mem_rowWrites hw
      exact hnew (of_decide_eq_true ((hhits _).mp hy).2).1
    refine (wp_seq _ _).mpr (wp_ask _ fun c₅ => ?_)
    split
    · exact hi₄
    · intro s₅ hl₅ hi₅ hheld
      refine ⟨ht₃, args.hold c'.now, ?_, ?_, rfl, fun _ => ⟨_, rfl, ?_⟩, s₂, reads, rfl, ?_⟩
      · simp [Store.commit, Tx.row, hrow]
      · simp [ReserveArgs.owns, ReserveArgs.hold]
      · simp [ServiceUsernameReservation.RESERVATION_HELD_TTL_MS]
      · rw [hfind]
        exact ⟨rfl, rfl⟩

/-! ### The calls -/

/-- RESERVE: what a call answers as AVAILABLE is the row of its answer. -/
theorem wp_reserve (hi : Table s) :
    wp holding p (reserveServiceUsername args) (fun x l s =>
      l.tx = none ∧ Table s ∧ AnswersTruly args x l s) ⟨none, reads⟩ s := by
  have hrefused : ∀ outcome l (s : ReservationStore),
      AnswersTruly args (.refused outcome) l s := fun _ _ _ _ _ _ h => (nomatch h)
  rw [reserveServiceUsername]
  split
  · exact ⟨rfl, hi, hrefused _ _ _⟩
  refine (wp_seq _ _).mpr (wp_ask _ fun c => ?_)
  split
  · exact ⟨rfl, hi, hrefused _ _ _⟩
  refine (wp_seq _ _).mpr (wp_select _ fun s₁ hl₁ hi₁ => ?_)
  dsimp only [Local.pending, Local.read, Option.getD_none]
  split
  · rename_i hold hfind
    obtain ⟨id, held⟩ := hold
    split
    · exact ⟨rfl, hi₁, hrefused _ _ _⟩
    · rename_i hheld
      have hfind' := findHold_of_prior hfind (not_not.mp hheld)
      refine (wp_seq _ _).mpr (wp_refreshHold hi₁ (findHold_row hfind') fun n s₂ r hi₂ hr => ?_)
      refine ⟨rfl, hi₂, fun id' name mode he => ?_⟩
      cases he
      exact ⟨rfl, rfl, r, hr.answer hfind'⟩
  · refine (wp_seq _ _).mpr (wp_mono _ (fun availability l s₂ hx => ?_) ((accepts_check _ _ _ _).run _ _ hi₁))
    obtain ⟨tx, rs⟩ := l
    obtain ⟨rfl, hi₂⟩ := hx
    split
    · exact ⟨rfl, hi₂, hrefused _ _ _⟩
    refine (wp_seq _ _).mpr (wp_mono _ (fun created l s₃ hx => ?_) wp_replaceHolds)
    obtain ⟨tx, rs'⟩ := l
    obtain ⟨rfl, hi₃, hanswer⟩ := hx
    split
    · refine ⟨rfl, hi₃, fun id' name mode he => ?_⟩
      cases he
      exact ⟨rfl, rfl, hanswer _ rfl⟩
    · exact ⟨rfl, hi₃, hrefused _ _ _⟩
    · exact ⟨rfl, hi₃, hrefused _ _ _⟩

/-- A call for a username: one that the user gives, or the first free one of the generator. -/
inductive ReserveCall
  | given (args : ReserveArgs)
  | random (userId panelId : ℕ) (draftNonce : Option String) (candidates : List String)

namespace ReserveCall

def run : ReserveCall → Reserving ReserveServiceUsernameResult
  | given args => reserveServiceUsername args
  | random userId panelId draftNonce candidates =>
    reserveRandomServiceUsername userId panelId draftNonce candidates

/-- The call for the username that was answered. -/
def answeredArgs : ReserveCall → String → ServiceUsernameMode → ReserveArgs
  | given args, name, mode => { args with normalizedUsername := name, mode := mode }
  | random userId panelId draftNonce _, name, mode => ⟨userId, panelId, mode, name, draftNonce⟩

/-- The claim of what was answered. -/
def claimArgs (call : ReserveCall) (id : ℕ) (name : String) (mode : ServiceUsernameMode) :
    ReservationClaimArgs where
  reservationId := id
  userId := (call.answeredArgs name mode).userId
  draftNonce := (call.answeredArgs name mode).draftNonce
  normalizedUsername := name
  mode := mode
  panelId := (call.answeredArgs name mode).panelId

end ReserveCall

/-- The answer of a call has its row. -/
def CallTruly (call : ReserveCall) (x : ReserveServiceUsernameResult) (l : ReservationLocal)
    (s : ReservationStore) : Prop :=
  ∀ id name mode, x = .available id name mode → ∃ r, Answer (call.answeredArgs name mode) l.reads s id r

theorem wp_candidates (userId panelId : ℕ) (draftNonce : Option String) (all : List String) :
    ∀ candidates outcome reads s, Table s →
      wp holding p (reserveCandidates userId panelId draftNonce candidates outcome)
        (CallTruly (.random userId panelId draftNonce all)) ⟨none, reads⟩ s := by
  intro candidates
  induction candidates with
  | nil => rintro outcome reads s hi _ _ _ ⟨⟩
  | cons candidate candidates ih =>
    intro outcome reads s hi
    refine (wp_seq _ _).mpr (wp_mono _ (fun x l s hx => ?_) (wp_reserve hi))
    obtain ⟨tx, rs⟩ := l
    obtain ⟨rfl, hi, htruly⟩ := hx
    split
    · rename_i id name mode
      intro id' name' mode' he
      cases he
      obtain ⟨rfl, rfl, hanswer⟩ := htruly id name mode rfl
      exact hanswer
    · rintro _ _ _ ⟨⟩
    · rintro _ _ _ ⟨⟩
    · exact ih _ rs s hi

theorem wp_call (call : ReserveCall) (hi : Table s) :
    wp holding p call.run (CallTruly call) ⟨none, reads⟩ s := by
  cases call with
  | given args =>
    refine wp_mono _ (fun x l s hx id name mode he => ?_) (wp_reserve hi)
    obtain ⟨rfl, rfl, hanswer⟩ := hx.2.2 id name mode he
    exact hanswer
  | random userId panelId draftNonce candidates => exact wp_candidates _ _ _ _ _ _ _ _ hi

theorem each_candidates (userId panelId : ℕ) (draftNonce : Option String) {Ψ : Unit → Unit → Prop} :
    ∀ candidates outcome,
      (reserveCandidates userId panelId draftNonce candidates outcome).Each HoldStmt Ψ
  | [], _ => .pure _
  | candidate :: candidates, _ => by
    refine .bind (each_reserve _) fun result => ?_
    split
    · exact .pure _
    · exact .pure _
    · exact .pure _
    · exact each_candidates userId panelId draftNonce candidates _

theorem each_call (call : ReserveCall) {Ψ : Unit → Unit → Prop} : call.run.Each HoldStmt Ψ := by
  cases call with
  | given args => exact each_reserve args
  | random userId panelId draftNonce candidates => exact each_candidates _ _ _ _ _

/-! ### Runs -/

/-- The processes: calls that hand out their answers, and every other operation on the table. -/
def reserving (calls : ℕ → Option ReserveCall) (procs : ℕ → ReservationProcess) (p : ℕ) :
    Reserving Unit :=
  match calls p with
  | some call => answering call.run
  | none => (procs p).program

variable {calls : ℕ → Option ReserveCall} {procs : ℕ → ReservationProcess}

theorem good_reserving (h : Table s) :
    Good holding (Config.start s (reserving calls procs)) := by
  refine good_start h fun p => ?_
  rw [reserving]
  split
  · rename_i call _
    refine (wp_bind _ _).mpr (wp_mono _ (fun x l s hx => ?_)
      (holdingRules.wp_each (l := {}) (each_call call) h .empty))
    exact fun s' _ _ _ => ⟨trivial, trivial⟩
  · exact wp_mono _ (fun _ _ _ _ => trivial)
      (holdingRules.wp_each (l := {}) (each_process (procs p)) h .empty)

/-- AVAILABLE: in every run, where a call has answered AVAILABLE and nobody has committed since, the claim
    with the answered values succeeds exactly if the call found no hold of its draft on the username, or
    one with its mode that is still HELD. -/
theorem available_claimable_iff (calls : ℕ → Option ReserveCall) (procs : ℕ → ReservationProcess)
    {s₀ : ReservationStore} (h₀ : Table s₀) {c : ReservationConfig}
    (hrun : Run anyStep (Config.start s₀ (reserving calls procs)) c) {p : ℕ} {call : ReserveCall}
    (hcall : calls p = some call) {id : ℕ} {name : String} {mode : ServiceUsernameMode}
    (hanswer : (c.threads p).prog = answered (ReserveServiceUsernameResult.available id name mode))
    (hlast : c.store.log.head?.map (·.pid) = some p) :
    Claimable (call.claimArgs id name mode) c.store ↔
      findsOwnMode (call.answeredArgs name mode) (c.threads p).loc.reads c.store = true := by
  have hstart : ((Config.start s₀ (reserving calls procs)).threads p).prog = answering call.run := by
    simp only [Config.start, reserving, hcall]
  have hg := @good_reserving _ calls procs h₀
  obtain ⟨s, hl, htruly⟩ := hrun.answers hg hstart (each_call call).quiet (wp_call call h₀) hanswer
  obtain ⟨hrows, hlog⟩ := hl.own_commit hlast
  obtain ⟨r, hr⟩ := htruly id name mode rfl
  have ht : Table c.store := (hrun.sound hg).1.inv
  have hr' : Answer (call.answeredArgs name mode) (c.threads p).loc.reads c.store id r :=
    ⟨by rw [hrows]; exact hr.row, hr.owns, hr.name, hr.lives, hr.found⟩
  have hiff := hr'.claimable_iff ht
  cases call with
  | given args => exact hiff
  | random userId panelId draftNonce candidates => exact hiff

/-! A draft draws a username at random and then asks for the same name itself. -/

/-- A table that lists nothing. -/
theorem noReservations_table : Table noReservations :=
  ⟨fun _ _ h => (nomatch h), fun _ => ⟨nofun, fun h => absurd rfl h⟩, List.nodup_nil⟩

/-- Where a lone call ends: it has its result to hand out. -/
theorem solo_answered {s : ReservationStore} (call : ReserveCall) (p : ℕ)
    (ch : ℕ → ReservationChoice) : ∃ c : ReservationConfig,
    Run anyStep (Config.start s (reserving (fun _ => some call) fun _ => .release 0)) c ∧
    c.Alone p (answered (call.run.solo p ch { store := s }).1) (call.run.solo p ch { store := s }).2 :=
  Run.of_solo ch call.run answered ⟨rfl, rfl, rfl, fun _ => .inl rfl⟩

def drawnName : ReserveArgs := { requestHold 1 "first_name" with mode := .RANDOM }

/-- The table that the first call leaves. -/
def afterDraw : ReservationStore :=
  ((ReserveCall.given drawnName).run.solo 0 (fun _ => { id := 1 }) { store := noReservations }).2.store

theorem afterDraw_table : Table afterDraw := by
  obtain ⟨c, hrun, halone⟩ := solo_answered (s := noReservations) (.given drawnName) 0
    fun _ => { id := 1 }
  have ht : Table c.store := (hrun.sound (good_reserving noReservations_table)).1.inv
  rwa [halone.store] at ht

/-- The first call can be claimed. -/
theorem available_claimable_first : ∃ c : ReservationConfig,
    Run anyStep (Config.start noReservations
      (reserving (fun _ => some (.given drawnName)) fun _ => .release 0)) c ∧
    Claimable ((ReserveCall.given drawnName).claimArgs 1 "first_name" .RANDOM) c.store := by
  obtain ⟨c, hrun, halone⟩ := solo_answered (s := noReservations) (.given drawnName) 0
    fun _ => { id := 1 }
  have hresult : ((ReserveCall.given drawnName).run.solo 0 (fun _ => { id := 1 })
    { store := noReservations }).1 = .available 1 "first_name" .RANDOM := by decide +kernel
  have hprog := halone.prog
  rw [hresult] at hprog
  refine ⟨c, hrun, (available_claimable_iff _ _ noReservations_table hrun rfl hprog ?_).mpr ?_⟩
  · rw [halone.store]
    decide +kernel
  · rw [halone.store, halone.loc]
    decide +kernel

/-- TRAPPED: the same draft then asks for the name itself: the answer is AVAILABLE, and the claim fails. -/
theorem available_not_claimable : ¬ ∀ (calls : ℕ → Option ReserveCall)
    (procs : ℕ → ReservationProcess) (s₀ : ReservationStore), Table s₀ →
    ∀ c : ReservationConfig, Run anyStep (Config.start s₀ (reserving calls procs)) c →
    ∀ p call, calls p = some call → ∀ id name mode,
    (c.threads p).prog = answered (ReserveServiceUsernameResult.available id name mode) →
    c.store.log.head?.map (·.pid) = some p → Claimable (call.claimArgs id name mode) c.store := by
  intro h
  obtain ⟨c, hrun, halone⟩ := solo_answered (s := afterDraw) (.given (requestHold 1 "first_name")) 1
    fun _ => {}
  have hresult : ((ReserveCall.given (requestHold 1 "first_name")).run.solo 1 (fun _ => {})
    { store := afterDraw }).1 = .available 1 "first_name" .CUSTOM := by decide +kernel
  have hprog := halone.prog
  rw [hresult] at hprog
  have hlast : c.store.log.head?.map (·.pid) = some 1 := by
    rw [halone.store]
    decide +kernel
  have hclaim := h _ _ afterDraw afterDraw_table c hrun 1 _ rfl 1 _ _ hprog hlast 0 1 0
  rw [halone.store] at hclaim
  have hfails : ((claimReservationForCheckout ((ReserveCall.given
      (requestHold 1 "first_name")).claimArgs 1 "first_name" .CUSTOM) 1).solo 0
      (fun _ => { now := 0 }) { store := ((ReserveCall.given
        (requestHold 1 "first_name")).run.solo 1 (fun _ => {}) { store := afterDraw }).2.store }).1 =
      false := by decide +kernel
  rw [hfails] at hclaim
  exact absurd (hclaim (by decide +kernel)) nofun

end ZedBot.Reservations
