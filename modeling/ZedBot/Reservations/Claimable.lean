import ZedBot.ReadCommitted.Answers
import ZedBot.ReadCommitted.Solo
import ZedBot.Reservations.Holds

/-! What AVAILABLE promises.

    A call that answers AVAILABLE has inserted a hold, or has found one of its draft and renewed it. The
    claim with the answered values then succeeds exactly if the hold that was found has the mode of the
    call and is still HELD. -/

namespace ZedBot.Reservations
open ReadCommitted

variable {p id now : ℕ} {s s' : ReservationStore} {t : ReservationTx} {v : ReservationView}
  {r held : ServiceUsernameReservation} {args : ReserveArgs}

instance : Inhabited ReservationChoice := ⟨{}⟩

/-! ### The claim -/

/-- A hold whose lifetime has passed. -/
def isElapsed (now : ℕ) (r : ServiceUsernameReservation) : Bool :=
  r.status = .HELD ∧ ¬ r.expiresAt.any (now < ·)

/-- The claim succeeds, whoever makes it and whenever, as long as the hold's lifetime has not passed. -/
def Claimable (args : ReservationClaimArgs) (s : ReservationStore) : Prop :=
  ∀ p checkoutSessionId now,
    (s.rows (.reservation args.reservationId)).all (fun r => ¬ isElapsed now r) = true →
    ((claimReservationForCheckout args checkoutSessionId).solo p (fun _ => { now := now })
      { store := s }).1 = true

theorem reservationsOf_eq (v : ReservationView) : reservationsOf v =
    (listedIds v.journal).filterMap fun id => (v.rows (.reservation id)).map (id, ·) := by
  rw [reservationsOf, listedIds, List.filterMap_filterMap]
  congr 1
  funext e
  cases e <;> rfl

/-- An update of one row hits it or nothing. -/
theorem length_hits {cond : ServiceUsernameReservation → Bool} (ht : Table s)
    (hr : s.rows (.reservation id) = some r) :
    ((reservationsOf (s.view {})).filter fun x => x.1 = id ∧ cond x.2).length =
      if cond r then 1 else 0 := by
  have hmem : id ∈ listedIds s.journal := (ht.listed id).mpr (by simp [hr])
  have hnodup := ht.nodup
  have hjournal : (s.view {}).journal = s.journal := List.append_nil _
  rw [reservationsOf_eq, hjournal]
  have hview : ∀ id, (s.view {}).rows (.reservation id) = s.rows (.reservation id) := fun _ => rfl
  simp only [hview]
  generalize listedIds s.journal = ids at hmem hnodup
  have hrest : ∀ ids : List ℕ, id ∉ ids → ((ids.filterMap fun id =>
      (s.rows (.reservation id)).map (id, ·)).filter fun x => x.1 = id ∧ cond x.2) = [] := by
    intro ids hid
    refine List.filter_eq_nil_iff.mpr fun x hx => ?_
    obtain ⟨id', hid', hx⟩ := List.mem_filterMap.mp hx
    obtain ⟨r', -, rfl⟩ := Option.map_eq_some_iff.mp hx
    simp only [decide_eq_true_eq, not_and]
    exact fun he => absurd (he ▸ hid') hid
  induction ids with
  | nil => cases hmem
  | cons x xs ih =>
    rw [List.nodup_cons] at hnodup
    by_cases he : x = id
    · subst he
      rw [List.filterMap_cons, hr, Option.map_some]
      simp only [List.filter_cons, hrest xs hnodup.1, true_and]
      cases cond r <;> rfl
    · have hxs := ih ((List.mem_cons.mp hmem).resolve_left fun h => he h.symm) hnodup.2
      rw [List.filterMap_cons]
      cases hx : s.rows (.reservation x) with
      | none => simpa only [Option.map_none] using hxs
      | some r' => simpa [List.filter_cons, he] using hxs

/-- The columns that the claim compares on the row. -/
def ReservationClaimArgs.matchesRow (args : ReservationClaimArgs) (now : ℕ)
    (r : ServiceUsernameReservation) : Bool := args.matches now args.reservationId r

theorem solo_claim {args : ReservationClaimArgs} {checkoutSessionId : ℕ} (ht : Table s)
    (hr : s.rows (.reservation args.reservationId) = some r) :
    ((claimReservationForCheckout args checkoutSessionId).solo p (fun _ => { now := now })
      { store := s }).1 = args.matchesRow now r := by
  have hhits := @length_hits _ _ _ (args.matchesRow now) ht hr
  have hmatches : (fun x : ℕ × ServiceUsernameReservation => args.matches now x.1 x.2) =
      fun x => decide (x.1 = args.reservationId ∧ args.matchesRow now x.2) := by
    funext x
    simp [ReservationClaimArgs.matchesRow, ReservationClaimArgs.matches]
  change decide ((((reservationsOf (s.view {})).filter fun x => args.matches now x.1 x.2).length) = 1)
    = _
  rw [hmatches, hhits]
  cases args.matchesRow now r <;> rfl

/-- What a hold has to be for the claim. -/
theorem claimable_iff {args : ReservationClaimArgs} (ht : Table s)
    (hr : s.rows (.reservation args.reservationId) = some r) (huser : r.userId = args.userId)
    (hnonce : r.draftNonce = args.draftNonce) (hpanel : r.panelId = args.panelId)
    (hname : r.normalizedUsername = args.normalizedUsername)
    (hlives : r.status = .HELD → ∃ e, r.expiresAt = some e ∧ 0 < e) :
    Claimable args s ↔ r.mode = args.mode ∧ r.status = .HELD := by
  have hrow : ∀ now, args.matchesRow now r = true ↔
      r.mode = args.mode ∧ r.status = .HELD ∧ r.expiresAt.any (now < ·) = true := by
    intro now
    simp only [ReservationClaimArgs.matchesRow, ReservationClaimArgs.matches, huser, hnonce, hpanel,
      hname, true_and, decide_eq_true_eq]
    constructor
    · rintro ⟨-, hm, hheld, he, -⟩
      exact ⟨hm, hheld, he⟩
    · rintro ⟨hm, hheld, he⟩
      have hu := ht.unbound _ r hr hheld
      exact ⟨hname ▸ hu.key, hm, hheld, he, hu.checkout, hu.order, hu.service⟩
  constructor
  · intro h
    have hclaim := h 0 0 0
    rw [solo_claim ht hr, hr, hrow] at hclaim
    by_cases hheld : r.status = .HELD
    · obtain ⟨e, he, hpos⟩ := hlives hheld
      have hm := hclaim (by simp [isElapsed, he, hpos])
      exact ⟨hm.1, hheld⟩
    · have hm := hclaim (by simp [isElapsed, hheld])
      exact ⟨hm.1, hm.2.1⟩
  · rintro ⟨hm, hheld⟩ p checkoutSessionId now he
    rw [solo_claim ht hr, hrow]
    refine ⟨hm, hheld, ?_⟩
    rw [hr] at he
    simpa [isElapsed, hheld] using he

/-! ### What a call finds -/

/-- The hold of the draft on the username. -/
def ReserveArgs.findHold (args : ReserveArgs) (v : ReservationView) :
    Option (ℕ × ServiceUsernameReservation) :=
  (reservationsOf v).find? fun r => args.owns r.2 ∧
    r.2.normalizedUsername = args.normalizedUsername ∧ r.2.status = .HELD

/-- A row found by a weaker condition. -/
theorem find?_of_imp {α : Type} {l : List α} {P Q : α → Bool} {x : α} (h : l.find? P = some x)
    (hQ : ∀ y, Q y = true → P y = true) (hx : Q x = true) : l.find? Q = some x := by
  obtain ⟨-, as, bs, rfl, has⟩ := List.find?_eq_some_iff_append.mp h
  refine List.find?_eq_some_iff_append.mpr ⟨hx, as, bs, rfl, fun a ha => ?_⟩
  have hP := has a ha
  cases hQa : Q a with
  | false => rfl
  | true =>
    rw [hQ a hQa] at hP
    cases hP

/-- The hold that a call reads before its replacement. -/
theorem findHold_of_prior {x : ℕ × ServiceUsernameReservation}
    (h : ((reservationsOf v).filter fun r => args.owns r.2 ∧ r.2.status.isRebindable).find?
      (fun r => r.2.normalizedUsername = args.normalizedUsername) = some x)
    (hheld : x.2.status = .HELD) : args.findHold v = some x := by
  rw [List.find?_filter] at h
  have hx := List.find?_some h
  simp only [decide_eq_true_eq, Bool.decide_and, Bool.and_eq_true, Bool.decide_eq_true] at hx
  refine find?_of_imp h (fun y hy => ?_) (by simp [hx.1.1, hx.2, hheld])
  simp only [decide_eq_true_eq] at hy
  simp [hy.1, hy.2.1, hy.2.2, ServiceUsernameReservationStatus.isRebindable]

/-- The hold that a call reads under the lock of its draft. -/
theorem findHold_of_current :
    ((reservationsOf v).filter fun r => args.owns r.2 ∧ r.2.status.isRebindable).find?
      (fun r => r.2.normalizedUsername = args.normalizedUsername ∧ r.2.status = .HELD) =
    args.findHold v := by
  rw [List.find?_filter, ReserveArgs.findHold]
  congr 1
  funext x
  by_cases hheld : x.2.status = .HELD <;>
    simp [hheld, ServiceUsernameReservationStatus.isRebindable]

/-- A reservation is still there. -/
def Kept (id : ℕ) (held : ServiceUsernameReservation) (s : ReservationStore) : Prop :=
  ∃ r, s.rows (.reservation id) = some r ∧ HoldMove held r

theorem Kept.later {ks : ReservationKey → Prop} (h : Kept id held s)
    (hl : holding.Later p ks s s') (hi : Table s) : Kept id held s' := by
  refine hl.stable (P := Kept id held) (fun _ _ hst ⟨r, hr, hmove⟩ => ?_) hi h
  cases hst with
  | act w _ => exact ⟨r, hr, hmove⟩
  | commit t hheld ht =>
    have ht : HoldTx t := ht
    rcases Store.commit_rows _ _ hheld (.reservation id) with ⟨he, -⟩ | hchg
    · exact ⟨r, he.trans hr, hmove⟩
    · rw [hr] at hchg
      obtain ⟨r', hr', hmove'⟩ := ht.moved id r _ hchg
      exact ⟨r', hr', hmove.trans hmove'⟩

/-- The row of an answer: a hold of the draft that was found, or a new one. -/
structure Answer (args : ReserveArgs) (reads : List ReservationStore) (s : ReservationStore) (id : ℕ)
    (r : ServiceUsernameReservation) : Prop where
  row : s.rows (.reservation id) = some r
  owns : args.owns r = true
  name : r.normalizedUsername = args.normalizedUsername
  lives : r.status = .HELD → ∃ e, r.expiresAt = some e ∧ 0 < e
  found : ∃ x rs, reads = x :: rs ∧ match args.findHold (x.view {}) with
    | some (id', held) => id' = id ∧ r.mode = held.mode
    | none => r.status = .HELD ∧ r.mode = args.mode

/-- What a call finds: no hold of the draft on the username, or one with its mode that is still HELD. -/
def findsOwnMode (args : ReserveArgs) (reads : List ReservationStore) (s : ReservationStore) : Bool :=
  (reads.head?.bind fun x => args.findHold (x.view {})).all fun hold =>
    hold.2.mode = args.mode ∧ (s.rows (.reservation hold.1)).any fun r => r.status = .HELD

theorem Answer.claimable_iff {reads : List ReservationStore} (h : Answer args reads s id r)
    (ht : Table s) : Claimable ⟨id, args.userId, args.draftNonce, args.normalizedUsername, args.mode,
      args.panelId⟩ s ↔ findsOwnMode args reads s = true := by
  obtain ⟨huser, hnonce, hpanel⟩ : r.userId = args.userId ∧ r.draftNonce = args.draftNonce ∧
    r.panelId = args.panelId := of_decide_eq_true h.owns
  rw [Reservations.claimable_iff ht h.row huser hnonce hpanel h.name h.lives]
  obtain ⟨x, rs, rfl, hfound⟩ := h.found
  simp only [findsOwnMode, List.head?_cons, Option.bind_some]
  split at hfound
  · rename_i id' held hhold
    obtain ⟨rfl, hmode⟩ := hfound
    simp [hhold, hmode, h.row]
  · rename_i hhold
    simp [hhold, hfound.1, hfound.2]

end ZedBot.Reservations
