import ZedBot.Reservations.Usernames

/-! The rules of the reservations: how a reservation moves on, who may insert one and who may end one
    that is bound. -/

namespace ZedBot.Reservations
open ReadCommitted

/-! ### The life of a reservation -/

/-- One move of the status. -/
inductive StatusStep :
    ServiceUsernameReservationStatus → ServiceUsernameReservationStatus → Prop
  | bind : StatusStep .HELD .BOUND
  | consume : StatusStep .BOUND .CONSUMED
  | release {a} (h : a.isRebindable = true) : StatusStep a .RELEASED
  | expire {a} (h : a.isRebindable = true) : StatusStep a .EXPIRED

/-- What the moves of a transaction make of a status. -/
abbrev Advance := Relation.ReflTransGen StatusStep

variable {a b : ServiceUsernameReservationStatus} {r r' r'' : ServiceUsernameReservation}

theorem Advance.from_ended (h : Advance a b) (ha : a.isRebindable = false) : b = a := by
  induction h with
  | refl => rfl
  | tail _ hst ih =>
    subst ih
    cases hst with
    | bind | consume => cases ha
    | release h | expire h =>
      rw [ha] at h
      cases h

/-- Nothing becomes HELD. -/
theorem Advance.to_held (h : Advance a .HELD) : a = .HELD := by
  rcases Relation.ReflTransGen.cases_tail h with h | ⟨b, -, hst⟩
  · exact h.symm
  · cases hst

theorem Advance.bound_to (h : Advance .BOUND b) : b ≠ .HELD := by
  rintro rfl
  cases h.to_held

/-- The columns of a reservation agree: the key is the username exactly while it is active, and only a
    bound reservation has an order. -/
structure Sound (r : ServiceUsernameReservation) : Prop where
  key : r.activeUsernameKey = if r.status.isActive then some r.normalizedUsername else none
  unattached : r.status = .HELD → r.orderId = none

/-- A reservation moves on: it stays the same reservation. -/
structure Move (r r' : ServiceUsernameReservation) : Prop where
  userId : r'.userId = r.userId
  draftNonce : r'.draftNonce = r.draftNonce
  panelId : r'.panelId = r.panelId
  status : Advance r.status r'.status

theorem Move.refl (r : ServiceUsernameReservation) : Move r r := ⟨rfl, rfl, rfl, .refl⟩

theorem Move.trans (h : Move r r') (h' : Move r' r'') : Move r r'' :=
  ⟨h'.userId.trans h.userId, h'.draftNonce.trans h.draftNonce, h'.panelId.trans h.panelId,
    h.status.trans h'.status⟩

theorem Move.owns {args : ReserveArgs} (h : Move r r') : args.owns r' = args.owns r := by
  simp only [ReserveArgs.owns, h.userId, h.draftNonce, h.panelId]

/-- What a statement makes of a sound row. -/
def Moves (r r' : ServiceUsernameReservation) : Prop := Sound r → Sound r' ∧ Move r r'

theorem Moves.trans (h : Moves r r') (h' : Moves r' r'') : Moves r r'' := fun hs =>
  ⟨(h' (h hs).1).1, (h hs).2.trans (h' (h hs).1).2⟩

namespace ServiceUsernameReservation

theorem moves_refreshed (now : ℕ) (r : ServiceUsernameReservation) : Moves r (r.refreshed now) :=
  fun hs => ⟨⟨hs.key, hs.unattached⟩, ⟨rfl, rfl, rfl, .refl⟩⟩

theorem moves_released (now : ℕ) (h : r.status.isRebindable = true) : Moves r (r.released now) :=
  fun _ => ⟨⟨rfl, nofun⟩, ⟨rfl, rfl, rfl, .single (.release h)⟩⟩

theorem moves_expired (now : ℕ) (h : r.status.isRebindable = true) : Moves r (r.expired now) :=
  fun _ => ⟨⟨rfl, nofun⟩, ⟨rfl, rfl, rfl, .single (.expire h)⟩⟩

theorem moves_boundTo (checkoutSessionId now : ℕ) (h : r.status = .HELD) :
    Moves r (r.boundTo checkoutSessionId now) := by
  intro hs
  have hkey := hs.key
  rw [h] at hkey
  refine ⟨⟨hkey, nofun⟩, ⟨rfl, rfl, rfl, ?_⟩⟩
  rw [h]
  exact .single .bind

theorem moves_attachedTo (orderId now : ℕ) (h : r.status = .BOUND) :
    Moves r (r.attachedTo orderId now) := by
  intro hs
  have hkey := hs.key
  rw [h] at hkey
  refine ⟨⟨hkey, nofun⟩, ⟨rfl, rfl, rfl, ?_⟩⟩
  rw [h]
  exact .refl

/-- An order consumes only what is bound: a held reservation has no order. -/
theorem moves_consumedBy (serviceId now : ℕ) {orderId : ℕ} (horder : r.orderId = some orderId)
    (h : r.status.isRebindable = true ∨ r.status = .CONSUMED) :
    Moves r (r.consumedBy serviceId now) := by
  intro hs
  have hheld : r.status ≠ .HELD := by
    intro hheld
    rw [hs.unattached hheld] at horder
    cases horder
  have hkey := hs.key
  have hstatus : r.status = .BOUND ∨ r.status = .CONSUMED := by
    revert h hheld
    cases r.status <;> simp [ServiceUsernameReservationStatus.isRebindable]
  rcases hstatus with hb | hc
  · rw [hb] at hkey
    exact ⟨⟨hkey, nofun⟩, ⟨rfl, rfl, rfl, by rw [hb]; exact .single .consume⟩⟩
  · rw [hc] at hkey
    exact ⟨⟨hkey, nofun⟩, ⟨rfl, rfl, rfl, by rw [hc]; exact .refl⟩⟩

end ServiceUsernameReservation

theorem ReserveArgs.sound_hold (args : ReserveArgs) (now : ℕ) : Sound (args.hold now) :=
  ⟨rfl, fun _ => rfl⟩

/-! ### The rules -/

variable {p q : ℕ} {s s' : ReservationStore} {t : ReservationTx}

/-- A payment or an order still keeps a bound reservation. -/
def Protected (s : ReservationStore) (r : ServiceUsernameReservation) : Prop :=
  (∃ c, r.checkoutSessionId = some c ∧
    ((∃ id pay, s.rows (.payment id) = some pay ∧ isSettleable c pay = true) ∨
      ∃ id o, s.rows (.order id) = some o ∧ o.checkoutSessionId = some c ∧ isLive o = true)) ∨
  ∃ id o, r.orderId = some id ∧ s.rows (.order id) = some o ∧ isLive o = true

/-- A release for a failed order: of the order of the reservation, or of its checkout's. -/
def FailedRelease (entries : List ReservationEntry) (id : ℕ) (r : ServiceUsernameReservation) :
    Prop :=
  ∃ orderId checkoutSessionId, .failedRelease orderId checkoutSessionId id ∈ entries ∧
    (r.orderId = some orderId ∨ ∃ c, checkoutSessionId = some c ∧ r.checkoutSessionId = some c)

theorem FailedRelease.mono {es es' : List ReservationEntry} {id : ℕ} (h : FailedRelease es id r)
    (he : es ⊆ es') : FailedRelease es' id r := by
  obtain ⟨orderId, checkoutSessionId, hmem, hnames⟩ := h
  exact ⟨orderId, checkoutSessionId, he hmem, hnames⟩

/-- A process that ends bound reservations without asking what keeps them. -/
def Frees : ReservationProcess → ReservationTx → ℕ → ServiceUsernameReservation → Prop
  | .reserve args, t, _, r => args.owns r = true ∧ ∃ id, .reservation id ∈ t.entries
  | .release id', _, id, _ => id = id'
  | _, _, _, _ => False

/-- A new hold: it is obtained under the lock of its draft, and the other holds of the draft on the panel
    are released with it. -/
structure Obtains (args : ReserveArgs) (s : ReservationStore) (t : ReservationTx) (id : ℕ) :
    Prop where
  listed : .reservation id ∈ t.entries
  locked : ∃ k, t.chg (.draftLock args.userId (args.draftNonce.getD "")) = some (k, k + 1)
  only : ∀ id' n, t.chg (.reservation id') = some (none, n) → id' = id
  others : ∀ id' r, s.rows (.reservation id') = some r → r.status = .HELD → args.owns r = true →
    ∃ r', t.chg (.reservation id') = some (some r, some r') ∧ r'.status ≠ .HELD

/-- What a process may commit. -/
structure UsernameTx (process : ReservationProcess) (s : ReservationStore) (t : ReservationTx) :
    Prop where
  rows : ∀ id o n, t.chg (.reservation id) = some (o, n) →
    (∃ r r', o = some r ∧ n = some r' ∧ Moves r r') ∨
    o = none ∧ ∃ args now, process = .reserve args ∧ n = some (args.hold now) ∧ Obtains args s t id
  kept : ∀ id r r', t.chg (.reservation id) = some (some r, some r') → r.status = .BOUND →
    r'.status.isActive = false →
    FailedRelease t.entries id r' ∨ ¬ Protected s r ∨ Frees process t id r
  payments : ∀ id o n, t.chg (.payment id) = some (o, n) → o = none → .payment id ∈ t.entries
  orders : ∀ id o n, t.chg (.order id) = some (o, n) → o = none → .order id ∈ t.entries

/-- The tables are listed, and every reservation is sound. -/
structure Reserved (s : ReservationStore) : Prop where
  sound : ∀ id r, s.rows (.reservation id) = some r → Sound r
  reservations : ∀ id, s.rows (.reservation id) ≠ none → .reservation id ∈ s.journal
  payments : ∀ id, s.rows (.payment id) ≠ none → .payment id ∈ s.journal
  orders : ∀ id, s.rows (.order id) ≠ none → .order id ∈ s.journal

/-- A table whose inserted rows are listed stays listed; `absent` is the missing row. -/
theorem listed_commit {k : ReservationKey} {absent : ReservationRow k} {e : ReservationEntry}
    (hheld : t.Held s.rows) (h : s.rows k ≠ absent → e ∈ s.journal)
    (ht : ∀ o n, t.chg k = some (o, n) → o = absent → e ∈ t.entries)
    (hsome : (s.commit p t).rows k ≠ absent) : e ∈ (s.commit p t).journal := by
  rw [Store.journal_commit, List.mem_append]
  rcases s.commit_rows p hheld k with ⟨he, -⟩ | hchg
  · rw [he] at hsome
    exact .inl (h hsome)
  · by_cases hnone : s.rows k = absent
    · exact .inr (ht _ _ hchg hnone)
    · exact .inl (h hnone)

theorem UsernameTx.reserved {process : ReservationProcess} (h : UsernameTx process s t)
    (hi : Reserved s) (hheld : t.Held s.rows) : Reserved (s.commit p t) where
  sound id r hr := by
    rcases s.commit_rows p hheld (.reservation id) with ⟨he, -⟩ | hchg
    · exact hi.sound id r (he.symm.trans hr)
    · rw [hr] at hchg
      rcases h.rows id _ _ hchg with ⟨x, x', hx, hx', hmoves⟩ | ⟨-, args, now, -, hn, -⟩
      · cases hx'
        exact (hmoves (hi.sound id x hx)).1
      · cases hn
        exact args.sound_hold now
  reservations id := listed_commit hheld (hi.reservations id) fun o n hchg ho => by
    rcases h.rows id o n hchg with ⟨x, x', rfl, -⟩ | ⟨-, args, now, -, -, hobtains⟩
    · cases ho
    · exact hobtains.listed
  payments id := listed_commit hheld (hi.payments id) (h.payments id)
  orders id := listed_commit hheld (hi.orders id) (h.orders id)

/-- The rules of the processes. -/
def usernames (procs : ℕ → ReservationProcess) :
    Discipline ReservationRow ReservationEntry Unit where
  Inv := Reserved
  Commits p _ s t := UsernameTx (procs p) s t
  Acts _ _ _ _ := True
  commits_empty _ := ⟨fun _ _ _ h => (nomatch h), fun _ _ _ h => (nomatch h),
    fun _ _ _ h => (nomatch h), fun _ _ _ h => (nomatch h)⟩
  inv_commit hi hheld h := h.reserved hi hheld
  inv_act hi _ := hi

end ZedBot.Reservations
