import ZedBot.Operations.Reconciliation

/-! The attribution of a panel state to an operation.

    The bot's startup sweep finds an order that was claimed and not finished, computes again what its
    executor would have asked of the panel, and compares: the panel shows that state, or the state from
    before, or something else. The executor computed with an earlier clock. -/

namespace ZedBot.Operations

/-! ### The sweep -/

/-- What an order sold. -/
structure SoldPlan where
  volumeGb : ℤ
  durationDays : ℤ
  deriving DecidableEq, Repr

/-- The plan of an order: its snapshots, else what the product sells today. -/
def soldPlan (x : OrderRows) : SoldPlan := ⟨soldVolumeGb x, soldDays x⟩

inductive MutationVerdict
  | applied | not_applied | unknown
  deriving DecidableEq, Repr

def EXPIRY_TOLERANCE_MS : ℕ := 1500

def expiryEquals : Option ℤ → Option ℤ → Bool
  | some a, some b => (a - b).natAbs < EXPIRY_TOLERANCE_MS
  | none, none => true
  | _, _ => false

/-- The expiry is an instant after now. -/
def inFuture (now : ℕ) (expiresAt : Option ℤ) : Bool := expiresAt.any fun e => (now : ℤ) < e

/-- The verdict where the panel does not show the expected state. -/
def preOrUnknown (service : Service) (panelLimit : ℤ) (panelExpiry : Option ℤ) : MutationVerdict :=
  if panelLimit = service.volumeBytes ∧ expiryEquals panelExpiry service.expiresAt then .not_applied
  else .unknown

/-- Extra volume passes the expiry through. -/
def volumeVerdict (plan : SoldPlan) (service : Service) (panelLimit : ℤ) (panelExpiry : Option ℤ) :
    MutationVerdict :=
  let expected := calculateExtraVolume service plan.volumeGb
  if expected = service.volumeBytes then .unknown
  else if panelLimit = expected ∧ expiryEquals panelExpiry service.expiresAt then .applied
  else preOrUnknown service panelLimit panelExpiry

/-- Extra time keeps the data limit; an expiry that is not in the future was no base. -/
def timeVerdict (plan : SoldPlan) (service : Service) (panelLimit : ℤ) (panelExpiry : Option ℤ)
    (now : ℕ) : MutationVerdict :=
  if ¬ inFuture now service.expiresAt then preOrUnknown service panelLimit panelExpiry
  else
    let expected := calculateExtraTime service plan.durationDays now
    if expiryEquals panelExpiry (some expected) ∧ panelLimit = service.volumeBytes then .applied
    else preOrUnknown service panelLimit panelExpiry

def renewalVerdict (plan : SoldPlan) (service : Service) (panelLimit : ℤ) (panelExpiry : Option ℤ)
    (now : ℕ) : MutationVerdict :=
  let expiryDerivable : Bool := plan.durationDays = 0 ∨ inFuture now service.expiresAt
  if ¬ expiryDerivable then preOrUnknown service panelLimit panelExpiry
  else
    let computed := calculateRenewal service plan.volumeGb plan.durationDays now
    let expectedLimit := computed.totalBytes.getD 0
    if expectedLimit = service.volumeBytes ∧ expiryEquals computed.expiresAt service.expiresAt then
      .unknown
    else if panelLimit = expectedLimit ∧ expiryEquals panelExpiry computed.expiresAt then .applied
    else preOrUnknown service panelLimit panelExpiry

/-- The verdict of a type on a limit and an expiry. -/
def verdictOf (type : OrderType) (plan : SoldPlan) (service : Service) (limit : ℤ)
    (expiry : Option ℤ) (now : ℕ) : MutationVerdict :=
  match type with
  | .EXTRA_VOLUME => volumeVerdict plan service limit expiry
  | .EXTRA_TIME => timeVerdict plan service limit expiry now
  | .SERVICE_RENEWAL => renewalVerdict plan service limit expiry now
  | _ => .unknown

/-- A field that the panel does not report decides nothing; unlimited is 0 in the rows and `null` on
    the panel. -/
def classifyMutationState (orderType : OrderType) (plan : SoldPlan) (service : Service)
    (fetched : PanelResult) (now : ℕ) : MutationVerdict :=
  match fetched.totalBytes.map (·.getD 0), fetched.expiresAt with
  | some panelLimit, some panelExpiry =>
    verdictOf orderType plan service panelLimit panelExpiry now
  | _, _ => .unknown

/-! ### What the executor sent -/

/-- The executor of an order type. -/
def botOperation : OrderType → Option BotOperation
  | .SERVICE_RENEWAL => some executeRenewal
  | .EXTRA_VOLUME => some executeExtraVolume
  | .EXTRA_TIME => some executeExtraTime
  | _ => none

/-- An instant to the second. -/
def wholeSeconds (t : ℤ) : ℤ := t / 1000 * 1000

/-- The panel reports a limit, unlimited as 0 or `null`, and an expiry. -/
structure ReportsState (limit : ℤ) (expiresAt : Option ℤ) (remote : PanelResult) : Prop where
  totalBytes : ∃ b, remote.totalBytes = some b ∧ b.getD 0 = limit
  expiresAt : remote.expiresAt = some expiresAt

/-- The verdicts on an order are sound: the state from before is never taken for the new one; and where
    the executor asked at `t₀` for another state, that state is never taken for the one from before,
    and is recognised if the expiry from before is in the future or is not moved. -/
structure AttributedSoundly (type : OrderType) (rows : OrderRows) (service : Service) (t₀ now : ℕ) :
    Prop where
  before : ∀ remote, ReportsState service.volumeBytes service.expiresAt remote →
    classifyMutationState type (soldPlan rows) service remote now ≠ .applied
  sent : ∀ op ∈ botOperation type, ∀ remote,
    ReportsState ((op.request rows service t₀).totalBytes.getD 0) (op.request rows service t₀).expiresAt
      remote ∨
    ReportsState ((op.request rows service t₀).totalBytes.getD 0)
      ((op.request rows service t₀).expiresAt.map wholeSeconds) remote →
    ¬ ((op.request rows service t₀).totalBytes.getD 0 = service.volumeBytes ∧
      (op.request rows service t₀).expiresAt = service.expiresAt) →
    classifyMutationState type (soldPlan rows) service remote now ≠ .not_applied ∧
    (inFuture now service.expiresAt = true ∨
      (op.request rows service t₀).expiresAt = service.expiresAt →
      classifyMutationState type (soldPlan rows) service remote now = .applied)

/-! ### The verdict on a reported state -/

variable {type : OrderType} {rows : OrderRows} {service : Service} {remote : PanelResult}
  {t₀ now : ℕ} {limit : ℤ} {expiry : Option ℤ}

theorem expiryEquals_refl (e : Option ℤ) : expiryEquals e e = true := by
  cases e with
  | none => rfl
  | some e => simp [expiryEquals, EXPIRY_TOLERANCE_MS]

theorem expiryEquals_some {a b : ℤ} : expiryEquals (some a) (some b) = true ↔
    (a - b).natAbs < 1500 := decide_eq_true_iff

theorem preOrUnknown_ne : preOrUnknown service limit expiry ≠ .applied := by
  rw [preOrUnknown]
  split <;> decide

theorem preOrUnknown_eq : preOrUnknown service limit expiry = .not_applied ↔
    limit = service.volumeBytes ∧ expiryEquals expiry service.expiresAt = true := by
  rw [preOrUnknown]
  split
  · exact ⟨fun _ => ‹_›, fun _ => rfl⟩
  · exact ⟨fun h => (nomatch h), fun h => absurd h ‹_›⟩

/-- A reported state as the sweep reads it. -/
theorem ReportsState.reads (h : ReportsState limit expiry remote) :
    remote.totalBytes.map (·.getD 0) = some limit ∧ remote.expiresAt = some expiry := by
  obtain ⟨⟨b, hb, rfl⟩, he⟩ := h
  rw [hb]
  exact ⟨rfl, he⟩

theorem ReportsState.exists (limit : ℤ) (expiry : Option ℤ) :
    ∃ remote, ReportsState limit expiry remote :=
  ⟨{ ok := true, totalBytes := some (some limit), expiresAt := some expiry },
    ⟨some limit, rfl, rfl⟩, rfl⟩

theorem ReportsState.classify (h : ReportsState limit expiry remote) (plan : SoldPlan) :
    classifyMutationState type plan service remote now =
      verdictOf type plan service limit expiry now := by
  rw [classifyMutationState, h.reads.1, h.reads.2]

/-- An expiry as the panel may show it. -/
def ShownAs (sent shown : Option ℤ) : Prop := shown = sent ∨ shown = sent.map wholeSeconds

/-- The soundness of the verdicts on limits and expiries, where `limit` and `expiry` were sent. -/
structure SoundFor (type : OrderType) (plan : SoldPlan) (service : Service) (now : ℕ) (limit : ℤ)
    (expiry : Option ℤ) : Prop where
  before : verdictOf type plan service service.volumeBytes service.expiresAt now ≠ .applied
  kept : ¬ (limit = service.volumeBytes ∧ expiry = service.expiresAt) → ∀ shown,
    ShownAs expiry shown → verdictOf type plan service limit shown now ≠ .not_applied
  found : ¬ (limit = service.volumeBytes ∧ expiry = service.expiresAt) → ∀ shown,
    ShownAs expiry shown → inFuture now service.expiresAt = true ∨ expiry = service.expiresAt →
      verdictOf type plan service limit shown now = .applied

theorem attributed_iff {op : BotOperation} (h : botOperation type = some op) :
    AttributedSoundly type rows service t₀ now ↔
      SoundFor type (soldPlan rows) service now ((op.request rows service t₀).totalBytes.getD 0)
        (op.request rows service t₀).expiresAt := by
  constructor
  · intro hsound
    refine ⟨?_, fun hdiff shown hshown => ?_, fun hdiff shown hshown hstill => ?_⟩
    · obtain ⟨remote, hremote⟩ := ReportsState.exists service.volumeBytes service.expiresAt
      have hbefore := hsound.before remote hremote
      rwa [hremote.classify] at hbefore
    all_goals
      obtain ⟨remote, hremote⟩ := ReportsState.exists
        ((op.request rows service t₀).totalBytes.getD 0) shown
      have hreports := Or.imp (fun he : shown = _ => he ▸ hremote) (fun he : shown = _ => he ▸ hremote)
        hshown
      have hsent := hsound.sent op h remote hreports hdiff
      rw [hremote.classify] at hsent
    · exact hsent.1
    · exact hsent.2 hstill
  · intro hsound
    refine ⟨fun remote hremote => ?_, fun op' hop remote hreports hdiff => ?_⟩
    · rw [hremote.classify]
      exact hsound.before
    · cases h.symm.trans hop
      obtain ⟨shown, hshown, hremote⟩ : ∃ shown, ShownAs (op.request rows service t₀).expiresAt shown ∧
          ReportsState ((op.request rows service t₀).totalBytes.getD 0) shown remote := by
        rcases hreports with h | h
        · exact ⟨_, .inl rfl, h⟩
        · exact ⟨_, .inr rfl, h⟩
      rw [hremote.classify]
      exact ⟨hsound.kept hdiff shown hshown, hsound.found hdiff shown hshown⟩

/-! ### Shown instants -/

theorem wholeSeconds_near (t : ℤ) : wholeSeconds t ≤ t ∧ t < wholeSeconds t + 1000 := by
  rw [wholeSeconds]
  omega

/-- What is shown of an expiry is within the tolerance of it. -/
theorem ShownAs.equals {sent shown : Option ℤ} (h : ShownAs sent shown) :
    expiryEquals shown sent = true := by
  rcases h with rfl | rfl
  · exact expiryEquals_refl _
  · cases sent with
    | none => rfl
    | some t =>
      have hnear := wholeSeconds_near t
      refine expiryEquals_some.mpr ?_
      omega

/-- An expiry of a day later is never taken for the earlier one. -/
theorem ShownAs.later {e t : ℤ} {shown : Option ℤ} (h : ShownAs (some t) shown)
    (ht : e + DAY_MS ≤ t) : expiryEquals shown (some e) = false := by
  rw [DAY_MS] at ht
  rw [← Bool.not_eq_true]
  rcases h with rfl | rfl
  · rw [expiryEquals_some]
    omega
  · have hnear := wholeSeconds_near t
    rw [Option.map_some, expiryEquals_some]
    omega

/-- An instant is never taken for none. -/
theorem ShownAs.some_ne {t : ℤ} {shown : Option ℤ} (h : ShownAs (some t) shown) :
    expiryEquals shown none = false := by
  rcases h with rfl | rfl <;> rfl

/-! ### The types of orders -/

/-- Extra volume moves the limit alone. -/
theorem volume_sound (plan : SoldPlan) (service : Service) (now : ℕ) :
    SoundFor .EXTRA_VOLUME plan service now (calculateExtraVolume service plan.volumeGb)
      service.expiresAt where
  before := by
    rw [verdictOf, volumeVerdict]
    split
    · decide
    · rename_i hne
      rw [if_neg fun h => hne h.1.symm]
      exact preOrUnknown_ne
  kept hdiff shown hshown := by
    have hne : calculateExtraVolume service plan.volumeGb ≠ service.volumeBytes := fun h => hdiff ⟨h, rfl⟩
    rw [verdictOf, volumeVerdict, if_neg hne, if_pos ⟨rfl, hshown.equals⟩]
    decide
  found hdiff shown hshown _ := by
    have hne : calculateExtraVolume service plan.volumeGb ≠ service.volumeBytes := fun h => hdiff ⟨h, rfl⟩
    rw [verdictOf, volumeVerdict, if_neg hne, if_pos ⟨rfl, hshown.equals⟩]

theorem inFuture_some {e : ℤ} : inFuture now (some e) = true ↔ (now : ℤ) < e := decide_eq_true_iff

/-- While the expiry is in the future it is the base, at any earlier clock too. -/
theorem expiryBase_of_future {e : ℤ} (h : (now : ℤ) < e) (ht : t₀ ≤ now) :
    expiryBase t₀ (some e) = e := if_pos (by omega)

/-- The base is not before the expiry. -/
theorem le_expiryBase (t₀ : ℕ) (e : ℤ) : e ≤ expiryBase t₀ (some e) := by
  rw [expiryBase]
  split <;> omega

theorem expiryEquals_comm (a b : Option ℤ) : expiryEquals a b = expiryEquals b a := by
  cases a <;> cases b <;> simp only [expiryEquals]
  rename_i a b
  rw [← Int.natAbs_neg, Int.neg_sub]

/-- An expiry that was moved by days is later than the one from before. -/
theorem moved_later {d : ℤ} (hd : 0 < d) (t₀ : ℕ) (e : ℤ) :
    e + DAY_MS ≤ expiryBase t₀ (some e) + d * DAY_MS := by
  have hbase := le_expiryBase t₀ e
  rw [DAY_MS]
  omega

/-- A moved expiry is not the one from before, and is not shown as it. -/
theorem moved_shown {d : ℤ} {pre shown : Option ℤ} (hd : 0 < d)
    (hshown : ShownAs (some (expiryBase t₀ pre + d * DAY_MS)) shown) :
    expiryEquals shown pre = false := by
  cases pre with
  | none => exact hshown.some_ne
  | some e => exact hshown.later (moved_later hd t₀ e)

theorem moved_ne {d : ℤ} {pre : Option ℤ} (hd : 0 < d) :
    some (expiryBase t₀ pre + d * DAY_MS) ≠ pre := by
  intro h
  have hequals : expiryEquals (some (expiryBase t₀ pre + d * DAY_MS)) pre = false :=
    moved_shown hd (.inl rfl)
  rw [h, expiryEquals_refl] at hequals
  cases hequals

theorem renewal_expiry {plan : SoldPlan} (hd : 0 < plan.durationDays) (t : ℕ) :
    (calculateRenewal service plan.volumeGb plan.durationDays t).expiresAt =
      some (expiryBase t service.expiresAt + plan.durationDays * DAY_MS) := by
  rw [calculateRenewal, if_pos hd]
  split <;> rfl

theorem renewal_keeps {plan : SoldPlan} (hd : plan.durationDays = 0) (t : ℕ) :
    (calculateRenewal service plan.volumeGb plan.durationDays t).expiresAt = service.expiresAt := by
  rw [calculateRenewal, hd]
  split <;> rfl

/-- Where the expiry can be derived the sweep computes what the executor did. -/
theorem renewal_derived {plan : SoldPlan} (ht : t₀ ≤ now)
    (h : plan.durationDays = 0 ∨ inFuture now service.expiresAt = true) :
    calculateRenewal service plan.volumeGb plan.durationDays t₀ =
      calculateRenewal service plan.volumeGb plan.durationDays now := by
  rcases h with h | h
  · simp only [calculateRenewal, h, Int.lt_irrefl, if_false]
  · obtain ⟨e, he, hnow⟩ := (Option.any_eq_true _ _).mp h
    have hnow := of_decide_eq_true hnow
    simp only [calculateRenewal, he, expiryBase_of_future hnow ht, expiryBase_of_future hnow (Nat.le_refl _)]

/-- A renewal moves the limit, and the expiry where it has days. -/
theorem renewal_sound {plan : SoldPlan} (hdays : 0 ≤ plan.durationDays) (ht : t₀ ≤ now) :
    SoundFor .SERVICE_RENEWAL plan service now
      ((calculateRenewal service plan.volumeGb plan.durationDays t₀).totalBytes.getD 0)
      (calculateRenewal service plan.volumeGb plan.durationDays t₀).expiresAt := by
  by_cases hderivable : plan.durationDays = 0 ∨ inFuture now service.expiresAt = true
  · rw [renewal_derived ht hderivable]
    generalize hcomputed : calculateRenewal service plan.volumeGb plan.durationDays now = computed
    -- a state that differs has another limit, or an expiry of days later
    have hsame : computed.totalBytes.getD 0 = service.volumeBytes ∧
        expiryEquals computed.expiresAt service.expiresAt = true →
          computed.totalBytes.getD 0 = service.volumeBytes ∧
            computed.expiresAt = service.expiresAt := by
      rintro ⟨hlimit, hexpiry⟩
      refine ⟨hlimit, ?_⟩
      by_cases hzero : plan.durationDays = 0
      · rw [← hcomputed, renewal_keeps hzero]
      · have hd : 0 < plan.durationDays := by omega
        rw [← hcomputed, renewal_expiry hd, moved_shown hd (.inl rfl)] at hexpiry
        cases hexpiry
    have hverdict (limit : ℤ) (expiry : Option ℤ) :
        verdictOf .SERVICE_RENEWAL plan service limit expiry now =
          if computed.totalBytes.getD 0 = service.volumeBytes ∧
            expiryEquals computed.expiresAt service.expiresAt then .unknown
          else if limit = computed.totalBytes.getD 0 ∧ expiryEquals expiry computed.expiresAt then
            .applied
          else preOrUnknown service limit expiry := by
      rw [verdictOf, renewalVerdict, hcomputed, if_neg (not_not.mpr (decide_eq_true hderivable))]
    refine ⟨?_, fun hdiff shown hshown => ?_, fun hdiff shown hshown _ => ?_⟩
    · rw [hverdict]
      split
      · decide
      · rename_i hne
        rw [if_neg fun h => hne ⟨h.1.symm, by rw [expiryEquals_comm]; exact h.2⟩]
        exact preOrUnknown_ne
    · rw [hverdict, if_neg fun h => hdiff (hsame h), if_pos ⟨rfl, hshown.equals⟩]
      decide
    · rw [hverdict, if_neg fun h => hdiff (hsame h), if_pos ⟨rfl, hshown.equals⟩]
  · have hd : 0 < plan.durationDays := by
      have hne : plan.durationDays ≠ 0 := fun h => hderivable (.inl h)
      omega
    have hverdict (limit : ℤ) (expiry : Option ℤ) :
        verdictOf .SERVICE_RENEWAL plan service limit expiry now = preOrUnknown service limit expiry := by
      rw [verdictOf, renewalVerdict, if_pos fun h => hderivable (of_decide_eq_true h)]
    rw [renewal_expiry hd]
    refine ⟨?_, fun _ shown hshown => ?_, fun _ shown hshown hstill => ?_⟩
    · rw [hverdict]
      exact preOrUnknown_ne
    · rw [hverdict]
      intro h
      rw [preOrUnknown_eq, moved_shown hd hshown] at h
      cases h.2
    · rcases hstill with h | h
      · exact absurd (.inr h) hderivable
      · exact absurd h (moved_ne hd)

/-- Extra time of no days: an expiry in the future is taken for a moved one, and where it is past the
    executor moved it to its own clock, which the sweep must tell from it. -/
def timeAttributable (days : ℤ) (service : Service) (t₀ now : ℕ) : Bool :=
  match service.expiresAt with
  | none => true
  | some e =>
    if (now : ℤ) < e then 0 < days ∧ 0 ≤ service.volumeBytes
    else days = 0 → if (t₀ : ℤ) ≤ e then 0 ≤ service.volumeBytes
      else service.volumeBytes < 0 ∨ e + 1500 ≤ wholeSeconds t₀

/-- The limit that an executor of extra time sends. -/
def timeLimit (service : Service) : ℤ :=
  (if 0 < service.volumeBytes then some service.volumeBytes else none).getD 0

theorem timeLimit_eq : timeLimit service = service.volumeBytes ↔ 0 ≤ service.volumeBytes := by
  rw [timeLimit]
  split
  · exact iff_of_true rfl (by omega)
  · rw [Option.getD_none]
    omega

/-- While the expiry is in the future. -/
theorem time_sound_future {plan : SoldPlan} {e : ℤ} (hdays : 0 ≤ plan.durationDays) (ht : t₀ ≤ now)
    (he : service.expiresAt = some e) (hnow : (now : ℤ) < e) :
    SoundFor .EXTRA_TIME plan service now (timeLimit service)
      (some (calculateExtraTime service plan.durationDays t₀)) ↔
    0 < plan.durationDays ∧ 0 ≤ service.volumeBytes := by
  have hsent (t : ℕ) (h : t ≤ now) : calculateExtraTime service plan.durationDays t =
      e + plan.durationDays * DAY_MS := by
    rw [calculateExtraTime, he, expiryBase_of_future hnow h]
  have hverdict (limit : ℤ) (expiry : Option ℤ) :
      verdictOf .EXTRA_TIME plan service limit expiry now =
        if expiryEquals expiry (some (e + plan.durationDays * DAY_MS)) ∧
          limit = service.volumeBytes then .applied
        else preOrUnknown service limit expiry := by
    rw [verdictOf, timeVerdict, if_neg (not_not.mpr (he ▸ inFuture_some.mpr hnow)),
      hsent now (Nat.le_refl _)]
  rw [hsent t₀ ht]
  constructor
  · intro h
    have hpos : 0 < plan.durationDays := by
      by_contra hzero
      have hzero : plan.durationDays = 0 := by omega
      refine h.before ?_
      rw [hverdict, hzero, he, Int.zero_mul, Int.add_zero, if_pos ⟨expiryEquals_refl _, rfl⟩]
    refine ⟨hpos, timeLimit_eq.mp ?_⟩
    by_contra hlimit
    have happlied := h.found (fun hsame => hlimit hsame.1) _ (.inl rfl)
      (.inl (he ▸ inFuture_some.mpr hnow))
    rw [hverdict, if_neg fun h => hlimit h.2] at happlied
    exact preOrUnknown_ne happlied
  · rintro ⟨hpos, hlimit⟩
    have hlimit : timeLimit service = service.volumeBytes := timeLimit_eq.mpr hlimit
    refine ⟨?_, fun _ shown hshown => ?_, fun _ shown hshown _ => ?_⟩
    · rw [hverdict, he, expiryEquals_comm, ShownAs.later (.inl rfl) ?_, if_neg (by simp)]
      · exact preOrUnknown_ne
      · rw [DAY_MS]
        omega
    · rw [hverdict, if_pos ⟨hshown.equals, hlimit⟩]
      decide
    · rw [hverdict, if_pos ⟨hshown.equals, hlimit⟩]

/-- Once the expiry is past. -/
theorem time_sound_past {plan : SoldPlan} {e : ℤ} (hdays : 0 ≤ plan.durationDays)
    (he : service.expiresAt = some e) (hnow : ¬ (now : ℤ) < e) :
    SoundFor .EXTRA_TIME plan service now (timeLimit service)
      (some (calculateExtraTime service plan.durationDays t₀)) ↔
    (plan.durationDays = 0 → if (t₀ : ℤ) ≤ e then 0 ≤ service.volumeBytes
      else service.volumeBytes < 0 ∨ e + 1500 ≤ wholeSeconds t₀) := by
  have hverdict (limit : ℤ) (expiry : Option ℤ) :
      verdictOf .EXTRA_TIME plan service limit expiry now = preOrUnknown service limit expiry := by
    rw [verdictOf, timeVerdict, if_pos fun h => hnow (inFuture_some.mp (he ▸ h))]
  have hnot : ¬ inFuture now service.expiresAt = true := fun h => hnow (inFuture_some.mp (he ▸ h))
  have hbefore : verdictOf .EXTRA_TIME plan service service.volumeBytes service.expiresAt now ≠
      .applied := hverdict _ _ ▸ preOrUnknown_ne
  by_cases hd : 0 < plan.durationDays
  · -- an expiry of days later is neither kept nor shown as the one from before
    refine iff_of_true ⟨hbefore, fun _ shown hshown h => ?_, fun _ shown hshown hstill => ?_⟩ ?_
    · rw [hverdict, preOrUnknown_eq, moved_shown hd hshown] at h
      cases h.2
    · exact absurd (hstill.resolve_left hnot) (moved_ne hd)
    · intro hzero
      omega
  have hzero : plan.durationDays = 0 := by omega
  have hsent : calculateExtraTime service plan.durationDays t₀ = expiryBase t₀ (some e) := by
    rw [calculateExtraTime, he, hzero, Int.zero_mul, Int.add_zero]
  rw [hsent, forall_prop_of_true hzero]
  by_cases ht : (t₀ : ℤ) ≤ e
  · -- the expiry was not moved
    have hbase : expiryBase t₀ (some e) = e := by
      rw [expiryBase]
      split <;> omega
    rw [if_pos ht, hbase, ← timeLimit_eq]
    constructor
    · intro h
      by_contra hlimit
      have happlied := h.found (fun hsame => hlimit hsame.1) _ (.inl rfl) (.inr he.symm)
      rw [hverdict] at happlied
      exact preOrUnknown_ne happlied
    · intro hlimit
      exact ⟨hbefore, fun hdiff => absurd ⟨hlimit, he.symm⟩ hdiff,
        fun hdiff => absurd ⟨hlimit, he.symm⟩ hdiff⟩
  · -- the expiry was moved to the clock of the executor
    have hbase : expiryBase t₀ (some e) = t₀ := by
      rw [expiryBase, if_neg (by omega)]
    have hmoved : (some (t₀ : ℤ) : Option ℤ) ≠ service.expiresAt := by
      rw [he]
      intro h
      cases h
      exact ht (Int.le_refl _)
    have hnear := wholeSeconds_near (t₀ : ℤ)
    rw [if_neg ht, hbase]
    constructor
    · intro h
      by_contra hnone
      rw [not_or, Int.not_lt, Int.not_le, ← timeLimit_eq] at hnone
      refine h.kept (fun hsame => hmoved hsame.2) _ (.inr rfl) ?_
      rw [hverdict, preOrUnknown_eq, he, Option.map_some, expiryEquals_some]
      exact ⟨hnone.1, by omega⟩
    · intro hcondition
      refine ⟨hbefore, fun _ shown hshown h => ?_, fun _ shown _ hstill => ?_⟩
      · rw [hverdict, preOrUnknown_eq, timeLimit_eq, he] at h
        rcases hcondition with hneg | hlate
        · omega
        · rcases hshown with rfl | rfl
          · have hequal := expiryEquals_some.mp h.2
            omega
          · rw [Option.map_some] at h
            have hequal := expiryEquals_some.mp h.2
            omega
      · exact absurd (hstill.resolve_left hnot) hmoved

theorem time_sound_iff {plan : SoldPlan} (hdays : 0 ≤ plan.durationDays) (ht : t₀ ≤ now) :
    SoundFor .EXTRA_TIME plan service now (timeLimit service)
      (some (calculateExtraTime service plan.durationDays t₀)) ↔
    timeAttributable plan.durationDays service t₀ now = true := by
  rw [timeAttributable]
  cases he : service.expiresAt with
  | none =>
    have hnot : ¬ inFuture now service.expiresAt = true := by simp [inFuture, he]
    have hverdict (limit : ℤ) (expiry : Option ℤ) :
        verdictOf .EXTRA_TIME plan service limit expiry now = preOrUnknown service limit expiry := by
      rw [verdictOf, timeVerdict, if_pos hnot]
    refine iff_of_true ⟨hverdict _ _ ▸ preOrUnknown_ne, fun _ shown hshown h => ?_,
      fun _ shown _ hstill => ?_⟩ rfl
    · rw [hverdict, preOrUnknown_eq, he, hshown.some_ne] at h
      cases h.2
    · rw [he] at hstill
      rcases hstill with h | h <;> cases h
  | some e =>
    dsimp only
    by_cases hnow : (now : ℤ) < e
    · rw [time_sound_future hdays ht he hnow, if_pos hnow, decide_eq_true_iff]
    · rw [time_sound_past hdays he hnow, if_neg hnow, decide_eq_true_iff]

/-- ATTRIBUTION: the verdicts of the sweep are sound exactly where an order of extra time can be told
    from one that moves nothing. -/
theorem attributed_soundly_iff (type : OrderType) (rows : OrderRows) (service : Service) {t₀ now : ℕ}
    (hdays : 0 ≤ soldDays rows) (ht : t₀ ≤ now) :
    AttributedSoundly type rows service t₀ now ↔
      (type = .EXTRA_TIME → timeAttributable (soldDays rows) service t₀ now = true) := by
  have hother (hunknown : ∀ plan service limit expiry now,
      verdictOf type plan service limit expiry now = .unknown) (hnone : botOperation type = none) :
      AttributedSoundly type rows service t₀ now := by
    refine ⟨fun remote hremote => ?_, fun op hop => ?_⟩
    · rw [hremote.classify, hunknown]
      decide
    · rw [hnone] at hop
      cases hop
  cases type with
  | SERVICE_RENEWAL =>
    refine iff_of_true ((attributed_iff rfl).mpr ?_) fun h => (nomatch h)
    exact renewal_sound hdays ht
  | EXTRA_VOLUME =>
    refine iff_of_true ((attributed_iff rfl).mpr ?_) fun h => (nomatch h)
    exact volume_sound (soldPlan rows) service now
  | EXTRA_TIME =>
    rw [forall_prop_of_true rfl, attributed_iff rfl]
    exact time_sound_iff hdays ht
  | SERVICE_PURCHASE => exact iff_of_true (hother (fun _ _ _ _ _ => rfl) rfl) fun h => (nomatch h)
  | LOCATION_CHANGE => exact iff_of_true (hother (fun _ _ _ _ _ => rfl) rfl) fun h => (nomatch h)
  | OTHER_PRODUCT => exact iff_of_true (hother (fun _ _ _ _ _ => rfl) rfl) fun h => (nomatch h)

/-- A month of extra time is told from the state before, the executor a day before the sweep. -/
theorem month_attributed_soundly : AttributedSoundly .EXTRA_TIME (paidOrder .EXTRA_TIME)
    monthlyService (20 * 86400000) (21 * 86400000) :=
  (attributed_soundly_iff .EXTRA_TIME _ _ (by decide) (by decide)).mpr fun _ => by decide

/-- Extra time of no days. -/
def emptyOrder : OrderRows where
  order := { userId := 1, type := .EXTRA_TIME, durationDaysSnapshot := some 0 }

/-- The panel shows the state from before, and the sweep takes it for the new one. -/
theorem empty_attributed_wrongly : ¬ ∀ (type : OrderType) (rows : OrderRows) (service : Service)
    (t₀ now : ℕ), 0 ≤ soldVolumeGb rows → 0 ≤ soldDays rows → t₀ ≤ now →
      AttributedSoundly type rows service t₀ now := by
  intro h
  have hsound := h .EXTRA_TIME emptyOrder monthlyService (20 * 86400000) (21 * 86400000) (by decide)
    (by decide) (by decide)
  have hreports : ReportsState monthlyService.volumeBytes monthlyService.expiresAt
      (readOf .milliseconds (beforeState monthlyService)) := ⟨⟨_, rfl, rfl⟩, rfl⟩
  exact hsound.before _ hreports (by decide)

end ZedBot.Operations
