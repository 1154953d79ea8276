import Mathlib
import ZedBot.Notifications.Delivery
import ZedBot.Notifications.Thresholds

/-! The notices on the expiry and on the traffic of a service.

    A plan is made for the one bucket that applies. Its dedupe key names the service, the bucket and a
    fingerprint of the cycle, so that a later scan of the cycle makes no second notice of the bucket. -/

namespace ZedBot.Notifications

/-- The hexadecimal SHA-256 of a text. -/
structure Sha256 where
  hex : String → String
  length_hex : ∀ s, (hex s).length = 64

/-- The minimal service state the rules read. -/
structure RuleServiceState where
  id : String
  username : String
  note : Option String := none
  productNameSnapshot : Option String := none
  status : String := "ACTIVE"
  volumeBytes : ℤ := 0
  usedBytes : ℤ := 0
  expiresAt : Option ℤ := none
  deriving DecidableEq, Repr

/-- Panel facts the button builder needs. -/
structure RulePanelState where
  status : String := "ACTIVE"
  renewalEnabled : Bool := true
  deriving DecidableEq, Repr

structure NotificationButtonSpec where
  action : String
  buttonTextKey : String
  deriving DecidableEq, Repr

inductive Variable
  | text (s : String)
  | number (n : ℤ)
  deriving DecidableEq, Repr

structure NotificationPayloadSnapshot where
  templateKey : String
  vars : List (String × Variable)
  buttons : List NotificationButtonSpec
  metadata : List (String × Variable)
  deriving DecidableEq, Repr

structure NotificationPlan where
  type : AutomatedNotificationType
  serviceKind : String
  dedupeKey : String
  availableUntil : Option ℤ
  payload : NotificationPayloadSnapshot
  deriving DecidableEq, Repr

/-! ### Texts -/

/-- Latin to Persian digits. -/
def toFaDigits (value : String) : String :=
  value.map fun c => if c.isDigit then Char.ofNat (c.toNat - 48 + 0x6F0) else c

def maskServiceName (name : String) : String :=
  let trimmed := jsTrim name
  if jsLength trimmed ≤ 4 then trimmed else String.ofList (trimmed.toList.take 4) ++ "…"

/-- The friendly name where there is one, else the masked remote username. -/
def serviceDisplayName (service : RuleServiceState) : String :=
  let product := jsTrim (service.productNameSnapshot.getD "")
  let friendly := if product ≠ "" then product else jsTrim (service.note.getD "")
  if friendly ≠ "" then friendly
  else
    let masked := maskServiceName service.username
    if masked = "" then "سرویس شما" else masked

/-- Humanized remaining time. -/
def formatTimeLeftFa (minutesBefore : ℤ) : String :=
  if minutesBefore % 1440 = 0 then toFaDigits (toString (minutesBefore / 1440)) ++ " روز"
  else if minutesBefore % 60 = 0 then toFaDigits (toString (minutesBefore / 60)) ++ " ساعت"
  else toFaDigits (toString minutesBefore) ++ " دقیقه"

/-! ### Buttons -/

def RENEWABLE_STATUSES : List String := ["ACTIVE", "EXPIRED", "LIMITED", "DISABLED"]
def EXTRA_VOLUME_STATUSES : List String := ["ACTIVE", "LIMITED"]

def canRenew (service : RuleServiceState) (panel : RulePanelState) : Bool :=
  panel.status = "ACTIVE" ∧ panel.renewalEnabled ∧ service.status ∈ RENEWABLE_STATUSES

def canBuyExtraVolume (service : RuleServiceState) (panel : RulePanelState) : Bool :=
  panel.status = "ACTIVE" ∧ service.status ∈ EXTRA_VOLUME_STATUSES ∧ 0 < service.volumeBytes

/-- The eligible buttons of a notification. -/
def buildNotificationButtons (type : AutomatedNotificationType) (service : RuleServiceState)
    (panel : RulePanelState) (trial : Bool) : List NotificationButtonSpec :=
  let offer :=
    if trial then []
    else if type = .SERVICE_TRAFFIC ∧ canBuyExtraVolume service panel then
      [⟨"v", "notif_btn_buy_extra_volume"⟩]
    else if type ∈ [.SERVICE_EXPIRY, .SERVICE_EXPIRED, .SERVICE_LIMITED] ∧ canRenew service panel then
      [⟨"r", "notif_btn_renew_service"⟩]
    else []
  ⟨"s", "notif_btn_open_service"⟩ :: offer ++ [⟨"x", "notif_btn_dismiss"⟩]

/-! ### Dedupe keys -/

def shortHash (sha : Sha256) (input : String) : String := String.ofList ((sha.hex input).toList.take 16)

/-- An instant in a fingerprint. -/
def instantText : Option ℤ → String
  | none => "never"
  | some t => toString t

def expiryCycleInput (expiresAt : Option ℤ) : String := "expiry|" ++ instantText expiresAt

def quotaCycleInput (volumeBytes : ℤ) (expiresAt : Option ℤ) : String :=
  "quota|" ++ (toString volumeBytes ++ ("|" ++ instantText expiresAt))

def expiryCycleFingerprint (sha : Sha256) (expiresAt : Option ℤ) : String :=
  shortHash sha (expiryCycleInput expiresAt)

def quotaCycleFingerprint (sha : Sha256) (volumeBytes : ℤ) (expiresAt : Option ℤ) : String :=
  shortHash sha (quotaCycleInput volumeBytes expiresAt)

def expiryDedupeKey (sha : Sha256) (serviceId thresholdKey : String) (expiresAt : Option ℤ)
    (trial : Bool) : String :=
  let kind := if trial then "trial" else "expiry"
  s!"service:{serviceId}:{kind}:{thresholdKey}:{expiryCycleFingerprint sha expiresAt}"

def trafficDedupeKey (sha : Sha256) (serviceId : String) (percent volumeBytes : ℤ)
    (expiresAt : Option ℤ) : String :=
  s!"service:{serviceId}:traffic:{percent}:{quotaCycleFingerprint sha volumeBytes expiresAt}"

/-! ### Plans -/

def DAY_MS : ℤ := 24 * 60 * 60000

def shortId (id : String) : String := String.ofList (id.toList.take 8)

/-- The whole minutes until the expiry. -/
def minutesToExpiry (expiresAt now : ℤ) : ℤ := (expiresAt - now) / 60000

/-- The applicable expiry plan of a paid or trial service. -/
def planExpiry (sha : Sha256) (service : RuleServiceState) (panel : RulePanelState)
    (thresholds : List ExpiryThreshold) (now : ℤ) (trial : Bool) : Option NotificationPlan :=
  match service.expiresAt with
  | none => none
  | some expiresAt =>
    (pickExpiryBucket (minutesToExpiry expiresAt now) thresholds).map fun bucket =>
      let expired : Bool := bucket.minutesBefore = none
      let type : AutomatedNotificationType :=
        if expired then if trial then .TRIAL_EXPIRED else .SERVICE_EXPIRED
        else if trial then .TRIAL_NEAR_EXPIRY else .SERVICE_EXPIRY
      let timeLeft := bucket.minutesBefore.toList.map fun w => ("time_left", .text (formatTimeLeftFa w))
      { type
        serviceKind := "expiry"
        dedupeKey := expiryDedupeKey sha service.id bucket.key (some expiresAt) trial
        availableUntil :=
          if expired then some (now + if trial then DAY_MS else 3 * DAY_MS) else some expiresAt
        payload :=
          { templateKey :=
              if expired then if trial then "notif_trial_expired" else "notif_service_expired"
              else if trial then "notif_trial_near_expiry" else "notif_service_expiry"
            vars := ("service_name", .text (serviceDisplayName service)) :: timeLeft
            buttons := buildNotificationButtons type service panel trial
            metadata :=
              [("svc", .text (shortId service.id)),
                ("kind", .text (if expired then "expired" else "expiry")),
                ("cycle", .text (expiryCycleFingerprint sha (some expiresAt))),
                ("trial", .number (if trial then 1 else 0))] } }

/-- The traffic plan of a paid service with a quota. -/
def planTraffic (sha : Sha256) (service : RuleServiceState) (panel : RulePanelState)
    (thresholds : List ℤ) (now : ℤ) : Option NotificationPlan :=
  let usage := computeTrafficUsage service.usedBytes service.volumeBytes
  if usage.unlimited then none
  else
    (pickTrafficBucket usage.rawPercent thresholds).map fun bucket =>
      { type := .SERVICE_TRAFFIC
        serviceKind := "traffic"
        dedupeKey := trafficDedupeKey sha service.id bucket service.volumeBytes service.expiresAt
        availableUntil := some (service.expiresAt.getD (now + 3 * DAY_MS))
        payload :=
          { templateKey := "notif_service_traffic"
            vars :=
              [("service_name", .text (serviceDisplayName service)),
                ("percent", .text (toFaDigits (toString bucket)))]
            buttons := buildNotificationButtons .SERVICE_TRAFFIC service panel false
            metadata :=
              [("svc", .text (shortId service.id)), ("kind", .text "traffic"),
                ("cycle", .text (quotaCycleFingerprint sha service.volumeBytes service.expiresAt)),
                ("percent", .number bucket), ("raw", .number usage.rawPercent)] } }

/-! ### The keys separate cycles and buckets -/

theorem isDigit_of_mem_repr {n : ℕ} {c : Char} (h : c ∈ n.repr.toList) : c.isDigit = true := by
  rw [Nat.toList_repr] at h
  exact Nat.isDigit_of_mem_toDigits (by decide) (by decide) h

/-- The characters of an integer: an optional sign and digits. -/
theorem toList_toString_int (n : ℤ) :
    (toString n).toList = (if n < 0 then ['-'] else []) ++ n.natAbs.repr.toList := by
  cases n with
  | ofNat n => rfl
  | negSucc n =>
    rw [if_pos (Int.negSucc_lt_zero n)]
    exact String.toList_append

theorem mem_toString_int {n : ℤ} {c : Char} (h : c ∈ (toString n).toList) :
    c = '-' ∨ c.isDigit = true := by
  rw [toList_toString_int] at h
  rcases List.mem_append.mp h with h | h
  · split at h
    · exact .inl (List.mem_singleton.mp h)
    · cases h
  · exact .inr (isDigit_of_mem_repr h)

/-- An integer can be read back from its text. -/
theorem toString_int_inj {m n : ℤ} (h : toString m = toString n) : m = n := by
  have hlist := congrArg String.toList h
  rw [toList_toString_int, toList_toString_int] at hlist
  have hsign : ∀ {a b : ℕ}, '-' :: a.repr.toList ≠ b.repr.toList := by
    intro a b hab
    have hmem : '-' ∈ b.repr.toList := hab ▸ List.mem_cons_self
    cases isDigit_of_mem_repr hmem
  split at hlist <;> split at hlist
  · have habs := Nat.repr_injective (String.toList_injective (List.cons.inj hlist).2)
    omega
  · exact (hsign hlist).elim
  · exact (hsign hlist.symm).elim
  · have habs := Nat.repr_injective (String.toList_injective hlist)
    omega

theorem instantText_inj {s t : Option ℤ} (h : instantText s = instantText t) : s = t := by
  have hnever : ∀ t : ℤ, "never" ≠ toString t := by
    intro t ht
    rcases mem_toString_int (n := t) (c := 'n') (by rw [← ht]; decide) with h | h <;> cases h
  cases s with
  | none => cases t with
    | none => rfl
    | some t => exact (hnever t h).elim
  | some s => cases t with
    | none => exact (hnever s h.symm).elim
    | some t => rw [toString_int_inj h]

theorem expiryCycleInput_inj {s t : Option ℤ} (h : expiryCycleInput s = expiryCycleInput t) :
    s = t := by
  have hlist := congrArg String.toList h
  rw [expiryCycleInput, expiryCycleInput, String.toList_append, String.toList_append] at hlist
  exact instantText_inj (String.toList_injective (List.append_cancel_left hlist))

/-- Texts without a separator that stand before it are equal where the wholes are. -/
theorem split_at_separator {a b xs ys : List Char} {c : Char} (ha : c ∉ a) (hb : c ∉ b)
    (h : a ++ c :: xs = b ++ c :: ys) : a = b ∧ xs = ys := by
  induction a generalizing b with
  | nil =>
    cases b with
    | nil => exact ⟨rfl, (List.cons.inj h).2⟩
    | cons y b => exact (hb ((List.cons.inj h).1 ▸ List.mem_cons_self)).elim
  | cons x a ih =>
    cases b with
    | nil => exact (ha ((List.cons.inj h).1 ▸ List.mem_cons_self)).elim
    | cons y b =>
      obtain ⟨rfl, htail⟩ := List.cons.inj h
      obtain ⟨rfl, hrest⟩ := ih (fun hc => ha (.tail _ hc)) (fun hc => hb (.tail _ hc)) htail
      exact ⟨rfl, hrest⟩

theorem separator_notMem_int {n : ℤ} {c : Char} (hc : c ≠ '-') (hd : c.isDigit = false) :
    c ∉ (toString n).toList := by
  intro h
  rcases mem_toString_int h with h | h
  · exact hc h
  · rw [hd] at h
    cases h

theorem quotaCycleInput_inj {u v : ℤ} {s t : Option ℤ}
    (h : quotaCycleInput u s = quotaCycleInput v t) : u = v ∧ s = t := by
  have hlist := congrArg String.toList h
  simp only [quotaCycleInput, String.toList_append] at hlist
  obtain ⟨hvolume, hinstant⟩ := split_at_separator (separator_notMem_int (by decide) (by decide))
    (separator_notMem_int (by decide) (by decide)) (List.append_cancel_left hlist)
  exact ⟨toString_int_inj (String.toList_injective hvolume),
    instantText_inj (String.toList_injective hinstant)⟩

theorem length_shortHash (sha : Sha256) (input : String) :
    (shortHash sha input).toList.length = 16 := by
  rw [shortHash, String.toList_ofList, List.length_take, String.length_toList, sha.length_hex]
  rfl

end ZedBot.Notifications
