import Mathlib.Algebra.Order.Ring.Int
import ZedBot.ReadCommitted.Solo
import ZedBot.Trials.Allowance

/-! The eligibility for a trial, and the reservation it announces.

    The calculator reads the tables and answers; the transaction of the claim, run in the same state,
    reserves the unit that the calculator has counted. -/

namespace ZedBot.Trials
open ReadCommitted

/-! ### The calculator -/

/-- The settings that a trial reads; a text that is no number is no setting. -/
structure TrialSettings where
  freeTrialEnabled : Bool := false
  defaultAllowance : Option ℕ := none
  oncePerUser : Bool := true
  cooldownDays : Option ℕ := none
  requiresNoPreviousPurchase : Bool := false
  requiresChannelMembership : Bool := false
  forceJoinEnabled : Bool := false
  deriving DecidableEq, Repr

/-- The default allowance of the settings: the explicit one, else one trial for each user or no limit. -/
def TrialSettings.setting (settings : TrialSettings) : Option ℕ :=
  settings.defaultAllowance.or (if settings.oncePerUser then some 1 else none)

structure TrialAllowanceSummary where
  defaultAllowance : Option ℕ
  defaultConsumed : ℕ
  defaultRemaining : Option ℤ
  usableEntitlements : List (ℕ × FreeTrialEntitlement)
  entitlementRemaining : ℤ
  totalRemaining : Option ℤ
  hasExpiredUnusedGrant : Bool
  deriving DecidableEq, Repr

/-- A grant whose time is over. -/
def isExpiredGrant (userId now : ℕ) (e : FreeTrialEntitlement) : Bool :=
  e.userId = userId ∧ (e.status = .EXPIRED ∨ e.status = .ACTIVE ∧ e.expiresAt.any (· ≤ now))

/-- The allowance of a user, for one panel or for any. -/
def computeTrialAllowance (settings : TrialSettings) (userId : ℕ) (user : TrialUser)
    (panelId : Option ℕ) (now : ℕ) (v : TrialView) : TrialAllowanceSummary :=
  let defaultAllowance := effectiveDefaultAllowance settings.setting user
  let defaultConsumed := countDefaultConsumed userId none v
  let usable := usableEntitlements userId now panelId v
  let entitlementRemaining := (usable.map fun row => row.2.allowance - row.2.consumed).sum
  let defaultRemaining := defaultAllowance.map fun n : ℕ => max 0 ((n : ℤ) - defaultConsumed)
  let expired := ((entitlementIds v.journal).filterMap fun id =>
    (v.rows (.entitlement id)).filter (isExpiredGrant userId now)).head?
  { defaultAllowance
    defaultConsumed
    defaultRemaining
    usableEntitlements := usable
    entitlementRemaining
    totalRemaining := defaultRemaining.map (· + entitlementRemaining)
    hasExpiredUnusedGrant := expired.any fun e => e.consumed < e.allowance }

inductive TrialDenialReason
  | GLOBAL_DISABLED | USER_BLOCKED | ACTIVE_CLAIM | NO_ALLOWANCE | COOLDOWN | PREVIOUS_PURCHASE
  | MEMBERSHIP_REQUIRED | PANEL_NOT_ALLOWED | ENTITLEMENT_EXPIRED | ADMIN_DENIED
  deriving DecidableEq, Repr

structure TrialEligibilityResult where
  eligible : Bool
  remainingClaims : ℤ
  unlimitedDefault : Bool
  activeClaimExists : Bool
  cooldownEndsAt : Option ℕ := none
  entitlementIds : List ℕ
  denialReason : Option TrialDenialReason := none
  deriving DecidableEq, Repr

def MAX_SAFE_INTEGER : ℤ := 2 ^ 53 - 1
def DAY_MS : ℕ := 86400000

/-- The creation of the latest claim that consumes a unit. -/
def lastConsumingAt (userId : ℕ) (v : TrialView) : Option ℕ :=
  ((claimsWhere (fun c => c.userId = userId ∧ c.status ∈ CONSUMING_CLAIM_STATUSES) v).filterMap
    fun id => (v.rows (.claim id)).map (·.createdAt)).max?

/-- The end of the cooldown of the settings, where it is still ahead and not waived. -/
def settingCooldown (settings : TrialSettings) (userId : ℕ) (user : TrialUser) (now : ℕ)
    (v : TrialView) : Option ℕ :=
  match settings.cooldownDays, lastConsumingAt userId v with
  | some days, some createdAt =>
    if user.freeTrialCooldownClearedAt.all (· < createdAt) ∧ now < createdAt + days * DAY_MS then
      some (createdAt + days * DAY_MS)
    else none
  | _, _ => none

/-- The first check that denies a trial, with the end of a cooldown. -/
def trialDenial (settings : TrialSettings) (userId : ℕ) (user : TrialUser) (panelId : Option ℕ)
    (now : ℕ) (v : TrialView) : Option (TrialDenialReason × Option ℕ) :=
  let allowance := computeTrialAllowance settings userId user panelId now v
  let live := claimsWhere (fun c => c.userId = userId ∧ c.status ∈ LIVE_CLAIM_STATUSES) v
  let activeTrial := claimsWhere (fun c => c.userId = userId ∧ c.status = .ACTIVE) v
  let cooldown := settingCooldown settings userId user now v
  if ¬ user.isActive then some (.USER_BLOCKED, none)
  else if user.freeTrialRevokedAt ≠ none then some (.ADMIN_DENIED, none)
  else if user.freeTrialDeniedUntil.any (now < ·) then some (.ADMIN_DENIED, user.freeTrialDeniedUntil)
  else if live ≠ [] then some (.ACTIVE_CLAIM, none)
  else if activeTrial ≠ [] then some (.ACTIVE_CLAIM, none)
  else if ¬ settings.freeTrialEnabled then some (.GLOBAL_DISABLED, none)
  else if user.freeTrialCooldownUntil.any (now < ·) then some (.COOLDOWN, user.freeTrialCooldownUntil)
  else if cooldown ≠ none then some (.COOLDOWN, cooldown)
  else if settings.requiresNoPreviousPurchase ∧ 0 < user.paidOrdersCount then
    some (.PREVIOUS_PURCHASE, none)
  else if settings.requiresChannelMembership ∧ settings.forceJoinEnabled ∧ ¬ user.forceJoinBypass then
    some (.MEMBERSHIP_REQUIRED, none)
  else if allowance.totalRemaining.any (· ≤ 0) then
    let anywhere := (computeTrialAllowance settings userId user none now v).totalRemaining
    if panelId ≠ none ∧ anywhere.all (0 < ·) then some (.PANEL_NOT_ALLOWED, none)
    else if allowance.hasExpiredUnusedGrant then some (.ENTITLEMENT_EXPIRED, none)
    else some (.NO_ALLOWANCE, none)
  else none

/-- The one calculator of every trial surface. -/
def computeTrialEligibility (settings : TrialSettings) (userId : ℕ) (user : TrialUser)
    (panelId : Option ℕ) (now : ℕ) (v : TrialView) : TrialEligibilityResult :=
  let allowance := computeTrialAllowance settings userId user panelId now v
  let base : TrialEligibilityResult :=
    { eligible := true
      remainingClaims := allowance.totalRemaining.getD MAX_SAFE_INTEGER
      unlimitedDefault := allowance.totalRemaining = none
      activeClaimExists := false
      entitlementIds := allowance.usableEntitlements.map (·.1) }
  match trialDenial settings userId user panelId now v with
  | none => base
  | some (reason, cooldownEndsAt) =>
    { base with
      eligible := false
      activeClaimExists := claimsWhere (fun c => c.userId = userId ∧
        (c.status ∈ LIVE_CLAIM_STATUSES ∨ c.status = .ACTIVE)) v ≠ []
      cooldownEndsAt
      denialReason := some reason }

/-! ### What the calculator answers -/

section Answers

variable {settings : TrialSettings} {userId now : ℕ} {user : TrialUser} {panelId : Option ℕ}
  {v : TrialView}

/-- No barrier stands before the user. -/
structure Unbarred (userId : ℕ) (user : TrialUser) (now : ℕ) (v : TrialView) : Prop where
  active : user.isActive = true
  notRevoked : user.freeTrialRevokedAt = none
  notDenied : ¬ user.freeTrialDeniedUntil.any (now < ·) = true
  noCooldown : ¬ user.freeTrialCooldownUntil.any (now < ·) = true
  noLive : claimsWhere (fun c => c.userId = userId ∧ c.status ∈ LIVE_CLAIM_STATUSES) v = []
  noActive : claimsWhere (fun c => c.userId = userId ∧ c.status = .ACTIVE) v = []

/-- The denials that say that nothing remains for the panel. -/
def TrialDenialReason.isExhausted (reason : TrialDenialReason) : Bool :=
  reason = .NO_ALLOWANCE ∨ reason = .ENTITLEMENT_EXPIRED ∨ reason = .PANEL_NOT_ALLOWED

/-- A check that did not deny. -/
theorem of_check {c : Prop} [Decidable c] {reason : TrialDenialReason} {endsAt : Option ℕ}
    {rest denial : Option (TrialDenialReason × Option ℕ)}
    (h : (if c then some (reason, endsAt) else rest) = denial)
    (hdenial : ∀ d, denial = some d → d.1.isExhausted = true) (hreason : reason.isExhausted = false) :
    ¬ c ∧ rest = denial := by
  split at h
  · have hd := hdenial _ h.symm
    rw [hreason] at hd
    cases hd
  · exact ⟨‹_›, h⟩

/-- Where the user is eligible, or denied because nothing remains, no barrier stands; and whether
    something remains decides. -/
theorem unbarred_of_denial (hdenial : ∀ d, trialDenial settings userId user panelId now v = some d →
      d.1.isExhausted = true) :
    Unbarred userId user now v ∧ (trialDenial settings userId user panelId now v = none ↔
      ¬ (computeTrialAllowance settings userId user panelId now v).totalRemaining.any (· ≤ 0) =
        true) := by
  obtain ⟨hactive, h⟩ := of_check (Eq.refl (trialDenial settings userId user panelId now v)) hdenial rfl
  obtain ⟨hrevoked, h⟩ := of_check h hdenial rfl
  obtain ⟨hdenied, h⟩ := of_check h hdenial rfl
  obtain ⟨hlive, h⟩ := of_check h hdenial rfl
  obtain ⟨htrial, h⟩ := of_check h hdenial rfl
  obtain ⟨-, h⟩ := of_check h hdenial rfl
  obtain ⟨hcooldown, h⟩ := of_check h hdenial rfl
  obtain ⟨-, h⟩ := of_check h hdenial rfl
  obtain ⟨-, h⟩ := of_check h hdenial rfl
  obtain ⟨-, h⟩ := of_check h hdenial rfl
  refine ⟨⟨not_not.mp hactive, not_not.mp hrevoked, hdenied, hcooldown, not_not.mp hlive,
    not_not.mp htrial⟩, ?_⟩
  rw [← h]
  by_cases hleft : (computeTrialAllowance settings userId user panelId now v).totalRemaining.any
      (· ≤ 0) = true
  · rw [if_pos hleft]
    refine iff_of_false ?_ (not_not.mpr hleft)
    dsimp only
    split
    · exact Option.some_ne_none _
    · split <;> exact Option.some_ne_none _
  · rw [if_neg hleft]
    exact iff_of_true rfl hleft

theorem eligible_iff : (computeTrialEligibility settings userId user panelId now v).eligible = true ↔
    trialDenial settings userId user panelId now v = none := by
  cases hdenial : trialDenial settings userId user panelId now v with
  | none => simp [computeTrialEligibility, hdenial]
  | some denial => simp [computeTrialEligibility, hdenial]

theorem denialReason_eq : (computeTrialEligibility settings userId user panelId now v).denialReason =
    (trialDenial settings userId user panelId now v).map (·.1) := by
  cases hdenial : trialDenial settings userId user panelId now v with
  | none => simp [computeTrialEligibility, hdenial]
  | some denial => simp [computeTrialEligibility, hdenial]

/-- An eligible user stands before no barrier and has something left. -/
theorem unbarred_of_eligible
    (h : (computeTrialEligibility settings userId user panelId now v).eligible = true) :
    Unbarred userId user now v ∧
      ¬ (computeTrialAllowance settings userId user panelId now v).totalRemaining.any (· ≤ 0) =
        true := by
  have hnone := eligible_iff.mp h
  obtain ⟨hbar, hleft⟩ := @unbarred_of_denial settings userId now user panelId v fun d hd => by
    rw [hnone] at hd
    cases hd
  exact ⟨hbar, hleft.mp hnone⟩

/-- Where a user is denied because nothing remains, nothing does. -/
theorem unbarred_of_exhausted {reason : TrialDenialReason} (hreason : reason.isExhausted = true)
    (h : (computeTrialEligibility settings userId user panelId now v).denialReason = some reason) :
    Unbarred userId user now v ∧
      (computeTrialAllowance settings userId user panelId now v).totalRemaining.any (· ≤ 0) = true := by
  rw [denialReason_eq] at h
  obtain ⟨d, hd, rfl⟩ := Option.map_eq_some_iff.mp h
  obtain ⟨hbar, hleft⟩ := @unbarred_of_denial settings userId now user panelId v fun d' hd' => by
    rw [hd] at hd'
    cases hd'
    exact hreason
  refine ⟨hbar, by_contra fun hno => ?_⟩
  rw [hleft.mpr hno] at hd
  cases hd

end Answers

end ZedBot.Trials
