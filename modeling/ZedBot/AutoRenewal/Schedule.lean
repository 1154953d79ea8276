import Mathlib.Data.Int.Notation
import Mathlib.Data.Nat.Notation
import Mathlib.Data.Int.Cast.Basic

/-! The schedule of an automatic renewal.

    All instants are epochs in milliseconds. The wallet is charged `chargeLeadMinutes` before the
    expiry, the notice goes out `prechargeNoticeMinutes` before the charge, and a cycle is abandoned
    `graceHours` after the expiry. -/

namespace ZedBot.AutoRenewal

def MINUTE_MS : ℤ := 60000
def HOUR_MS : ℤ := 3600000

def AUTO_RENEWAL_PRECHARGE_GATE_STEP_MS : ℤ := 5 * MINUTE_MS
def AUTO_RENEWAL_PRECHARGE_GATE_MAX_DEFER_MS : ℤ := 30 * MINUTE_MS

/-- The service is inside the charge lead window, or past it. -/
def isAutoRenewalDue (expiresAtEpoch : Option ℤ) (nowEpoch : ℤ) (chargeLeadMinutes : ℕ) : Bool :=
  match expiresAtEpoch with
  | none => false
  | some expiresAt => expiresAt - nowEpoch ≤ chargeLeadMinutes * MINUTE_MS

def isWithinAutoRenewalGrace (expiresAtEpoch : Option ℤ) (nowEpoch : ℤ) (graceHours : ℕ) : Bool :=
  match expiresAtEpoch with
  | none => false
  | some expiresAt => nowEpoch - expiresAt ≤ graceHours * HOUR_MS

inductive ChargeReason
  | ok | priceAboveLimit | invalidPrice
  deriving DecidableEq, Repr

structure AutoRenewalChargeDecision where
  eligible : Bool
  chargeToman : ℤ
  reason : ChargeReason
  deriving DecidableEq, Repr

/-- The live price, if it is at most the ceiling. -/
def resolveAutoRenewalCharge (livePriceToman maximumChargeToman : ℤ) : AutoRenewalChargeDecision :=
  if livePriceToman ≤ 0 then ⟨false, 0, .invalidPrice⟩
  else if maximumChargeToman < livePriceToman then ⟨false, 0, .priceAboveLimit⟩
  else ⟨true, livePriceToman, .ok⟩

/-- The expected instant of the wallet deduction. -/
def resolveAutoRenewalExpectedChargeAt (expiresAtEpoch : Option ℤ) (chargeLeadMinutes : ℕ) :
    Option ℤ :=
  expiresAtEpoch.map fun expiresAt => expiresAt - chargeLeadMinutes * MINUTE_MS

inductive NoticeScheduleKind
  | scheduled | catchUp | missed | disabled
  deriving DecidableEq, Repr

structure AutoRenewalNoticeSchedule where
  kind : NoticeScheduleKind
  expectedChargeAtEpoch : Option ℤ
  scheduledForEpoch : Option ℤ
  availableUntilEpoch : Option ℤ
  deriving DecidableEq, Repr

def resolveAutoRenewalNoticeSchedule (expiresAtEpoch : Option ℤ)
    (chargeLeadMinutes prechargeNoticeMinutes : ℕ) (nowEpoch : ℤ) : AutoRenewalNoticeSchedule :=
  match resolveAutoRenewalExpectedChargeAt expiresAtEpoch chargeLeadMinutes with
  | none => ⟨.disabled, none, none, none⟩
  | some expectedChargeAt =>
    if prechargeNoticeMinutes = 0 then
      ⟨.disabled, some expectedChargeAt, none, some expectedChargeAt⟩
    else if expectedChargeAt ≤ nowEpoch then
      ⟨.missed, some expectedChargeAt, none, some expectedChargeAt⟩
    else
      let prechargeNoticeAt := expectedChargeAt - prechargeNoticeMinutes * MINUTE_MS
      if nowEpoch < prechargeNoticeAt then
        ⟨.scheduled, some expectedChargeAt, some prechargeNoticeAt, some expectedChargeAt⟩
      else ⟨.catchUp, some expectedChargeAt, some nowEpoch, some expectedChargeAt⟩

/-- A notice is scheduled for the charge at the latest. -/
theorem noticeSchedule_before {expiresAt nowEpoch scheduledFor : ℤ} {lead notice : ℕ}
    (h : (resolveAutoRenewalNoticeSchedule (some expiresAt) lead notice
      nowEpoch).scheduledForEpoch = some scheduledFor) :
    notice ≠ 0 ∧ (resolveAutoRenewalNoticeSchedule (some expiresAt) lead notice
        nowEpoch).expectedChargeAtEpoch = some (expiresAt - lead * MINUTE_MS) ∧
      scheduledFor ≤ expiresAt - lead * MINUTE_MS := by
  simp only [resolveAutoRenewalNoticeSchedule, resolveAutoRenewalExpectedChargeAt,
    Option.map_some] at h ⊢
  split_ifs at h ⊢ with hdisabled hmissed hfuture
  · refine ⟨hdisabled, rfl, ?_⟩
    have hnotice : (0 : ℤ) ≤ notice * MINUTE_MS := by
      unfold MINUTE_MS
      omega
    rw [← Option.some.inj h]
    omega
  · refine ⟨hdisabled, rfl, ?_⟩
    rw [← Option.some.inj h]
    omega

end ZedBot.AutoRenewal
