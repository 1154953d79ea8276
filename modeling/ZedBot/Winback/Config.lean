import Mathlib.Data.List.Sort
import ZedBot.Json
import ZedBot.JsNumber

/-! The configuration of the win-back campaign.

    It is stored as a JSON text; any field that is missing or out of bounds gives the fallback. -/

namespace ZedBot.Winback

open JsNumber

structure WinbackConfig where
  /-- Days-inactive threshold for each stage, ascending and unique. -/
  stageDays : List ℤ
  allowedUserGroups : List String
  minimumCompletedPaidOrders : ℤ
  minimumLifetimeSpendToman : ℤ
  snoozeDays : ℤ
  maximumNotificationsPerLapseCycle : ℤ
  serviceStateMaxAgeMinutes : ℤ
  deriving DecidableEq, Repr

def DEFAULT_WINBACK_CONFIG : WinbackConfig where
  stageDays := [30, 60, 90]
  allowedUserGroups := ["F"]
  minimumCompletedPaidOrders := 1
  minimumLifetimeSpendToman := 0
  snoozeDays := 30
  maximumNotificationsPerLapseCycle := 3
  serviceStateMaxAgeMinutes := 20

def WINBACK_USER_GROUP_VALUES : List String := ["F", "N", "N2"]

def MIN_STAGE_DAYS : ℤ := 7

def MAX_STAGE_DAYS : ℤ := 730

def MAX_STAGE_COUNT : ℕ := 6

def MAX_SNOOZE_DAYS : ℤ := 365

def MAX_MIN_ORDERS : ℤ := 100

/-- `Number.MAX_SAFE_INTEGER`. -/
def MAX_SPEND_TOMAN : ℤ := 2 ^ 53 - 1

/-- 7 days. -/
def MAX_SERVICE_STATE_AGE_MINUTES : ℤ := 7 * 24 * 60

/-- What the configuration is read from: a text, or a value that has been parsed. -/
inductive Raw
  | text (s : String)
  | value (v : Json)

/-- An integer in a range; `none` stands for any other value. -/
def intInRange (min max : ℤ) : Option Json → Option ℤ
  | some (.number literal) =>
    match (literalNumber literal.toList).toInt? with
    | some n => if min ≤ n ∧ n ≤ max then some n else none
    | none => none
  | _ => none

/-- The stages in the order of the text, each once. -/
def readStages (seen : List ℤ) : List Json → Option (List ℤ)
  | [] => some seen
  | s :: stages =>
    match intInRange MIN_STAGE_DAYS MAX_STAGE_DAYS (some s) with
    | none => none
    | some d => if d ∈ seen then none else readStages (seen ++ [d]) stages

/-- The groups in the order of the text, each once. -/
def readGroups (seen : List String) : List Json → Option (List String)
  | [] => some seen
  | .string g :: groups =>
    if g ∉ WINBACK_USER_GROUP_VALUES ∨ g ∈ seen then none else readGroups (seen ++ [g]) groups
  | _ :: _ => none

/-- `stageDays` of a record: checked and sorted. -/
def stagesOf (rec_ : List (String × Json)) : Option (List ℤ) :=
  match Json.member rec_ "stageDays" with
  | some (.array stages) =>
    if stages = [] ∨ MAX_STAGE_COUNT < stages.length then none
    else (readStages [] stages).map (List.insertionSort (· ≤ ·))
  | _ => none

def groupsOf (rec_ : List (String × Json)) : Option (List String) :=
  match Json.member rec_ "allowedUserGroups" with
  | some (.array groups) => if groups = [] then none else readGroups [] groups
  | _ => none

/-- A record that passes every check. -/
def readConfig (rec_ : List (String × Json)) : Option WinbackConfig :=
  let intOf := fun min max key => intInRange min max (Json.member rec_ key)
  match stagesOf rec_ with
  | none => none
  | some stageDays =>
    match groupsOf rec_, intOf 1 MAX_MIN_ORDERS "minimumCompletedPaidOrders",
      intOf 0 MAX_SPEND_TOMAN "minimumLifetimeSpendToman", intOf 1 MAX_SNOOZE_DAYS "snoozeDays",
      intOf 1 stageDays.length "maximumNotificationsPerLapseCycle",
      intOf 1 MAX_SERVICE_STATE_AGE_MINUTES "serviceStateMaxAgeMinutes" with
    | some groups, some orders, some spend, some snooze, some most, some age =>
      some ⟨stageDays, groups, orders, spend, snooze, most, age⟩
    | _, _, _, _, _, _ => none

def parseWinbackConfig (raw : Raw) (fallback : WinbackConfig) : WinbackConfig :=
  let parsed :=
    match raw with
    | .text s => Json.parse s
    | .value v => some v
  match parsed with
  | some (.object rec_) => (readConfig rec_).getD fallback
  | _ => fallback

/-! ### Valid configurations -/

/-- What every check lets pass. -/
structure ValidConfig (c : WinbackConfig) : Prop where
  stages : c.stageDays ≠ [] ∧ c.stageDays.length ≤ MAX_STAGE_COUNT
  ascending : c.stageDays.Pairwise (· < ·)
  stageRange : ∀ d ∈ c.stageDays, MIN_STAGE_DAYS ≤ d ∧ d ≤ MAX_STAGE_DAYS
  groups : c.allowedUserGroups ≠ [] ∧ c.allowedUserGroups.Nodup
  groupValues : ∀ g ∈ c.allowedUserGroups, g ∈ WINBACK_USER_GROUP_VALUES
  orders : 1 ≤ c.minimumCompletedPaidOrders ∧ c.minimumCompletedPaidOrders ≤ MAX_MIN_ORDERS
  spend : 0 ≤ c.minimumLifetimeSpendToman ∧ c.minimumLifetimeSpendToman ≤ MAX_SPEND_TOMAN
  snooze : 1 ≤ c.snoozeDays ∧ c.snoozeDays ≤ MAX_SNOOZE_DAYS
  most : 1 ≤ c.maximumNotificationsPerLapseCycle ∧
    c.maximumNotificationsPerLapseCycle ≤ c.stageDays.length
  age : 1 ≤ c.serviceStateMaxAgeMinutes ∧ c.serviceStateMaxAgeMinutes ≤ MAX_SERVICE_STATE_AGE_MINUTES

theorem default_valid : ValidConfig DEFAULT_WINBACK_CONFIG := by
  refine ⟨?_, ?_, ?_, ?_, ?_, ?_, ?_, ?_, ?_, ?_⟩ <;> decide

theorem intInRange_some {v : Option Json} {min max n : ℤ} (h : intInRange min max v = some n) :
    min ≤ n ∧ n ≤ max := by
  unfold intInRange at h
  split at h
  · split at h
    · split at h
      · cases h
        assumption
      · cases h
    · cases h
  · cases h

/-- A list of stages that is read has each stage once. -/
theorem readStages_some {stages : List Json} {seen days : List ℤ} (h : readStages seen stages = some days)
    (hnodup : seen.Nodup) (hrange : ∀ d ∈ seen, MIN_STAGE_DAYS ≤ d ∧ d ≤ MAX_STAGE_DAYS) :
    days.Nodup ∧ (∀ d ∈ days, MIN_STAGE_DAYS ≤ d ∧ d ≤ MAX_STAGE_DAYS) ∧
      days.length = seen.length + stages.length := by
  induction stages generalizing seen with
  | nil =>
    cases h
    exact ⟨hnodup, hrange, rfl⟩
  | cons s stages ih =>
    rw [readStages] at h
    split at h
    · cases h
    · rename_i d hd
      split_ifs at h with hseen
      have hsnoc : (seen ++ [d]).Nodup := by
        rw [List.nodup_append]
        refine ⟨hnodup, List.nodup_singleton d, fun x hx y hy heq => ?_⟩
        rw [heq, List.mem_singleton.mp hy] at hx
        exact hseen hx
      have hall : ∀ x ∈ seen ++ [d], MIN_STAGE_DAYS ≤ x ∧ x ≤ MAX_STAGE_DAYS := by
        intro x hx
        rcases List.mem_append.mp hx with hx | hx
        · exact hrange x hx
        · rw [List.mem_singleton.mp hx]
          exact intInRange_some hd
      obtain ⟨hdays, hdaysRange, hlength⟩ := ih h hsnoc hall
      refine ⟨hdays, hdaysRange, ?_⟩
      rw [hlength, List.length_append, List.length_singleton, List.length_cons]
      omega

theorem readGroups_some {values : List Json} {seen groups : List String}
    (h : readGroups seen values = some groups) (hnodup : seen.Nodup)
    (hseen : ∀ g ∈ seen, g ∈ WINBACK_USER_GROUP_VALUES) :
    groups.Nodup ∧ (∀ g ∈ groups, g ∈ WINBACK_USER_GROUP_VALUES) ∧
      groups.length = seen.length + values.length := by
  induction values generalizing seen with
  | nil =>
    cases h
    exact ⟨hnodup, hseen, rfl⟩
  | cons v values ih =>
    cases v with
    | string g =>
      rw [readGroups] at h
      split_ifs at h with hg
      rw [not_or, not_not] at hg
      have hsnoc : (seen ++ [g]).Nodup := by
        rw [List.nodup_append]
        refine ⟨hnodup, List.nodup_singleton g, fun x hx y hy heq => ?_⟩
        rw [heq, List.mem_singleton.mp hy] at hx
        exact hg.2 hx
      have hall : ∀ x ∈ seen ++ [g], x ∈ WINBACK_USER_GROUP_VALUES := by
        intro x hx
        rcases List.mem_append.mp hx with hx | hx
        · exact hseen x hx
        · rw [List.mem_singleton.mp hx]
          exact hg.1
      obtain ⟨hgroups, hvalues, hlength⟩ := ih h hsnoc hall
      refine ⟨hgroups, hvalues, ?_⟩
      rw [hlength, List.length_append, List.length_singleton, List.length_cons]
      omega
    | _ => exact absurd h nofun

theorem stagesOf_some {rec_ : List (String × Json)} {days : List ℤ} (h : stagesOf rec_ = some days) :
    (days ≠ [] ∧ days.length ≤ MAX_STAGE_COUNT) ∧ days.Pairwise (· < ·) ∧
      ∀ d ∈ days, MIN_STAGE_DAYS ≤ d ∧ d ≤ MAX_STAGE_DAYS := by
  unfold stagesOf at h
  split at h
  · rename_i stages _
    split_ifs at h with hcount
    rw [not_or, not_lt] at hcount
    obtain ⟨read, hread, rfl⟩ := Option.map_eq_some_iff.mp h
    obtain ⟨hnodup, hrange, hlength⟩ := readStages_some hread List.nodup_nil (by simp)
    have hperm : (read.insertionSort (· ≤ ·)).Perm read := List.perm_insertionSort _ _
    have hsorted : (read.insertionSort (· ≤ ·)).Pairwise (· ≤ ·) := List.pairwise_insertionSort _ _
    rw [List.length_nil, Nat.zero_add] at hlength
    refine ⟨⟨fun hnil => hcount.1 ?_, ?_⟩, ?_, fun d hd => hrange d (hperm.subset hd)⟩
    · rw [← List.length_eq_zero_iff, ← hlength, ← hperm.length_eq, hnil, List.length_nil]
    · rw [hperm.length_eq, hlength]
      exact hcount.2
    · exact (hsorted.and (hperm.nodup_iff.mpr hnodup)).imp fun hd => lt_of_le_of_ne hd.1 hd.2
  · cases h

theorem groupsOf_some {rec_ : List (String × Json)} {groups : List String}
    (h : groupsOf rec_ = some groups) :
    (groups ≠ [] ∧ groups.Nodup) ∧ ∀ g ∈ groups, g ∈ WINBACK_USER_GROUP_VALUES := by
  unfold groupsOf at h
  split at h
  · rename_i values _
    split_ifs at h with hnil
    obtain ⟨hnodup, hvalues, hlength⟩ := readGroups_some h List.nodup_nil (by simp)
    rw [List.length_nil, Nat.zero_add] at hlength
    refine ⟨⟨fun hgroups => hnil ?_, hnodup⟩, hvalues⟩
    rw [← List.length_eq_zero_iff, ← hlength, hgroups, List.length_nil]
  · cases h

/-- A record that passes the checks is valid. -/
theorem readConfig_valid {rec_ : List (String × Json)} {c : WinbackConfig}
    (h : readConfig rec_ = some c) : ValidConfig c := by
  unfold readConfig at h
  dsimp only at h
  split at h
  · cases h
  · rename_i stageDays hstages
    split at h
    · rename_i groups orders spend snooze most age hgroups horders hspend hsnooze hmost hage
      obtain ⟨hcount, hascending, hrange⟩ := stagesOf_some hstages
      obtain ⟨hnodup, hvalues⟩ := groupsOf_some hgroups
      cases h
      exact ⟨hcount, hascending, hrange, hnodup, hvalues, intInRange_some horders,
        intInRange_some hspend, intInRange_some hsnooze, intInRange_some hmost,
        intInRange_some hage⟩
    · cases h

/-- Every configuration that is read is valid. -/
theorem parse_valid (raw : Raw) {fallback : WinbackConfig} (hfallback : ValidConfig fallback) :
    ValidConfig (parseWinbackConfig raw fallback) := by
  unfold parseWinbackConfig
  dsimp only
  split
  · rename_i rec_ _
    cases hread : readConfig rec_ with
    | none => exact hfallback
    | some c => exact readConfig_valid hread
  · exact hfallback

end ZedBot.Winback
