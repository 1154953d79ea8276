import ZedBot.JsNumber
import ZedBot.Schema

/-! The configuration of the low-balance notifications and its four readers.

    The rows of the settings table are texts. Each reader converts them to numbers with rules of its
    own: what stands for a missing row, whether a negative value counts, and whether the sum of
    threshold and margin saturates. -/

namespace ZedBot.LowBalance
open JsNumber

/-- The rows of the settings table: key to text. -/
abbrev SettingTable := String → Option String

def LOW_BALANCE_ENABLED_KEY := "low_balance_notification_enabled"
def LOW_BALANCE_THRESHOLD_KEY := "low_balance_threshold"
def LOW_BALANCE_REARM_MARGIN_KEY := "low_balance_rearm_margin"
def LOW_BALANCE_CONFIG_VERSION_KEY := "low_balance_config_version"

def INT32_MAX : ℤ := 2147483647
def INT32_MIN : ℤ := -2147483648

def DEFAULT_LOW_BALANCE_THRESHOLD_TOMAN : ℤ := 100000
def DEFAULT_LOW_BALANCE_REARM_MARGIN_TOMAN : ℤ := 20000

structure LowBalanceConfig where
  enabled : Bool
  thresholdToman : ℤ
  rearmMarginToman : ℤ
  configVersion : ℤ
  deriving DecidableEq, Repr

def DEFAULT_LOW_BALANCE_CONFIG : LowBalanceConfig where
  enabled := false
  thresholdToman := DEFAULT_LOW_BALANCE_THRESHOLD_TOMAN
  rearmMarginToman := DEFAULT_LOW_BALANCE_REARM_MARGIN_TOMAN
  configVersion := 1

/-! ### Conversions -/

/-- `Number(raw)` of a text. -/
def jsNumber (raw : String) : Number := literalNumber (jsTrim raw).toList

/-- `toLowerCase()`, as far as it matters for a comparison with ASCII words. -/
def jsToLowerCase (raw : String) : String := raw.toLower

def TRUTHY_SETTING_VALUES : List String := ["true", "1", "yes"]

def isTruthySettingValue : Option String → Bool
  | none => false
  | some raw => jsToLowerCase raw ∈ TRUTHY_SETTING_VALUES

/-- An integer that is not negative, or the fallback. -/
def nonNegativeOr (fallback : ℤ) (value : Number) : ℤ :=
  match value.toInt? with
  | some n => if 0 ≤ n then n else fallback
  | none => fallback

def parseIntSetting (raw : String) (fallback : ℤ) : ℤ := nonNegativeOr fallback (jsNumber raw)

/-! ### The boundaries -/

/-- The re-arm boundary of the observer and the bot: it saturates. -/
def rearmBoundaryToman (config : LowBalanceConfig) : Number :=
  let sum := (ofInt config.thresholdToman).add (ofInt config.rearmMarginToman)
  if (ofInt INT32_MAX).lt sum then ofInt INT32_MAX else sum

/-- `balance > boundary`. -/
def isAbove (balanceToman : ℤ) (boundary : Number) : Bool := boundary.lt (ofInt balanceToman)

/-! ### The readers -/

/-- The observer in a wallet transaction. -/
def readLowBalanceConfigRows (byKey : SettingTable) : LowBalanceConfig where
  enabled := isTruthySettingValue (byKey LOW_BALANCE_ENABLED_KEY)
  thresholdToman := parseIntSetting ((byKey LOW_BALANCE_THRESHOLD_KEY).getD "")
    DEFAULT_LOW_BALANCE_THRESHOLD_TOMAN
  rearmMarginToman := parseIntSetting ((byKey LOW_BALANCE_REARM_MARGIN_KEY).getD "")
    DEFAULT_LOW_BALANCE_REARM_MARGIN_TOMAN
  configVersion := parseIntSetting ((byKey LOW_BALANCE_CONFIG_VERSION_KEY).getD "")
    DEFAULT_LOW_BALANCE_CONFIG.configVersion

/-- `getSetting`: the row of the table, or the fallback. -/
def getSetting (byKey : SettingTable) (key : String) (fallback : String := "") : String :=
  (byKey key).getD fallback

def getBooleanSetting (byKey : SettingTable) (key : String) (fallback : Bool) : Bool :=
  let raw := jsToLowerCase (getSetting byKey key "")
  if raw = "" then fallback else isTruthySettingValue (some raw)

/-- The bot. -/
def getLowBalanceConfig (byKey : SettingTable) : LowBalanceConfig where
  enabled := getBooleanSetting byKey LOW_BALANCE_ENABLED_KEY DEFAULT_LOW_BALANCE_CONFIG.enabled
  thresholdToman := parseIntSetting (getSetting byKey LOW_BALANCE_THRESHOLD_KEY)
    DEFAULT_LOW_BALANCE_THRESHOLD_TOMAN
  rearmMarginToman := parseIntSetting (getSetting byKey LOW_BALANCE_REARM_MARGIN_KEY)
    DEFAULT_LOW_BALANCE_REARM_MARGIN_TOMAN
  configVersion := parseIntSetting (getSetting byKey LOW_BALANCE_CONFIG_VERSION_KEY)
    DEFAULT_LOW_BALANCE_CONFIG.configVersion

structure SweepConfig where
  enabled : Bool
  thresholdToman : ℤ
  rearmBoundaryToman : Number
  configVersion : ℤ
  deriving DecidableEq

/-- `Number(byKey.get(key))`; the number of `undefined` is NaN. -/
def rowNumber (byKey : SettingTable) (key : String) : Number :=
  match byKey key with
  | some raw => jsNumber raw
  | none => .nan

/-- `raw === "true" || raw === "1" || raw === "yes"` on the lower-case text. -/
def isEnabledText (raw : Option String) : Bool :=
  let lower := jsToLowerCase (raw.getD "")
  lower = "true" ∨ lower = "1" ∨ lower = "yes"

/-- The reconciliation sweep of the worker. -/
def loadConfig (byKey : SettingTable) : SweepConfig :=
  let threshold := nonNegativeOr DEFAULT_LOW_BALANCE_THRESHOLD_TOMAN
    (rowNumber byKey LOW_BALANCE_THRESHOLD_KEY)
  let margin := nonNegativeOr DEFAULT_LOW_BALANCE_REARM_MARGIN_TOMAN
    (rowNumber byKey LOW_BALANCE_REARM_MARGIN_KEY)
  { enabled := isEnabledText (byKey LOW_BALANCE_ENABLED_KEY)
    thresholdToman := threshold
    rearmBoundaryToman := (ofInt threshold).add (ofInt margin)
    configVersion := nonNegativeOr 1 (rowNumber byKey LOW_BALANCE_CONFIG_VERSION_KEY) }

/-- The switch that the delivery looks at. -/
def isFeatureEnabled (byKey : SettingTable) : Bool :=
  isEnabledText (byKey LOW_BALANCE_ENABLED_KEY)

/-- The boundary that the delivery falls back to; a negative integer counts here. -/
def liveRearmBoundary (byKey : SettingTable) : Number :=
  let threshold := (rowNumber byKey LOW_BALANCE_THRESHOLD_KEY).toInt?
  let margin := (rowNumber byKey LOW_BALANCE_REARM_MARGIN_KEY).toInt?
  (ofInt (threshold.getD DEFAULT_LOW_BALANCE_THRESHOLD_TOMAN)).add
    (ofInt (margin.getD DEFAULT_LOW_BALANCE_REARM_MARGIN_TOMAN))

/-! ### Agreement -/

/-- A balance that the database can hold. -/
def IsInt32 (n : ℤ) : Prop := INT32_MIN ≤ n ∧ n ≤ INT32_MAX

/-- The four readers derive one configuration. -/
structure ReadersAgree (byKey : SettingTable) : Prop where
  enabled : (readLowBalanceConfigRows byKey).enabled = (loadConfig byKey).enabled ∧
    (readLowBalanceConfigRows byKey).enabled = isFeatureEnabled byKey ∧
    (readLowBalanceConfigRows byKey).enabled = (getLowBalanceConfig byKey).enabled
  threshold : (readLowBalanceConfigRows byKey).thresholdToman = (loadConfig byKey).thresholdToman ∧
    (readLowBalanceConfigRows byKey).thresholdToman = (getLowBalanceConfig byKey).thresholdToman
  version : (readLowBalanceConfigRows byKey).configVersion = (loadConfig byKey).configVersion ∧
    (readLowBalanceConfigRows byKey).configVersion = (getLowBalanceConfig byKey).configVersion
  rearms : ∀ balance, IsInt32 balance →
    isAbove balance (rearmBoundaryToman (readLowBalanceConfigRows byKey)) =
        isAbove balance (loadConfig byKey).rearmBoundaryToman ∧
      isAbove balance (rearmBoundaryToman (readLowBalanceConfigRows byKey)) =
        isAbove balance (liveRearmBoundary byKey) ∧
      isAbove balance (rearmBoundaryToman (readLowBalanceConfigRows byKey)) =
        isAbove balance (rearmBoundaryToman (getLowBalanceConfig byKey))

/-- The integer that a row stores. -/
def storedInteger (byKey : SettingTable) (key : String) : Option ℤ := (rowNumber byKey key).toInt?

/-- The contents of the table under which the readers agree: the rows are there, and no negative
    integer counts; a missing margin or a negative value does no harm where the boundary lies
    beyond every balance. -/
structure RowsComplete (byKey : SettingTable) : Prop where
  threshold : byKey LOW_BALANCE_THRESHOLD_KEY ≠ none
  version : byKey LOW_BALANCE_CONFIG_VERSION_KEY ≠ none
  margin : byKey LOW_BALANCE_REARM_MARGIN_KEY ≠ none ∨
    ∃ t, storedInteger byKey LOW_BALANCE_THRESHOLD_KEY = some t ∧ INT32_MAX ≤ t
  nonNegative :
    ((∀ t, storedInteger byKey LOW_BALANCE_THRESHOLD_KEY = some t → 0 ≤ t) ∧
        ∀ m, storedInteger byKey LOW_BALANCE_REARM_MARGIN_KEY = some m → 0 ≤ m) ∨
      ∃ t m, storedInteger byKey LOW_BALANCE_THRESHOLD_KEY = some t ∧
        storedInteger byKey LOW_BALANCE_REARM_MARGIN_KEY = some m ∧ INT32_MAX ≤ t + m

/-! #### The switch -/

theorem toList_jsToLowerCase (raw : String) :
    (jsToLowerCase raw).toList = raw.toList.map Char.toLower := by
  change (raw.map Char.toLower).toList = _
  rw [String.toList_map]

theorem jsToLowerCase_empty : jsToLowerCase "" = "" := by
  rw [← String.toList_inj, toList_jsToLowerCase]
  rfl

theorem isTruthy_eq_isEnabledText (raw : Option String) :
    isTruthySettingValue raw = isEnabledText raw := by
  cases raw with
  | none => simp [isTruthySettingValue, isEnabledText, jsToLowerCase_empty]
  | some raw => simp [isTruthySettingValue, isEnabledText, TRUTHY_SETTING_VALUES]

theorem toLower_toLower (c : Char) : c.toLower.toLower = c.toLower := by
  by_cases h : c.val ≥ 'A'.val ∧ c.val ≤ 'Z'.val
  · have h1 : c.toLower.val = c.val + 32 := by delta Char.toLower; rw [dif_pos h]; rfl
    have ha : 65 ≤ c.val.toNat := h.1
    have hz : c.val.toNat ≤ 90 := h.2
    have h2 : ¬ (c.toLower.val ≥ 'A'.val ∧ c.toLower.val ≤ 'Z'.val) := by
      rintro ⟨-, hle⟩
      have hle : c.toLower.val.toNat ≤ 90 := hle
      rw [h1, UInt32.toNat_add, show (32 : UInt32).toNat = 32 from rfl] at hle
      omega
    exact dif_neg h2
  · have h1 : c.toLower = c := dif_neg h
    rw [h1, h1]

theorem jsToLowerCase_idem (raw : String) : jsToLowerCase (jsToLowerCase raw) = jsToLowerCase raw := by
  change (raw.map Char.toLower).map Char.toLower = raw.map Char.toLower
  rw [String.map_map]
  congr 1
  funext c
  exact toLower_toLower c

theorem getBooleanSetting_eq (byKey : SettingTable) (key : String) :
    getBooleanSetting byKey key false = isEnabledText (byKey key) := by
  by_cases h : jsToLowerCase ((byKey key).getD "") = ""
  · simp [getBooleanSetting, getSetting, isEnabledText, h]
  · simp [getBooleanSetting, getSetting, isTruthy_eq_isEnabledText, isEnabledText, h,
      jsToLowerCase_idem]

/-! #### The numbers -/

theorem jsNumber_empty : jsNumber "" = ofInt 0 := by
  simp [jsNumber, jsTrim, literalNumber, ofInt]

/-- The non-negative integer that a row stores, or the fallback. -/
def storedOr (byKey : SettingTable) (key : String) (fallback : ℤ) : ℤ :=
  match storedInteger byKey key with
  | some n => if 0 ≤ n then n else fallback
  | none => fallback

theorem storedOr_nonneg {byKey : SettingTable} {key : String} {fallback : ℤ} (h : 0 ≤ fallback) :
    0 ≤ storedOr byKey key fallback := by
  unfold storedOr
  split
  · split
    · assumption
    · exact h
  · exact h

theorem nonNegativeOr_rowNumber (byKey : SettingTable) (key : String) (fallback : ℤ) :
    nonNegativeOr fallback (rowNumber byKey key) = storedOr byKey key fallback := rfl

/-- The observer and the bot take a missing row for 0. -/
theorem parseIntSetting_row (byKey : SettingTable) (key : String) (fallback : ℤ) :
    parseIntSetting ((byKey key).getD "") fallback =
      if byKey key = none then 0 else storedOr byKey key fallback := by
  cases h : byKey key with
  | none =>
    rw [if_pos rfl, Option.getD_none, parseIntSetting, jsNumber_empty, nonNegativeOr,
      toInt?_eq_some.mpr rfl]
    simp
  | some raw =>
    simp only [Option.getD_some, parseIntSetting, reduceCtorEq, if_false]
    rw [← nonNegativeOr_rowNumber, rowNumber, h]

theorem storedInteger_none {byKey : SettingTable} {key : String} (h : byKey key = none) :
    storedInteger byKey key = none := by
  simp [storedInteger, rowNumber, h, Number.toInt?]

/-! #### The boundaries -/

theorem IsInt32.small {x : ℤ} (hx : IsInt32 x) : |x| < MAX_EXACT := by
  obtain ⟨h1, h2⟩ := hx
  have hmax : MAX_EXACT = 9007199254740992 := by norm_num [MAX_EXACT]
  rw [abs_lt, hmax]
  simp only [INT32_MAX, INT32_MIN] at h1 h2
  omega

theorem isAbove_add (a b : ℤ) {x : ℤ} (hx : IsInt32 x) :
    isAbove x ((ofInt a).add (ofInt b)) = decide (a + b < x) := add_lt_ofInt a b hx.small

/-- Saturation does not change the decision on a balance. -/
theorem isAbove_rearmBoundary (config : LowBalanceConfig) {x : ℤ} (hx : IsInt32 x) :
    isAbove x (rearmBoundaryToman config) =
      decide (config.thresholdToman + config.rearmMarginToman < x) := by
  rw [← isAbove_add _ _ hx]
  simp only [rearmBoundaryToman]
  split
  · rename_i hmax
    have hno : ¬ INT32_MAX < x := not_lt.mpr hx.2
    have hcap : isAbove x (ofInt INT32_MAX) = false := by simp [isAbove, ofInt_lt, hno]
    rw [hcap, eq_comm, Bool.eq_false_iff]
    intro h
    have := Number.lt_trans hmax h
    rw [ofInt_lt] at this
    exact hno (of_decide_eq_true this)
  · rfl

/-- Two boundaries decide alike on every balance when they are one, or both beyond all balances. -/
theorem sameDecision_iff {a b : ℤ} (ha : 0 ≤ a) :
    (∀ x, IsInt32 x → decide (a < x) = decide (b < x)) ↔ a = b ∨ INT32_MAX ≤ a ∧ INT32_MAX ≤ b := by
  simp only [IsInt32, INT32_MIN, INT32_MAX, decide_eq_decide]
  constructor
  · intro h
    by_contra hne
    rcases le_total 2147483647 a with hle | hle
    · have := h 2147483647 ⟨by omega, by omega⟩
      omega
    · have h1 := h (a + 1)
      have h2 := h a
      have h3 := h 2147483647 ⟨by omega, by omega⟩
      omega
  · rintro (rfl | ⟨h1, h2⟩) x ⟨-, hx⟩
    · rfl
    · omega

/-- The sums of threshold and margin that the observer and the bot, the sweep and the delivery compare
    a balance with. -/
def observerSum (byKey : SettingTable) : ℤ :=
  (readLowBalanceConfigRows byKey).thresholdToman + (readLowBalanceConfigRows byKey).rearmMarginToman

def sweepSum (byKey : SettingTable) : ℤ :=
  storedOr byKey LOW_BALANCE_THRESHOLD_KEY DEFAULT_LOW_BALANCE_THRESHOLD_TOMAN +
    storedOr byKey LOW_BALANCE_REARM_MARGIN_KEY DEFAULT_LOW_BALANCE_REARM_MARGIN_TOMAN

def deliverySum (byKey : SettingTable) : ℤ :=
  (storedInteger byKey LOW_BALANCE_THRESHOLD_KEY).getD DEFAULT_LOW_BALANCE_THRESHOLD_TOMAN +
    (storedInteger byKey LOW_BALANCE_REARM_MARGIN_KEY).getD DEFAULT_LOW_BALANCE_REARM_MARGIN_TOMAN

theorem observerSum_nonneg (byKey : SettingTable) : 0 ≤ observerSum byKey := by
  simp only [observerSum, readLowBalanceConfigRows, parseIntSetting_row]
  have h1 : 0 ≤ storedOr byKey LOW_BALANCE_THRESHOLD_KEY DEFAULT_LOW_BALANCE_THRESHOLD_TOMAN :=
    storedOr_nonneg (by decide)
  have h2 : 0 ≤ storedOr byKey LOW_BALANCE_REARM_MARGIN_KEY DEFAULT_LOW_BALANCE_REARM_MARGIN_TOMAN :=
    storedOr_nonneg (by decide)
  split <;> split <;> omega

/-- The bot reads what the observer reads. -/
theorem getLowBalanceConfig_eq (byKey : SettingTable) :
    getLowBalanceConfig byKey = readLowBalanceConfigRows byKey := by
  simp only [getLowBalanceConfig, readLowBalanceConfigRows, getSetting, LowBalanceConfig.mk.injEq,
    and_self, and_true]
  rw [isTruthy_eq_isEnabledText]
  exact getBooleanSetting_eq byKey _

theorem storedOr_none {byKey : SettingTable} {key : String} (h : byKey key = none) (fallback : ℤ) :
    storedOr byKey key fallback = fallback := by rw [storedOr, storedInteger_none h]

/-- The re-arm decisions agree when the sums do, or lie beyond every balance. -/
theorem rearms_iff (byKey : SettingTable) :
    (∀ balance, IsInt32 balance →
      isAbove balance (rearmBoundaryToman (readLowBalanceConfigRows byKey)) =
          isAbove balance (loadConfig byKey).rearmBoundaryToman ∧
        isAbove balance (rearmBoundaryToman (readLowBalanceConfigRows byKey)) =
          isAbove balance (liveRearmBoundary byKey)) ↔
      (observerSum byKey = sweepSum byKey ∨
        INT32_MAX ≤ observerSum byKey ∧ INT32_MAX ≤ sweepSum byKey) ∧
      (observerSum byKey = deliverySum byKey ∨
        INT32_MAX ≤ observerSum byKey ∧ INT32_MAX ≤ deliverySum byKey) := by
  have ho := observerSum_nonneg byKey
  rw [← sameDecision_iff ho, ← sameDecision_iff ho, ← forall₂_and]
  refine forall₂_congr fun x hx => ?_
  rw [isAbove_rearmBoundary _ hx, loadConfig, isAbove_add _ _ hx, liveRearmBoundary,
    isAbove_add _ _ hx]
  rfl

/-- Agreement in terms of the integers. -/
theorem readersAgree_iff_sums (byKey : SettingTable) : ReadersAgree byKey ↔
    byKey LOW_BALANCE_THRESHOLD_KEY ≠ none ∧ byKey LOW_BALANCE_CONFIG_VERSION_KEY ≠ none ∧
      (observerSum byKey = sweepSum byKey ∨
        INT32_MAX ≤ observerSum byKey ∧ INT32_MAX ≤ sweepSum byKey) ∧
      (observerSum byKey = deliverySum byKey ∨
        INT32_MAX ≤ observerSum byKey ∧ INT32_MAX ≤ deliverySum byKey) := by
  rw [← rearms_iff]
  constructor
  · rintro ⟨-, ⟨hthreshold, -⟩, ⟨hversion, -⟩, hrearms⟩
    refine ⟨fun hnone => ?_, fun hnone => ?_, fun x hx => ⟨(hrearms x hx).1, (hrearms x hx).2.1⟩⟩
    · simp only [readLowBalanceConfigRows, loadConfig, parseIntSetting_row, nonNegativeOr_rowNumber,
        if_pos hnone, storedOr_none hnone] at hthreshold
      exact absurd hthreshold (by decide)
    · simp only [readLowBalanceConfigRows, loadConfig, parseIntSetting_row, nonNegativeOr_rowNumber,
        if_pos hnone, storedOr_none hnone] at hversion
      exact absurd hversion (by decide)
  · rintro ⟨hthreshold, hversion, hrearms⟩
    refine ⟨?_, ?_, ?_, fun x hx => ?_⟩
    · rw [getLowBalanceConfig_eq]
      exact ⟨isTruthy_eq_isEnabledText _, isTruthy_eq_isEnabledText _, rfl⟩
    · rw [getLowBalanceConfig_eq, readLowBalanceConfigRows, parseIntSetting_row, if_neg hthreshold]
      exact ⟨rfl, rfl⟩
    · rw [getLowBalanceConfig_eq, readLowBalanceConfigRows, parseIntSetting_row, parseIntSetting_row,
        parseIntSetting_row, if_neg hversion]
      exact ⟨rfl, rfl⟩
    · rw [getLowBalanceConfig_eq]
      exact ⟨(hrearms x hx).1, (hrearms x hx).2, rfl⟩

/-- The table as integers: what is stored, and whether the margin row is there. -/
theorem sums_agree_iff {t m : Option ℤ} {P : Prop} [Decidable P]
    (hm : ¬ P → m = none) :
    let threshold := match t with
      | some n => if 0 ≤ n then n else DEFAULT_LOW_BALANCE_THRESHOLD_TOMAN
      | none => DEFAULT_LOW_BALANCE_THRESHOLD_TOMAN
    let margin := match m with
      | some n => if 0 ≤ n then n else DEFAULT_LOW_BALANCE_REARM_MARGIN_TOMAN
      | none => DEFAULT_LOW_BALANCE_REARM_MARGIN_TOMAN
    let observer := threshold + if P then margin else 0
    let sweep := threshold + margin
    let delivery := t.getD DEFAULT_LOW_BALANCE_THRESHOLD_TOMAN +
      m.getD DEFAULT_LOW_BALANCE_REARM_MARGIN_TOMAN
    (observer = sweep ∨ INT32_MAX ≤ observer ∧ INT32_MAX ≤ sweep) ∧
        (observer = delivery ∨ INT32_MAX ≤ observer ∧ INT32_MAX ≤ delivery) ↔
      (P ∨ ∃ n, t = some n ∧ INT32_MAX ≤ n) ∧
        (((∀ n, t = some n → 0 ≤ n) ∧ ∀ n, m = some n → 0 ≤ n) ∨
          ∃ n k, t = some n ∧ m = some k ∧ INT32_MAX ≤ n + k) := by
  simp only [INT32_MAX, DEFAULT_LOW_BALANCE_THRESHOLD_TOMAN, DEFAULT_LOW_BALANCE_REARM_MARGIN_TOMAN]
  by_cases hp : P
  · rcases t with _ | t <;> rcases m with _ | m <;>
      simp only [hp, if_true, Option.getD, Option.some.injEq, reduceCtorEq, true_or, true_and,
        false_and, and_false, exists_false, or_false, IsEmpty.forall_iff, forall_const, and_true,
        forall_eq', exists_and_left, exists_eq_left'] <;>
      (try split) <;> (try split) <;> omega
  · rcases t with _ | t
    · simp [hm hp, hp]
    · simp only [hm hp, hp, if_false, Option.getD, Option.some.injEq, reduceCtorEq, false_or,
        false_and, and_false, exists_false, or_false, IsEmpty.forall_iff, forall_const, and_true,
        forall_eq', exists_eq_left']
      split <;> omega

end ZedBot.LowBalance
