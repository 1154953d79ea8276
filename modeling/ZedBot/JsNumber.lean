import Mathlib.Algebra.Order.Field.Power
import Mathlib.Algebra.Order.Ring.Rat
import Mathlib.Data.Int.Log
import Mathlib.Data.List.TakeWhile
import Mathlib.Data.Rat.Floor
import Mathlib.Tactic.Linarith
import Mathlib.Tactic.NormNum
import Mathlib.Tactic.Positivity

/-! Numbers of JavaScript: IEEE doubles, their addition and order, and the number that a string is
    converted to.

    A finite double is given by its value, a rational; the two zeros are one. An operation computes
    the exact result and rounds it to the nearest double, ties to even. -/

namespace JsNumber

/-- A value of type Number. -/
inductive Number
  | nan
  | infinity (negative : Bool)
  | finite (q : ℚ)
  deriving DecidableEq

/-! ### Rounding -/

/-- The nearest integer, ties to even. -/
def roundHalfEven (q : ℚ) : ℤ :=
  let n := ⌊q⌋
  let r := q - n
  if r < 1 / 2 then n
  else if 1 / 2 < r then n + 1
  else if n % 2 = 0 then n else n + 1

/-- The exponent of the last place of a double near `q`: 53 binary digits, none below `2 ^ -1074`. -/
def lastPlace (q : ℚ) : ℤ := max (-1074) (Int.log 2 |q| - 52)

/-- The double nearest to `q`. -/
def toDouble (q : ℚ) : Number :=
  let unit : ℚ := 2 ^ lastPlace q
  let r := roundHalfEven (q / unit) * unit
  if 2 ^ 1024 ≤ |r| then .infinity (decide (q < 0)) else .finite r

/-! ### Operations -/

def Number.add : Number → Number → Number
  | .nan, _ | _, .nan => .nan
  | .infinity s, .infinity t => if s = t then .infinity s else .nan
  | .infinity s, .finite _ => .infinity s
  | .finite _, .infinity t => .infinity t
  | .finite p, .finite q => toDouble (p + q)

/-- `x < y`; no comparison with NaN holds. -/
def Number.lt : Number → Number → Bool
  | .nan, _ | _, .nan => false
  | .infinity s, .infinity t => s && !t
  | .infinity s, .finite _ => s
  | .finite _, .infinity t => !t
  | .finite p, .finite q => p < q

/-- `x <= y`. -/
def Number.le (x y : Number) : Bool := x.lt y || (x = y && x ≠ .nan)

/-- An integer that is a double. -/
def ofInt (n : ℤ) : Number := .finite n

/-- The integer that a number is (`Number.isInteger`). -/
def Number.toInt? : Number → Option ℤ
  | .finite q => if q.den = 1 then some q.num else none
  | .nan | .infinity _ => none

/-! ### From strings -/

def digitValue (c : Char) : Option ℕ :=
  let n := c.toNat
  if 48 ≤ n ∧ n ≤ 57 then some (n - 48)
  else if 65 ≤ n ∧ n ≤ 90 then some (n - 55)
  else if 97 ≤ n ∧ n ≤ 122 then some (n - 87)
  else none

/-- The value of a string of digits; the empty one is 0. -/
def digitsValue (base : ℕ) : List Char → ℕ → Option ℕ
  | [], acc => some acc
  | c :: cs, acc =>
    match digitValue c with
    | some d => if d < base then digitsValue base cs (base * acc + d) else none
    | none => none

/-- The exponent part of a decimal literal. -/
def exponentValue : List Char → Option ℤ
  | [] => some 0
  | [_] => none
  | _ :: '+' :: cs => if cs = [] then none else (digitsValue 10 cs 0).map fun n => (n : ℤ)
  | _ :: '-' :: cs => if cs = [] then none else (digitsValue 10 cs 0).map fun n => -(n : ℤ)
  | _ :: cs => (digitsValue 10 cs 0).map fun n => (n : ℤ)

/-- The value of an unsigned decimal literal: digits, a point with more digits, an exponent. -/
def decimalValue (cs : List Char) : Option ℚ :=
  let isExponent := fun c => c = 'e' ∨ c = 'E'
  let mantissa := cs.takeWhile fun c => ¬ isExponent c
  let whole := mantissa.takeWhile (· ≠ '.')
  let fraction := (mantissa.dropWhile (· ≠ '.')).drop 1
  if whole = [] ∧ fraction = [] then none
  else
    match digitsValue 10 whole 0, digitsValue 10 fraction 0,
      exponentValue (cs.dropWhile fun c => ¬ isExponent c) with
    | some w, some f, some e => some ((w + f / 10 ^ fraction.length) * 10 ^ e)
    | _, _, _ => none

/-- A decimal literal without its sign. -/
def unsignedNumber (negative : Bool) (cs : List Char) : Number :=
  if cs = "Infinity".toList then .infinity negative
  else
    match decimalValue cs with
    | some q => toDouble (if negative then -q else q)
    | none => .nan

/-- A literal in base 2, 8 or 16. -/
def radixNumber (base : ℕ) (cs : List Char) : Number :=
  if cs = [] then .nan
  else
    match digitsValue base cs 0 with
    | some n => toDouble n
    | none => .nan

/-- The number of a string without white space at its ends. -/
def literalNumber : List Char → Number
  | [] => .finite 0
  | '0' :: 'x' :: cs | '0' :: 'X' :: cs => radixNumber 16 cs
  | '0' :: 'o' :: cs | '0' :: 'O' :: cs => radixNumber 8 cs
  | '0' :: 'b' :: cs | '0' :: 'B' :: cs => radixNumber 2 cs
  | '+' :: cs => unsignedNumber false cs
  | '-' :: cs => unsignedNumber true cs
  | cs => unsignedNumber false cs

/-! ### Rounding of integers -/

theorem roundHalfEven_intCast (n : ℤ) : roundHalfEven n = n := by
  have h : (0 : ℚ) < 1 / 2 := by norm_num
  simp [roundHalfEven]

theorem le_roundHalfEven {q : ℚ} {n : ℤ} (h : (n : ℚ) ≤ q) : n ≤ roundHalfEven q := by
  have hf : n ≤ ⌊q⌋ := Int.le_floor.mpr h
  simp only [roundHalfEven]
  split
  · exact hf
  · split
    · omega
    · split <;> omega

theorem roundHalfEven_le {q : ℚ} {n : ℤ} (h : q ≤ n) : roundHalfEven q ≤ n := by
  rcases eq_or_lt_of_le h with rfl | h
  · rw [roundHalfEven_intCast]
  · have hf : ⌊q⌋ < n := Int.floor_lt.mpr h
    simp only [roundHalfEven]
    split
    · omega
    · split
      · omega
      · split <;> omega

/-- The largest integer below which every integer is a double. -/
def MAX_EXACT : ℤ := 2 ^ 53

/-- A small integer is a multiple of its last place. -/
theorem exists_mul_lastPlace {n : ℤ} (hn : |n| ≤ MAX_EXACT) :
    ∃ m : ℤ, (n : ℚ) / 2 ^ lastPlace n = m := by
  rcases eq_or_ne n 0 with rfl | h0
  · exact ⟨0, by simp⟩
  have hpos : (0 : ℚ) < |(n : ℚ)| := abs_pos.mpr (by exact_mod_cast h0)
  have hle : |(n : ℚ)| ≤ 2 ^ (53 : ℤ) := by
    have h : ((|n| : ℤ) : ℚ) ≤ ((2 ^ 53 : ℤ) : ℚ) := by exact_mod_cast hn
    rw [Int.cast_abs] at h
    exact_mod_cast h
  rcases eq_or_lt_of_le hle with heq | hlt
  · -- the bound itself is an even number of units
    have hlog : Int.log 2 |(n : ℚ)| = 53 := by
      rw [heq]; exact Int.log_zpow (R := ℚ) (by norm_num) 53
    have hplace : lastPlace n = 1 := by simp [lastPlace, hlog]
    rcases abs_choice (n : ℚ) with h | h
    · refine ⟨2 ^ 52, ?_⟩
      rw [hplace, ← h, heq]; norm_num
    · refine ⟨-2 ^ 52, ?_⟩
      have hn' : (n : ℚ) = -2 ^ (53 : ℤ) := by rw [← heq, h, neg_neg]
      rw [hplace, hn']; norm_num
  · have hlog : Int.log 2 |(n : ℚ)| < 53 := by
      refine (Int.lt_zpow_iff_log_lt (R := ℚ) (b := 2) (by norm_num) hpos).mp ?_
      exact_mod_cast hlt
    have hplace : lastPlace n ≤ 0 := by simp only [lastPlace]; omega
    obtain ⟨k, hk⟩ : ∃ k : ℕ, lastPlace n = -k := ⟨(-lastPlace n).toNat, by omega⟩
    refine ⟨n * 2 ^ k, ?_⟩
    rw [hk, zpow_neg, zpow_natCast, div_inv_eq_mul]; push_cast; rfl

/-- An integer up to `2 ^ 53` is a double. -/
theorem toDouble_intCast {n : ℤ} (hn : |n| ≤ MAX_EXACT) : toDouble n = ofInt n := by
  obtain ⟨m, hm⟩ := exists_mul_lastPlace hn
  have hunit : (2 : ℚ) ^ lastPlace n ≠ 0 := (zpow_pos (by norm_num) _).ne'
  have hr : (roundHalfEven ((n : ℚ) / 2 ^ lastPlace n) : ℚ) * 2 ^ lastPlace n = n := by
    rw [hm, roundHalfEven_intCast, ← hm, div_mul_cancel₀ _ hunit]
  have hsmall : ¬ (2 : ℚ) ^ 1024 ≤ |(n : ℚ)| := by
    have h1 : ((|n| : ℤ) : ℚ) ≤ ((2 ^ 53 : ℤ) : ℚ) := by exact_mod_cast hn
    have h2 : (2 : ℚ) ^ 53 < 2 ^ 1024 := pow_lt_pow_right₀ (by norm_num) (by norm_num)
    rw [Int.cast_abs] at h1
    push_cast at h1
    exact not_le.mpr (lt_of_le_of_lt h1 h2)
  simp only [toDouble, hr, hsmall, if_false, ofInt]

/-- A large number has `2 ^ 52` units of its last place, each at least 2. -/
theorem two_le_unit {q : ℚ} (hq : 2 ^ 53 ≤ |q|) :
    (2 : ℚ) ≤ 2 ^ lastPlace q ∧ 2 ^ 52 * 2 ^ lastPlace q ≤ |q| := by
  have hpos : 0 < |q| := lt_of_lt_of_le (by norm_num) hq
  have hlog : 53 ≤ Int.log 2 |q| :=
    (Int.zpow_le_iff_le_log (R := ℚ) (b := 2) (by norm_num) hpos).mp (by exact_mod_cast hq)
  have hplace : lastPlace q = Int.log 2 |q| - 52 := by simp only [lastPlace]; omega
  constructor
  · calc (2 : ℚ) = 2 ^ (1 : ℤ) := (zpow_one 2).symm
      _ ≤ 2 ^ lastPlace q := zpow_le_zpow_right₀ (by norm_num) (by omega)
  · calc (2 : ℚ) ^ 52 * 2 ^ lastPlace q = 2 ^ Int.log 2 |q| := by
          rw [← zpow_natCast, ← zpow_add₀ (by norm_num), hplace]
          congr 1; omega
      _ ≤ |q| := by exact_mod_cast Int.zpow_log_le_self (R := ℚ) (b := 2) (by norm_num) hpos

/-- A number from `2 ^ 53` on is rounded to one from there on. -/
theorem le_toDouble {q : ℚ} (hq : 2 ^ 53 ≤ q) :
    toDouble q = .infinity false ∨ ∃ r, toDouble q = .finite r ∧ 2 ^ 53 ≤ r := by
  have hpos : 0 < q := lt_of_lt_of_le (by norm_num) hq
  have habs : |q| = q := abs_of_pos hpos
  obtain ⟨hunit, hle⟩ := two_le_unit (by rwa [habs])
  rw [habs] at hle
  have hround : (2 ^ 52 : ℤ) ≤ roundHalfEven (q / 2 ^ lastPlace q) := by
    refine le_roundHalfEven ?_
    rw [le_div_iff₀ (by linarith)]
    exact_mod_cast hle
  have hround : (2 : ℚ) ^ 52 ≤ roundHalfEven (q / 2 ^ lastPlace q) := by exact_mod_cast hround
  simp only [toDouble]
  split
  · exact .inl (by simp [not_lt.mpr hpos.le])
  · refine .inr ⟨_, rfl, ?_⟩
    calc (2 : ℚ) ^ 53 = (2 : ℚ) ^ 52 * 2 := by norm_num
      _ ≤ (roundHalfEven (q / 2 ^ lastPlace q) : ℚ) * 2 ^ lastPlace q :=
        mul_le_mul hround hunit (by norm_num) (le_trans (by norm_num) hround)

/-- A number up to `-2 ^ 53` is rounded to one up to there. -/
theorem toDouble_le {q : ℚ} (hq : q ≤ -2 ^ 53) :
    toDouble q = .infinity true ∨ ∃ r, toDouble q = .finite r ∧ r ≤ -2 ^ 53 := by
  have hneg : q < 0 := lt_of_le_of_lt hq (by norm_num)
  have habs : |q| = -q := abs_of_neg hneg
  obtain ⟨hunit, hle⟩ := two_le_unit (by rw [habs]; linarith)
  rw [habs] at hle
  have hround : roundHalfEven (q / 2 ^ lastPlace q) ≤ -2 ^ 52 := by
    refine roundHalfEven_le ?_
    rw [div_le_iff₀ (by linarith)]
    push_cast
    linarith
  have hround : (2 : ℚ) ^ 52 ≤ -roundHalfEven (q / 2 ^ lastPlace q) := by
    have h : (roundHalfEven (q / 2 ^ lastPlace q) : ℚ) ≤ ((-2 ^ 52 : ℤ) : ℚ) := by
      exact_mod_cast hround
    push_cast at h
    linarith
  simp only [toDouble]
  split
  · exact .inl (by simp [hneg])
  · refine .inr ⟨_, rfl, ?_⟩
    have h : (2 : ℚ) ^ 52 * 2 ≤ -roundHalfEven (q / 2 ^ lastPlace q) * 2 ^ lastPlace q :=
      mul_le_mul hround hunit (by norm_num) (le_trans (by norm_num) hround)
    linarith

/-! ### Integers -/

theorem ofInt_lt (m n : ℤ) : (ofInt m).lt (ofInt n) = decide (m < n) := by
  simp [ofInt, Number.lt]

theorem Number.lt_trans {x y z : Number} (h₁ : x.lt y = true) (h₂ : y.lt z = true) :
    x.lt z = true := by
  cases x <;> cases y <;> cases z <;> simp_all [Number.lt]
  linarith

theorem toInt?_eq_some {x : Number} {n : ℤ} : x.toInt? = some n ↔ x = ofInt n := by
  cases x with
  | nan => simp [Number.toInt?, ofInt]
  | infinity s => simp [Number.toInt?, ofInt]
  | finite q =>
    simp only [Number.toInt?, ofInt, Number.finite.injEq]
    constructor
    · intro h
      split at h
      · rename_i hd
        cases h
        exact (Rat.coe_int_num_of_den_eq_one hd).symm
      · cases h
    · rintro rfl
      simp

/-- A sum of integers compares with a small integer as the exact sum does. -/
theorem add_lt_ofInt (m n : ℤ) {x : ℤ} (hx : |x| < MAX_EXACT) :
    ((ofInt m).add (ofInt n)).lt (ofInt x) = decide (m + n < x) := by
  have hsum : (ofInt m).add (ofInt n) = toDouble ((m + n : ℤ) : ℚ) := by
    simp [ofInt, Number.add]
  have hbound : MAX_EXACT = 2 ^ 53 := rfl
  obtain ⟨hx₁, hx₂⟩ := abs_lt.mp hx
  have hxq : (x : ℚ) < 2 ^ 53 := by exact_mod_cast hx₂
  have hxq' : (-2 ^ 53 : ℚ) < x := by exact_mod_cast hx₁
  rw [hsum]
  rcases le_total (2 ^ 53) (m + n) with hle | hle
  · have hno : ¬ m + n < x := by omega
    rcases le_toDouble (q := ((m + n : ℤ) : ℚ)) (by exact_mod_cast hle) with h | ⟨r, h, hr⟩
    · rw [h]; simp [Number.lt, ofInt, hno]
    · rw [h]; simpa [Number.lt, ofInt, hno] using le_trans hxq.le hr
  rcases le_total (m + n) (-2 ^ 53) with hle' | hle'
  · have hyes : m + n < x := by omega
    rcases toDouble_le (q := ((m + n : ℤ) : ℚ)) (by exact_mod_cast hle') with h | ⟨r, h, hr⟩
    · rw [h]; simp [Number.lt, ofInt, hyes]
    · rw [h]; simpa [Number.lt, ofInt, hyes] using lt_of_le_of_lt hr hxq'
  · rw [toDouble_intCast (abs_le.mpr ⟨by omega, by omega⟩), ofInt_lt]

/-! ### Digits -/

section Digits

variable {cs : List Char} (hcs : ∀ c ∈ cs, 48 ≤ c.toNat ∧ c.toNat ≤ 57)
include hcs

theorem ne_of_digits {c : Char} (hc : ¬ (48 ≤ c.toNat ∧ c.toNat ≤ 57)) : ∀ x ∈ cs, x ≠ c :=
  fun x hx heq => hc (heq ▸ hcs x hx)

/-- Digits are a decimal literal without a point and an exponent. -/
theorem decimalValue_digits (hne : cs ≠ []) {n : ℕ} (hn : digitsValue 10 cs 0 = some n) :
    decimalValue cs = some (n : ℚ) := by
  have hexponent : ∀ c ∈ cs, decide (¬ (c = 'e' ∨ c = 'E')) = true := fun c hc =>
    decide_eq_true (not_or.mpr ⟨ne_of_digits hcs (by decide) c hc, ne_of_digits hcs (by decide) c hc⟩)
  have hpoint : ∀ c ∈ cs, decide (c ≠ '.') = true := fun c hc =>
    decide_eq_true (ne_of_digits hcs (by decide) c hc)
  have hmantissa : cs.takeWhile (fun c => ¬ (c = 'e' ∨ c = 'E')) = cs :=
    List.takeWhile_eq_self_iff.mpr hexponent
  have hnoExponent : cs.dropWhile (fun c => ¬ (c = 'e' ∨ c = 'E')) = [] :=
    List.dropWhile_eq_nil_iff.mpr hexponent
  have hwhole : cs.takeWhile (· ≠ '.') = cs := List.takeWhile_eq_self_iff.mpr hpoint
  have hnoFraction : cs.dropWhile (· ≠ '.') = [] := List.dropWhile_eq_nil_iff.mpr hpoint
  rw [decimalValue]
  dsimp only
  rw [hmantissa, hnoExponent, hwhole, hnoFraction, if_neg fun h => hne h.1, hn]
  simp [digitsValue, exponentValue]

/-- Digits are converted to the double nearest to their value. -/
theorem literalNumber_digits (hne : cs ≠ []) {n : ℕ} (hn : digitsValue 10 cs 0 = some n) :
    literalNumber cs = toDouble n := by
  have hunsigned : unsignedNumber false cs = toDouble n := by
    have hinfinity : cs ≠ "Infinity".toList := fun h =>
      ne_of_digits hcs (c := 'I') (by decide) 'I' (by rw [h]; decide) rfl
    rw [unsignedNumber, if_neg hinfinity, decimalValue_digits hcs hne hn]
    rfl
  have hfirst : ∀ c, ¬ (48 ≤ c.toNat ∧ c.toNat ≤ 57) → c ∉ cs := fun c hc hmem => hc (hcs c hmem)
  unfold literalNumber
  split
  · exact absurd rfl hne
  · exact absurd (.tail _ (.head _)) (hfirst 'x' (by decide))
  · exact absurd (.tail _ (.head _)) (hfirst 'X' (by decide))
  · exact absurd (.tail _ (.head _)) (hfirst 'o' (by decide))
  · exact absurd (.tail _ (.head _)) (hfirst 'O' (by decide))
  · exact absurd (.tail _ (.head _)) (hfirst 'b' (by decide))
  · exact absurd (.tail _ (.head _)) (hfirst 'B' (by decide))
  · exact absurd (.head _) (hfirst '+' (by decide))
  · exact absurd (.head _) (hfirst '-' (by decide))
  · exact hunsigned

end Digits

/-! ### Overflow -/

/-- From halfway below an even integer on, rounding reaches it. -/
theorem le_roundHalfEven_of_half {q : ℚ} {n : ℤ} (heven : n % 2 = 0) (h : n - 1 / 2 ≤ q) :
    n ≤ roundHalfEven q := by
  have hfloor : n - 1 ≤ ⌊q⌋ := Int.le_floor.mpr (by push_cast; linarith)
  rcases eq_or_lt_of_le hfloor with heq | hlt
  · have hcast : (⌊q⌋ : ℚ) = n - 1 := by rw [← heq]; push_cast; rfl
    simp only [roundHalfEven]
    split
    · linarith
    · split
      · omega
      · split <;> omega
  · exact le_roundHalfEven (le_trans (by exact_mod_cast (by omega : n ≤ ⌊q⌋)) (Int.floor_le q))

/-- Up to halfway below an integer, rounding stays below it. -/
theorem roundHalfEven_lt_of_half {q : ℚ} {n : ℤ} (h : q < n - 1 / 2) : roundHalfEven q < n := by
  have hfloor : ⌊q⌋ < n := Int.floor_lt.mpr (by linarith)
  rcases eq_or_lt_of_le (Int.le_sub_one_of_lt hfloor) with heq | hlt
  · have hcast : (⌊q⌋ : ℚ) = n - 1 := by rw [heq]; push_cast; rfl
    simp only [roundHalfEven]
    split
    · omega
    · linarith
  · simp only [roundHalfEven]
    split
    · omega
    · split
      · omega
      · split <;> omega

/-- The least number that is rounded to infinity. -/
def OVERFLOW : ℚ := 2 ^ 1024 - 2 ^ 970

/-- The exponent and the last place of a large number. -/
theorem lastPlace_large {q : ℚ} (hq : 2 ^ 53 ≤ q) :
    ∃ e : ℕ, 53 ≤ e ∧ 2 ^ e ≤ q ∧ q < 2 ^ (e + 1) ∧ lastPlace q = (e : ℤ) - 52 := by
  have hpos : 0 < q := lt_of_lt_of_le (by norm_num) hq
  have habs : |q| = q := abs_of_pos hpos
  have hlog : 53 ≤ Int.log 2 q :=
    (Int.zpow_le_iff_le_log (R := ℚ) (b := 2) (by norm_num) hpos).mp (by exact_mod_cast hq)
  obtain ⟨e, he⟩ : ∃ e : ℕ, Int.log 2 q = e := ⟨(Int.log 2 q).toNat, by omega⟩
  have hle : ((2 : ℕ) : ℚ) ^ Int.log 2 q ≤ q := Int.zpow_log_le_self (by norm_num) hpos
  have hlt : q < ((2 : ℕ) : ℚ) ^ (Int.log 2 q + 1) := Int.lt_zpow_succ_log_self (by norm_num) q
  rw [he] at hle hlt hlog
  refine ⟨e, by omega, by exact_mod_cast hle, by exact_mod_cast hlt, ?_⟩
  simp only [lastPlace, habs, he]
  omega

/-- The last place of a large number is a power. -/
theorem lastPlace_pow {q : ℚ} {e : ℕ} (he : 53 ≤ e) (h : lastPlace q = (e : ℤ) - 52) :
    (2 : ℚ) ^ lastPlace q = 2 ^ (e - 52) := by
  rw [h, show (e : ℤ) - 52 = ((e - 52 : ℕ) : ℤ) by omega, zpow_natCast]

/-- Powers around the greatest double, in units of half its last place. -/
theorem pow_units : (2 : ℚ) ^ 971 = 2 * 2 ^ 970 ∧ (2 : ℚ) ^ 1023 = 2 ^ 53 * 2 ^ 970 ∧
    (2 : ℚ) ^ 1024 = 2 ^ 54 * 2 ^ 970 :=
  ⟨pow_succ' 2 970, pow_add 2 53 970, pow_add 2 54 970⟩

theorem overflow_bounds : (2 : ℚ) ^ 1023 ≤ OVERFLOW ∧ OVERFLOW ≤ 2 ^ 1024 := by
  obtain ⟨-, h1023, h1024⟩ := pow_units
  have hpos : (0 : ℚ) < 2 ^ 970 := by positivity
  rw [OVERFLOW, h1023, h1024]
  generalize (2 : ℚ) ^ 970 = w at hpos
  constructor <;> linarith

theorem cast_two_pow (k : ℕ) : (((2 : ℤ) ^ k : ℤ) : ℚ) = 2 ^ k := by
  rw [Int.cast_pow, Int.cast_ofNat]

theorem pow_split {e : ℕ} (k : ℕ) (he : 52 ≤ e) : (2 : ℚ) ^ (52 + k) * 2 ^ (e - 52) = 2 ^ (e + k) := by
  rw [← pow_add, show 52 + k + (e - 52) = e + k by omega]

/-- A number from there on is converted to infinity. -/
theorem toDouble_overflow {q : ℚ} (hq : OVERFLOW ≤ q) : toDouble q = .infinity false := by
  have hlarge : (2 : ℚ) ^ 53 ≤ q := le_trans (le_trans (pow_le_pow_right₀ (by norm_num) (by norm_num))
    overflow_bounds.1) hq
  have hpos : 0 < q := lt_of_lt_of_le (by norm_num) hlarge
  obtain ⟨e, he, hle, hlt, hplace⟩ := lastPlace_large hlarge
  have hunit := lastPlace_pow he hplace
  have hunitPos : (0 : ℚ) < 2 ^ (e - 52) := by positivity
  obtain ⟨h971, h1023, h1024⟩ := pow_units
  have hresult : (2 : ℚ) ^ 1024 ≤ roundHalfEven (q / 2 ^ (e - 52)) * 2 ^ (e - 52) := by
    rcases Nat.lt_or_ge e 1024 with hsmall | hbig
    · obtain rfl : e = 1023 := by
        by_contra hne
        have hpow : (2 : ℚ) ^ (e + 1) ≤ 2 ^ 1023 := pow_le_pow_right₀ (by norm_num) (by omega)
        exact absurd (lt_of_lt_of_le hlt hpow) (not_lt.mpr (le_trans overflow_bounds.1 hq))
      rw [show 1023 - 52 = 971 from rfl] at hunitPos ⊢
      have hhalf : (((2 : ℤ) ^ 53 : ℤ) : ℚ) - 1 / 2 ≤ q / 2 ^ 971 := by
        rw [le_div_iff₀ hunitPos, cast_two_pow, h971]
        rw [OVERFLOW, h1024] at hq
        generalize (2 : ℚ) ^ 970 = w at hq
        linarith
      have hround := (Int.cast_le (R := ℚ)).mpr (le_roundHalfEven_of_half (by norm_num) hhalf)
      rw [cast_two_pow] at hround
      calc (2 : ℚ) ^ 1024 = 2 ^ 53 * 2 ^ 971 := by rw [h1024, h971]; ring
        _ ≤ _ := mul_le_mul_of_nonneg_right hround hunitPos.le
    · have hfloor : (((2 : ℤ) ^ 52 : ℤ) : ℚ) ≤ q / 2 ^ (e - 52) := by
        rw [le_div_iff₀ hunitPos, cast_two_pow]
        exact le_of_eq_of_le (pow_split 0 (by omega)) hle
      have hround := (Int.cast_le (R := ℚ)).mpr (le_roundHalfEven hfloor)
      rw [cast_two_pow] at hround
      calc (2 : ℚ) ^ 1024 ≤ 2 ^ e := pow_le_pow_right₀ (by norm_num) hbig
        _ = 2 ^ 52 * 2 ^ (e - 52) := (pow_split 0 (by omega)).symm
        _ ≤ _ := mul_le_mul_of_nonneg_right hround hunitPos.le
  simp only [toDouble, hunit]
  rw [if_pos (le_trans hresult (le_abs_self _)), decide_eq_false (not_lt.mpr hpos.le)]

/-- A large number before it is rounded to an integer that is a double. -/
theorem round_lt_overflow {q : ℚ} {e : ℕ} (he : 53 ≤ e) (hle : 2 ^ e ≤ q) (hsucc : q < 2 ^ (e + 1))
    (hlt : q < OVERFLOW) : (roundHalfEven (q / 2 ^ (e - 52)) : ℚ) * 2 ^ (e - 52) < 2 ^ 1024 := by
  have hunitPos : (0 : ℚ) < 2 ^ (e - 52) := by positivity
  obtain ⟨h971, h1023, h1024⟩ := pow_units
  rcases Nat.lt_or_ge e 1023 with hsmall | hbig
  · have hceil : q / 2 ^ (e - 52) ≤ (((2 : ℤ) ^ 53 : ℤ) : ℚ) := by
      rw [div_le_iff₀ hunitPos, cast_two_pow]
      exact le_of_le_of_eq hsucc.le (pow_split 1 (by omega)).symm
    have hround := (Int.cast_le (R := ℚ)).mpr (roundHalfEven_le hceil)
    rw [cast_two_pow] at hround
    calc (roundHalfEven (q / 2 ^ (e - 52)) : ℚ) * 2 ^ (e - 52)
        ≤ 2 ^ 53 * 2 ^ (e - 52) := mul_le_mul_of_nonneg_right hround hunitPos.le
      _ = 2 ^ (e + 1) := pow_split 1 (by omega)
      _ < 2 ^ 1024 := pow_lt_pow_right₀ (by norm_num) (by omega)
  · obtain rfl : e = 1023 := by
      by_contra hne
      have hpow : (2 : ℚ) ^ 1024 ≤ 2 ^ e := pow_le_pow_right₀ (by norm_num) (by omega)
      exact absurd (lt_of_le_of_lt (le_trans hpow hle) hlt) (not_lt.mpr overflow_bounds.2)
    rw [show 1023 - 52 = 971 from rfl] at hunitPos ⊢
    have hhalf : q / 2 ^ 971 < (((2 : ℤ) ^ 53 : ℤ) : ℚ) - 1 / 2 := by
      rw [div_lt_iff₀ hunitPos, cast_two_pow, h971]
      rw [OVERFLOW, h1024] at hlt
      generalize (2 : ℚ) ^ 970 = w at hlt
      linarith
    have hround := (Int.cast_lt (R := ℚ)).mpr (roundHalfEven_lt_of_half hhalf)
    rw [cast_two_pow] at hround
    calc (roundHalfEven (q / 2 ^ 971) : ℚ) * 2 ^ 971
        < 2 ^ 53 * 2 ^ 971 := mul_lt_mul_of_pos_right hround hunitPos
      _ = 2 ^ 1024 := by rw [h1024, h971]; ring

/-- A large number before it is converted to an integer. -/
theorem toDouble_large {q : ℚ} (hq : 2 ^ 53 ≤ q) (hlt : q < OVERFLOW) :
    ∃ n : ℤ, toDouble q = ofInt n ∧ 2 ^ 53 ≤ n := by
  obtain ⟨e, he, hle, hsucc, hplace⟩ := lastPlace_large hq
  have hunit := lastPlace_pow he hplace
  have hunitPos : (0 : ℚ) < 2 ^ (e - 52) := by positivity
  have hpos : 0 < q := lt_of_lt_of_le (by norm_num) hq
  have hnonneg : 0 ≤ roundHalfEven (q / 2 ^ (e - 52)) := by
    refine le_roundHalfEven ?_
    rw [Int.cast_zero]
    positivity
  have habs : |(roundHalfEven (q / 2 ^ (e - 52)) : ℚ) * 2 ^ (e - 52)| < 2 ^ 1024 := by
    rw [abs_of_nonneg (mul_nonneg (Int.cast_nonneg hnonneg) hunitPos.le)]
    exact round_lt_overflow he hle hsucc hlt
  have hvalue : toDouble q = ofInt (roundHalfEven (q / 2 ^ (e - 52)) * 2 ^ (e - 52)) := by
    simp only [toDouble, hunit, ofInt]
    rw [if_neg (not_le.mpr habs), Int.cast_mul, cast_two_pow]
  refine ⟨_, hvalue, ?_⟩
  rcases le_toDouble hq with hinf | ⟨r, hr, hle⟩
  · rw [hvalue] at hinf
    cases hinf
  · rw [hvalue] at hr
    cases hr
    exact_mod_cast hle

end JsNumber
