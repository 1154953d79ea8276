import ZedBot.JsNumber
import ZedBot.JsonText
import Mathlib.Data.Nat.Digits.Lemmas

/-! How JavaScript writes a number: with the fewest decimal digits that are read back as the same
    double, placed by their exponent.

        s × 10ᵉ, s of k digits, p = k + e      p ≤ 21: plain      -6 < p ≤ 0: 0.00s      else: s e±n

    A finite number is written as JSON writes numbers. -/

namespace JsNumber

open Json (isDigit isDigits isExponent isFraction isNumber dropSign)

/-- The decimal digits of a number; none for 0. -/
def decimal (n : ℕ) : List Char := (Nat.digits 10 n).reverse.map Nat.digitChar

/-- The exponent of the last of `k` significant digits. -/
def exponentOf (q : ℚ) (k : ℕ) : ℤ := Int.log 10 q + 1 - k

/-- The numbers of `k` digits next to `q`, the nearer first. -/
def nearest (q : ℚ) (k : ℕ) : List ℤ :=
  let x := q / 10 ^ exponentOf q k
  if x - ⌊x⌋ ≤ 1 / 2 then [⌊x⌋, ⌊x⌋ + 1] else [⌊x⌋ + 1, ⌊x⌋]

/-- Digits that are read back as the number, if `k` are enough for that. -/
def withDigits (q : ℚ) (k : ℕ) : Option (ℕ × ℤ) :=
  ((nearest q k).find? fun s : ℤ => toDouble (s * 10 ^ exponentOf q k) = .finite q).map fun s : ℤ =>
    -- rounded up to one digit more
    if s = 10 ^ k then (10 ^ (k - 1), exponentOf q k + 1) else (s.toNat, exponentOf q k)

/-- The fewest digits of a positive number; 17 are always enough. -/
def shortest (q : ℚ) : ℕ × ℤ :=
  ((List.range 17).findSome? fun i => withDigits q (i + 1)).getD
    (⌊q / 10 ^ exponentOf q 17⌋.toNat, exponentOf q 17)

/-- Digits with the point after the first `p` of them. -/
def place (digits : List Char) (p : ℤ) : List Char :=
  if digits.length ≤ p ∧ p ≤ 21 then digits ++ List.replicate (p.toNat - digits.length) '0'
  else if 0 < p ∧ p ≤ 21 then digits.take p.toNat ++ '.' :: digits.drop p.toNat
  else if -6 < p ∧ p ≤ 0 then '0' :: '.' :: (List.replicate (-p).toNat '0' ++ digits)
  else
    digits.take 1 ++ (if digits.drop 1 = [] then [] else '.' :: digits.drop 1) ++
      'e' :: (if 0 < p then '+' else '-') :: decimal (p - 1).natAbs

def positiveText (q : ℚ) : List Char :=
  let digits := decimal (shortest q).1
  place digits (digits.length + (shortest q).2)

/-- `String(x)`. -/
def Number.text : Number → String
  | .nan => "NaN"
  | .infinity negative => if negative then "-Infinity" else "Infinity"
  | .finite q =>
    if q = 0 then "0"
    else if q < 0 then String.ofList ('-' :: positiveText (-q))
    else String.ofList (positiveText q)

/-! ### Digits -/

theorem digitChar_isDigit : ∀ d < 10, isDigit (Nat.digitChar d) = true := by decide

theorem digitChar_ne_zero : ∀ d < 10, d ≠ 0 → Nat.digitChar d ≠ '0' := by decide

theorem decimal_digits (n : ℕ) : ∀ c ∈ decimal n, isDigit c = true := by
  intro c hc
  obtain ⟨d, hd, rfl⟩ := List.mem_map.mp hc
  exact digitChar_isDigit d (Nat.digits_lt_base (by decide) (List.mem_reverse.mp hd))

theorem decimal_ne_nil {n : ℕ} (hn : 0 < n) : decimal n ≠ [] := by
  rw [decimal, ne_eq, List.map_eq_nil_iff, List.reverse_eq_nil_iff, Nat.digits_eq_nil_iff_eq_zero]
  omega

theorem decimal_head {n : ℕ} : (decimal n).head? ≠ some '0' := by
  intro h
  rw [decimal, List.head?_map, List.head?_reverse, Option.map_eq_some_iff] at h
  obtain ⟨d, hlast, hzero⟩ := h
  have hne : Nat.digits 10 n ≠ [] := by
    intro hnil
    rw [hnil] at hlast
    cases hlast
  rw [List.getLast?_eq_some_getLast hne] at hlast
  have hd := Option.some.inj hlast
  have hn : n ≠ 0 := Nat.digits_ne_nil_iff_ne_zero.mp hne
  have hpos : d ≠ 0 := hd ▸ Nat.getLast_digit_ne_zero 10 hn
  have hlt : d < 10 := Nat.digits_lt_base (by decide) (hd ▸ List.getLast_mem hne)
  exact digitChar_ne_zero d hlt hpos hzero

/-! ### The grammar -/

variable {whole rest digits : List Char} {p : ℤ} {q : ℚ}

theorem isDigits_of (h : ∀ c ∈ digits, isDigit c = true) (hne : digits ≠ []) :
    isDigits digits = true :=
  decide_eq_true ⟨hne, List.all_eq_true.mpr h⟩

theorem minus_not_digit {c : Char} (h : isDigit c = true) : c ∉ ['-'] := by
  rw [List.mem_singleton]
  rintro rfl
  cases h

/-- A number from its whole part and what follows it. -/
theorem isNumber_append (hwhole : ∀ c ∈ whole, isDigit c = true) (hne : whole ≠ [])
    (hzero : whole = ['0'] ∨ whole.head? ≠ some '0') (hrest : ∀ c ∈ rest.head?, isDigit c = false)
    (hfraction : isFraction rest = true) :
    isNumber (whole ++ rest) = true ∧ isNumber ('-' :: (whole ++ rest)) = true := by
  have htake : (whole ++ rest).takeWhile isDigit = whole := by
    rw [List.takeWhile_append_of_pos hwhole]
    cases rest with
    | nil => rw [List.takeWhile_nil, List.append_nil]
    | cons c rest =>
      rw [List.takeWhile_cons_of_neg (by rw [hrest c rfl]; exact Bool.false_ne_true),
        List.append_nil]
  have hdrop : (whole ++ rest).dropWhile isDigit = rest := by
    rw [List.dropWhile_append_of_pos hwhole]
    cases rest with
    | nil => rfl
    | cons c rest =>
      rw [List.dropWhile_cons_of_neg (by rw [hrest c rfl]; exact Bool.false_ne_true)]
  have hsign : dropSign ['-'] (whole ++ rest) = whole ++ rest := by
    obtain ⟨c, whole', rfl⟩ := List.exists_cons_of_ne_nil hne
    exact if_neg (minus_not_digit (hwhole c List.mem_cons_self))
  have hminus : dropSign ['-'] ('-' :: (whole ++ rest)) = whole ++ rest := by
    rw [dropSign]
    exact if_pos (List.mem_singleton.mpr rfl)
  have hhead : (decide (whole = ['0']) || decide (whole.head? ≠ some '0')) = true := by
    rw [Bool.or_eq_true, decide_eq_true_eq, decide_eq_true_eq]
    exact hzero
  rw [isNumber, isNumber, hsign, hminus, htake, hdrop, isDigits_of hwhole hne, hhead, hfraction]
  exact ⟨rfl, rfl⟩

theorem fraction_digits (hdigits : ∀ c ∈ digits, isDigit c = true) (hne : digits ≠ []) :
    isFraction ('.' :: digits) = true := by
  rw [isFraction, List.takeWhile_eq_self_iff.mpr hdigits, List.dropWhile_eq_nil_iff.mpr hdigits,
    isDigits_of hdigits hne]
  rfl

theorem exponent_digits {sign : Char} (hsign : sign = '+' ∨ sign = '-')
    (hdigits : ∀ c ∈ digits, isDigit c = true) (hne : digits ≠ []) :
    isExponent ('e' :: sign :: digits) = true := by
  have hdrop : dropSign ['+', '-'] (sign :: digits) = digits := by
    rcases hsign with rfl | rfl <;> rfl
  rw [isExponent, hdrop, isDigits_of hdigits hne]
  rfl

theorem isFraction_exponent {sign : Char} {digits' : List Char} (hsign : sign = '+' ∨ sign = '-')
    (hdigits : ∀ c ∈ digits, isDigit c = true)
    (hdigits' : ∀ c ∈ digits', isDigit c = true) (hne : digits' ≠ []) :
    isFraction ((if digits = [] then [] else '.' :: digits) ++ 'e' :: sign :: digits') = true := by
  have hexponent := exponent_digits hsign hdigits' hne
  split_ifs with hnil
  · exact hexponent
  · have htake : (digits ++ 'e' :: sign :: digits').takeWhile isDigit = digits := by
      rw [List.takeWhile_append_of_pos hdigits, List.takeWhile_cons_of_neg (by decide),
        List.append_nil]
    have hdrop : (digits ++ 'e' :: sign :: digits').dropWhile isDigit = 'e' :: sign :: digits' := by
      rw [List.dropWhile_append_of_pos hdigits, List.dropWhile_cons_of_neg (by decide)]
    rw [List.cons_append, isFraction, htake, hdrop, isDigits_of hdigits hnil, hexponent]
    rfl

/-- Digits that are placed are a number. -/
theorem isNumber_place (hdigits : ∀ c ∈ digits, isDigit c = true) (hne : digits ≠ [])
    (hhead : digits.head? ≠ some '0') :
    isNumber (place digits p) = true ∧ isNumber ('-' :: place digits p) = true := by
  have hzeros : ∀ n, ∀ c ∈ List.replicate n '0', isDigit c = true := by
    intro n c hc
    rw [List.eq_of_mem_replicate hc]
    decide
  obtain ⟨d, digits', rfl⟩ := List.exists_cons_of_ne_nil hne
  rw [place]
  by_cases hwhole : (d :: digits').length ≤ p ∧ p ≤ 21
  · have hall : ∀ c ∈ d :: digits' ++ List.replicate (p.toNat - (d :: digits').length) '0',
        isDigit c = true := fun c hc =>
      (List.mem_append.mp hc).elim (hdigits c) (hzeros _ c)
    rw [if_pos hwhole, ← List.append_nil (d :: digits' ++ _)]
    exact isNumber_append hall (List.append_ne_nil_of_left_ne_nil hne _) (.inr hhead) (by simp) rfl
  rw [if_neg hwhole]
  by_cases hpoint : 0 < p ∧ p ≤ 21
  · have hlength : p.toNat < (d :: digits').length := by omega
    rw [if_pos hpoint]
    refine isNumber_append (fun c hc => hdigits c (List.mem_of_mem_take hc)) ?_ (.inr ?_)
      (by simp [isDigit]) (fraction_digits (fun c hc => hdigits c (List.mem_of_mem_drop hc)) ?_)
    · rw [ne_eq, List.take_eq_nil_iff]
      rintro (hp | hnil)
      · omega
      · exact hne hnil
    · rwa [List.head?_take, if_neg (by omega)]
    · rw [ne_eq, List.drop_eq_nil_iff]
      omega
  rw [if_neg hpoint]
  by_cases hsmall : -6 < p ∧ p ≤ 0
  · rw [if_pos hsmall]
    change isNumber (['0'] ++ _) = true ∧ isNumber ('-' :: (['0'] ++ _)) = true
    refine isNumber_append (List.all_eq_true.mp rfl) (by decide) (.inl rfl) (by simp [isDigit])
      (fraction_digits (fun c hc => ?_) ?_)
    · exact (List.mem_append.mp hc).elim (hzeros _ c) (hdigits c)
    · exact List.append_ne_nil_of_right_ne_nil _ hne
  rw [if_neg hsmall]
  have hpower : decimal (p - 1).natAbs ≠ [] := decimal_ne_nil (by omega)
  have hexponent : isFraction ((if digits' = [] then [] else '.' :: digits') ++
      'e' :: (if 0 < p then '+' else '-') :: decimal (p - 1).natAbs) = true :=
    isFraction_exponent (by split_ifs <;> simp)
      (fun c hc => hdigits c (List.mem_cons_of_mem d hc)) (decimal_digits _) hpower
  change isNumber ([d] ++ _) = true ∧ isNumber ('-' :: ([d] ++ _)) = true
  refine isNumber_append ?_ (List.cons_ne_nil d []) (.inr hhead) ?_ hexponent
  · intro c hc
    exact hdigits c (List.mem_cons.mpr (.inl (List.mem_singleton.mp hc)))
  · intro c hc
    split_ifs at hc <;> cases hc <;> decide

/-! ### The significant digits -/

theorem floor_pos {k : ℕ} (hq : 0 < q) (hk : 0 < k) : 0 < ⌊q / 10 ^ exponentOf q k⌋ := by
  have hpower : (10 : ℚ) ^ exponentOf q k ≤ q :=
    calc (10 : ℚ) ^ exponentOf q k
        ≤ 10 ^ Int.log 10 q := zpow_le_zpow_right₀ (by norm_num) (by rw [exponentOf]; omega)
      _ ≤ q := by exact_mod_cast Int.zpow_log_le_self (b := 10) (by norm_num) hq
  rw [Int.floor_pos, one_le_div₀ (zpow_pos (by norm_num) _)]
  exact hpower

theorem withDigits_pos {k : ℕ} {s : ℕ × ℤ} (hq : 0 < q) (hk : 0 < k) (h : withDigits q k = some s) :
    0 < s.1 := by
  obtain ⟨t, hfind, rfl⟩ := Option.map_eq_some_iff.mp h
  have hmem := List.mem_of_find?_eq_some hfind
  have ht : 0 < t := by
    have hfloor := floor_pos hq hk
    rw [nearest] at hmem
    split_ifs at hmem <;> simp only [List.mem_cons, List.not_mem_nil, or_false] at hmem <;> omega
  split_ifs
  · exact Nat.pow_pos (by decide)
  · exact Int.lt_toNat.mpr ht

theorem shortest_pos (hq : 0 < q) : 0 < (shortest q).1 := by
  rw [shortest]
  cases hfound : (List.range 17).findSome? fun i => withDigits q (i + 1) with
  | none => exact Int.lt_toNat.mpr (floor_pos hq (by decide))
  | some s =>
    obtain ⟨i, -, hi⟩ := List.exists_of_findSome?_eq_some hfound
    exact withDigits_pos hq (Nat.succ_pos i) hi

theorem isNumber_positiveText (hq : 0 < q) :
    isNumber (positiveText q) = true ∧ isNumber ('-' :: positiveText q) = true :=
  isNumber_place (decimal_digits _) (decimal_ne_nil (shortest_pos hq)) decimal_head

/-- A finite number is written as JSON writes numbers. -/
theorem isNumber_text (q : ℚ) : isNumber (Number.finite q).text.toList = true := by
  rw [Number.text]
  split_ifs with hzero hneg
  · decide
  · rw [String.toList_ofList]
    exact (isNumber_positiveText (by linarith)).2
  · rw [String.toList_ofList]
    exact (isNumber_positiveText (lt_of_le_of_ne (not_lt.mp hneg) (Ne.symm hzero))).1

end JsNumber
