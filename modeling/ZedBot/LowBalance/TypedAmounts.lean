import ZedBot.JsText
import ZedBot.LowBalance.Settings
import ZedBot.TextLines

/-! Amounts in Toman that an operator types: digits of three systems, with separators anywhere and
    white space around. -/

namespace ZedBot.LowBalance

open JsNumber JsText TextLines

inductive LowBalanceAmountError where
  | NOT_A_NUMBER
  | NOT_AN_INTEGER
  | NEGATIVE
  | TOO_LARGE
  deriving DecidableEq, Repr

inductive ParsedAmount where
  | ok (value : ℤ)
  | error (error : LowBalanceAmountError)
  deriving DecidableEq, Repr

/-- A digit in ASCII. -/
def asciiDigit (d : ℕ) : UInt16 := UInt16.ofNat (0x30 + d)

/-- Persian and Arabic-Indic digits, mapped to ASCII. -/
def DIGIT_MAP (u : UInt16) : Option UInt16 :=
  if 0x6F0 ≤ u ∧ u ≤ 0x6F9 then some (asciiDigit (u.toNat - 0x6F0))
  else if 0x660 ≤ u ∧ u ≤ 0x669 then some (asciiDigit (u.toNat - 0x660))
  else none

/-- `,`, a space, a no-break space, the Arabic separators for thousands and of lists, `_`. -/
def isAmountSeparator (u : UInt16) : Bool := u ∈ [0x2C, 0x20, 0xA0, 0x66C, 0x60C, 0x5F]

/-- The loop over the characters. A surrogate pair goes through it as its two units do. -/
def normalizeDigits (t : JsText) : JsText :=
  t.flatMap fun u => if isAmountSeparator u then [] else [(DIGIT_MAP u).getD u]

def isSign (u : UInt16) : Bool := u = unit '-' ∨ u = unit '+'

/-- What follows an optional sign. -/
def unsigned : JsText → JsText
  | [] => []
  | u :: t => if isSign u then t else u :: t

/-- An optional sign, digits, a decimal point and more digits. -/
def isDecimalText (t : JsText) : Bool :=
  let body := unsigned t
  match body.dropWhile isDigit with
  | [] => false
  | point :: fraction =>
    body.takeWhile isDigit ≠ [] ∧ (point = unit '.' ∨ point = 0x66B) ∧ fraction ≠ [] ∧
      fraction.all isDigit

/-- An optional sign and digits. -/
def isIntegerText (t : JsText) : Bool := unsigned t ≠ [] ∧ (unsigned t).all isDigit

/-- The characters of a text without surrogates. -/
def charsOf (t : JsText) : List Char := t.map fun u => Char.ofNat u.toNat

def parseTomanAmount (raw : JsText) : ParsedAmount :=
  let normalized := normalizeDigits (trim isSpace raw)
  if normalized = [] then .error .NOT_A_NUMBER
  else if isDecimalText normalized then .error .NOT_AN_INTEGER
  else if !isIntegerText normalized then .error .NOT_A_NUMBER
  else
    match (literalNumber (charsOf normalized)).toInt? with
    -- infinite, or no integer
    | none => .error .NOT_A_NUMBER
    | some value =>
      if value < 0 then .error .NEGATIVE
      else if INT32_MAX < value then .error .TOO_LARGE
      else .ok value

/-! ### Written numbers -/

/-- A digit of one of the three systems. -/
def IsDigitOf (d : ℕ) (u : UInt16) : Prop :=
  d < 10 ∧ (u.toNat = 0x30 + d ∨ u.toNat = 0x6F0 + d ∨ u.toNat = 0x660 + d)

/-- A way to write digits: each in one of the systems, with separators anywhere. -/
inductive Written : List ℕ → JsText → Prop
  | nil : Written [] []
  | separator (u : UInt16) (ds : List ℕ) (t : JsText) (hu : isAmountSeparator u = true)
      (h : Written ds t) : Written ds (u :: t)
  | digit (d : ℕ) (u : UInt16) (ds : List ℕ) (t : JsText) (hu : IsDigitOf d u) (h : Written ds t) :
      Written (d :: ds) (u :: t)

/-- The number that digits denote, the first one the most significant. -/
def numberOf (ds : List ℕ) : ℕ := ds.foldl (fun n d => 10 * n + d) 0

variable {ds : List ℕ} {t raw : JsText} {u : UInt16} {d : ℕ}

theorem asciiDigit_toNat (hd : d < 10) : (asciiDigit d).toNat = 0x30 + d := by
  rw [asciiDigit, UInt16.toNat_ofNat']
  omega

/-- The units of digits are those of three ranges. -/
theorem isDigitOf_ranges (hu : IsDigitOf d u) : d < 10 ∧ ((0x30 ≤ u.toNat ∧ u.toNat ≤ 0x39) ∨
    (0x660 ≤ u.toNat ∧ u.toNat ≤ 0x669) ∨ (0x6F0 ≤ u.toNat ∧ u.toNat ≤ 0x6F9)) := by
  obtain ⟨hd, hu⟩ := hu
  omega

theorem isSpace_of_digit (hu : IsDigitOf d u) : isSpace u = false := by
  obtain ⟨hd, hrange⟩ := isDigitOf_ranges hu
  rw [isSpace, decide_eq_false_iff_not]
  simp only [List.mem_cons, List.not_mem_nil, or_false, UInt16.le_iff_toNat_le, ← UInt16.toNat_inj,
    UInt16.reduceToNat]
  omega

theorem separator_of_digit (hu : IsDigitOf d u) : isAmountSeparator u = false := by
  obtain ⟨hd, hrange⟩ := isDigitOf_ranges hu
  rw [isAmountSeparator, decide_eq_false_iff_not]
  simp only [List.mem_cons, List.not_mem_nil, or_false, ← UInt16.toNat_inj, UInt16.reduceToNat]
  omega

/-- The map gives the ASCII digit. -/
theorem digitMap_of_digit (hu : IsDigitOf d u) : (DIGIT_MAP u).getD u = asciiDigit d := by
  obtain ⟨hd, hu⟩ := hu
  simp only [DIGIT_MAP, UInt16.le_iff_toNat_le, UInt16.reduceToNat]
  rcases hu with hu | hu | hu
  · rw [if_neg (by omega), if_neg (by omega), Option.getD_none, ← UInt16.toNat_inj,
      asciiDigit_toNat hd, hu]
  · rw [if_pos (by omega), Option.getD_some, hu, Nat.add_sub_cancel_left]
  · rw [if_neg (by omega), if_pos (by omega), Option.getD_some, hu, Nat.add_sub_cancel_left]

/-- A unit that becomes an ASCII digit was a digit. -/
theorem digit_of_digitMap (h : isDigit ((DIGIT_MAP u).getD u) = true) : ∃ d, IsDigitOf d u := by
  simp only [DIGIT_MAP, UInt16.le_iff_toNat_le, UInt16.reduceToNat] at h
  by_cases hpersian : 0x6F0 ≤ u.toNat ∧ u.toNat ≤ 0x6F9
  · exact ⟨u.toNat - 0x6F0, by omega, by omega⟩
  · by_cases harabic : 0x660 ≤ u.toNat ∧ u.toNat ≤ 0x669
    · exact ⟨u.toNat - 0x660, by omega, by omega⟩
    · rw [if_neg hpersian, if_neg harabic, Option.getD_none, isDigit, decide_eq_true_eq] at h
      have hascii : 0x30 ≤ u.toNat ∧ u.toNat ≤ 0x39 := h
      exact ⟨u.toNat - 0x30, by omega, by omega⟩

theorem isDigit_asciiDigit (hd : d < 10) : isDigit (asciiDigit d) = true := by
  have hascii := asciiDigit_toNat hd
  have hrange : 0x30 ≤ (asciiDigit d).toNat ∧ (asciiDigit d).toNat ≤ 0x39 := by omega
  exact decide_eq_true hrange

theorem isSign_asciiDigit (hd : d < 10) : isSign (asciiDigit d) = false := by
  have hascii := asciiDigit_toNat hd
  rw [isSign, decide_eq_false_iff_not, ← UInt16.toNat_inj, ← UInt16.toNat_inj, hascii]
  have hminus : (unit '-').toNat = 0x2D := rfl
  have hplus : (unit '+').toNat = 0x2B := rfl
  omega

/-! ### Reading what is written -/

/-- The digits that are written. -/
theorem Written.normalizeDigits (h : Written ds t) : normalizeDigits t = ds.map asciiDigit := by
  induction h with
  | nil => rfl
  | separator u ds t hu _ ih =>
    rw [LowBalance.normalizeDigits, List.flatMap_cons, if_pos hu]
    exact ih
  | digit d u ds t hu _ ih =>
    rw [LowBalance.normalizeDigits, List.flatMap_cons, separator_of_digit hu, digitMap_of_digit hu,
      if_neg Bool.false_ne_true, List.map_cons, ← ih]
    rfl

theorem Written.lt (h : Written ds t) : ∀ d ∈ ds, d < 10 := by
  induction h with
  | nil => exact nofun
  | separator _ _ _ _ _ ih => exact ih
  | digit d u ds t hu _ ih => exact List.forall_mem_cons.mpr ⟨hu.1, ih⟩

theorem Written.dropWhile (h : Written ds t) : Written ds (t.dropWhile isSpace) := by
  induction h with
  | nil => exact .nil
  | separator u ds t hu h ih =>
    rw [List.dropWhile_cons]
    split
    · exact ih
    · exact .separator u ds t hu h
  | digit d u ds t hu h ih =>
    rw [List.dropWhile_cons, isSpace_of_digit hu, if_neg Bool.false_ne_true]
    exact .digit d u ds t hu h

theorem Written.rdropWhile (h : Written ds t) : Written ds (t.rdropWhile isSpace) := by
  induction h with
  | nil => exact .nil
  | separator u ds t hu h ih =>
    rw [rdropWhile_cons]
    split_ifs with hnil hspace
    · rwa [hnil] at ih
    · rw [hnil] at ih
      exact .separator u ds [] hu ih
    · exact .separator u ds _ hu ih
  | digit d u ds t hu h ih =>
    rw [rdropWhile_cons, isSpace_of_digit hu, if_neg Bool.false_ne_true]
    split_ifs with hnil
    · rw [hnil] at ih
      exact .digit d u ds [] hu ih
    · exact .digit d u ds _ hu ih

/-- White space around does not matter. -/
theorem Written.trim (h : Written ds t) : Written ds (trim isSpace t) := h.rdropWhile.dropWhile

theorem toNat_ofNat_digit : ∀ d < 10, (Char.ofNat (0x30 + d)).toNat = 0x30 + d := by decide

theorem toNat_charOf (hd : d < 10) : (Char.ofNat (asciiDigit d).toNat).toNat = 0x30 + d := by
  rw [asciiDigit_toNat hd]
  exact toNat_ofNat_digit d hd

theorem digitValue_charOf (hd : d < 10) : digitValue (Char.ofNat (asciiDigit d).toNat) = some d := by
  rw [digitValue]
  simp only [toNat_charOf hd]
  rw [if_pos (by omega), Nat.add_sub_cancel_left]

theorem digitsValue_digits (hds : ∀ d ∈ ds, d < 10) (acc : ℕ) :
    digitsValue 10 (charsOf (ds.map asciiDigit)) acc =
      some (ds.foldl (fun n d => 10 * n + d) acc) := by
  induction ds generalizing acc with
  | nil => rfl
  | cons d ds ih =>
    obtain ⟨hd, hds⟩ := List.forall_mem_cons.mp hds
    rw [charsOf, List.map_cons, List.map_cons, digitsValue, digitValue_charOf hd]
    dsimp only
    rw [if_pos hd]
    exact ih hds (10 * acc + d)

/-! ### Conversion -/

/-- Digits are converted to the double nearest to their number. -/
theorem literalNumber_charsOf (hds : ∀ d ∈ ds, d < 10) (hne : ds ≠ []) :
    literalNumber (charsOf (ds.map asciiDigit)) = toDouble (numberOf ds) := by
  refine literalNumber_digits (fun c hc => ?_) (fun hnil => hne ?_) (digitsValue_digits hds 0)
  · obtain ⟨u, hu, rfl⟩ := List.mem_map.mp hc
    obtain ⟨d, hd, rfl⟩ := List.mem_map.mp hu
    have hd := hds d hd
    rw [toNat_charOf hd]
    omega
  · exact List.map_eq_nil_iff.mp (List.map_eq_nil_iff.mp hnil)

/-- The answer to a number. -/
def amountOf (n : ℕ) : ParsedAmount :=
  if n ≤ INT32_MAX then .ok n
  else if (n : ℚ) < OVERFLOW then .error .TOO_LARGE
  else .error .NOT_A_NUMBER

/-- What the conversion makes of a number. -/
theorem amountOf_eq (n : ℕ) :
    (match (toDouble n).toInt? with
      | none => .error .NOT_A_NUMBER
      | some value =>
        if value < 0 then .error .NEGATIVE
        else if INT32_MAX < value then .error .TOO_LARGE
        else .ok value) = amountOf n := by
  have hmax : INT32_MAX = 2147483647 := rfl
  rcases Nat.lt_or_ge n (2 ^ 53) with hsmall | hlarge
  · have hexact : toDouble ((n : ℤ) : ℚ) = ofInt n := toDouble_intCast (by
      rw [abs_of_nonneg (Int.natCast_nonneg n), MAX_EXACT]
      omega)
    rw [Int.cast_natCast] at hexact
    have hbelow : (n : ℚ) < OVERFLOW := by
      refine lt_of_lt_of_le ?_ overflow_bounds.1
      calc (n : ℚ) < 2 ^ 53 := by exact_mod_cast hsmall
        _ ≤ 2 ^ 1023 := pow_le_pow_right₀ (by norm_num) (by norm_num)
    rw [hexact, toInt?_eq_some.mpr rfl, amountOf]
    dsimp only
    rw [if_neg (by omega), if_pos hbelow]
    split_ifs <;> first | rfl | omega
  · have hlargeQ : (2 : ℚ) ^ 53 ≤ n := by exact_mod_cast hlarge
    rw [amountOf, if_neg (by omega)]
    rcases lt_or_ge (n : ℚ) OVERFLOW with hlt | hge
    · obtain ⟨r, hr, hle⟩ := toDouble_large hlargeQ hlt
      rw [hr, toInt?_eq_some.mpr rfl, if_pos hlt]
      dsimp only
      rw [if_neg (by omega), if_pos (by omega)]
    · rw [toDouble_overflow hge, if_neg (not_lt.mpr hge)]
      rfl

/-- READ: digits that are written in any way are read as their number. -/
theorem parse_written (h : Written ds t) (hne : ds ≠ []) {pre post : JsText}
    (hpre : ∀ u ∈ pre, isSpace u = true) (hpost : ∀ u ∈ post, isSpace u = true) :
    parseTomanAmount (pre ++ t ++ post) = amountOf (numberOf ds) := by
  have hds := h.lt
  have hnormalized : normalizeDigits (trim isSpace (pre ++ t ++ post)) = ds.map asciiDigit := by
    rw [trim_around hpre hpost]
    exact h.trim.normalizeDigits
  have hdigits : (ds.map asciiDigit).all isDigit = true := by
    rw [List.all_map, List.all_eq_true]
    exact fun d hd => isDigit_asciiDigit (hds d hd)
  have hne' : ds.map asciiDigit ≠ [] := fun hnil => hne (List.map_eq_nil_iff.mp hnil)
  have hunsigned : unsigned (ds.map asciiDigit) = ds.map asciiDigit := by
    cases ds with
    | nil => rfl
    | cons d ds =>
      rw [List.map_cons, unsigned, isSign_asciiDigit (hds d (.head _)), if_neg Bool.false_ne_true]
  have hdecimal : isDecimalText (ds.map asciiDigit) = false := by
    rw [isDecimalText, hunsigned, List.dropWhile_eq_nil_iff.mpr (List.all_eq_true.mp hdigits)]
  have hinteger : isIntegerText (ds.map asciiDigit) = true := by
    rw [isIntegerText, hunsigned]
    exact decide_eq_true ⟨hne', hdigits⟩
  rw [parseTomanAmount, hnormalized, if_neg hne', hdecimal, if_neg Bool.false_ne_true, hinteger,
    literalNumber_charsOf hds hne]
  exact amountOf_eq (numberOf ds)

/-! ### What is read -/

/-- Only digits and separators become digits. -/
theorem written_of_digits (h : (normalizeDigits t).all isDigit = true) :
    ∃ ds, Written ds t ∧ normalizeDigits t = ds.map asciiDigit := by
  induction t with
  | nil => exact ⟨[], .nil, rfl⟩
  | cons u t ih =>
    rw [normalizeDigits, List.flatMap_cons, List.all_append, Bool.and_eq_true] at h
    obtain ⟨ds, hds, -⟩ := ih h.2
    by_cases hu : isAmountSeparator u = true
    · exact ⟨ds, .separator u ds t hu hds, (Written.separator u ds t hu hds).normalizeDigits⟩
    · rw [if_neg hu, List.all_cons, List.all_nil, Bool.and_true] at h
      obtain ⟨d, hd⟩ := digit_of_digitMap h.1
      exact ⟨d :: ds, .digit d u ds t hd hds, (Written.digit d u ds t hd hds).normalizeDigits⟩

/-- The map gives no sign. -/
theorem eq_of_digitMap_sign {s : UInt16} (h : (DIGIT_MAP u).getD u = s) (hs : isSign s = true) :
    u = s := by
  simp only [DIGIT_MAP, UInt16.le_iff_toNat_le, UInt16.reduceToNat] at h
  split_ifs at h with hpersian harabic
  · rw [Option.getD_some] at h
    rw [← h, isSign_asciiDigit (by omega)] at hs
    cases hs
  · rw [Option.getD_some] at h
    rw [← h, isSign_asciiDigit (by omega)] at hs
    cases hs
  · exact h

/-- A sign is written as itself, behind separators. -/
theorem sign_written {s : UInt16} {rest : JsText} (hs : isSign s = true)
    (h : normalizeDigits t = s :: rest) :
    ∃ separators t', t = separators ++ s :: t' ∧ (∀ u ∈ separators, isAmountSeparator u = true) ∧
      normalizeDigits t' = rest := by
  induction t with
  | nil => cases h
  | cons u t ih =>
    rw [normalizeDigits, List.flatMap_cons] at h
    by_cases hu : isAmountSeparator u = true
    · rw [if_pos hu] at h
      obtain ⟨separators, t', rfl, hseparators, hrest⟩ := ih h
      exact ⟨u :: separators, t', rfl, List.forall_mem_cons.mpr ⟨hu, hseparators⟩, hrest⟩
    · rw [if_neg hu] at h
      obtain ⟨hmap, hrest⟩ := List.cons.inj h
      refine ⟨[], t, ?_, nofun, hrest⟩
      rw [List.nil_append, eq_of_digitMap_sign hmap hs]

/-- Separators, an optional sign, and digits with separators, and white space around. -/
inductive TypedAmount : JsText → Prop
  | plain (pre t post : JsText) (ds : List ℕ) (hpre : ∀ u ∈ pre, isSpace u = true)
      (hpost : ∀ u ∈ post, isSpace u = true) (h : Written ds t) : TypedAmount (pre ++ t ++ post)
  | signed (pre separators : JsText) (s : UInt16) (t post : JsText) (ds : List ℕ)
      (hpre : ∀ u ∈ pre, isSpace u = true) (hpost : ∀ u ∈ post, isSpace u = true)
      (hseparators : ∀ u ∈ separators, isAmountSeparator u = true) (hs : isSign s = true)
      (h : Written ds t) : TypedAmount (pre ++ (separators ++ s :: t) ++ post)

/-- What is accepted is a typed amount. -/
theorem typed_of_ok {value : ℤ} (h : parseTomanAmount raw = .ok value) : TypedAmount raw := by
  rw [parseTomanAmount] at h
  split_ifs at h with hnil hdecimal hinteger
  rw [Bool.not_eq_true', Bool.not_eq_false, isIntegerText, decide_eq_true_iff] at hinteger
  obtain ⟨pre, post, hraw, hpre, hpost⟩ := trim_split isSpace raw
  rw [hraw]
  cases hnormalized : normalizeDigits (trim isSpace raw) with
  | nil => exact absurd hnormalized hnil
  | cons u rest =>
    rw [hnormalized, unsigned] at hinteger
    by_cases hs : isSign u = true
    · rw [if_pos hs] at hinteger
      obtain ⟨separators, t', ht, hseparators, hrest⟩ := sign_written hs hnormalized
      obtain ⟨ds, hds, -⟩ := written_of_digits (t := t') (by rw [hrest]; exact hinteger.2)
      rw [ht]
      exact .signed pre separators u t' post ds hpre hpost hseparators hs hds
    · rw [if_neg hs] at hinteger
      obtain ⟨ds, hds, -⟩ := written_of_digits (t := trim isSpace raw)
        (by rw [hnormalized]; exact hinteger.2)
      exact .plain pre (trim isSpace raw) post ds hpre hpost hds

/-! ### The amounts -/

/-- Amounts are read exactly however they are written, and nothing else is accepted. -/
theorem typed_amounts :
    (∀ (ds : List ℕ) (t pre post : JsText), Written ds t → ds ≠ [] → (∀ u ∈ pre, isSpace u = true) →
      (∀ u ∈ post, isSpace u = true) →
        parseTomanAmount (pre ++ t ++ post) = amountOf (numberOf ds)) ∧
      ∀ (raw : JsText) (value : ℤ), parseTomanAmount raw = .ok value → TypedAmount raw :=
  ⟨fun _ _ _ _ h hne hpre hpost => parse_written h hne hpre hpost, fun _ _ h => typed_of_ok h⟩

/-- ` ۱٬٢_0 `, in three systems. -/
def mixedAmount : JsText := [0x6F1, 0x66C, 0x662, 0x5F, 0x30]

theorem mixedAmount_written : Written [1, 2, 0] mixedAmount :=
  .digit 1 _ _ _ ⟨by decide, by decide⟩ (.separator _ _ _ (by decide) (.digit 2 _ _ _
    ⟨by decide, by decide⟩ (.separator _ _ _ (by decide) (.digit 0 _ _ _ ⟨by decide, by decide⟩ .nil))))

theorem typed_amounts_mixed : parseTomanAmount ([space] ++ mixedAmount ++ [0x9]) = .ok 120 ∧
    TypedAmount ([space] ++ mixedAmount ++ [0x9]) := by
  have hread : parseTomanAmount ([space] ++ mixedAmount ++ [0x9]) = .ok 120 :=
    typed_amounts.1 [1, 2, 0] mixedAmount [space] [0x9] mixedAmount_written (by decide)
      (List.forall_mem_singleton.mpr rfl) (List.forall_mem_singleton.mpr rfl)
  exact ⟨hread, typed_amounts.2 _ 120 hread⟩

/-- Four hundred nines. -/
def hugeDigits : List ℕ := List.replicate 400 9

/-- Digits written in ASCII. -/
theorem written_ascii : ∀ {ds : List ℕ}, (∀ d ∈ ds, d < 10) → Written ds (ds.map asciiDigit)
  | [], _ => .nil
  | d :: ds, h => by
    obtain ⟨hd, hds⟩ := List.forall_mem_cons.mp h
    exact .digit d _ ds _ ⟨hd, .inl (asciiDigit_toNat hd)⟩ (written_ascii hds)

/-- The number of so many nines. -/
theorem numberOf_nines (n : ℕ) : numberOf (List.replicate n 9) + 1 = 10 ^ n := by
  induction n with
  | zero => rfl
  | succ n ih =>
    rw [List.replicate_succ', numberOf, List.foldl_append, ← numberOf]
    rw [List.foldl_cons, List.foldl_nil, pow_succ]
    omega

/-- The greatest power of two that matters is below four hundred nines. -/
theorem overflow_le_huge : 2 ^ 1024 ≤ numberOf hugeDigits := by
  obtain ⟨n, hn⟩ : ∃ n, n = 400 := ⟨_, rfl⟩
  have hnines := numberOf_nines n
  have hten : (2 ^ 13) ^ 100 ≤ (10 ^ 4) ^ 100 := Nat.pow_le_pow_left (by norm_num) 100
  have htwo : 2 ^ 1024 < 2 ^ 1300 := Nat.pow_lt_pow_right (by norm_num) (by norm_num)
  rw [← pow_mul, ← pow_mul] at hten
  have hlt : 2 ^ 1024 < numberOf hugeDigits + 1 := by
    rw [hugeDigits, ← hn, hnines, hn]
    exact lt_of_lt_of_le htwo hten
  exact Nat.lt_add_one_iff.mp hlt

/-- A number that is too large for a double is refused as no number. -/
theorem typed_amounts_huge : ¬ ∀ (ds : List ℕ) (t : JsText), Written ds t → ds ≠ [] →
    INT32_MAX < numberOf ds → parseTomanAmount t = .error .TOO_LARGE := by
  intro h
  have hdigits : ∀ d ∈ hugeDigits, d < 10 := fun d hd => by
    rw [List.eq_of_mem_replicate hd]
    decide
  have hne : hugeDigits ≠ [] := by
    rw [hugeDigits, List.replicate_succ]
    exact List.cons_ne_nil _ _
  have hwritten := written_ascii hdigits
  have hoverflow : OVERFLOW ≤ numberOf hugeDigits :=
    le_trans overflow_bounds.2 (by exact_mod_cast overflow_le_huge)
  have hlarge : INT32_MAX < numberOf hugeDigits := by
    have hpow : 2 ^ 31 ≤ 2 ^ 1024 := Nat.pow_le_pow_right (by norm_num) (by norm_num)
    have hle := le_trans hpow overflow_le_huge
    rw [INT32_MAX]
    omega
  have hclaim := h hugeDigits _ hwritten hne hlarge
  have hnone : ∀ u ∈ ([] : JsText), isSpace u = true := by rintro u ⟨⟩
  have hread := parse_written hwritten hne hnone hnone
  rw [List.nil_append, List.append_nil, hclaim, amountOf, if_neg (not_le.mpr hlarge),
    if_neg (not_lt.mpr hoverflow)] at hread
  cases hread

end ZedBot.LowBalance
