import Mathlib.Data.List.DropRight
import Mathlib.Data.Nat.Notation
import Mathlib.Tactic.SplitIfs

/-! Strings of JavaScript: sequences of 16-bit code units, surrogates or not.

    The length of a string is the number of its units, and a pattern without the `u` flag matches
    units. -/

abbrev JsText := List UInt16

namespace JsText

/-- The code units of a character: one, or a surrogate pair. -/
def ofChar (c : Char) : JsText :=
  if c.toNat < 0x10000 then [UInt16.ofNat c.toNat]
  else [UInt16.ofNat (0xD800 + (c.toNat - 0x10000) / 0x400),
    UInt16.ofNat (0xDC00 + (c.toNat - 0x10000) % 0x400)]

def ofChars (cs : List Char) : JsText := cs.flatMap ofChar

def ofString (s : String) : JsText := ofChars s.toList

/-- The unit of a character outside the supplementary planes. -/
def unit (c : Char) : UInt16 := UInt16.ofNat c.toNat

/-- A number in a template string. -/
def ofNat (n : ℕ) : JsText := ofChars (Nat.toDigits 10 n)

def newline : UInt16 := 0xA

def cr : UInt16 := 0xD

/-- The white space that `trim` removes, and that `\s` matches. -/
def isSpace (u : UInt16) : Bool :=
  u ∈ [0x9, 0xA, 0xB, 0xC, 0xD, 0x20, 0xA0, 0x1680, 0x2028, 0x2029, 0x202F, 0x205F, 0x3000,
    0xFEFF] ∨ (0x2000 ≤ u ∧ u ≤ 0x200A)

/-- The line terminators, which `.` does not match. -/
def isLineTerminator (u : UInt16) : Bool := u ∈ [newline, cr, 0x2028, 0x2029]

def isLetter (u : UInt16) : Bool := (unit 'A' ≤ u ∧ u ≤ unit 'Z') ∨ (unit 'a' ≤ u ∧ u ≤ unit 'z')

def isDigit (u : UInt16) : Bool := unit '0' ≤ u ∧ u ≤ unit '9'

/-- The lower case of an ASCII letter. -/
def lower (u : UInt16) : UInt16 := if unit 'A' ≤ u ∧ u ≤ unit 'Z' then u + 0x20 else u

/-- The text before the last `c`, and the text after it. -/
def splitLast (c : UInt16) (t : JsText) : Option (JsText × JsText) :=
  if c ∈ t then
    some ((t.rdropWhile (· ≠ c)).dropLast, t.rtakeWhile (· ≠ c))
  else none

def space : UInt16 := 0x20

def isHighSurrogate (u : UInt16) : Bool := 0xD800 ≤ u ∧ u ≤ 0xDBFF

def isLowSurrogate (u : UInt16) : Bool := 0xDC00 ≤ u ∧ u ≤ 0xDFFF

/-- The code point of a surrogate pair. -/
def supplementary (u v : UInt16) : ℕ := 0x10000 + ((u.toNat - 0xD800) * 0x400 + (v.toNat - 0xDC00))

/-- The code points of a string, as `for … of` goes through them: a surrogate alone is one, too. -/
def codePoints : JsText → List ℕ
  | [] => []
  | [u] => [u.toNat]
  | u :: v :: t =>
    if isHighSurrogate u ∧ isLowSurrogate v then
      supplementary u v :: codePoints t
    else u.toNat :: codePoints (v :: t)

theorem le_supplementary (u v : UInt16) : 0x10000 ≤ supplementary u v := Nat.le_add_right _ _

theorem of_mem_codePoints {t : JsText} {cp : ℕ} (h : cp ∈ codePoints t) :
    (∃ u ∈ t, u.toNat = cp) ∨ 0x10000 ≤ cp := by
  fun_induction codePoints t with
  | case1 => cases h
  | case2 u => exact .inl ⟨u, .head _, (List.mem_singleton.mp h).symm⟩
  | case3 u v t hpair ih =>
    rcases List.mem_cons.mp h with heq | h
    · exact .inr (heq ▸ le_supplementary u v)
    · rcases ih h with ⟨x, hx, rfl⟩ | hlarge
      · exact .inl ⟨x, .tail _ (.tail _ hx), rfl⟩
      · exact .inr hlarge
  | case4 u v t hpair ih =>
    rcases List.mem_cons.mp h with rfl | h
    · exact .inl ⟨u, .head _, rfl⟩
    · rcases ih h with ⟨x, hx, rfl⟩ | hlarge
      · exact .inl ⟨x, .tail _ hx, rfl⟩
      · exact .inr hlarge

/-- A unit is a code point, or a surrogate. -/
theorem mem_codePoints_of_mem {t : JsText} {u : UInt16} (h : u ∈ t) :
    u.toNat ∈ codePoints t ∨ 0xD800 ≤ u.toNat ∧ u.toNat ≤ 0xDFFF := by
  fun_induction codePoints t with
  | case1 => cases h
  | case2 v => exact .inl (List.mem_singleton.mpr (congrArg UInt16.toNat (List.mem_singleton.mp h)))
  | case3 v w t hpair ih =>
    simp only [isHighSurrogate, isLowSurrogate, decide_eq_true_eq, UInt16.le_iff_toNat_le] at hpair
    obtain ⟨⟨hlow, hhigh⟩, hlow', hhigh'⟩ := hpair
    rcases List.mem_cons.mp h with rfl | h
    · exact .inr ⟨hlow, Nat.le_trans hhigh (by decide)⟩
    · rcases List.mem_cons.mp h with rfl | h
      · exact .inr ⟨Nat.le_trans (by decide) hlow', hhigh'⟩
      · exact (ih h).imp_left (.tail _)
  | case4 v w t hpair ih =>
    rcases List.mem_cons.mp h with rfl | h
    · exact .inl (.head _)
    · exact (ih h).imp_left (.tail _)

/-! ### Units of different strings -/

theorem uint16_ofNat_inj {m n : ℕ} (hm : m < 65536) (hn : n < 65536)
    (h : UInt16.ofNat m = UInt16.ofNat n) : m = n := by
  have hnat := congrArg UInt16.toNat h
  rwa [UInt16.toNat_ofNat_of_lt' hm, UInt16.toNat_ofNat_of_lt' hn] at hnat

/-- The code units of a character are not the beginning of another's. -/
theorem ofChar_append_inj {c d : Char} {t u : JsText}
    (h : ofChar c ++ t = ofChar d ++ u) : c = d ∧ t = u := by
  have hvalid : ∀ e : Char, e.toNat < 0xD800 ∨ 0xDFFF < e.toNat ∧ e.toNat < 0x110000 :=
    fun e => e.valid
  have hc := hvalid c
  have hd := hvalid d
  rw [ofChar, ofChar] at h
  split_ifs at h with hsmall hsmall' hsmall'
  · obtain ⟨hhead, htail⟩ := List.cons.inj h
    exact ⟨Char.toNat_inj.mp (uint16_ofNat_inj hsmall hsmall' hhead), htail⟩
  · obtain ⟨hhead, -⟩ := List.cons.inj h
    have hnat := uint16_ofNat_inj hsmall (by omega) hhead
    omega
  · obtain ⟨hhead, -⟩ := List.cons.inj h
    have hnat := uint16_ofNat_inj (by omega) hsmall' hhead
    omega
  · obtain ⟨hhead, htail⟩ := List.cons.inj h
    obtain ⟨hlow, htail⟩ := List.cons.inj htail
    have hnat := uint16_ofNat_inj (by omega) (by omega) hhead
    have hnat' := uint16_ofNat_inj (by omega) (by omega) hlow
    exact ⟨Char.toNat_inj.mp (by omega), htail⟩

theorem ofChars_inj {s t : List Char} (h : ofChars s = ofChars t) : s = t := by
  have hne : ∀ c : Char, ofChar c ≠ [] := by
    intro c
    rw [ofChar]
    split_ifs <;> exact List.cons_ne_nil _ _
  induction s generalizing t with
  | nil =>
    cases t with
    | nil => rfl
    | cons d t => exact absurd (List.append_eq_nil_iff.mp h.symm).1 (hne d)
  | cons c s ih =>
    cases t with
    | nil => exact absurd (List.append_eq_nil_iff.mp h).1 (hne c)
    | cons d t =>
      obtain ⟨rfl, hrest⟩ := ofChar_append_inj h
      rw [ih hrest]

end JsText
