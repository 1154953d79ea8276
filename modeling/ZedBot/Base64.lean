import Mathlib.Data.Nat.Notation
import Mathlib.Tactic.SplitIfs

/-! # Base64

    Three bytes are four digits of six bits. The reader takes both alphabets, skips every other
    character, and drops the bits that are left over.

        x y z ──▶ d₁ d₂ d₃ d₄        x y ──▶ d₁ d₂ d₃        x ──▶ d₁ d₂ -/

namespace Base64

inductive Alphabet where | base64 | base64url
  deriving DecidableEq

/-- The digit as a letter. -/
def letter (alphabet : Alphabet) (n : ℕ) : Char :=
  if n < 26 then Char.ofNat (65 + n)
  else if n < 52 then Char.ofNat (71 + n)
  else if n < 62 then Char.ofNat (n - 4)
  else match alphabet, n with
    | .base64, 62 => '+'
    | .base64, _ => '/'
    | .base64url, 62 => '-'
    | .base64url, _ => '_'

/-- The letter as a digit, of whichever alphabet. -/
def value (c : Char) : Option ℕ :=
  if 'A' ≤ c ∧ c ≤ 'Z' then some (c.toNat - 65)
  else if 'a' ≤ c ∧ c ≤ 'z' then some (c.toNat - 71)
  else if '0' ≤ c ∧ c ≤ '9' then some (c.toNat + 4)
  else if c = '+' ∨ c = '-' then some 62
  else if c = '/' ∨ c = '_' then some 63
  else none

def digits : List UInt8 → List ℕ
  | x :: y :: z :: rest =>
    x.toNat / 4 :: (x.toNat % 4 * 16 + y.toNat / 16) :: (y.toNat % 16 * 4 + z.toNat / 64) ::
      z.toNat % 64 :: digits rest
  | [x, y] => [x.toNat / 4, x.toNat % 4 * 16 + y.toNat / 16, y.toNat % 16 * 4]
  | [x] => [x.toNat / 4, x.toNat % 4 * 16]
  | [] => []

def bytes : List ℕ → List UInt8
  | a :: b :: c :: d :: rest =>
    UInt8.ofNat (a * 4 + b / 16) :: UInt8.ofNat (b % 16 * 16 + c / 4) ::
      UInt8.ofNat (c % 4 * 64 + d) :: bytes rest
  | [a, b, c] => [UInt8.ofNat (a * 4 + b / 16), UInt8.ofNat (b % 16 * 16 + c / 4)]
  | [a, b] => [UInt8.ofNat (a * 4 + b / 16)]
  | _ => []

/-- What fills the last group up: nothing in the URL alphabet. -/
def padding (alphabet : Alphabet) (length : ℕ) : List Char :=
  match alphabet with
  | .base64 => List.replicate ((3 - length % 3) % 3) '='
  | .base64url => []

def encode (alphabet : Alphabet) (bs : List UInt8) : List Char :=
  (digits bs).map (letter alphabet) ++ padding alphabet bs.length

def decode (text : List Char) : List UInt8 := bytes (text.filterMap value)

variable {alphabet : Alphabet} {bs : List UInt8} {n : ℕ} {c : Char}

theorem ofNat_eq {x : UInt8} (h : n = x.toNat) : UInt8.ofNat n = x := by
  rw [h, UInt8.ofNat_toNat]

theorem bytes_digits (bs : List UInt8) : bytes (digits bs) = bs := by
  fun_induction digits bs with
  | case1 x y z rest ih =>
    have hx := x.toNat_lt
    have hy := y.toNat_lt
    have hz := z.toNat_lt
    rw [bytes, ih, ofNat_eq (x := x) (by omega), ofNat_eq (x := y) (by omega),
      ofNat_eq (x := z) (by omega)]
  | case2 x y =>
    have hx := x.toNat_lt
    have hy := y.toNat_lt
    rw [bytes, ofNat_eq (x := x) (by omega), ofNat_eq (x := y) (by omega)]
  | case3 x =>
    have hx := x.toNat_lt
    rw [bytes, ofNat_eq (x := x) (by omega)]
  | case4 => rfl

theorem digits_lt : ∀ d ∈ digits bs, d < 64 := by
  fun_induction digits bs with
  | case1 x y z rest ih =>
    have hx := x.toNat_lt
    have hy := y.toNat_lt
    have hz := z.toNat_lt
    intro d hd
    simp only [List.mem_cons] at hd
    rcases hd with rfl | rfl | rfl | rfl | hd
    · omega
    · omega
    · omega
    · omega
    · exact ih d hd
  | case2 x y =>
    have hx := x.toNat_lt
    have hy := y.toNat_lt
    intro d hd
    simp only [List.mem_cons, List.not_mem_nil, or_false] at hd
    omega
  | case3 x =>
    have hx := x.toNat_lt
    intro d hd
    simp only [List.mem_cons, List.not_mem_nil, or_false] at hd
    omega
  | case4 =>
    rintro d ⟨⟩

theorem value_letter (h : n < 64) : value (letter alphabet n) = some n := by
  have hall : ∀ a : Alphabet, ∀ n < 64, value (letter a n) = some n := by
    intro a
    cases a <;> decide
  exact hall alphabet n h

theorem filterMap_letters {ds : List ℕ} (h : ∀ d ∈ ds, d < 64) :
    (ds.map (letter alphabet)).filterMap value = ds := by
  induction ds with
  | nil => rfl
  | cons d ds ih =>
    rw [List.map_cons, List.filterMap_cons_some (value_letter (h d (.head _))),
      ih fun d' hd' => h d' (.tail _ hd')]

theorem filterMap_padding (alphabet : Alphabet) (length : ℕ) :
    (padding alphabet length).filterMap value = [] := by
  cases alphabet with
  | base64 =>
    refine List.filterMap_eq_nil_iff.mpr fun c hc => ?_
    rw [List.eq_of_mem_replicate hc]
    decide
  | base64url => rfl

/-- What was encoded is read back, whatever the alphabet. -/
theorem decode_encode (alphabet : Alphabet) (bs : List UInt8) :
    decode (encode alphabet bs) = bs := by
  rw [decode, encode, List.filterMap_append, filterMap_letters fun d hd => digits_lt d hd,
    filterMap_padding, List.append_nil, bytes_digits]

/-- The letters of the URL alphabet. -/
def isUrlLetter (c : Char) : Bool :=
  ('A' ≤ c ∧ c ≤ 'Z') ∨ ('a' ≤ c ∧ c ≤ 'z') ∨ ('0' ≤ c ∧ c ≤ '9') ∨ c = '_' ∨ c = '-'

theorem isUrlLetter_of_mem (h : c ∈ encode .base64url bs) : isUrlLetter c = true := by
  have hall : ∀ n < 64, isUrlLetter (letter .base64url n) = true := by decide
  rw [encode, padding, List.append_nil] at h
  obtain ⟨d, hd, rfl⟩ := List.mem_map.mp h
  exact hall d (digits_lt d hd)

theorem length_digits (bs : List UInt8) : (digits bs).length = (4 * bs.length + 2) / 3 := by
  fun_induction digits bs with
  | case1 x y z rest ih =>
    simp only [List.length_cons, ih]
    omega
  | case2 x y => exact (show 3 = (4 * 2 + 2) / 3 by decide)
  | case3 x => exact (show 2 = (4 * 1 + 2) / 3 by decide)
  | case4 => rfl

theorem length_encode_url (bs : List UInt8) :
    (encode .base64url bs).length = (4 * bs.length + 2) / 3 := by
  rw [encode, padding, List.append_nil, List.length_map, length_digits]

end Base64
