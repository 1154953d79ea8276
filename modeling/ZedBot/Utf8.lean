import Mathlib.Data.Nat.Notation
import Mathlib.Tactic.SplitIfs

/-! # UTF-8

    A character is one to four bytes. The decoder goes from byte to byte: a lead byte says how many
    are to come and bounds the next one, and what does not fit becomes U+FFFD.

        idle ──lead──▶ need k, next in [lower, upper] ──byte──▶ … ──byte──▶ character, idle -/

namespace Utf8

def encodeChar (c : Char) : List UInt8 :=
  let n := c.toNat
  if n < 0x80 then [UInt8.ofNat n]
  else if n < 0x800 then [UInt8.ofNat (0xC0 + n / 64), UInt8.ofNat (0x80 + n % 64)]
  else if n < 0x10000 then
    [UInt8.ofNat (0xE0 + n / 4096), UInt8.ofNat (0x80 + n / 64 % 64), UInt8.ofNat (0x80 + n % 64)]
  else
    [UInt8.ofNat (0xF0 + n / 262144), UInt8.ofNat (0x80 + n / 4096 % 64),
      UInt8.ofNat (0x80 + n / 64 % 64), UInt8.ofNat (0x80 + n % 64)]

def encode (text : List Char) : List UInt8 := text.flatMap encodeChar

def REPLACEMENT : Char := Char.ofNat 0xFFFD

/-- How many bytes of a character are to come, the bits it has, and the bounds of the next byte. -/
structure State where
  need : ℕ := 0
  bits : ℕ := 0
  lower : ℕ := 0x80
  upper : ℕ := 0xBF

/-- A byte where a character begins. -/
def lead (b : ℕ) : State × List Char :=
  if b < 0x80 then ({}, [Char.ofNat b])
  else if 0xC2 ≤ b ∧ b ≤ 0xDF then ({ need := 1, bits := b - 0xC0 }, [])
  else if 0xE0 ≤ b ∧ b ≤ 0xEF then
    ({ need := 2
       bits := b - 0xE0
       lower := if b = 0xE0 then 0xA0 else 0x80
       upper := if b = 0xED then 0x9F else 0xBF }, [])
  else if 0xF0 ≤ b ∧ b ≤ 0xF4 then
    ({ need := 3
       bits := b - 0xF0
       lower := if b = 0xF0 then 0x90 else 0x80
       upper := if b = 0xF4 then 0x8F else 0xBF }, [])
  else ({}, [REPLACEMENT])

def next (s : State) (b : ℕ) : State × List Char :=
  if s.need = 0 then lead b
  else if s.lower ≤ b ∧ b ≤ s.upper then
    let bits := s.bits * 64 + (b - 0x80)
    if s.need = 1 then ({}, [Char.ofNat bits]) else ({ need := s.need - 1, bits }, [])
  else ((lead b).1, REPLACEMENT :: (lead b).2)

def decodeFrom (s : State) : List UInt8 → List Char
  | [] => if s.need = 0 then [] else [REPLACEMENT]
  | b :: bs => (next s b.toNat).2 ++ decodeFrom (next s b.toNat).1 bs

def decode (bs : List UInt8) : List Char := decodeFrom {} bs

variable {c : Char} {bs : List UInt8} {s s' : State} {n : ℕ} {text : List Char}

theorem decodeFrom_cons (h : n < 256) {out : List Char} (hnext : next s n = (s', out)) :
    decodeFrom s (UInt8.ofNat n :: bs) = out ++ decodeFrom s' bs := by
  rw [decodeFrom, UInt8.toNat_ofNat_of_lt' h, hnext]

theorem next_lead (h : s.need = 0) : next s n = lead n := if_pos h

/-- A byte in its bounds, with more to come. -/
theorem next_more {k bits lower upper : ℕ} (hk : 0 < k) (hlower : lower ≤ n) (hupper : n ≤ upper) :
    next ⟨k + 1, bits, lower, upper⟩ n = ({ need := k, bits := bits * 64 + (n - 0x80) }, []) := by
  rw [next, if_neg (Nat.succ_ne_zero k), if_pos ⟨hlower, hupper⟩]
  exact if_neg fun hone => Nat.ne_of_gt hk (Nat.succ.inj hone)

theorem next_last {bits lower upper : ℕ} (hlower : lower ≤ n) (hupper : n ≤ upper) :
    next ⟨1, bits, lower, upper⟩ n = ({}, [Char.ofNat (bits * 64 + (n - 0x80))]) := by
  rw [next, if_neg Nat.one_ne_zero, if_pos ⟨hlower, hupper⟩]
  exact if_pos rfl

theorem lead_two (hlower : 0xC2 ≤ n) (hupper : n ≤ 0xDF) :
    lead n = ({ need := 1, bits := n - 0xC0 }, []) := by
  rw [lead, if_neg (by omega), if_pos ⟨hlower, hupper⟩]

theorem lead_three (hlower : 0xE0 ≤ n) (hupper : n ≤ 0xEF) :
    lead n = ({ need := 2
                bits := n - 0xE0
                lower := if n = 0xE0 then 0xA0 else 0x80
                upper := if n = 0xED then 0x9F else 0xBF }, []) := by
  rw [lead, if_neg (by omega), if_neg (by omega), if_pos ⟨hlower, hupper⟩]

theorem lead_four (hlower : 0xF0 ≤ n) (hupper : n ≤ 0xF4) :
    lead n = ({ need := 3
                bits := n - 0xF0
                lower := if n = 0xF0 then 0x90 else 0x80
                upper := if n = 0xF4 then 0x8F else 0xBF }, []) := by
  rw [lead, if_neg (by omega), if_neg (by omega), if_neg (by omega), if_pos ⟨hlower, hupper⟩]

/-- The bounds of the byte after a lead let in the characters that need the lead, and no
    surrogates. -/
theorem bounds_three (hlarge : 0x800 ≤ n) (hsmall : n < 0x10000)
    (hvalid : n < 0xD800 ∨ 0xDFFF < n) :
    (if 0xE0 + n / 4096 = 0xE0 then 0xA0 else 0x80) ≤ 0x80 + n / 64 % 64 ∧
      0x80 + n / 64 % 64 ≤ if 0xE0 + n / 4096 = 0xED then 0x9F else 0xBF := by
  constructor
  · split_ifs <;> omega
  · split_ifs <;> omega

theorem bounds_four (hlarge : 0x10000 ≤ n) (hsmall : n < 0x110000) :
    (if 0xF0 + n / 262144 = 0xF0 then 0x90 else 0x80) ≤ 0x80 + n / 4096 % 64 ∧
      0x80 + n / 4096 % 64 ≤ if 0xF0 + n / 262144 = 0xF4 then 0x8F else 0xBF := by
  constructor
  · split_ifs <;> omega
  · split_ifs <;> omega

theorem toNat_bounds (c : Char) : c.toNat < 0xD800 ∨ 0xDFFF < c.toNat ∧ c.toNat < 0x110000 :=
  c.valid

/-- The bytes of a character bring the decoder back, with the character. -/
theorem decodeFrom_encodeChar (c : Char) (bs : List UInt8) :
    decodeFrom {} (encodeChar c ++ bs) = c :: decodeFrom {} bs := by
  have hvalid := toNat_bounds c
  have hc : Char.ofNat c.toNat = c := Char.ofNat_toNat c
  unfold encodeChar
  generalize c.toNat = n at hvalid hc ⊢
  dsimp only
  split_ifs with h1 h2 h3
  · have hlead : lead n = ({}, [Char.ofNat n]) := if_pos h1
    rw [List.singleton_append, decodeFrom_cons (by omega) ((next_lead rfl).trans hlead), hc]
    rfl
  · have hlead := lead_two (n := 0xC0 + n / 64) (by omega) (by omega)
    have hbits : (0xC0 + n / 64 - 0xC0) * 64 + (0x80 + n % 64 - 0x80) = n := by omega
    rw [List.cons_append, List.singleton_append,
      decodeFrom_cons (by omega) ((next_lead rfl).trans hlead),
      decodeFrom_cons (by omega) (next_last (by omega) (by omega)), hbits, hc]
    rfl
  · obtain ⟨hlower, hupper⟩ := bounds_three (n := n) (by omega) h3 (by omega)
    have hlead := lead_three (n := 0xE0 + n / 4096) (by omega) (by omega)
    have hbits : ((0xE0 + n / 4096 - 0xE0) * 64 + (0x80 + n / 64 % 64 - 0x80)) * 64 +
        (0x80 + n % 64 - 0x80) = n := by omega
    rw [List.cons_append, List.cons_append, List.singleton_append,
      decodeFrom_cons (by omega) ((next_lead rfl).trans hlead),
      decodeFrom_cons (by omega) (next_more Nat.one_pos hlower hupper),
      decodeFrom_cons (by omega) (next_last (by omega) (by omega)), hbits, hc]
    rfl
  · obtain ⟨hlower, hupper⟩ := bounds_four (n := n) (by omega) (by omega)
    have hlead := lead_four (n := 0xF0 + n / 262144) (by omega) (by omega)
    have hbits : (((0xF0 + n / 262144 - 0xF0) * 64 + (0x80 + n / 4096 % 64 - 0x80)) * 64 +
        (0x80 + n / 64 % 64 - 0x80)) * 64 + (0x80 + n % 64 - 0x80) = n := by omega
    rw [List.cons_append, List.cons_append, List.cons_append, List.singleton_append,
      decodeFrom_cons (by omega) ((next_lead rfl).trans hlead),
      decodeFrom_cons (by omega) (next_more Nat.two_pos hlower hupper),
      decodeFrom_cons (by omega) (next_more Nat.one_pos (by omega) (by omega)),
      decodeFrom_cons (by omega) (next_last (by omega) (by omega)), hbits, hc]
    rfl

/-- Well-formed text is read back. -/
theorem decode_encode (text : List Char) : decode (encode text) = text := by
  induction text with
  | nil => rfl
  | cons c text ih =>
    rw [decode, encode, List.flatMap_cons, decodeFrom_encodeChar]
    exact congrArg (c :: ·) ih

theorem encode_inj {text text' : List Char} (h : encode text = encode text') : text = text' := by
  rw [← decode_encode text, h, decode_encode]

theorem length_encodeChar (c : Char) :
    0 < (encodeChar c).length ∧ (encodeChar c).length ≤ 4 := by
  unfold encodeChar
  dsimp only
  split_ifs <;> simp only [List.length_cons, List.length_nil] <;> omega

/-- One byte for each character at least, and four at most. -/
theorem length_encode (text : List Char) :
    text.length ≤ (encode text).length ∧ (encode text).length ≤ 4 * text.length := by
  induction text with
  | nil => exact ⟨Nat.le_refl _, Nat.le_refl _⟩
  | cons c text ih =>
    obtain ⟨hpos, hle⟩ := length_encodeChar c
    rw [encode, List.flatMap_cons, List.length_append, List.length_cons]
    rw [encode] at ih
    omega

/-- A surrogate's bytes and a cut character are replaced. -/
example : decode [0xED, 0xA0, 0x80, 0x41, 0xE2, 0x82] =
    [REPLACEMENT, REPLACEMENT, REPLACEMENT, 'A', REPLACEMENT] := by decide

end Utf8
