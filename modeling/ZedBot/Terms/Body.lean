import ZedBot.JsText
import ZedBot.TextLines

/-! # The body of a terms document

    The text that an operator sends is normalised before it is stored, and again when the draft is
    published. What the first pass leaves, the second does not change: the draft that was saved is
    the text that users accept.

        raw ──fold \r──▶ ──drop controls──▶ ──trim──▶ body, at most 3500 units -/

namespace ZedBot.Terms

open JsText TextLines

def TERMS_MAX_BODY_LENGTH : ℕ := 3500

inductive TermsBodyError where | EMPTY | TOO_LONG
  deriving DecidableEq

def tab : UInt16 := 0x9

/-- `replace(/\r\n?/g, "\n")`. -/
def foldCr : JsText → JsText
  | [] => []
  | [c] => [if c = cr then newline else c]
  | c :: d :: t =>
    if c = cr then
      if d = newline then newline :: foldCr t else newline :: foldCr (d :: t)
    else c :: foldCr (d :: t)

/-- The characters that `for … of` goes through: a surrogate pair is one, and so is a surrogate
    alone. -/
def characters : JsText → List JsText
  | [] => []
  | [u] => [[u]]
  | u :: v :: t =>
    if isHighSurrogate u ∧ isLowSurrogate v then [u, v] :: characters t
    else [u] :: characters (v :: t)

/-- `ch.codePointAt(0) ?? 0`. -/
def codePointAt (ch : JsText) : ℕ := (codePoints ch).headD 0

/-- The characters that stay: no controls but newline and tab, and no marks that change how the text
    is shown. -/
def keeps (ch : JsText) : Bool :=
  let code := codePointAt ch
  if code < 0x20 ∧ ch ≠ [newline] ∧ ch ≠ [tab] then false
  else if 0x7f ≤ code ∧ code ≤ 0x9f then false
  else if code = 0x200b ∨ code = 0x200e ∨ code = 0x200f then false
  else if 0x202a ≤ code ∧ code ≤ 0x202e then false
  else if 0x2066 ≤ code ∧ code ≤ 0x2069 then false
  else if code = 0xfeff then false
  else true

def normalizeTermsBody (raw : JsText) : JsText :=
  trim isSpace ((characters (foldCr raw)).filter keeps).flatten

/-- Some unit is neither space nor a joiner (U+200C, U+200D). -/
def isMeaningfulTermsBody (body : JsText) : Bool :=
  (body.filter fun u => !(isSpace u || u == 0x200C || u == 0x200D)).length > 0

def validateTermsBody (raw : JsText) : Except TermsBodyError JsText :=
  let body := normalizeTermsBody raw
  if !isMeaningfulTermsBody body then .error .EMPTY
  else if body.length > TERMS_MAX_BODY_LENGTH then .error .TOO_LONG
  else .ok body

variable {raw body t : JsText} {u v : UInt16}

/-! ### One pass over the units -/

theorem keeps_pair (hu : isHighSurrogate u) (hv : isLowSurrogate v) : keeps [u, v] = true := by
  have hcode : codePointAt [u, v] = supplementary u v := by
    rw [codePointAt, codePoints, if_pos ⟨hu, hv⟩, codePoints, List.headD_cons]
  have hlarge := le_supplementary u v
  simp only [keeps, hcode]
  repeat rw [if_neg (by omega)]

theorem keeps_surrogate (h : 0xD800 ≤ u.toNat ∧ u.toNat ≤ 0xDFFF) : keeps [u] = true := by
  have hcode : codePointAt [u] = u.toNat := rfl
  simp only [keeps, hcode]
  repeat rw [if_neg (by omega)]

/-- No surrogate is dropped, so that the pass may go through the units. -/
theorem flatten_filter_characters (t : JsText) :
    ((characters t).filter keeps).flatten = t.filter fun u => keeps [u] := by
  fun_induction characters t with
  | case1 => rfl
  | case2 u =>
    rw [List.filter_singleton, List.filter_singleton]
    cases keeps [u] <;> rfl
  | case3 u v t hpair ih =>
    have hu := hpair.1
    have hv := hpair.2
    simp only [isHighSurrogate, isLowSurrogate, decide_eq_true_eq, UInt16.le_iff_toNat_le] at hu hv
    have hhigh := keeps_surrogate ⟨hu.1, hu.2.trans (by decide)⟩
    have hlow := keeps_surrogate ⟨(show 0xD800 ≤ 0xDC00 by decide).trans hv.1, hv.2⟩
    simp only [List.filter_cons, keeps_pair hpair.1 hpair.2, hhigh, hlow, if_true,
      List.flatten_cons, ih]
    rfl
  | case4 u v t hpair ih =>
    rw [List.filter_cons, List.filter_cons]
    split_ifs
    · rw [List.flatten_cons, ih]
      rfl
    · exact ih

theorem normalizeTermsBody_eq (raw : JsText) :
    normalizeTermsBody raw = trim isSpace ((foldCr raw).filter fun u => keeps [u]) := by
  rw [normalizeTermsBody, flatten_filter_characters]

/-! ### A second pass -/

theorem foldCr_of_not_mem (h : cr ∉ t) : foldCr t = t := by
  fun_induction foldCr t with
  | case1 => rfl
  | case2 c => rw [if_neg (fun hc => h (List.mem_singleton.mpr hc.symm))]
  | case3 t => exact absurd (.head _) h
  | case4 d t hd ih => exact absurd (.head _) h
  | case5 c d t hc ih => rw [ih fun hmem => h (.tail _ hmem)]

theorem keeps_of_mem_normalized (h : u ∈ normalizeTermsBody raw) : keeps [u] = true := by
  rw [normalizeTermsBody_eq] at h
  exact (List.mem_filter.mp ((trim_within _).subset h)).2

theorem normalizeTermsBody_of_kept (hkept : ∀ u ∈ t, keeps [u] = true)
    (htrim : trim isSpace t = t) : normalizeTermsBody t = t := by
  have hcr : cr ∉ t := fun hmem => absurd (hkept cr hmem) (by decide)
  rw [normalizeTermsBody_eq, foldCr_of_not_mem hcr, List.filter_eq_self.mpr hkept, htrim]

theorem normalizeTermsBody_idem (raw : JsText) :
    normalizeTermsBody (normalizeTermsBody raw) = normalizeTermsBody raw := by
  refine normalizeTermsBody_of_kept (fun u hu => keeps_of_mem_normalized hu) ?_
  rw [normalizeTermsBody, trim_trim]

theorem validateTermsBody_eq_ok : validateTermsBody raw = .ok body ↔
    normalizeTermsBody raw = body ∧ isMeaningfulTermsBody body = true ∧
      body.length ≤ TERMS_MAX_BODY_LENGTH := by
  rw [validateTermsBody]
  constructor
  · intro h
    split_ifs at h with hempty hlong
    obtain rfl := Except.ok.inj h
    exact ⟨rfl, by simpa using hempty, Nat.le_of_not_lt hlong⟩
  · rintro ⟨rfl, hmeaning, hshort⟩
    rw [if_neg (by simpa using hmeaning), if_neg (Nat.not_lt.mpr hshort)]

/-- The second check passes on what the first let through, and changes nothing. -/
theorem validateTermsBody_again (h : validateTermsBody raw = .ok body) :
    validateTermsBody body = .ok body := by
  obtain ⟨rfl, hmeaning, hshort⟩ := validateTermsBody_eq_ok.mp h
  exact validateTermsBody_eq_ok.mpr ⟨normalizeTermsBody_idem raw, hmeaning, hshort⟩

/-- A lone `\r` is a newline, and a right-to-left override is gone. -/
example : normalizeTermsBody [0x20, 0x41, 0xD, 0x202E, 0x42, 0xD, 0xA] = [0x41, 0xA, 0x42] := by
  decide

end ZedBot.Terms
