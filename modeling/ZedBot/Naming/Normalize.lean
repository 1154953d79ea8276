import Mathlib.Data.List.Chain
import Mathlib.Data.List.Infix
import Mathlib.Data.List.TakeWhile
import Mathlib.Data.Nat.Notation
import Mathlib.Tactic.SplitIfs

/-! The remote username of an order.

    A raw name is rewritten in steps: lower case, one separator for each run of other characters, one
    for each run of separators, none at the ends. A name that is too long is cut, one that is too short
    is extended, and both get the short id of the order at the end.

        raw ──▶ tidy core ──▶ too long: cut, with the short id ──▶ too short: with the short id -/

namespace ZedBot.Naming

def MAX_REMOTE_USERNAME_LENGTH : ℕ := 32
def MIN_REMOTE_USERNAME_LENGTH : ℕ := 3

/-! ### The steps -/

def isLetterOrDigit (c : Char) : Bool := ('a' ≤ c ∧ c ≤ 'z') ∨ ('0' ≤ c ∧ c ≤ '9')

/-- `[a-z0-9_]`. -/
def isNameChar (c : Char) : Bool := isLetterOrDigit c ∨ c = '_'

/-- `toLowerCase()` of a character, as far as it leads to `[a-z0-9_]`: beside the capital letters, the
    Kelvin sign and the capital I with a dot have lower-case forms with an ASCII letter. -/
def lowerChar (c : Char) : List Char :=
  if 'A' ≤ c ∧ c ≤ 'Z' then [Char.ofNat (c.toNat + 32)]
  else if c.toNat = 0x212A then ['k']
  else if c.toNat = 0x130 then ['i', Char.ofNat 0x307]
  else [c]

def toLowerCase (raw : List Char) : List Char := raw.flatMap lowerChar

/-- Each maximal run of the characters `p` becomes one separator; `inRun` is the state of the scan. -/
def replaceRuns (p : Char → Bool) : Bool → List Char → List Char
  | _, [] => []
  | inRun, c :: cs =>
    if p c then if inRun then replaceRuns p true cs else '_' :: replaceRuns p true cs
    else c :: replaceRuns p false cs

/-- `.replace(/[^a-z0-9_]+/g, "_")`. -/
def sanitize (raw : List Char) : List Char := replaceRuns (fun c => ¬ isNameChar c) false raw

/-- `.replace(/_+/g, "_")`. -/
def collapse (raw : List Char) : List Char := replaceRuns (· = '_') false raw

/-- `.replace(/_+$/g, "")`. -/
def stripEnd (raw : List Char) : List Char := (raw.reverse.dropWhile (· = '_')).reverse

/-- `.replace(/^_+|_+$/g, "")`. -/
def trimSeparators (raw : List Char) : List Char := (stripEnd raw).dropWhile (· = '_')

/-- The raw name after the first steps. -/
def core (raw : List Char) : List Char :=
  trimSeparators (collapse (sanitize (toLowerCase raw)))

/-- The core, or a name made of the order alone. -/
def coreOr (raw orderShort : List Char) : List Char :=
  if core raw = [] then 'o' :: '_' :: orderShort else core raw

/-- A name that is too long keeps the tail for the order. -/
def cutLong (orderShort normalized : List Char) : List Char :=
  if MAX_REMOTE_USERNAME_LENGTH < normalized.length then
    let keep := MAX_REMOTE_USERNAME_LENGTH - orderShort.length - 1
    stripEnd (normalized.take keep) ++ '_' :: orderShort
  else normalized

def padShort (orderShort normalized : List Char) : List Char :=
  if normalized.length < MIN_REMOTE_USERNAME_LENGTH then
    (normalized ++ '_' :: orderShort).take MAX_REMOTE_USERNAME_LENGTH
  else normalized

def normalizeChars (raw orderShort : List Char) : List Char :=
  padShort orderShort (cutLong orderShort (coreOr raw orderShort))

def normalizeRemoteUsername (raw orderShort : String) : String :=
  String.ofList (normalizeChars raw.toList orderShort.toList)

/-! ### Tidy names -/

/-- Names over `[a-z0-9_]` without a leading, trailing or doubled separator. -/
structure Tidy (w : List Char) : Prop where
  chars : ∀ c ∈ w, isNameChar c = true
  single : w.IsChain fun a b => ¬ (a = '_' ∧ b = '_')
  head : w.head? ≠ some '_'
  last : w.getLast? ≠ some '_'

/-- The short id of an order: eight hexadecimal digits. -/
structure ShortId (w : List Char) : Prop where
  length : w.length = 8
  digits : ∀ c ∈ w, ('0' ≤ c ∧ c ≤ '9') ∨ 'a' ≤ c ∧ c ≤ 'f'

/-- What a remote username has to be. -/
structure WellFormed (w : List Char) : Prop extends Tidy w where
  minimum : MIN_REMOTE_USERNAME_LENGTH ≤ w.length
  maximum : w.length ≤ MAX_REMOTE_USERNAME_LENGTH

section Tidy

variable {p : Char → Bool} {b : Bool} {c : Char} {raw xs ys w s : List Char}

theorem mem_replaceRuns : ∀ {b : Bool} {raw : List Char}, c ∈ replaceRuns p b raw →
    c = '_' ∨ p c = false
  | _, [], h => nomatch h
  | b, x :: xs, h => by
    rw [replaceRuns] at h
    split_ifs at h with hx hb
    · exact mem_replaceRuns h
    · rcases List.mem_cons.mp h with rfl | h
      · exact .inl rfl
      · exact mem_replaceRuns h
    · rcases List.mem_cons.mp h with rfl | h
      · exact .inr (Bool.eq_false_iff.mpr hx)
      · exact mem_replaceRuns h

theorem mem_replaceRuns_of_mem : ∀ {b : Bool} {raw : List Char}, c ∈ replaceRuns p b raw →
    c = '_' ∨ c ∈ raw
  | _, [], h => nomatch h
  | b, x :: xs, h => by
    rw [replaceRuns] at h
    split_ifs at h with hx hb
    · exact (mem_replaceRuns_of_mem h).imp_right (.tail _)
    · rcases List.mem_cons.mp h with rfl | h
      · exact .inl rfl
      · exact (mem_replaceRuns_of_mem h).imp_right (.tail _)
    · rcases List.mem_cons.mp h with rfl | h
      · exact .inr List.mem_cons_self
      · exact (mem_replaceRuns_of_mem h).imp_right (.tail _)

/-- Nothing to replace. -/
theorem replaceRuns_of_none : ∀ {b : Bool} {raw : List Char}, (∀ c ∈ raw, p c = false) →
    replaceRuns p b raw = raw
  | _, [], _ => rfl
  | b, x :: xs, h => by
    rw [replaceRuns, if_neg (by rw [h x List.mem_cons_self]; exact Bool.false_ne_true),
      replaceRuns_of_none fun c hc => h c (.tail _ hc)]

/-- A character that stays ends the run before it. -/
theorem replaceRuns_append (hc : p c = false) : ∀ {b : Bool} {xs : List Char},
    replaceRuns p b (xs ++ c :: ys) = replaceRuns p b xs ++ c :: replaceRuns p false ys
  | b, [] => by
    change replaceRuns p b (c :: ys) = c :: replaceRuns p false ys
    rw [replaceRuns, if_neg (by rw [hc]; exact Bool.false_ne_true)]
  | b, x :: xs => by
    rw [List.cons_append, replaceRuns, replaceRuns]
    split_ifs
    · exact replaceRuns_append hc
    · rw [replaceRuns_append hc, List.cons_append]
    · rw [replaceRuns_append hc, List.cons_append]

/-- A collapsed name has no two separators in a row, and none first where one went before. -/
theorem collapse_single : ∀ (b : Bool) (raw : List Char),
    (replaceRuns (· = '_') b raw).IsChain (fun a b => ¬ (a = '_' ∧ b = '_')) ∧
      (b = true → (replaceRuns (· = '_') b raw).head? ≠ some '_')
  | _, [] => ⟨.nil, fun _ => nofun⟩
  | b, x :: xs => by
    obtain ⟨htrue, hhead⟩ := collapse_single true xs
    obtain ⟨hfalse, -⟩ := collapse_single false xs
    rw [replaceRuns]
    split_ifs with hx hb
    · exact ⟨htrue, fun _ => hhead rfl⟩
    · refine ⟨List.isChain_cons.mpr ⟨fun y hy hboth => hhead rfl ?_, htrue⟩, fun h => absurd h hb⟩
      rw [hboth.2] at hy
      exact hy
    · have hx : x ≠ '_' := fun h => hx (decide_eq_true h)
      refine ⟨List.isChain_cons.mpr ⟨fun y _ hboth => hx hboth.1, hfalse⟩, fun _ h => hx ?_⟩
      exact Option.some.inj h

theorem dropWhile_head (p : Char → Bool) (xs : List Char) (h : p c = true) :
    (xs.dropWhile p).head? ≠ some c := by
  intro hc
  have hnot := List.head?_dropWhile_not p xs
  rw [hc] at hnot
  simp [h] at hnot

theorem chain_part {R : Char → Char → Prop} {xs ys : List Char} (h : List.IsChain R ys)
    (hpart : xs <:+: ys) : List.IsChain R xs := by
  obtain ⟨before, after, rfl⟩ := hpart
  exact h.left_of_append.right_of_append

theorem stripEnd_front (raw : List Char) : stripEnd raw <+: raw := by
  rw [stripEnd, ← List.reverse_suffix, List.reverse_reverse]
  exact List.dropWhile_suffix _

theorem stripEnd_last (raw : List Char) : (stripEnd raw).getLast? ≠ some '_' := by
  rw [stripEnd, List.getLast?_reverse]
  exact dropWhile_head _ _ rfl

theorem trimSeparators_part (raw : List Char) : trimSeparators raw <:+: raw :=
  (List.dropWhile_suffix _).isInfix.trans (stripEnd_front raw).isInfix

/-- The core of a name is tidy. -/
theorem core_tidy (raw : List Char) : Tidy (core raw) := by
  have hpart := trimSeparators_part (collapse (sanitize (toLowerCase raw)))
  refine ⟨fun c hc => ?_, ?_, dropWhile_head _ _ rfl, ?_⟩
  · rcases mem_replaceRuns_of_mem (hpart.mem hc) with rfl | hc
    · rfl
    · rcases mem_replaceRuns hc with rfl | hc
      · rfl
      · simpa using hc
  · exact chain_part (collapse_single _ _).1 hpart
  · rw [core, trimSeparators]
    intro hlast
    refine stripEnd_last (collapse (sanitize (toLowerCase raw))) ?_
    obtain ⟨pre, hpre⟩ := List.dropWhile_suffix (· = '_')
      (l := stripEnd (collapse (sanitize (toLowerCase raw))))
    rw [← hpre, List.getLast?_append, hlast]
    rfl

/-- Tidy names stay as they are. -/
theorem dropWhile_of_head (h : w.head? ≠ some '_') : w.dropWhile (· = '_') = w := by
  cases w with
  | nil => rfl
  | cons c cs =>
    rw [List.dropWhile_cons, if_neg]
    intro hc
    exact h (congrArg some (of_decide_eq_true hc))

theorem stripEnd_of_last (h : w.getLast? ≠ some '_') : stripEnd w = w := by
  rw [stripEnd, dropWhile_of_head (by rwa [List.head?_reverse]), List.reverse_reverse]

theorem collapse_of_single : ∀ {b : Bool} {w : List Char},
    w.IsChain (fun a b => ¬ (a = '_' ∧ b = '_')) → (b = true → w.head? ≠ some '_') →
    replaceRuns (· = '_') b w = w
  | _, [], _, _ => rfl
  | b, x :: xs, hchain, hhead => by
    obtain ⟨hnext, hchain⟩ := List.isChain_cons.mp hchain
    rw [replaceRuns]
    split_ifs with hx hb
    · have hx : x = '_' := of_decide_eq_true hx
      exact (hhead hb (by rw [hx]; rfl)).elim
    · have hx : x = '_' := of_decide_eq_true hx
      rw [collapse_of_single hchain fun _ hy => hnext '_' hy ⟨hx, rfl⟩, hx]
    · rw [collapse_of_single (b := false) hchain nofun]

theorem lowerChar_of_nameChar (h : isNameChar c = true) : lowerChar c = [c] := by
  simp only [isNameChar, isLetterOrDigit, decide_eq_true_eq] at h
  have hnat : (97 ≤ c.toNat ∧ c.toNat ≤ 122) ∨ (48 ≤ c.toNat ∧ c.toNat ≤ 57) ∨ c.toNat = 95 := by
    rcases h with (h | h) | rfl
    · exact .inl h
    · exact .inr (.inl h)
    · exact .inr (.inr rfl)
  have hupper : ¬ ('A' ≤ c ∧ c ≤ 'Z') := by
    rintro ⟨hA, hZ⟩
    have hA : 65 ≤ c.toNat := hA
    have hZ : c.toNat ≤ 90 := hZ
    omega
  rw [lowerChar, if_neg hupper, if_neg (by omega), if_neg (by omega)]

theorem toLowerCase_of_nameChars (h : ∀ c ∈ w, isNameChar c = true) : toLowerCase w = w := by
  induction w with
  | nil => rfl
  | cons c cs ih =>
    rw [toLowerCase, List.flatMap_cons, lowerChar_of_nameChar (h c List.mem_cons_self)]
    exact congrArg (c :: ·) (ih fun x hx => h x (.tail _ hx))

/-- The core of a tidy name is the name. -/
theorem core_of_tidy (h : Tidy w) : core w = w := by
  have hchars : ∀ c ∈ w, (fun c => decide ¬ isNameChar c = true) c = false := fun c hc => by
    simpa using h.chars c hc
  rw [core, toLowerCase_of_nameChars h.chars, sanitize, replaceRuns_of_none hchars, collapse,
    collapse_of_single (b := false) h.single nofun, trimSeparators, stripEnd_of_last h.last,
    dropWhile_of_head h.head]

/-! ### A name with the short id behind it -/

namespace ShortId

theorem ne_separator (h : ShortId s) : ∀ c ∈ s, c ≠ '_' := by
  rintro c hc rfl
  rcases h.digits _ hc with hd | hd <;> revert hd <;> decide

theorem nameChar (h : ShortId s) : ∀ c ∈ s, isNameChar c = true := by
  intro c hc
  simp only [isNameChar, isLetterOrDigit, decide_eq_true_eq]
  rcases h.digits c hc with hd | hd
  · exact .inl (.inr hd)
  · exact .inl (.inl ⟨hd.1, Char.le_trans hd.2 (by decide : 'f' ≤ 'z')⟩)

theorem ne_nil (h : ShortId s) : s ≠ [] := by
  rintro rfl
  have hlength := h.length
  cases hlength

theorem tidy (h : ShortId s) : Tidy s where
  chars := h.nameChar
  single := by
    refine List.Pairwise.isChain (List.pairwise_of_forall_mem_list fun a ha _ _ hboth => ?_)
    exact h.ne_separator a ha hboth.1
  head hc := h.ne_separator _ (List.mem_of_head? hc) rfl
  last hc := h.ne_separator _ (List.mem_of_getLast? hc) rfl

end ShortId

/-- A tidy name that is not empty, with the short id behind it. -/
theorem Tidy.with_short (hw : Tidy w) (hne : w ≠ []) (hs : ShortId s) : Tidy (w ++ '_' :: s) where
  chars c hc := by
    rcases List.mem_append.mp hc with hc | hc
    · exact hw.chars c hc
    · rcases List.mem_cons.mp hc with rfl | hc
      · rfl
      · exact hs.nameChar c hc
  single := by
    refine List.isChain_append.mpr ⟨hw.single, List.isChain_cons.mpr ⟨fun y hy hboth => ?_,
      hs.tidy.single⟩, fun x hx y _ hboth => hw.last (hboth.1 ▸ hx)⟩
    exact hs.tidy.head (hboth.2 ▸ hy)
  head := by
    rw [List.head?_append_of_ne_nil _ hne]
    exact hw.head
  last := by
    rw [List.getLast?_append, List.getLast?_cons, List.getLast?_eq_some_getLast hs.ne_nil]
    exact fun hc => hs.ne_separator _ (List.getLast_mem hs.ne_nil) (Option.some.inj hc)

/-- What is not replaced stays. -/
theorem mem_replaceRuns_of_not (hc : p c = false) : ∀ {b : Bool} {raw : List Char}, c ∈ raw →
    c ∈ replaceRuns p b raw
  | b, x :: xs, h => by
    rw [replaceRuns]
    rcases List.mem_cons.mp h with rfl | h
    · rw [if_neg (by rw [hc]; exact Bool.false_ne_true)]
      exact List.mem_cons_self
    · split_ifs
      · exact mem_replaceRuns_of_not hc h
      · exact .tail _ (mem_replaceRuns_of_not hc h)
      · exact .tail _ (mem_replaceRuns_of_not hc h)

theorem stripEnd_eq_nil : stripEnd w = [] ↔ ∀ c ∈ w, c = '_' := by
  rw [stripEnd, List.reverse_eq_nil_iff, List.dropWhile_eq_nil_iff]
  simp

/-- Nothing is left of separators after a separator. -/
theorem stripEnd_collapse_eq_nil :
    stripEnd (replaceRuns (· = '_') b xs) = [] ↔ ∀ c ∈ xs, c = '_' := by
  rw [stripEnd_eq_nil]
  constructor
  · intro h c hc
    by_contra hne
    exact hne (h c (mem_replaceRuns_of_not (decide_eq_false hne) hc))
  · intro h c hc
    exact (mem_replaceRuns_of_mem hc).elim id (h c)

/-- A character before the end stays where it is no separator, or where something is left behind it. -/
theorem stripEnd_cons (h : c ≠ '_' ∨ stripEnd w ≠ []) : stripEnd (c :: w) = c :: stripEnd w := by
  rw [stripEnd, stripEnd, List.reverse_cons, List.dropWhile_append]
  split_ifs with hempty
  · have hnil : List.dropWhile (· = '_') w.reverse = [] := List.isEmpty_iff.mp hempty
    rcases h with h | h
    · rw [hnil, List.dropWhile_cons, if_neg (by simpa using h)]
      rfl
    · exact (h (by rw [stripEnd, hnil]; rfl)).elim
  · rw [List.reverse_append]
    rfl

/-- What is collapsed before a separator and a short id, after a separator or not. -/
theorem collapse_with_short (hs : ShortId s) : ∀ xs : List Char,
    replaceRuns (· = '_') false (xs ++ '_' :: s) =
        stripEnd (replaceRuns (· = '_') false xs) ++ '_' :: s ∧
      replaceRuns (· = '_') true (xs ++ '_' :: s) =
        if stripEnd (replaceRuns (· = '_') true xs) = [] then s
        else stripEnd (replaceRuns (· = '_') true xs) ++ '_' :: s
  | [] => by
    have hshort : replaceRuns (· = '_') true s = s :=
      replaceRuns_of_none fun c hc => decide_eq_false (hs.ne_separator c hc)
    refine ⟨?_, ?_⟩
    · change '_' :: replaceRuns (· = '_') true s = _
      rw [hshort]
      rfl
    · change replaceRuns (· = '_') true s = _
      rw [hshort]
      rfl
  | x :: xs => by
    obtain ⟨hfalse, htrue⟩ := collapse_with_short hs xs
    simp only [List.cons_append, replaceRuns]
    by_cases hx : x = '_'
    · simp only [hx, decide_true, if_true, Bool.false_eq_true, if_false]
      refine ⟨?_, htrue⟩
      rw [htrue]
      split_ifs with hnil
      · rw [stripEnd_eq_nil] at hnil
        rw [stripEnd_eq_nil.mpr fun c hc => (List.mem_cons.mp hc).elim id (hnil c)]
        rfl
      · rw [stripEnd_cons (.inr hnil)]
        rfl
    · have hx' : ¬ decide (x = '_') = true := fun h => hx (of_decide_eq_true h)
      simp only [if_neg hx', hfalse, stripEnd_cons (.inl hx), List.cons_append, reduceCtorEq, if_false,
        and_self]

/-- The core of a raw name with the short id behind it. -/
theorem core_with_short (hs : ShortId s) (raw : List Char) :
    core (raw ++ '_' :: s) = if core raw = [] then s else core raw ++ '_' :: s := by
  have hlower : toLowerCase (raw ++ '_' :: s) = toLowerCase raw ++ '_' :: s := by
    rw [toLowerCase, List.flatMap_append, ← toLowerCase, ← toLowerCase,
      toLowerCase_of_nameChars (w := '_' :: s)]
    intro c hc
    rcases List.mem_cons.mp hc with rfl | hc
    · rfl
    · exact hs.nameChar c hc
  have hsanitize : sanitize (toLowerCase raw ++ '_' :: s) = sanitize (toLowerCase raw) ++ '_' :: s := by
    have hkeep : replaceRuns (fun c => ¬ isNameChar c) false s = s :=
      replaceRuns_of_none fun c hc => by simpa using hs.nameChar c hc
    rw [sanitize, replaceRuns_append (by rfl), hkeep]
    rfl
  rw [core, hlower, hsanitize, collapse, (collapse_with_short hs _).1, trimSeparators, stripEnd_of_last]
  · have hcore : core raw = (stripEnd (replaceRuns (· = '_') false (sanitize (toLowerCase raw)))).dropWhile
        (· = '_') := rfl
    have hdrop : ('_' :: s).dropWhile (· = '_') = s := by
      rw [List.dropWhile_cons, if_pos (by rfl), dropWhile_of_head hs.tidy.head]
    rw [List.dropWhile_append, ← hcore, hdrop]
    by_cases hnil : core raw = []
    · rw [if_pos hnil, if_pos (List.isEmpty_iff.mpr hnil)]
    · rw [if_neg hnil, if_neg fun h => hnil (List.isEmpty_iff.mp h)]
  · rw [List.getLast?_append, List.getLast?_cons, List.getLast?_eq_some_getLast hs.ne_nil]
    exact fun hc => hs.ne_separator _ (List.getLast_mem hs.ne_nil) (Option.some.inj hc)

end Tidy

/-! ### The normalized name -/

section Normalized

variable {raw raw' s s' w : List Char}

theorem coreOr_tidy (hs : ShortId s) (raw : List Char) : Tidy (coreOr raw s) ∧ coreOr raw s ≠ [] := by
  rw [coreOr]
  split_ifs with h
  · refine ⟨?_, nofun⟩
    have ho : Tidy ['o'] := ⟨List.forall_mem_singleton.mpr rfl, by decide, by decide, by decide⟩
    exact ho.with_short (by decide) hs
  · exact ⟨core_tidy raw, h⟩

/-- What is kept of a name that is cut. -/
theorem cut_tidy (hw : Tidy w) (hne : w ≠ []) {n : ℕ} (hn : 0 < n) :
    Tidy (stripEnd (w.take n)) ∧ stripEnd (w.take n) ≠ [] := by
  have hfront : stripEnd (w.take n) <+: w := (stripEnd_front _).trans (List.take_prefix n w)
  obtain ⟨c, cs, rfl⟩ := List.exists_cons_of_ne_nil hne
  have hc : c ≠ '_' := fun h => hw.head (congrArg some h)
  have hcut : stripEnd ((c :: cs).take n) ≠ [] := by
    intro hnil
    refine hc (stripEnd_eq_nil.mp hnil c ?_)
    obtain ⟨m, rfl⟩ := Nat.exists_eq_succ_of_ne_zero hn.ne'
    exact List.mem_cons_self
  refine ⟨⟨fun x hx => hw.chars x (hfront.subset hx), chain_part hw.single hfront.isInfix,
    fun hhead => hw.head ?_, stripEnd_last _⟩, hcut⟩
  obtain ⟨rest, hrest⟩ := hfront
  rw [← hrest, List.head?_append, hhead]
  rfl

/-- A name of a length within the bounds stays; another one ends with the short id. -/
theorem normalizeChars_cases (hs : ShortId s) (raw : List Char) :
    (32 < (coreOr raw s).length ∧
      normalizeChars raw s = stripEnd ((coreOr raw s).take 23) ++ '_' :: s) ∨
    ((coreOr raw s).length < 3 ∧ normalizeChars raw s = coreOr raw s ++ '_' :: s) ∨
    3 ≤ (coreOr raw s).length ∧ (coreOr raw s).length ≤ 32 ∧ normalizeChars raw s = coreOr raw s := by
  have hlength := hs.length
  rw [normalizeChars, padShort, cutLong, hs.length]
  by_cases hlong : MAX_REMOTE_USERNAME_LENGTH < (coreOr raw s).length
  · refine .inl ⟨hlong, ?_⟩
    rw [if_pos hlong, if_neg]
    · rfl
    · rw [List.length_append, List.length_cons, hlength, MIN_REMOTE_USERNAME_LENGTH]
      omega
  · rw [if_neg hlong]
    by_cases hshort : (coreOr raw s).length < MIN_REMOTE_USERNAME_LENGTH
    · refine .inr (.inl ⟨hshort, ?_⟩)
      rw [if_pos hshort, List.take_of_length_le]
      rw [List.length_append, List.length_cons, hlength, MAX_REMOTE_USERNAME_LENGTH]
      rw [MIN_REMOTE_USERNAME_LENGTH] at hshort
      omega
    · rw [if_neg hshort]
      exact .inr (.inr ⟨Nat.not_lt.mp hshort, Nat.not_lt.mp hlong, rfl⟩)

/-- A normalized name is well formed. -/
theorem normalizeChars_wellFormed (hs : ShortId s) (raw : List Char) :
    WellFormed (normalizeChars raw s) := by
  obtain ⟨htidy, hne⟩ := coreOr_tidy hs raw
  have hlength := hs.length
  rcases normalizeChars_cases hs raw with ⟨-, h⟩ | ⟨hlen, h⟩ | ⟨hmin, hmax, h⟩ <;> rw [h]
  · obtain ⟨hcut, hcutne⟩ := cut_tidy htidy hne (n := 23) (by decide)
    refine ⟨hcut.with_short hcutne hs, ?_, ?_⟩
    all_goals
      have hle := (stripEnd_front ((coreOr raw s).take 23)).length_le
      rw [List.length_take] at hle
      rw [List.length_append, List.length_cons, hlength]
      simp only [MIN_REMOTE_USERNAME_LENGTH, MAX_REMOTE_USERNAME_LENGTH]
      omega
  · refine ⟨htidy.with_short hne hs, ?_, ?_⟩
    all_goals
      rw [List.length_append, List.length_cons, hlength]
      simp only [MIN_REMOTE_USERNAME_LENGTH, MAX_REMOTE_USERNAME_LENGTH]
      omega
  · exact ⟨htidy, hmin, hmax⟩

/-- A well-formed name is its own normal form. -/
theorem normalizeChars_of_wellFormed (hw : WellFormed w) : normalizeChars w s = w := by
  have hmin := hw.minimum
  have hmax := hw.maximum
  have hne : w ≠ [] := by
    rintro rfl
    cases hmin
  have hcore : coreOr w s = w := by
    rw [coreOr, core_of_tidy hw.toTidy, if_neg hne]
  rw [normalizeChars, hcore, cutLong, if_neg (Nat.not_lt.mpr hmax), padShort,
    if_neg (Nat.not_lt.mpr hmin)]

/-- The name had to be cut. -/
def Truncates (raw s : List Char) : Prop := MAX_REMOTE_USERNAME_LENGTH < (coreOr raw s).length

/-- Names that were cut differ where the orders do. -/
theorem normalizeChars_separates (hs : ShortId s) (hs' : ShortId s') (hne : s ≠ s')
    (hcut : Truncates raw s) (hcut' : Truncates raw' s') :
    normalizeChars raw s ≠ normalizeChars raw' s' := by
  have hform : ∀ {raw s : List Char}, ShortId s → Truncates raw s →
      ∃ pre, normalizeChars raw s = pre ++ s := by
    intro raw s hs hcut
    rcases normalizeChars_cases hs raw with ⟨-, h⟩ | ⟨hlen, -⟩ | ⟨-, hmax, -⟩
    · exact ⟨_, by rw [h, List.append_cons]⟩
    · exact absurd (hlen.trans (by decide : 3 < 32)) (Nat.not_lt.mpr hcut.le)
    · exact absurd hcut (Nat.not_lt.mpr hmax)
  obtain ⟨pre, hpre⟩ := hform hs hcut
  obtain ⟨pre', hpre'⟩ := hform hs' hcut'
  rw [hpre, hpre']
  intro h
  exact hne (List.append_inj' h (by rw [hs.length, hs'.length])).2

/-! ### The fallback -/

/-- The core is empty, or it has a length within the bounds and does not fill them with the short id at
    its end. -/
def Extends (raw s : List Char) : Prop :=
  core raw = [] ∨ 3 ≤ (core raw).length ∧ (core raw).length ≤ 32 ∧
    ¬ (31 ≤ (core raw).length ∧ '_' :: s <:+ core raw)

theorem take_of_separator {pre : List Char} (htidy : Tidy (pre ++ '_' :: s))
    (h : 22 ≤ pre.length) (h' : pre.length ≤ 23) (rest : List Char) :
    stripEnd (((pre ++ '_' :: s) ++ rest).take 23) = pre := by
  have hlast : pre.getLast? ≠ some '_' := by
    intro hlast
    obtain ⟨-, -, hjoin⟩ := List.isChain_append.mp htidy.single
    exact hjoin '_' hlast '_' rfl ⟨rfl, rfl⟩
  rw [List.append_assoc]
  rcases Nat.lt_or_eq_of_le h' with hlt | heq
  · have hlen : pre.length = 22 := by omega
    rw [List.take_append, hlen, List.take_of_length_le (by omega)]
    change stripEnd (pre ++ ['_']) = pre
    rw [stripEnd, List.reverse_append]
    change (pre.reverse.dropWhile (· = '_')).reverse = pre
    exact stripEnd_of_last hlast
  · rw [List.take_append, heq, List.take_of_length_le (by omega), Nat.sub_self, List.take_zero,
      List.append_nil]
    exact stripEnd_of_last hlast

theorem take_of_short (hs : ShortId s) (pre : List Char) (h : pre.length + 2 ≤ 23) :
    stripEnd ((pre ++ '_' :: s).take 23) ≠ pre := by
  obtain ⟨m, hm⟩ : ∃ m, 23 - pre.length = m + 2 := ⟨23 - pre.length - 2, by omega⟩
  have htake : (pre ++ '_' :: s).take 23 = pre ++ '_' :: s.take (m + 1) := by
    rw [List.take_append, List.take_of_length_le (by omega), hm]
    rfl
  have hne : s.take (m + 1) ≠ [] := by
    intro hnil
    have hlen := congrArg List.length hnil
    rw [List.length_take, hs.length, List.length_nil] at hlen
    omega
  rw [htake, stripEnd_of_last]
  · intro heq
    have hlen := congrArg List.length heq
    rw [List.length_append, List.length_cons] at hlen
    omega
  · rw [List.getLast?_append, List.getLast?_cons, List.getLast?_eq_some_getLast hne]
    exact fun hc => hs.ne_separator _ (List.mem_of_mem_take (List.getLast_mem hne))
      (Option.some.inj hc)

/-- FALLBACK: the name with the short id behind it is another one, exactly where the core can be
    extended. -/
theorem fallback_ne_iff (hs : ShortId s) (raw : List Char) :
    normalizeChars (raw ++ '_' :: s) s ≠ normalizeChars raw s ↔ Extends raw s := by
  have hlength := hs.length
  have hext := core_with_short hs raw
  by_cases hnil : core raw = []
  · -- the order alone: `o_…` at first, the short id then
    rw [if_pos hnil] at hext
    refine iff_of_true ?_ (.inl hnil)
    have hbase : coreOr raw s = 'o' :: '_' :: s := by rw [coreOr, if_pos hnil]
    have hfallback : coreOr (raw ++ '_' :: s) s = s := by
      rw [coreOr, hext, if_neg hs.ne_nil]
    rcases normalizeChars_cases hs raw with ⟨h, -⟩ | ⟨h, -⟩ | ⟨-, -, h⟩
    · rw [hbase, List.length_cons, List.length_cons, hlength] at h
      omega
    · rw [hbase, List.length_cons, List.length_cons, hlength] at h
      omega
    rcases normalizeChars_cases hs (raw ++ '_' :: s) with ⟨h', -⟩ | ⟨h', -⟩ | ⟨-, -, h'⟩
    · rw [hfallback, hlength] at h'
      omega
    · rw [hfallback, hlength] at h'
      omega
    rw [h, h', hbase, hfallback]
    intro heq
    have hlen := congrArg List.length heq
    rw [List.length_cons, List.length_cons] at hlen
    omega
  · rw [if_neg hnil] at hext
    have hbase : coreOr raw s = core raw := by rw [coreOr, if_neg hnil]
    have hfallback : coreOr (raw ++ '_' :: s) s = core raw ++ '_' :: s := by
      rw [coreOr, hext, if_neg (by simp)]
    have htidy := core_tidy raw
    rw [Extends, or_iff_right hnil]
    generalize hn : core raw = n at hbase hfallback hnil htidy
    have hlen : (n ++ '_' :: s).length = n.length + 9 := by
      rw [List.length_append, List.length_cons, hlength]
    rcases normalizeChars_cases hs raw with ⟨h, hcut⟩ | ⟨h, hpad⟩ | ⟨hmin, hmax, hsame⟩
    · -- the same cut of the longer name
      rw [hbase] at h hcut
      refine iff_of_false (not_not.mpr ?_) fun hle => by omega
      rcases normalizeChars_cases hs (raw ++ '_' :: s) with ⟨-, hcut'⟩ | ⟨h', -⟩ | ⟨-, h', -⟩
      · rw [hcut, hcut', hfallback, List.take_append_of_le_length (by omega)]
      · rw [hfallback, hlen] at h'
        omega
      · rw [hfallback, hlen] at h'
        omega
    · -- the short id was behind it already
      rw [hbase] at h hpad
      refine iff_of_false (not_not.mpr ?_) fun hle => by omega
      rcases normalizeChars_cases hs (raw ++ '_' :: s) with ⟨h', -⟩ | ⟨h', -⟩ | ⟨-, -, hsame⟩
      · rw [hfallback, hlen] at h'
        omega
      · rw [hfallback, hlen] at h'
        omega
      · rw [hsame, hpad, hfallback]
    · rw [hbase] at hmin hmax hsame
      rcases normalizeChars_cases hs (raw ++ '_' :: s) with ⟨h', hcut⟩ | ⟨h', -⟩ | ⟨-, h', hext'⟩
      · rw [hfallback] at h' hcut
        rw [hcut, hsame, not_iff_comm]
        rw [hlen] at h'
        constructor
        · intro hnot
          have hfull : 31 ≤ n.length ∧ '_' :: s <:+ n := by
            by_contra hother
            exact hnot ⟨hmin, hmax, hother⟩
          obtain ⟨hlong, pre, rfl⟩ := hfull
          rw [List.length_append, List.length_cons, hlength] at hlong hmax
          rw [take_of_separator htidy (by omega) (by omega)]
        · rintro heq ⟨-, -, hnot⟩
          refine hnot ⟨?_, _, heq⟩
          by_contra hlt
          have hle := congrArg List.length heq
          rw [List.length_append, List.length_cons, hlength] at hle
          have htake : (n ++ '_' :: s).take 23 = n.take 23 := List.take_append_of_le_length (by omega)
          refine take_of_short hs (stripEnd ((n ++ '_' :: s).take 23)) (by omega) ?_
          rw [heq, ← htake]
      · rw [hfallback, hlen] at h'
        omega
      · rw [hfallback, hlen] at h'
        rw [hext', hsame, hfallback]
        refine iff_of_true (fun heq => ?_) ⟨hmin, hmax, fun hfull => by omega⟩
        have hlen' := congrArg List.length heq
        rw [hlen] at hlen'
        omega

end Normalized

end ZedBot.Naming
