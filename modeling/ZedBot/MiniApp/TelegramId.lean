import ZedBot.MiniApp.InitData

/-! # The id that is read by pattern

    The id is not taken from the parsed user but by a pattern over its text. In a flat object with
    plain keys the pattern finds the key `id` and nothing else: in a string value the quotes are
    escaped, or no colon follows. -/

namespace ZedBot.MiniApp

open Json (isDigit isNumberChar isBlank)

/-- The text of a flat object with plain keys and one member `id`, a positive integer. -/
structure SignedUser (raw : Text) (literal : String) (source : List (String × Json)) : Prop where
  parsed : Json.parse (String.ofList raw) = some (.object source)
  flat : ∀ e ∈ source, e.2.isFlat = true
  plain : Json.PlainKeys raw
  own : ("id", .number literal) ∈ source
  only : ∀ v, ("id", v) ∈ source → v = .number literal
  digits : ∀ c ∈ literal.toList, isDigit c = true
  positive : 0 < digitsToNat literal.toList

variable {raw text group : Text} {literal : String} {source : List (String × Json)} {c d : Char}

theorem reads_of_parse {raw : Text} {source : List (String × Json)}
    (h : Json.parse (String.ofList raw) = some (.object source)) :
    Json.Reads Json.start raw source := by
  rw [Json.parse, String.toList_ofList] at h
  exact Option.bind_eq_some_iff.mp h

/-! ### Characters -/

theorem jsSpace_of_space (h : Json.isSpace c = true) : isJsSpace c = true := by
  rw [Json.isSpace, decide_eq_true_eq] at h
  rcases h with rfl | rfl | rfl | rfl <;> decide

theorem blank_of_jsSpace (h : isJsSpace c = true) : isBlank c = true := by
  rw [isBlank, Bool.or_eq_true, Bool.or_eq_true, decide_eq_true_eq, decide_eq_true_eq]
  rw [isJsSpace, decide_eq_true_eq] at h
  by_cases hspace : c = ' '
  · subst hspace
    exact .inl (.inl rfl)
  · have hcode : c.toNat ≠ 32 := fun heq => hspace (Char.toNat_inj.mp heq)
    simp only [List.mem_cons, List.not_mem_nil, or_false] at h
    omega

theorem numberChar_of_digit (h : isDigit c = true) : isNumberChar c = true :=
  decide_eq_true (.inl h)

theorem digit_not_minus (h : isDigit c = true) : c ≠ '-' := by
  rintro rfl
  cases h

/-! ### The digits of a match -/

/-- Digits up to another character, with no sign. -/
theorem signedDigits_digits {digits rest : Text} (hdigits : ∀ c ∈ digits, isDigit c = true)
    (hne : digits ≠ []) (hc : isDigit c = false) :
    signedDigits (digits ++ c :: rest) = some digits := by
  cases digits with
  | nil => exact absurd rfl hne
  | cons e digits =>
    have hminus : e ≠ '-' := digit_not_minus (hdigits e List.mem_cons_self)
    have hsign : Json.dropSign ['-'] (e :: digits ++ c :: rest) = e :: digits ++ c :: rest := by
      rw [List.cons_append, Json.dropSign]
      exact if_neg fun h => hminus (List.mem_singleton.mp h)
    have hall : (e :: digits ++ c :: rest).takeWhile isDigit = e :: digits := by
      rw [List.takeWhile_append_of_pos hdigits,
        List.takeWhile_cons_of_neg (by rw [hc]; exact Bool.false_ne_true), List.append_nil]
    have hnone : (e :: digits ++ c :: rest).takeWhile (· = '-') = [] :=
      List.takeWhile_cons_of_neg (by simpa using hminus)
    rw [signedDigits, hsign, hall, hnone, if_neg (List.cons_ne_nil e digits), List.take_nil,
      List.nil_append]

/-- What is matched begins with a digit or a sign, and a digit is followed by all others. -/
theorem signedDigits_cons (h : signedDigits text = some group) :
    ∃ d rest, text = d :: rest ∧ (d = '-' ∨
      isDigit d = true ∧ group = d :: rest.takeWhile isDigit) := by
  cases text with
  | nil => cases h
  | cons d rest =>
    refine ⟨d, rest, rfl, ?_⟩
    by_cases hminus : d = '-'
    · exact .inl hminus
    · right
      have hsign : Json.dropSign ['-'] (d :: rest) = d :: rest := by
        rw [Json.dropSign]
        exact if_neg fun h => hminus (List.mem_singleton.mp h)
      have hnone : (d :: rest).takeWhile (· = '-') = [] :=
        List.takeWhile_cons_of_neg (by simpa using hminus)
      rw [signedDigits, hsign, hnone, List.take_nil, List.nil_append] at h
      by_cases hdigit : isDigit d = true
      · rw [List.takeWhile_cons_of_pos hdigit, if_neg (List.cons_ne_nil _ _)] at h
        exact ⟨hdigit, (Option.some.inj h).symm⟩
      · rw [List.takeWhile_cons_of_neg hdigit, if_pos rfl] at h
        cases h

/-! ### The pattern -/

theorem dropWhile_gap {gap rest : Text} (hgap : ∀ c ∈ gap, isJsSpace c = true)
    (hc : isJsSpace c = false) : (gap ++ c :: rest).dropWhile isJsSpace = c :: rest := by
  rw [List.dropWhile_append_of_pos hgap,
    List.dropWhile_cons_of_neg (by rw [hc]; exact Bool.false_ne_true)]

/-- The pattern matches a key `id` with a number. -/
theorem matchId_key {gap gap' digits rest : Text} (hgap : ∀ c ∈ gap, Json.isSpace c = true)
    (hgap' : ∀ c ∈ gap', Json.isSpace c = true) (hdigits : ∀ c ∈ digits, isDigit c = true)
    (hne : digits ≠ []) (hc : isNumberChar c = false) :
    matchId (Json.keyText "id".toList gap gap' ++ digits ++ c :: rest) = some digits := by
  have hdigit : isDigit c = false := by
    by_contra h
    exact absurd (hc.symm.trans (numberChar_of_digit (Bool.not_eq_false _ ▸ h))) nofun
  obtain ⟨e, digits', rfl⟩ := List.exists_cons_of_ne_nil hne
  have hhead : isJsSpace e = false := by
    by_contra h
    have hdigit := hdigits e List.mem_cons_self
    have hblank := blank_of_jsSpace (Bool.not_eq_false _ ▸ h)
    rw [isDigit, decide_eq_true_eq] at hdigit
    have hlow : 48 ≤ e.toNat := hdigit.1
    have hhigh : e.toNat ≤ 57 := hdigit.2
    rw [isBlank, Bool.or_eq_true, Bool.or_eq_true, decide_eq_true_eq, decide_eq_true_eq,
      Json.isSpace, decide_eq_true_eq] at hblank
    rcases hblank with (hspace | hsmall) | hlarge
    · rcases hspace with rfl | rfl | rfl | rfl <;> exact absurd hlow (by decide)
    · omega
    · omega
  have htext : Json.keyText "id".toList gap gap' ++ (e :: digits') ++ c :: rest =
      '"' :: 'i' :: 'd' :: '"' :: (gap ++ ':' :: (gap' ++ (e :: digits' ++ c :: rest))) := by
    simp [Json.keyText]
  rw [htext, matchId, dropWhile_gap (fun d hd => jsSpace_of_space (hgap d hd)) (by decide)]
  change signedDigits _ = _
  rw [List.cons_append, dropWhile_gap (fun d hd => jsSpace_of_space (hgap' d hd)) hhead,
    ← List.cons_append]
  exact signedDigits_digits hdigits hne hdigit

/-- Where the pattern matches, the word stands in quotes before a colon and a number. -/
theorem matchId_cases (h : matchId text = some group) :
    ∃ gap gap' rest, text = '"' :: ("id".toList ++ '"' :: (gap ++ ':' :: (gap' ++ rest))) ∧
      (∀ c ∈ gap, isBlank c = true) ∧ (∀ c ∈ gap', isBlank c = true) ∧
      signedDigits rest = some group := by
  have hblank : ∀ t : Text, ∀ c ∈ t.takeWhile isJsSpace, isBlank c = true :=
    fun t c hc => blank_of_jsSpace (List.mem_takeWhile_imp hc)
  unfold matchId at h
  split at h
  · rename_i rest
    split at h
    · rename_i more hcolon
      refine ⟨rest.takeWhile isJsSpace, more.takeWhile isJsSpace, more.dropWhile isJsSpace, ?_,
        hblank rest, hblank more, h⟩
      rw [List.takeWhile_append_dropWhile, ← hcolon, List.takeWhile_append_dropWhile]
      rfl
    · cases h
  · cases h

/-- All characters of a number are digits when those read as number characters are. -/
theorem takeWhile_digits {rest : Text}
    (h : ∀ c ∈ rest.takeWhile isNumberChar, isDigit c = true) :
    rest.takeWhile isDigit = rest.takeWhile isNumberChar := by
  induction rest with
  | nil => rfl
  | cons c rest ih =>
    by_cases hnumber : isNumberChar c = true
    · rw [List.takeWhile_cons_of_pos hnumber] at h ⊢
      rw [List.takeWhile_cons_of_pos (h c List.mem_cons_self),
        ih fun d hd => h d (List.mem_cons_of_mem c hd)]
    · have hdigit : ¬ isDigit c = true := fun hd => hnumber (numberChar_of_digit hd)
      rw [List.takeWhile_cons_of_neg hnumber, List.takeWhile_cons_of_neg hdigit]

/-- Wherever the pattern matches in the text of a signed user, it reads the literal of `id`. -/
theorem match_is_own (h : SignedUser raw literal source) {pre : Text} (hraw : raw = pre ++ text)
    (hmatch : matchId text = some group) : group = literal.toList := by
  obtain ⟨gap, gap', rest, rfl, hgap, hgap', hdigits⟩ := matchId_cases hmatch
  obtain ⟨d, rest, rfl, hd⟩ := signedDigits_cons hdigits
  have hletters : ∀ c ∈ "id".toList, Json.isLower c = true :=
    List.all_eq_true.mp (by decide)
  have hmember := Json.member_of_occurrence h.flat (hraw ▸ h.plain)
    (hraw ▸ reads_of_parse h.parsed) hletters (by decide) hgap hgap'
    (hd.symm.imp And.left id)
  have hliteral : literal.toList = d :: rest.takeWhile isNumberChar := by
    have hvalue := h.only _ hmember
    rw [← Json.number.inj hvalue, String.toList_ofList]
  have hall : ∀ c ∈ d :: rest.takeWhile isNumberChar, isDigit c = true :=
    hliteral ▸ h.digits
  rcases hd with rfl | ⟨-, rfl⟩
  · exact absurd (hall '-' List.mem_cons_self) (by decide)
  · rw [hliteral, takeWhile_digits fun c hc => hall c (List.mem_cons_of_mem d hc)]

theorem bigInt_digits {digits : Text} (hdigits : ∀ c ∈ digits, isDigit c = true) :
    bigInt digits = digitsToNat digits := by
  unfold bigInt
  split
  · exact absurd (hdigits '-' List.mem_cons_self) (by decide)
  · rfl

/-- The id that is extracted is the integer of the user's own member `id`. -/
theorem extract_own (h : SignedUser raw literal source) :
    extractTelegramId raw = some (digitsToNat literal.toList : ℤ) := by
  have hne : literal.toList ≠ [] := by
    intro hnil
    have hpositive := h.positive
    rw [hnil] at hpositive
    exact absurd hpositive (by decide)
  have hfound : ∃ group, raw.tails.findSome? matchId = some group := by
    obtain ⟨pre, gap, gap', c, rest, hraw, hgap, hgap', hc⟩ :=
      Json.occurs_of_member h.plain (reads_of_parse h.parsed) h.own
    rw [← Option.isSome_iff_exists, List.findSome?_isSome_iff]
    refine ⟨Json.keyText "id".toList gap gap' ++ literal.toList ++ c :: rest,
      (List.mem_tails _ _).mpr ⟨pre, ?_⟩, ?_⟩
    · rw [hraw]
      simp only [List.append_assoc]
    · rw [matchId_key hgap hgap' h.digits hne hc]
      rfl
  obtain ⟨group, hgroup⟩ := hfound
  obtain ⟨text, htail, hmatch⟩ := List.exists_of_findSome?_eq_some hgroup
  obtain ⟨pre, hpre⟩ := (List.mem_tails _ _).mp htail
  have hown := match_is_own h hpre.symm hmatch
  have hpositive : (0 : ℤ) < digitsToNat literal.toList := Int.natCast_pos.mpr h.positive
  rw [extractTelegramId, hgroup]
  dsimp only
  rw [hown, bigInt_digits h.digits, if_pos hpositive]

end ZedBot.MiniApp
