import ZedBot.Json
import Mathlib.Data.List.Basic

/-! What is printed with numbers in it is read back.

    A number ends with the character after it, so a printed value leaves the reader in a state
    that goes on like the complete value, whatever comes that belongs to no number.

        print v ▸ state ── , ] } or the end ──▶ as after `complete v` -/

namespace Json

variable {stack : List Frame} {v : Json} {s : State}

/-- Induction over a value, with the hypothesis for all items or members of it. -/
theorem induction {P : Json → Prop} (null : P .null) (bool : ∀ b, P (.bool b))
    (number : ∀ literal, P (.number literal)) (string : ∀ s, P (.string s))
    (array : ∀ items, (∀ v ∈ items, P v) → P (.array items))
    (object : ∀ entries, (∀ e ∈ entries, P e.2) → P (.object entries)) : ∀ v, P v := by
  intro v
  refine Json.rec (motive_1 := P) (motive_2 := fun items => ∀ v ∈ items, P v)
    (motive_3 := fun entries => ∀ e ∈ entries, P e.2) (motive_4 := fun e => P e.2)
    null bool number string array object (List.forall_mem_nil _) ?_ (List.forall_mem_nil _) ?_ ?_ v
  · exact fun head tail hhead htail => List.forall_mem_cons.mpr ⟨hhead, htail⟩
  · exact fun head tail hhead htail => List.forall_mem_cons.mpr ⟨hhead, htail⟩
  · exact fun key value hvalue => hvalue

mutual

/-- All numbers in a value are written as `p` says. -/
def numbers (p : String → Bool) : Json → Bool
  | .number literal => p literal
  | .array items => numbersOfItems p items
  | .object entries => numbersOfEntries p entries
  | .null | .bool _ | .string _ => true

def numbersOfItems (p : String → Bool) : List Json → Bool
  | [] => true
  | v :: vs => numbers p v && numbersOfItems p vs

def numbersOfEntries (p : String → Bool) : List (String × Json) → Bool
  | [] => true
  | (_, v) :: es => numbers p v && numbersOfEntries p es

end

variable {p : String → Bool}

theorem numbers_array {items : List Json} :
    numbers p (.array items) = true ↔ ∀ v ∈ items, numbers p v = true := by
  rw [numbers]
  induction items with
  | nil => exact ⟨fun _ => List.forall_mem_nil _, fun _ => rfl⟩
  | cons v vs ih => rw [numbersOfItems, Bool.and_eq_true, ih, List.forall_mem_cons]

theorem numbers_object {entries : List (String × Json)} :
    numbers p (.object entries) = true ↔ ∀ e ∈ entries, numbers p e.2 = true := by
  rw [numbers]
  induction entries with
  | nil => exact ⟨fun _ => List.forall_mem_nil _, fun _ => rfl⟩
  | cons e es ih => rw [numbersOfEntries, Bool.and_eq_true, ih, List.forall_mem_cons]

/-- Written as JSON writes numbers. -/
def isLiteral (literal : String) : Bool := isNumber literal.toList

/-- A state that goes on like the complete value. -/
structure Goes (stack : List Frame) (v : Json) (s : State) : Prop where
  step : ∀ c, isNumberChar c = false → step s c = completeStep stack v c
  finish : stack = [] → finish s = some v

theorem goes_complete (stack : List Frame) (v : Json) : Goes stack v ⟨stack, .complete v⟩ where
  step := fun _ _ => rfl
  finish := by
    rintro rfl
    rfl

theorem numberChar_of_digits {cs : List Char} (h : isDigits cs = true) :
    ∀ c ∈ cs, isNumberChar c = true := by
  intro c hc
  have hall := (of_decide_eq_true h).2
  exact decide_eq_true (.inl (List.all_eq_true.mp hall c hc))

theorem numberChar_of_dropSign {signs cs : List Char}
    (hsigns : ∀ c ∈ signs, isNumberChar c = true)
    (h : ∀ c ∈ dropSign signs cs, isNumberChar c = true) : ∀ c ∈ cs, isNumberChar c = true := by
  cases cs with
  | nil => exact List.forall_mem_nil _
  | cons d cs =>
    rw [dropSign] at h
    split_ifs at h with hd
    · exact List.forall_mem_cons.mpr ⟨hsigns d hd, h⟩
    · exact h

theorem numberChar_of_exponent {cs : List Char} (h : isExponent cs = true) :
    ∀ c ∈ cs, isNumberChar c = true := by
  cases cs with
  | nil => exact List.forall_mem_nil _
  | cons d cs =>
    rw [isExponent, Bool.and_eq_true, decide_eq_true_eq] at h
    refine List.forall_mem_cons.mpr ⟨?_, ?_⟩
    · rcases h.1 with rfl | rfl <;> decide
    · exact numberChar_of_dropSign (List.all_eq_true.mp rfl) (numberChar_of_digits h.2)

theorem numberChar_of_fraction {cs : List Char} (h : isFraction cs = true) :
    ∀ c ∈ cs, isNumberChar c = true := by
  unfold isFraction at h
  split at h
  · rename_i cs
    rw [Bool.and_eq_true] at h
    refine List.forall_mem_cons.mpr ⟨by decide, fun c hc => ?_⟩
    rw [← List.takeWhile_append_dropWhile (p := isDigit) (l := cs), List.mem_append] at hc
    exact hc.elim (numberChar_of_digits h.1 c) (numberChar_of_exponent h.2 c)
  · exact numberChar_of_exponent h

/-- The characters of a number are number characters. -/
theorem numberChar_of_isNumber {cs : List Char} (h : isNumber cs = true) :
    ∀ c ∈ cs, isNumberChar c = true := by
  rw [isNumber, Bool.and_eq_true, Bool.and_eq_true] at h
  have hminus : ∀ c ∈ ['-'], isNumberChar c = true := List.all_eq_true.mp rfl
  refine numberChar_of_dropSign hminus fun c hc => ?_
  rw [← List.takeWhile_append_dropWhile (p := isDigit) (l := dropSign ['-'] cs),
    List.mem_append] at hc
  exact hc.elim (numberChar_of_digits h.1.1 c) (numberChar_of_fraction h.2 c)

/-- A number begins with a digit or a minus. -/
theorem head_of_isNumber {cs : List Char} (h : isNumber cs = true) :
    ∃ c rest, cs = c :: rest ∧ (isDigit c = true ∨ c = '-') := by
  rw [isNumber, Bool.and_eq_true, Bool.and_eq_true] at h
  have hdigits := (of_decide_eq_true h.1.1).1
  cases cs with
  | nil => exact absurd rfl hdigits
  | cons c rest =>
    refine ⟨c, rest, rfl, ?_⟩
    rw [dropSign] at hdigits
    split_ifs at hdigits with hminus
    · exact .inr (List.mem_singleton.mp hminus)
    · left
      by_contra hc
      exact hdigits (List.takeWhile_cons_of_neg hc)

theorem run_digits (chars cs : List Char) (h : ∀ c ∈ cs, isNumberChar c = true) :
    run ⟨stack, .number chars⟩ cs = some ⟨stack, .number (chars ++ cs)⟩ := by
  induction cs generalizing chars with
  | nil => rw [run_nil, List.append_nil]
  | cons c cs ih =>
    obtain ⟨hc, hcs⟩ := List.forall_mem_cons.mp h
    have hstep : step ⟨stack, .number chars⟩ c = some ⟨stack, .number (chars ++ [c])⟩ := if_pos hc
    rw [run_cons, hstep, Option.bind_some, ih _ hcs, List.append_assoc, List.singleton_append]

/-- A number that is printed is read up to its last character. -/
theorem run_number {literal : String} (h : isLiteral literal = true) (mayClose : Bool) :
    ∃ s, run ⟨stack, .value mayClose⟩ literal.toList = some s ∧
      Goes stack (.number literal) s := by
  obtain ⟨c, rest, hchars, hc⟩ := head_of_isNumber h
  have hnumber : isNumber literal.toList = true := h
  have hall := numberChar_of_isNumber hnumber
  have hspace : isSpace c = false := by
    rcases hc with hc | rfl
    · rw [isSpace, decide_eq_false_iff_not]
      rintro (rfl | rfl | rfl | rfl) <;> exact absurd hc (by decide)
    · rfl
  have hstart : step ⟨stack, .value mayClose⟩ c = some ⟨stack, .number [c]⟩ := by
    change valueStep stack mayClose c = _
    unfold valueStep
    rw [hspace, if_neg Bool.false_ne_true]
    rcases hc with hc | rfl
    · rw [if_pos hc]
    · rfl
  have hrest : ∀ d ∈ rest, isNumberChar d = true := fun d hd =>
    hall d (hchars ▸ List.mem_cons_of_mem c hd)
  refine ⟨⟨stack, .number literal.toList⟩, ?_, ?_, ?_⟩
  · rw [hchars, run_cons, hstart, Option.bind_some, run_digits [c] rest hrest,
      List.singleton_append]
  · intro d hd
    simp only [step]
    rw [hd, if_neg Bool.false_ne_true, if_pos hnumber, String.ofList_toList]
  · rintro rfl
    simp only [finish]
    rw [if_pos hnumber, String.ofList_toList]

/-! ### Reading what was printed -/

/-- A value is printed so that it is read back, whatever is open around it. -/
def Printed (v : Json) : Prop :=
  ∀ stack mayClose, ∃ s, run ⟨stack, .value mayClose⟩ (print v) = some s ∧ Goes stack v s

/-- The rest of an array, after its value `v`. -/
theorem run_moreItems {vs : List Json} (h : ∀ v ∈ vs, Printed v) (done : List Json) (v : Json)
    (hs : Goes (.array done :: stack) v s) :
    run s (printMoreItems vs ++ [']']) = some ⟨stack, .complete (.array (done ++ v :: vs))⟩ := by
  induction vs generalizing done v s with
  | nil =>
    have hclose : step s ']' = some ⟨stack, .complete (.array (done ++ [v]))⟩ := hs.step _ rfl
    rw [printMoreItems, List.nil_append, run_cons, hclose]
    rfl
  | cons w vs ih =>
    have hcomma : step s ',' = some ⟨.array (done ++ [v]) :: stack, .value false⟩ := hs.step _ rfl
    obtain ⟨t, ht, hgoes⟩ := h w List.mem_cons_self (.array (done ++ [v]) :: stack) false
    rw [printMoreItems, List.cons_append, run_cons, hcomma, Option.bind_some, List.append_assoc,
      run_append, ht, Option.bind_some,
      ih (fun u hu => h u (List.mem_cons_of_mem w hu)) _ w hgoes, List.append_assoc,
      List.singleton_append]

/-- The rest of an object, after its member `(k, v)`. -/
theorem run_moreEntries {es : List (String × Json)} (h : ∀ e ∈ es, Printed e.2)
    (done : List (String × Json)) (k : String) (v : Json)
    (hs : Goes (.object done k :: stack) v s) :
    run s (printMoreEntries es ++ ['}']) =
      some ⟨stack, .complete (.object (done ++ (k, v) :: es))⟩ := by
  induction es generalizing done k v s with
  | nil =>
    have hclose : step s '}' = some ⟨stack, .complete (.object (done ++ [(k, v)]))⟩ :=
      hs.step _ rfl
    rw [printMoreEntries, List.nil_append, run_cons, hclose]
    rfl
  | cons e es ih =>
    obtain ⟨k', w⟩ := e
    have hcomma : step s ',' = some ⟨stack, .key (done ++ [(k, v)]) false⟩ := hs.step _ rfl
    obtain ⟨t, ht, hgoes⟩ := h (k', w) List.mem_cons_self (.object (done ++ [(k, v)]) k' :: stack)
      false
    have hsplit : (quote k' ++ ':' :: (print w ++ printMoreEntries es)) ++ ['}'] =
        (quote k' ++ [':']) ++ (print w ++ (printMoreEntries es ++ ['}'])) := by
      simp only [List.append_assoc, List.cons_append, List.nil_append]
    rw [printMoreEntries, List.cons_append, run_cons, hcomma, Option.bind_some, hsplit, run_append,
      run_key, Option.bind_some, run_append, ht, Option.bind_some,
      ih (fun u hu => h u (List.mem_cons_of_mem _ hu)) _ k' w hgoes, List.append_assoc,
      List.singleton_append]

theorem printed : ∀ v : Json, numbers isLiteral v = true → Printed v := by
  refine induction ?_ ?_ ?_ ?_ ?_ ?_
  · exact fun _ stack mayClose => ⟨_, rfl, goes_complete stack _⟩
  · rintro (_ | _) - stack mayClose <;> exact ⟨_, rfl, goes_complete stack _⟩
  · exact fun literal h stack mayClose => run_number h mayClose
  · exact fun text _ stack mayClose => ⟨_, run_quote mayClose text, goes_complete stack _⟩
  · intro items ih h stack mayClose
    have hopen : step ⟨stack, .value mayClose⟩ '[' = some ⟨.array [] :: stack, .value true⟩ := rfl
    refine ⟨_, ?_, goes_complete stack _⟩
    rw [print, run_cons, hopen, Option.bind_some]
    cases items with
    | nil => rfl
    | cons v vs =>
      have hitems := numbers_array.mp h
      obtain ⟨t, ht, hgoes⟩ := ih v List.mem_cons_self (hitems v List.mem_cons_self)
        (.array [] :: stack) true
      have hmore : ∀ u ∈ vs, Printed u := fun u hu =>
        ih u (List.mem_cons_of_mem v hu) (hitems u (List.mem_cons_of_mem v hu))
      rw [printItems, List.append_assoc, run_append, ht, Option.bind_some,
        run_moreItems hmore [] v hgoes, List.nil_append]
  · intro entries ih h stack mayClose
    have hopen : step ⟨stack, .value mayClose⟩ '{' = some ⟨stack, .key [] true⟩ := rfl
    refine ⟨_, ?_, goes_complete stack _⟩
    rw [print, run_cons, hopen, Option.bind_some]
    cases entries with
    | nil => rfl
    | cons e es =>
      obtain ⟨k, v⟩ := e
      have hentries := numbers_object.mp h
      obtain ⟨t, ht, hgoes⟩ := ih (k, v) List.mem_cons_self (hentries _ List.mem_cons_self)
        (.object [] k :: stack) false
      have hmore : ∀ u ∈ es, Printed u.2 := fun u hu =>
        ih u (List.mem_cons_of_mem _ hu) (hentries u (List.mem_cons_of_mem _ hu))
      have hsplit : (quote k ++ ':' :: (print v ++ printMoreEntries es)) ++ ['}'] =
          (quote k ++ [':']) ++ (print v ++ (printMoreEntries es ++ ['}'])) := by
        simp only [List.append_assoc, List.cons_append, List.nil_append]
      rw [printEntries, hsplit, run_append, run_key, Option.bind_some, run_append, ht,
        Option.bind_some, run_moreEntries hmore [] k v hgoes, List.nil_append]

/-- What was printed, numbers and all, is parsed back. -/
theorem parse_printed {v : Json} (h : numbers isLiteral v = true) :
    parse (stringify v) = some v := by
  obtain ⟨s, hs, hgoes⟩ := printed v h [] false
  rw [parse, stringify, String.toList_ofList, start, hs]
  exact hgoes.finish rfl

/-- Two values that print alike are one. -/
theorem stringify_inj {v w : Json} (hv : numbers isLiteral v = true)
    (hw : numbers isLiteral w = true) (h : stringify v = stringify w) : v = w := by
  rw [← Option.some_inj, ← parse_printed hv, h, parse_printed hw]

end Json
