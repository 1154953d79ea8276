import ZedBot.Json
import Mathlib.Data.List.Infix

/-! Where the members of a flat object stand in its text.

    The reader keeps the members of the outermost object in its bottom frame or, between members,
    in its mode. What it has read there stays, so an accepted text can be followed from any place
    in it to the value at the end.

        … "key" ␣ : ␣ 123 …     ⟺     the member key, with the number 123 -/

namespace Json

/-- Neither an array nor an object. -/
def isFlat : Json → Bool
  | .array _ | .object _ => false
  | _ => true

/-! ### The outermost object -/

/-- The members read so far of an open object. -/
def Frame.members : Frame → List (String × Json)
  | .object done _ => done
  | .array _ => []

/-- The members read so far when nothing is open below. -/
def Mode.members : Mode → List (String × Json)
  | .key done _ | .colon done _ | .text (some done) _ => done
  | .complete (.object entries) => entries
  | _ => []

/-- The members of the outermost object so far. -/
def outer (s : State) : List (String × Json) :=
  match s.stack.getLast? with
  | some frame => frame.members
  | none => s.mode.members

theorem outer_cons (frame next : Frame) (stack : List Frame) (mode mode' : Mode) :
    outer ⟨frame :: next :: stack, mode⟩ = outer ⟨next :: stack, mode'⟩ := by
  rw [outer, outer, List.getLast?_cons_cons]
  cases h : (next :: stack).getLast? with
  | none => exact absurd (List.getLast?_eq_none_iff.mp h) (List.cons_ne_nil _ _)
  | some last => rfl

/-- Inside an open array or object the mode does not matter. -/
theorem outer_mode (frame : Frame) (stack : List Frame) (mode mode' : Mode) :
    outer ⟨frame :: stack, mode⟩ = outer ⟨frame :: stack, mode'⟩ := by
  rw [outer, outer]
  cases h : (frame :: stack).getLast? with
  | none => exact absurd (List.getLast?_eq_none_iff.mp h) (List.cons_ne_nil _ _)
  | some last => rfl

/-- What a character after a value does. -/
inductive Completed (v : Json) : List Frame → Char → State → Prop
  | space (stack : List Frame) (c : Char) (hspace : isSpace c = true) :
      Completed v stack c ⟨stack, .complete v⟩
  | item (done : List Json) (stack : List Frame) :
      Completed v (.array done :: stack) ',' ⟨.array (done ++ [v]) :: stack, .value false⟩
  | array (done : List Json) (stack : List Frame) :
      Completed v (.array done :: stack) ']' ⟨stack, .complete (.array (done ++ [v]))⟩
  | member (done : List (String × Json)) (key : String) (stack : List Frame) :
      Completed v (.object done key :: stack) ',' ⟨stack, .key (done ++ [(key, v)]) false⟩
  | object (done : List (String × Json)) (key : String) (stack : List Frame) :
      Completed v (.object done key :: stack) '}'
        ⟨stack, .complete (.object (done ++ [(key, v)]))⟩

theorem completed {stack : List Frame} {v : Json} {c : Char} {s : State}
    (h : completeStep stack v c = some s) : Completed v stack c s := by
  unfold completeStep at h
  split_ifs at h with hspace
  · cases h
    exact .space stack c hspace
  · split at h
    · cases h
      exact .item _ _
    · cases h
      exact .array _ _
    · cases h
      exact .member _ _ _
    · cases h
      exact .object _ _ _
    · cases h

/-- The modes in which white space changes nothing, but for `complete`. -/
def Mode.waits : Mode → Bool
  | .value _ | .key _ _ | .colon _ _ => true
  | _ => false

/-- What a character does. -/
inductive Stepped (c : Char) : State → State → Prop
  | gap (stack : List Frame) (mode : Mode) (hspace : isSpace c = true)
      (hmode : mode.waits = true) : Stepped c ⟨stack, mode⟩ ⟨stack, mode⟩
  | number (stack : List Frame) (b : Bool) : Stepped c ⟨stack, .value b⟩ ⟨stack, .number [c]⟩
  | openArray (stack : List Frame) (b : Bool) :
      Stepped c ⟨stack, .value b⟩ ⟨.array [] :: stack, .value true⟩
  | closeArray (stack : List Frame) (done : List Json) (b : Bool) :
      Stepped c ⟨.array done :: stack, .value b⟩ ⟨stack, .complete (.array done)⟩
  | openObject (stack : List Frame) (b : Bool) :
      Stepped c ⟨stack, .value b⟩ ⟨stack, .key [] true⟩
  | openText (stack : List Frame) (b : Bool) (hc : c = '"') :
      Stepped c ⟨stack, .value b⟩ ⟨stack, .text none {}⟩
  | literal (stack : List Frame) (b : Bool) (rest : List Char) (v : Json) (hrest : '"' ∉ rest)
      (hflat : v.isFlat = true) (hv : ∀ n, v ≠ .number n) : Stepped c ⟨stack, .value b⟩ ⟨stack, .literal rest v⟩
  | openKey (stack : List Frame) (done : List (String × Json)) (b : Bool) (hc : c = '"') :
      Stepped c ⟨stack, .key done b⟩ ⟨stack, .text (some done) {}⟩
  | closeObject (stack : List Frame) (done : List (String × Json)) (b : Bool) (hc : c = '}') :
      Stepped c ⟨stack, .key done b⟩ ⟨stack, .complete (.object done)⟩
  | colon (stack : List Frame) (done : List (String × Json)) (key : String) (hc : c = ':') :
      Stepped c ⟨stack, .colon done key⟩ ⟨.object done key :: stack, .value false⟩
  | closeKey (stack : List Frame) (done : List (String × Json)) (t : Text)
      (hplain : t.escape = .plain) (hc : c = '"') :
      Stepped c ⟨stack, .text (some done) t⟩ ⟨stack, .colon done (String.ofList t.flushed)⟩
  | closeText (stack : List Frame) (t : Text) (hplain : t.escape = .plain) (hc : c = '"') :
      Stepped c ⟨stack, .text none t⟩ ⟨stack, .complete (.string (String.ofList t.flushed))⟩
  | text (stack : List Frame) (keyAfter : Option (List (String × Json))) (t t' : Text)
      (hopen : ¬ (t.escape = .plain ∧ c = '"')) (ht : t.step c = some t') :
      Stepped c ⟨stack, .text keyAfter t⟩ ⟨stack, .text keyAfter t'⟩
  | literalMore (stack : List Frame) (rest : List Char) (v : Json) :
      Stepped c ⟨stack, .literal (c :: rest) v⟩ ⟨stack, .literal rest v⟩
  | literalEnd (stack : List Frame) (v : Json) :
      Stepped c ⟨stack, .literal [c] v⟩ ⟨stack, .complete v⟩
  | digit (stack : List Frame) (chars : List Char) (hc : isNumberChar c = true) :
      Stepped c ⟨stack, .number chars⟩ ⟨stack, .number (chars ++ [c])⟩
  | numberEnd (stack : List Frame) (chars : List Char) (s : State)
      (hc : isNumberChar c = false) (hs : Completed (.number (String.ofList chars)) stack c s) :
      Stepped c ⟨stack, .number chars⟩ s
  | complete (stack : List Frame) (v : Json) (s : State) (hs : Completed v stack c s) :
      Stepped c ⟨stack, .complete v⟩ s

variable {s s' : State} {c : Char}

theorem stepped_value {stack : List Frame} {b : Bool} (h : valueStep stack b c = some s') :
    Stepped c ⟨stack, .value b⟩ s' := by
  unfold valueStep at h
  split_ifs at h with hspace hdigit
  · cases h
    exact .gap _ _ hspace rfl
  · cases h
    exact .number _ _
  · split at h
    · cases h
      exact .number _ _
    · cases h
      exact .openArray _ _
    · split at h
      · cases h
        exact .closeArray _ _ _
      · cases h
    · cases h
      exact .openObject _ _
    · cases h
      exact .openText _ _ rfl
    · cases h
      exact .literal _ _ _ _ (by decide) rfl nofun
    · cases h
      exact .literal _ _ _ _ (by decide) rfl nofun
    · cases h
      exact .literal _ _ _ _ (by decide) rfl nofun
    · cases h

theorem stepped (h : step s c = some s') : Stepped c s s' := by
  obtain ⟨stack, mode⟩ := s
  cases mode with
  | value b => exact stepped_value h
  | key done b =>
    change keyStep stack done b c = some s' at h
    unfold keyStep at h
    split_ifs at h with hspace hquote hclose
    · cases h
      exact .gap _ _ hspace rfl
    · cases h
      exact .openKey _ _ _ hquote
    · cases h
      exact .closeObject _ _ _ hclose.1
  | colon done key =>
    simp only [step] at h
    split_ifs at h with hspace hcolon
    · cases h
      exact .gap _ _ hspace rfl
    · cases h
      exact .colon _ _ _ hcolon
  | text keyAfter t =>
    simp only [step] at h
    split_ifs at h with hclose
    · cases keyAfter with
      | none =>
        cases h
        exact .closeText _ _ hclose.1 hclose.2
      | some done =>
        cases h
        exact .closeKey _ _ _ hclose.1 hclose.2
    · obtain ⟨t', ht, rfl⟩ := Option.map_eq_some_iff.mp h
      exact .text _ _ _ _ hclose ht
  | literal rest v =>
    simp only [step] at h
    split at h
    · cases h
    · split_ifs at h with hc
      cases h
      exact hc ▸ .literalEnd _ _
    · split_ifs at h with hc
      cases h
      exact hc ▸ .literalMore _ _ _
  | number chars =>
    simp only [step] at h
    split_ifs at h with hc hnumber
    · cases h
      exact .digit _ _ hc
    · exact .numberEnd _ _ _ (Bool.not_eq_true _ ▸ hc) (completed h)
  | complete v => exact .complete _ _ _ (completed h)

/-! ### What has been read stays -/

/-- Opening a frame above a mode that holds nothing more than the frame. -/
theorem outer_push {stack : List Frame} {mode mode' : Mode} {frame : Frame}
    (h : mode.members ⊆ frame.members) :
    outer ⟨stack, mode⟩ ⊆ outer ⟨frame :: stack, mode'⟩ := by
  cases stack with
  | nil => exact h
  | cons next stack =>
    rw [outer_cons frame next stack mode' mode]
    exact List.Subset.refl _

/-- Closing it again. -/
theorem outer_pop {stack : List Frame} {mode mode' : Mode} {frame : Frame}
    (h : frame.members ⊆ mode'.members) :
    outer ⟨frame :: stack, mode⟩ ⊆ outer ⟨stack, mode'⟩ := by
  cases stack with
  | nil => exact h
  | cons next stack =>
    rw [outer_cons frame next stack mode mode']
    exact List.Subset.refl _

/-- A change of mode below which the same members stand. -/
theorem outer_same {stack : List Frame} {mode mode' : Mode} (h : mode.members ⊆ mode'.members) :
    outer ⟨stack, mode⟩ ⊆ outer ⟨stack, mode'⟩ := by
  cases stack with
  | nil => exact h
  | cons frame stack =>
    rw [outer_mode frame stack mode mode']
    exact List.Subset.refl _

theorem outer_completed {v : Json} {stack : List Frame} (h : Completed v stack c s') :
    outer ⟨stack, .complete v⟩ ⊆ outer s' := by
  cases h with
  | space => exact List.Subset.refl _
  | item done stack =>
    cases stack with
    | nil => exact List.nil_subset _
    | cons next stack =>
      rw [outer_cons _ next stack _ (.value false), outer_cons]
      exact List.Subset.refl _
  | array done stack => exact outer_pop (List.nil_subset _)
  | member done key stack => exact outer_pop (List.subset_append_left _ _)
  | object done key stack => exact outer_pop (List.subset_append_left _ _)

theorem outer_step (h : Stepped c s s') : outer s ⊆ outer s' := by
  cases h with
  | gap => exact List.Subset.refl _
  | number | openObject | openText | literal => exact outer_same (List.nil_subset _)
  | openArray => exact outer_push (List.nil_subset _)
  | closeArray => exact outer_pop (List.nil_subset _)
  | openKey | closeObject | closeKey => exact outer_same (List.Subset.refl _)
  | colon => exact outer_push (List.Subset.refl _)
  | closeText => exact outer_same (List.nil_subset _)
  | text stack keyAfter =>
    refine outer_same ?_
    cases keyAfter with
    | none => exact List.nil_subset _
    | some done => exact List.Subset.refl _
  | literalMore | literalEnd | digit => exact outer_same (List.nil_subset _)
  | numberEnd stack chars s hc hs =>
    have hsame : outer ⟨stack, .number chars⟩ ⊆
        outer ⟨stack, .complete (.number (String.ofList chars))⟩ :=
      outer_same (List.nil_subset _)
    exact List.Subset.trans hsame (outer_completed hs)
  | complete stack v s hs => exact outer_completed hs

/-- The run lemma: what every step keeps, an accepted text keeps to its end. -/
theorem run_induction {P : State → Prop} (hstep : ∀ c s s', Stepped c s s' → P s → P s')
    {text : List Char} {final : State} (hrun : run s text = some final) (h : P s) : P final := by
  induction text generalizing s with
  | nil => exact Option.some.inj hrun ▸ h
  | cons c text ih =>
    rw [run_cons] at hrun
    obtain ⟨s', hs', hrest⟩ := Option.bind_eq_some_iff.mp hrun
    exact ih hrest (hstep c s s' (stepped hs') h)

theorem outer_of_finish {final : State} {entries : List (String × Json)}
    (h : finish final = some (.object entries)) : outer final = entries := by
  obtain ⟨stack, mode⟩ := final
  unfold finish at h
  split at h
  · rename_i v hstack hmode
    cases h
    cases hstack
    cases hmode
    rfl
  · split_ifs at h
    cases h
  · cases h

/-- A member of the outermost object is one of the value. -/
theorem mem_of_outer {text : List Char} {final : State} {entries : List (String × Json)}
    (hrun : run s text = some final) (hfinal : finish final = some (.object entries))
    {e : String × Json} (h : e ∈ outer s) : e ∈ entries := by
  rw [← outer_of_finish hfinal]
  exact run_induction (P := fun s => e ∈ outer s) (fun _ _ _ hstep hmem => outer_step hstep hmem)
    hrun h

/-! ### An object of flat values has nothing nested -/

/-- The modes that only a nested value can be in, while a member of the outermost is read. -/
def Mode.inner : Mode → Bool
  | .key _ _ | .colon _ _ | .text (some _) _ => true
  | .complete v => !v.isFlat
  | _ => false

def deep : List Frame → Mode → Bool
  | _ :: _ :: _, _ => true
  | [.object _ _], mode => mode.inner
  | [.array _], _ => true
  | [], .complete (.array _) => true
  | [], _ => false

theorem deep_of_inner (frame : Frame) (stack : List Frame) {mode : Mode}
    (h : mode.inner = true) : deep (frame :: stack) mode = true := by
  cases stack with
  | nil => cases frame with
    | array done => rfl
    | object done key => exact h
  | cons next stack => rfl

theorem deep_array (done : List Json) (stack : List Frame) (mode : Mode) :
    deep (.array done :: stack) mode = true := by
  cases stack <;> rfl

/-- Something in the text is nested: it is being read, or has been. -/
def Nested (s : State) : Prop :=
  deep s.stack s.mode = true ∨ ∃ e ∈ outer s, e.2.isFlat = false

theorem nested_completed {v : Json} {stack : List Frame} (h : Completed v stack c s')
    (hdeep : deep stack (.complete v) = true) : Nested s' := by
  cases h with
  | space => exact .inl hdeep
  | item done stack => exact .inl (deep_array _ _ _)
  | array done stack =>
    cases stack with
    | nil => exact .inl rfl
    | cons next stack => exact .inl (deep_of_inner _ _ rfl)
  | member done key stack =>
    cases stack with
    | nil => exact .inr ⟨(key, v), List.mem_concat_self, Bool.not_eq_true' _ ▸ hdeep⟩
    | cons next stack => exact .inl (deep_of_inner _ _ rfl)
  | object done key stack =>
    cases stack with
    | nil => exact .inr ⟨(key, v), List.mem_concat_self, Bool.not_eq_true' _ ▸ hdeep⟩
    | cons next stack => exact .inl (deep_of_inner _ _ rfl)

/-- While a mode is no inner one, only the stack can make the state deep. -/
theorem deep_mode {stack : List Frame} {mode mode' : Mode} (h : deep stack mode = true)
    (hinner : mode.inner = false) : deep stack mode' = true := by
  match stack, mode with
  | [], .complete (.array _) => cases hinner
  | [.object _ _], _ => exact absurd (h.symm.trans hinner) nofun
  | [.array _], _ => rfl
  | _ :: _ :: _, _ => rfl

theorem nested_step (h : Stepped c s s') (hnested : Nested s) : Nested s' := by
  rcases hnested with hdeep | ⟨e, he, hflat⟩
  · cases h with
    | gap => exact .inl hdeep
    | number | openText | literal | literalMore | literalEnd | digit | openObject =>
      exact .inl (deep_mode hdeep rfl)
    | openArray => exact .inl (deep_array _ _ _)
    | closeArray stack =>
      cases stack with
      | nil => exact .inl rfl
      | cons next stack => exact .inl (deep_of_inner _ _ rfl)
    | openKey stack | closeKey stack | closeObject stack =>
      cases stack with
      | nil => cases hdeep
      | cons next stack => exact .inl (deep_of_inner _ _ rfl)
    | colon stack =>
      cases stack with
      | nil => cases hdeep
      | cons next stack => exact .inl rfl
    | closeText => exact .inl (deep_mode hdeep rfl)
    | text stack keyAfter =>
      cases keyAfter with
      | none => exact .inl (deep_mode hdeep rfl)
      | some done =>
        cases stack with
        | nil => cases hdeep
        | cons next stack => exact .inl (deep_of_inner _ _ rfl)
    | numberEnd stack chars s hc hs => exact nested_completed hs (deep_mode hdeep rfl)
    | complete stack v s hs => exact nested_completed hs hdeep
  · exact .inr ⟨e, outer_step h he, hflat⟩

/-- From a state on, the text ends as an object with these members. -/
def Reads (s : State) (text : List Char) (entries : List (String × Json)) : Prop :=
  ∃ final, run s text = some final ∧ finish final = some (.object entries)

variable {text : List Char} {entries : List (String × Json)}

theorem reads_cons (h : Reads s (c :: text) entries) :
    ∃ s', step s c = some s' ∧ Reads s' text entries := by
  obtain ⟨final, hrun, hfinal⟩ := h
  rw [run_cons] at hrun
  obtain ⟨s', hs', hrest⟩ := Option.bind_eq_some_iff.mp hrun
  exact ⟨s', hs', final, hrest, hfinal⟩

theorem reads_append {pre : List Char} (h : Reads s (pre ++ text) entries) :
    ∃ s', run s pre = some s' ∧ Reads s' text entries := by
  obtain ⟨final, hrun, hfinal⟩ := h
  rw [run_append] at hrun
  obtain ⟨s', hs', hrest⟩ := Option.bind_eq_some_iff.mp hrun
  exact ⟨s', hs', final, hrest, hfinal⟩

theorem not_nested (h : Reads s text entries) (hflat : ∀ e ∈ entries, e.2.isFlat = true) :
    ¬ Nested s := by
  intro hnested
  obtain ⟨final, hrun, hfinal⟩ := h
  have hend : Nested final :=
    run_induction (fun _ _ _ hstep => nested_step hstep) hrun hnested
  rcases hend with hdeep | ⟨e, he, hnot⟩
  · obtain ⟨stack, mode⟩ := final
    unfold finish at hfinal
    split at hfinal
    · rename_i v hstack hmode
      cases hfinal
      cases hstack
      cases hmode
      cases hdeep
    · split_ifs at hfinal
      cases hfinal
    · cases hfinal
  · rw [outer_of_finish hfinal] at he
    exact absurd ((hflat e he).symm.trans hnot) nofun

/-! ### From an occurrence of a key to its member -/

/-- White space of JSON, and what no value begins or ends with. -/
def isBlank (c : Char) : Bool := isSpace c || decide (c.toNat < 32) || decide (128 ≤ c.toNat)

def isLower (c : Char) : Bool := 'a' ≤ c ∧ c ≤ 'z'

/-- A literal that is read has no quote ahead, and is neither a number nor nested. -/
def Proper (s : State) : Prop :=
  ∀ rest v, s.mode = .literal rest v → '"' ∉ rest ∧ v.isFlat = true ∧ ∀ n, v ≠ .number n

theorem proper_step (h : Stepped c s s') (hproper : Proper s) : Proper s' := by
  intro rest v hmode
  cases h with
  | gap => exact hproper rest v hmode
  | literal stack b rest' v' hrest hflat hv =>
    cases hmode
    exact ⟨hrest, hflat, hv⟩
  | literalMore stack rest' v' =>
    cases hmode
    obtain ⟨hrest, hkind⟩ := hproper _ v rfl
    exact ⟨fun hmem => hrest (List.mem_cons_of_mem c hmem), hkind⟩
  | number | openArray | closeArray | openObject | openText | openKey | closeObject | colon
  | closeKey | closeText | text | digit => cases hmode
  | literalEnd => cases hmode
  | numberEnd stack chars s hc hs => cases hs <;> cases hmode
  | complete stack w s hs => cases hs <;> cases hmode

theorem blank_cases (h : isBlank c = true) (hspace : isSpace c = false) :
    c.toNat < 32 ∨ 128 ≤ c.toNat := by
  rw [isBlank, hspace, Bool.false_or, Bool.or_eq_true, decide_eq_true_eq, decide_eq_true_eq] at h
  exact h

/-- A character that a blank is not. -/
theorem blank_ne (h : c.toNat < 32 ∨ 128 ≤ c.toNat) {d : Char} (hd : 32 ≤ d.toNat ∧ d.toNat < 128) :
    c ≠ d := by
  rintro rfl
  omega

theorem completed_blank {stack : List Frame} {v : Json} (h : Completed v stack c s')
    (hblank : isBlank c = true) : s' = ⟨stack, .complete v⟩ := by
  cases h with
  | space => rfl
  | item | array | member | object => exact absurd hblank (by decide)

theorem step_colon_blank {stack : List Frame} {done : List (String × Json)} {key : String}
    (h : step ⟨stack, .colon done key⟩ c = some s') (hblank : isBlank c = true) :
    s' = ⟨stack, .colon done key⟩ := by
  cases stepped h with
  | gap => rfl
  | colon _ _ _ hc =>
    subst hc
    exact absurd hblank (by decide)

theorem step_value_blank {stack : List Frame} {b : Bool}
    (h : step ⟨stack, .value b⟩ c = some s') (hblank : isBlank c = true) :
    s' = ⟨stack, .value b⟩ := by
  change valueStep stack b c = some s' at h
  unfold valueStep at h
  by_cases hspace : isSpace c = true
  · rw [if_pos hspace] at h
    exact (Option.some.inj h).symm
  · have hcode := blank_cases hblank (Bool.not_eq_true _ ▸ hspace)
    have hdigit : isDigit c = false := by
      rw [isDigit, decide_eq_false_iff_not]
      rintro ⟨hlow, hhigh⟩
      have hlow : 48 ≤ c.toNat := hlow
      have hhigh : c.toNat ≤ 57 := hhigh
      omega
    rw [if_neg hspace, if_neg (by rw [hdigit]; exact Bool.false_ne_true)] at h
    split at h
    all_goals first
      | exact absurd hblank (by decide)
      | cases h

/-- Blanks before a colon, before a value or after one are passed over. -/
theorem reads_blanks {stack : List Frame} {mode : Mode} {gap : List Char}
    (hmode : ∀ c s', step ⟨stack, mode⟩ c = some s' → isBlank c = true → s' = ⟨stack, mode⟩)
    (hgap : ∀ c ∈ gap, isBlank c = true) (h : Reads ⟨stack, mode⟩ (gap ++ text) entries) :
    Reads ⟨stack, mode⟩ text entries := by
  induction gap with
  | nil => exact h
  | cons c gap ih =>
    obtain ⟨s', hs', hrest⟩ := reads_cons h
    rw [hmode c s' hs' (hgap c List.mem_cons_self)] at hrest
    exact ih (fun d hd => hgap d (List.mem_cons_of_mem c hd)) hrest

theorem not_reads_colon {stack : List Frame} {v : Json} {gap : List Char}
    (hgap : ∀ c ∈ gap, isBlank c = true) :
    ¬ Reads ⟨stack, .complete v⟩ (gap ++ ':' :: text) entries := by
  intro h
  have hcolon := reads_blanks (fun c s' hs' => completed_blank (completed hs')) hgap h
  obtain ⟨s', hs', -⟩ := reads_cons hcolon
  cases completed hs' with
  | space _ _ hspace => exact absurd hspace (by decide)

theorem step_lower (hlower : isLower c = true) {stack : List Frame}
    {keyAfter : Option (List (String × Json))} {t : Text} (ht : t.escape = .plain) :
    step ⟨stack, .text keyAfter t⟩ c = some ⟨stack, .text keyAfter (t.add c)⟩ := by
  have hcode : 97 ≤ c.toNat := by
    have hboth := of_decide_eq_true hlower
    exact hboth.1
  have hquote : c ≠ '"' := by
    rintro rfl
    exact absurd hlower (by decide)
  have hback : c ≠ '\\' := by
    rintro rfl
    exact absurd hlower (by decide)
  have hcontrol : ¬ c.toNat < 32 := by omega
  simp only [step]
  rw [if_neg fun h => hquote h.2, Text.step, ht]
  dsimp only
  rw [if_neg hback, if_neg hcontrol]
  rfl

/-- Lower-case letters of a string are read as they are. -/
theorem reads_letters {stack : List Frame} {keyAfter : Option (List (String × Json))}
    {letters : List Char} (hletters : ∀ c ∈ letters, isLower c = true) {t : Text}
    (ht : t.escape = .plain) (h : Reads ⟨stack, .text keyAfter t⟩ (letters ++ text) entries) :
    ∃ t', t'.escape = .plain ∧ t'.flushed = t.flushed ++ letters ∧
      Reads ⟨stack, .text keyAfter t'⟩ text entries := by
  induction letters generalizing t with
  | nil => exact ⟨t, ht, (List.append_nil _).symm, h⟩
  | cons c letters ih =>
    obtain ⟨s', hs', hrest⟩ := reads_cons h
    rw [step_lower (hletters c List.mem_cons_self) ht] at hs'
    cases hs'
    obtain ⟨t', ht', hflushed, hreads⟩ :=
      ih (fun d hd => hletters d (List.mem_cons_of_mem c hd)) rfl hrest
    refine ⟨t', ht', ?_, hreads⟩
    have hadd : (t.add c).flushed = t.flushed ++ [c] := rfl
    rw [hflushed, hadd, List.append_assoc, List.singleton_append]

theorem reads_quote {stack : List Frame} {keyAfter : Option (List (String × Json))} {t : Text}
    (ht : t.escape = .plain) (h : Reads ⟨stack, .text keyAfter t⟩ ('"' :: text) entries) :
    Reads ⟨stack, match keyAfter with
      | some done => .colon done (String.ofList t.flushed)
      | none => .complete (.string (String.ofList t.flushed))⟩ text entries := by
  obtain ⟨s', hs', hrest⟩ := reads_cons h
  simp only [step] at hs'
  rw [if_pos ⟨ht, trivial⟩] at hs'
  cases keyAfter <;> cases hs' <;> exact hrest

/-- After a value no letter follows. -/
theorem not_completed_lower {stack : List Frame} {v : Json} (hlower : isLower c = true) :
    ¬ Completed v stack c s' := by
  intro h
  cases h with
  | space _ _ hspace =>
    have hcode : 97 ≤ c.toNat := (of_decide_eq_true hlower : 'a' ≤ c ∧ c ≤ 'z').1
    rw [isSpace, decide_eq_true_eq] at hspace
    rcases hspace with rfl | rfl | rfl | rfl <;> exact absurd hcode (by decide)
  | item | array | member | object => exact absurd hlower (by decide)

/-- A string value is not followed by a colon. -/
theorem not_reads_value {stack : List Frame} {t : Text} (ht : t.escape = .plain)
    {letters gap : List Char} (hletters : ∀ c ∈ letters, isLower c = true)
    (hgap : ∀ c ∈ gap, isBlank c = true) :
    ¬ Reads ⟨stack, .text none t⟩ (letters ++ '"' :: (gap ++ ':' :: text)) entries := by
  intro h
  obtain ⟨t', ht', -, hreads⟩ := reads_letters hletters ht h
  exact not_reads_colon hgap (reads_quote ht' hreads)

theorem not_reads_lower {stack : List Frame} {mode : Mode}
    (hmode : ∀ c s', isLower c = true → step ⟨stack, mode⟩ c ≠ some s') {letters : List Char}
    (hletters : ∀ c ∈ letters, isLower c = true) (hne : letters ≠ []) :
    ¬ Reads ⟨stack, mode⟩ (letters ++ text) entries := by
  intro h
  cases letters with
  | nil => exact hne rfl
  | cons c letters =>
    obtain ⟨s', hs', -⟩ := reads_cons h
    exact hmode c s' (hletters c List.mem_cons_self) hs'

/-- In an escape a quote closes nothing. -/
theorem step_escaped {stack : List Frame} {keyAfter : Option (List (String × Json))} {t : Text}
    (ht : t.escape ≠ .plain) (c : Char) :
    step ⟨stack, .text keyAfter t⟩ c = (t.step c).map fun t => ⟨stack, .text keyAfter t⟩ :=
  if_neg fun h => ht h.1

theorem not_step_colon_lower {stack : List Frame} {done : List (String × Json)} {key : String}
    (hlower : isLower c = true) : step ⟨stack, .colon done key⟩ c ≠ some s' := by
  intro h
  have hcode : 97 ≤ c.toNat := (of_decide_eq_true hlower : 'a' ≤ c ∧ c ≤ 'z').1
  cases stepped h with
  | gap _ _ hspace =>
    rw [isSpace, decide_eq_true_eq] at hspace
    rcases hspace with rfl | rfl | rfl | rfl <;> exact absurd hcode (by decide)
  | colon _ _ _ hc =>
    subst hc
    exact absurd hcode (by decide)

theorem not_step_complete_lower {stack : List Frame} {v : Json} (hlower : isLower c = true) :
    step ⟨stack, .complete v⟩ c ≠ some s' :=
  fun h => not_completed_lower hlower (completed h)

/-- Where a quoted word stands before a colon, a key begins: a string value would be followed by
    something else, and in one the quotes would be escaped. -/
theorem key_of_occurrence {letters gap : List Char}
    (hletters : ∀ c ∈ letters, isLower c = true) (hne : letters ≠ [])
    (hgap : ∀ c ∈ gap, isBlank c = true) (hproper : Proper s)
    (hplain : ∀ done t, s.mode = .text (some done) t → t.escape = .plain)
    (h : Reads s ('"' :: (letters ++ '"' :: (gap ++ ':' :: text))) entries) :
    ∃ done b, s.mode = .key done b ∧
      Reads ⟨s.stack, .colon done (String.ofList letters)⟩ (gap ++ ':' :: text) entries := by
  obtain ⟨s', hs', hrest⟩ := reads_cons h
  obtain ⟨stack, mode⟩ := s
  cases mode with
  | value b =>
    cases hs'
    exact absurd hrest (not_reads_value rfl hletters hgap)
  | key done b =>
    cases hs'
    obtain ⟨t', ht', hflushed, hreads⟩ := reads_letters hletters rfl hrest
    have hkey : t'.flushed = letters := hflushed
    refine ⟨done, b, rfl, ?_⟩
    rw [← hkey]
    exact reads_quote ht' hreads
  | colon done key =>
    cases hs'
  | text keyAfter t =>
    cases keyAfter with
    | some done =>
      have hclosed := reads_quote (hplain done t rfl) h
      exact absurd hclosed
        (not_reads_lower (fun c s' hlower => not_step_colon_lower hlower) hletters hne)
    | none =>
      cases hescape : t.escape with
      | plain =>
        have hclosed := reads_quote hescape h
        exact absurd hclosed
          (not_reads_lower (fun c s' hlower => not_step_complete_lower hlower) hletters hne)
      | backslash =>
        rw [step_escaped (by rw [hescape]; rintro ⟨⟩), Text.step, hescape] at hs'
        cases hs'
        exact absurd hrest (not_reads_value rfl hletters hgap)
      | unicode digits =>
        rw [step_escaped (by rw [hescape]; rintro ⟨⟩), Text.step, hescape] at hs'
        cases hs'
  | literal rest v =>
    cases stepped hs' with
    | gap _ _ hspace => exact absurd hspace (by decide)
    | literalMore _ rest => exact absurd List.mem_cons_self (hproper _ v rfl).1
    | literalEnd => exact absurd List.mem_cons_self (hproper _ v rfl).1
  | number chars =>
    cases stepped hs' with
    | gap _ _ hspace => exact absurd hspace (by decide)
    | digit _ _ hc => exact absurd hc (by decide)
    | numberEnd _ _ _ _ hs =>
      cases hs with
      | space _ _ hspace => exact absurd hspace (by decide)
  | complete v =>
    cases completed hs' with
    | space _ _ hspace => exact absurd hspace (by decide)

/-! ### The number of a member -/

theorem mem_of_completed {v : Json} {done : List (String × Json)} {key : String} {c : Char}
    (hstep : Completed v [.object done key] c s')
    (hrest : Reads s' text entries)
    (hspace : Reads ⟨[.object done key], .complete v⟩ text entries → (key, v) ∈ entries) :
    (key, v) ∈ entries := by
  obtain ⟨final, hrun, hfinal⟩ := id hrest
  cases hstep with
  | space => exact hspace hrest
  | member | object => exact mem_of_outer hrun hfinal List.mem_concat_self

/-- A value that is complete becomes the member of its key. -/
theorem mem_of_complete {v : Json} {done : List (String × Json)} {key : String}
    (h : Reads ⟨[.object done key], .complete v⟩ text entries) : (key, v) ∈ entries := by
  induction text with
  | nil =>
    obtain ⟨final, hrun, hfinal⟩ := h
    cases hrun
    cases hfinal
  | cons c text ih =>
    obtain ⟨s', hs', hrest⟩ := reads_cons h
    exact mem_of_completed (completed hs') hrest ih

/-- A number that is being read becomes the member, with all the characters it has. -/
theorem mem_of_number {chars : List Char} {done : List (String × Json)} {key : String}
    (h : Reads ⟨[.object done key], .number chars⟩ text entries) :
    (key, .number (String.ofList (chars ++ text.takeWhile isNumberChar))) ∈ entries := by
  induction text generalizing chars with
  | nil =>
    obtain ⟨final, hrun, hfinal⟩ := h
    cases hrun
    cases hfinal
  | cons c text ih =>
    obtain ⟨s', hs', hrest⟩ := reads_cons h
    cases stepped hs' with
    | gap _ _ _ hmode => cases hmode
    | digit _ _ hc =>
      have hmem := ih hrest
      rwa [List.append_assoc, List.singleton_append, ← List.takeWhile_cons_of_pos hc] at hmem
    | numberEnd _ _ _ hc hs =>
      rw [List.takeWhile_cons_of_neg (by rw [hc]; exact Bool.false_ne_true), List.append_nil]
      exact mem_of_completed hs hrest mem_of_complete

/-- No key of the text is written with an escape. -/
def PlainKeys (text : List Char) : Prop :=
  ∀ pre ∈ text.inits, ((run start pre).all fun s => match s.mode with
    | .text (some _) t => t.escape == .plain
    | _ => true) = true

instance (text : List Char) : Decidable (PlainKeys text) :=
  inferInstanceAs (Decidable (∀ pre ∈ text.inits, _))

theorem plain_of_run (h : PlainKeys text) {pre post : List Char} (htext : text = pre ++ post)
    (hrun : run start pre = some s) {done : List (String × Json)} {t : Text}
    (hmode : s.mode = .text (some done) t) : t.escape = .plain := by
  have hpre := h pre (List.mem_inits _ _ |>.mpr ⟨post, htext.symm⟩)
  rw [hrun, Option.all_some, hmode] at hpre
  exact beq_iff_eq.mp hpre

/-- A flat object with plain keys: where a quoted word, a colon and a number stand in the text,
    the word is a key of the object, and its member is that number. -/
theorem member_of_occurrence (hflat : ∀ e ∈ entries, e.2.isFlat = true)
    {pre letters gap gap' rest : List Char} {d : Char}
    (hplain : PlainKeys (pre ++ '"' :: (letters ++ '"' :: (gap ++ ':' :: (gap' ++ d :: rest)))))
    (h : Reads start (pre ++ '"' :: (letters ++ '"' :: (gap ++ ':' :: (gap' ++ d :: rest))))
      entries)
    (hletters : ∀ c ∈ letters, isLower c = true) (hne : letters ≠ [])
    (hgap : ∀ c ∈ gap, isBlank c = true) (hgap' : ∀ c ∈ gap', isBlank c = true)
    (hd : isDigit d = true ∨ d = '-') :
    (String.ofList letters, .number (String.ofList (d :: rest.takeWhile isNumberChar))) ∈
      entries := by
  obtain ⟨s, hrun, hreads⟩ := reads_append h
  have hproper : Proper s := run_induction (fun _ _ _ hstep => proper_step hstep) hrun nofun
  obtain ⟨done, b, hmode, hcolon⟩ := key_of_occurrence hletters hne hgap hproper
    (fun done t hmode => plain_of_run hplain rfl hrun hmode) hreads
  have hstack : s.stack = [] := by
    cases hstack : s.stack with
    | nil => rfl
    | cons frame stack =>
      have hnested : Nested s := .inl (by rw [hstack, hmode]; exact deep_of_inner _ _ rfl)
      exact absurd hnested (not_nested hreads hflat)
  rw [hstack] at hcolon
  have hskipped := reads_blanks (fun c s' => step_colon_blank) hgap hcolon
  obtain ⟨s₁, hs₁, hvalue⟩ := reads_cons hskipped
  cases hs₁
  have hvalue := reads_blanks (fun c s' => step_value_blank) hgap' hvalue
  obtain ⟨s₂, hs₂, hnumber⟩ := reads_cons hvalue
  have hstarted : s₂ = ⟨[.object done (String.ofList letters)], .number [d]⟩ := by
    change valueStep _ _ d = some s₂ at hs₂
    unfold valueStep at hs₂
    have hspace : isSpace d = false := by
      rcases hd with hd | rfl
      · rw [isSpace, decide_eq_false_iff_not]
        rintro (rfl | rfl | rfl | rfl) <;> exact absurd hd (by decide)
      · rfl
    rw [hspace, if_neg Bool.false_ne_true] at hs₂
    rcases hd with hd | rfl
    · rw [if_pos hd] at hs₂
      exact (Option.some.inj hs₂).symm
    · exact (Option.some.inj hs₂).symm
  rw [hstarted] at hnumber
  exact mem_of_number hnumber

/-! ### From a member to its occurrence -/

/-- The text of a key, and of what follows up to its value. -/
def keyText (key gap gap' : List Char) : List Char := '"' :: (key ++ '"' :: (gap ++ ':' :: gap'))

/-- A key with a number stands in the text, and the number has ended. -/
def Occurs (text : List Char) (key literal : String) : Prop :=
  ∃ pre gap gap' c rest, text = pre ++ keyText key.toList gap gap' ++ literal.toList ++ c :: rest ∧
    (∀ d ∈ gap, isSpace d = true) ∧ (∀ d ∈ gap', isSpace d = true) ∧ isNumberChar c = false

theorem Occurs.snoc {key literal : String} (h : Occurs text key literal) (c : Char) :
    Occurs (text ++ [c]) key literal := by
  obtain ⟨pre, gap, gap', d, rest, rfl, hrest⟩ := h
  exact ⟨pre, gap, gap', d, rest ++ [c], by rw [List.append_assoc, List.cons_append], hrest⟩

/-- What the text read so far ends with, while a member of the outermost object is read. -/
def Ends (text : List Char) : List Frame → Mode → Prop
  | [], .text (some _) t => t.high = none ∧ ∃ pre, text = pre ++ '"' :: t.chars
  | [], .colon _ key => ∃ pre gap, text = pre ++ '"' :: (key.toList ++ '"' :: gap) ∧
      ∀ d ∈ gap, isSpace d = true
  | [.object _ key], .value _ => ∃ pre gap gap', text = pre ++ keyText key.toList gap gap' ∧
      (∀ d ∈ gap, isSpace d = true) ∧ ∀ d ∈ gap', isSpace d = true
  | [.object _ key], .number chars => ∃ pre gap gap',
      text = pre ++ keyText key.toList gap gap' ++ chars ∧
      (∀ d ∈ gap, isSpace d = true) ∧ ∀ d ∈ gap', isSpace d = true
  | [.object _ key], .complete (.number literal) => Occurs text key literal
  | _, _ => True

/-- Every number among the members read so far stands in the text read so far. -/
structure Traced (text : List Char) (s : State) : Prop where
  members : ∀ key literal, (key, Json.number literal) ∈ outer s → Occurs text key literal
  ends : Ends text s.stack s.mode

/-- A character that ends a value. -/
inductive Ended (c : Char) : Mode → Json → Prop
  | complete (v : Json) : Ended c (.complete v) v
  | number (chars : List Char) (hc : isNumberChar c = false) :
      Ended c (.number chars) (.number (String.ofList chars))

theorem new_of_completed {v : Json} {stack : List Frame} (h : Completed v stack c s')
    {e : String × Json} (he : e ∈ outer s') :
    e ∈ outer ⟨stack, .complete v⟩ ∨ ∃ done, stack = [.object done e.1] ∧ e.2 = v := by
  cases h with
  | space => exact .inl he
  | item done stack =>
    left
    cases stack with
    | nil => cases he
    | cons next stack =>
      rw [outer_cons _ next stack _ (.value false)] at he ⊢
      exact he
  | array done stack => exact .inl (outer_push (List.nil_subset _) he)
  | member done key stack | object done key stack =>
    cases stack with
    | nil =>
      rcases List.mem_append.mp he with he | he
      · exact .inl he
      · cases List.mem_singleton.mp he
        exact .inr ⟨done, rfl, rfl⟩
    | cons next stack =>
      left
      rw [outer_cons _ next stack _ (.complete v)]
      rw [outer_mode next stack _ (.complete v)] at he
      exact he

/-- What is new among the members is the one whose value has just ended. -/
theorem outer_new (h : Stepped c s s') (hproper : Proper s) {e : String × Json}
    (he : e ∈ outer s') :
    e ∈ outer s ∨ ∃ done, s.stack = [.object done e.1] ∧ Ended c s.mode e.2 := by
  cases h with
  | gap => exact .inl he
  | number | openObject | openText | literal | literalMore | digit | closeText =>
    exact .inl (outer_same (List.nil_subset _) he)
  | openArray => exact .inl (outer_pop (List.nil_subset _) he)
  | closeArray => exact .inl (outer_push (List.nil_subset _) he)
  | openKey | closeObject | closeKey => exact .inl (outer_same (List.Subset.refl _) he)
  | colon => exact .inl (outer_pop (List.Subset.refl _) he)
  | text stack keyAfter =>
    refine .inl (outer_same ?_ he)
    cases keyAfter with
    | none => exact List.nil_subset _
    | some done => exact List.Subset.refl _
  | literalEnd stack v =>
    obtain ⟨-, hflat, -⟩ := hproper _ v rfl
    refine .inl (outer_same ?_ he)
    cases v with
    | object entries => cases hflat
    | null | bool | number | string | array => exact List.nil_subset _
  | numberEnd stack chars s hc hs =>
    rcases new_of_completed hs he with hold | ⟨done, hstack, hvalue⟩
    · exact .inl (outer_same (List.nil_subset _) hold)
    · exact .inr ⟨done, hstack, hvalue ▸ .number chars hc⟩
  | complete stack v s hs =>
    rcases new_of_completed hs he with hold | ⟨done, hstack, hvalue⟩
    · exact .inl hold
    · subst hvalue
      exact .inr ⟨done, hstack, .complete e.2⟩

theorem ends_completed {v : Json} {stack : List Frame} (h : Completed v stack c s')
    (hspace : isSpace c = true → Ends text stack (.complete v)) : Ends text s'.stack s'.mode := by
  cases h with
  | space _ _ hc => exact hspace hc
  | item done stack => cases stack <;> trivial
  | array done stack => rcases stack with _ | ⟨_ | _, _ | _⟩ <;> trivial
  | member done key stack => rcases stack with _ | ⟨_ | _, _ | _⟩ <;> trivial
  | object done key stack => rcases stack with _ | ⟨_ | _, _ | _⟩ <;> trivial

/-- The step lemma, while no key is written with an escape. -/
theorem ends_step (h : Stepped c s s') (hproper : Proper s)
    (hplain : ∀ done t, s.mode = .text (some done) t → t.escape = .plain)
    (hplain' : ∀ done t, s'.mode = .text (some done) t → t.escape = .plain)
    (hends : Ends text s.stack s.mode) : Ends (text ++ [c]) s'.stack s'.mode := by
  cases h with
  | gap stack mode hspace hmode =>
    have hsnoc (gap : List Char) (hgap : ∀ d ∈ gap, isSpace d = true) :
        ∀ d ∈ gap ++ [c], isSpace d = true := by
      intro d hd
      rcases List.mem_append.mp hd with hd | hd
      · exact hgap d hd
      · rwa [List.mem_singleton.mp hd]
    rcases stack with _ | ⟨_ | ⟨done, key⟩, _ | _⟩
    · cases mode with
      | colon done key =>
        obtain ⟨pre, gap, rfl, hgap⟩ := hends
        exact ⟨pre, gap ++ [c], by simp, hsnoc gap hgap⟩
      | value | key => trivial
      | text | literal | number | complete => cases hmode
    · trivial
    · trivial
    · cases mode with
      | value b =>
        obtain ⟨pre, gap, gap', rfl, hgap, hgap'⟩ := hends
        exact ⟨pre, gap, gap' ++ [c], by simp [keyText], hgap, hsnoc gap' hgap'⟩
      | colon | key => trivial
      | text | literal | number | complete => cases hmode
    · trivial
  | number stack b =>
    rcases stack with _ | ⟨_ | ⟨done, key⟩, _ | _⟩
    · trivial
    · trivial
    · trivial
    · obtain ⟨pre, gap, gap', rfl, hgaps⟩ := hends
      exact ⟨pre, gap, gap', rfl, hgaps⟩
    · trivial
  | openKey stack done b hc =>
    subst hc
    rcases stack with _ | ⟨_ | _, _ | _⟩
    · exact ⟨rfl, text, rfl⟩
    all_goals trivial
  | colon stack done key hc =>
    subst hc
    rcases stack with _ | ⟨_ | _, _ | _⟩
    · obtain ⟨pre, gap, rfl, hgap⟩ := hends
      exact ⟨pre, gap, [], by simp [keyText], hgap, List.forall_mem_nil _⟩
    all_goals trivial
  | closeKey stack done t ht hc =>
    subst hc
    rcases stack with _ | ⟨_ | _, _ | _⟩
    · obtain ⟨hhigh, pre, rfl⟩ := hends
      have hchars : t.flushed = t.chars := by
        rw [Text.flushed, hhigh]
        rfl
      refine ⟨pre, [], ?_, List.forall_mem_nil _⟩
      rw [hchars, String.toList_ofList, List.append_assoc, List.cons_append]
    all_goals trivial
  | text stack keyAfter t t' hopen ht =>
    rcases keyAfter with _ | done
    · rcases stack with _ | ⟨_ | _, _ | _⟩ <;> trivial
    rcases stack with _ | ⟨_ | _, _ | _⟩
    · obtain ⟨hhigh, pre, rfl⟩ := hends
      have hescape := hplain done t rfl
      have hescape' := hplain' done t' rfl
      rw [Text.step, hescape] at ht
      dsimp only at ht
      split_ifs at ht with hback hcontrol
      · cases ht
        cases hescape'
      · cases ht
        refine ⟨rfl, pre, ?_⟩
        rw [Text.add, Text.flushed, hhigh]
        simp
    all_goals trivial
  | digit stack chars hc =>
    rcases stack with _ | ⟨_ | ⟨done, key⟩, _ | _⟩
    · trivial
    · trivial
    · trivial
    · obtain ⟨pre, gap, gap', rfl, hgaps⟩ := hends
      exact ⟨pre, gap, gap', List.append_assoc _ _ _, hgaps⟩
    · trivial
  | literalEnd stack v =>
    obtain ⟨-, -, hnumber⟩ := hproper _ v rfl
    rcases stack with _ | ⟨_ | ⟨done, key⟩, _ | _⟩
    · trivial
    · trivial
    · trivial
    · cases v with
      | number literal => exact absurd rfl (hnumber literal)
      | null | bool | string | array | object => trivial
    · trivial
  | numberEnd stack chars s hc hs =>
    refine ends_completed hs fun _ => ?_
    rcases stack with _ | ⟨_ | ⟨done, key⟩, _ | _⟩
    · trivial
    · trivial
    · trivial
    · obtain ⟨pre, gap, gap', rfl, hgap, hgap'⟩ := hends
      exact ⟨pre, gap, gap', c, [], by rw [String.toList_ofList], hgap, hgap', hc⟩
    · trivial
  | complete stack v s hs =>
    refine ends_completed hs fun _ => ?_
    rcases stack with _ | ⟨_ | ⟨done, key⟩, _ | _⟩
    · trivial
    · trivial
    · trivial
    · cases v with
      | number literal => exact Occurs.snoc hends c
      | null | bool | string | array | object => trivial
    · trivial
  | openArray stack => rcases stack with _ | ⟨_ | _, _ | _⟩ <;> trivial
  | closeArray stack => rcases stack with _ | ⟨_ | _, _ | _⟩ <;> trivial
  | openObject stack => rcases stack with _ | ⟨_ | _, _ | _⟩ <;> trivial
  | openText stack => rcases stack with _ | ⟨_ | _, _ | _⟩ <;> trivial
  | literal stack => rcases stack with _ | ⟨_ | _, _ | _⟩ <;> trivial
  | closeObject stack => rcases stack with _ | ⟨_ | _, _ | _⟩ <;> trivial
  | closeText stack => rcases stack with _ | ⟨_ | _, _ | _⟩ <;> trivial
  | literalMore stack => rcases stack with _ | ⟨_ | _, _ | _⟩ <;> trivial

theorem traced_step (h : Stepped c s s') (hproper : Proper s)
    (hplain : ∀ done t, s.mode = .text (some done) t → t.escape = .plain)
    (hplain' : ∀ done t, s'.mode = .text (some done) t → t.escape = .plain)
    (htraced : Traced text s) : Traced (text ++ [c]) s' := by
  refine ⟨fun key literal hmem => ?_, ends_step h hproper hplain hplain' htraced.ends⟩
  rcases outer_new h hproper hmem with hold | ⟨done, hstack, hended⟩
  · exact (htraced.members key literal hold).snoc c
  · have hends := htraced.ends
    obtain ⟨stack, mode⟩ := s
    obtain rfl : stack = [.object done key] := hstack
    generalize hvalue : Json.number literal = v at hended
    cases hended with
    | complete v =>
      subst hvalue
      exact Occurs.snoc hends c
    | number chars hc =>
      cases hvalue
      obtain ⟨pre, gap, gap', rfl, hgap, hgap'⟩ := hends
      exact ⟨pre, gap, gap', c, [], by rw [String.toList_ofList], hgap, hgap', hc⟩

theorem traced_run (hplain : PlainKeys text) : ∀ pre, pre <+: text → ∀ s,
    run start pre = some s → Traced pre s ∧ Proper s := by
  intro pre
  induction pre using List.reverseRecOn with
  | nil =>
    intro _ s hs
    cases hs
    refine ⟨⟨fun key literal hmem => ?_, trivial⟩, nofun⟩
    cases hmem
  | append_singleton pre c ih =>
    intro hpre s hafter
    have hs := hafter
    rw [run_append] at hs
    obtain ⟨t, ht, hstep⟩ := Option.bind_eq_some_iff.mp hs
    rw [run_cons] at hstep
    obtain ⟨s', hs', hend⟩ := Option.bind_eq_some_iff.mp hstep
    cases hend
    obtain ⟨post, hpost⟩ := hpre
    have hbefore : text = pre ++ ([c] ++ post) := by rw [← hpost, List.append_assoc]
    obtain ⟨htraced, hproper⟩ := ih ⟨_, hbefore.symm⟩ t ht
    exact ⟨traced_step (stepped hs') hproper
        (fun done u hmode => plain_of_run hplain hbefore ht hmode)
        (fun done u hmode => plain_of_run hplain hpost.symm hafter hmode) htraced,
      proper_step (stepped hs') hproper⟩

/-- In an object with plain keys every number stands in the text, behind its key. -/
theorem occurs_of_member (hplain : PlainKeys text) (h : Reads start text entries)
    {key literal : String} (hmem : (key, .number literal) ∈ entries) :
    Occurs text key literal := by
  obtain ⟨final, hrun, hfinal⟩ := h
  rw [← outer_of_finish hfinal] at hmem
  obtain ⟨htraced, -⟩ := traced_run hplain text (List.prefix_refl text) final hrun
  exact htraced.members key literal hmem

/-- Nothing but white space follows a complete object. -/
theorem not_reads_after {pre rest : List Char} {entries' : List (String × Json)}
    (h : Reads start pre entries) (hrest : ∃ c ∈ rest, isSpace c = false) :
    ¬ Reads start (pre ++ rest) entries' := by
  intro hall
  obtain ⟨final, hrun, hfinal⟩ := h
  obtain ⟨s, hs, hreads⟩ := reads_append hall
  obtain rfl := Option.some.inj (hs.symm.trans hrun)
  have hcomplete : s = ⟨[], .complete (.object entries)⟩ := by
    obtain ⟨stack, mode⟩ := s
    unfold finish at hfinal
    split at hfinal
    · rename_i v hstack hmode
      cases hfinal
      cases hstack
      cases hmode
      rfl
    · split_ifs at hfinal
      cases hfinal
    · cases hfinal
  rw [hcomplete] at hreads
  clear hs hall
  induction rest with
  | nil =>
    obtain ⟨c, hc, -⟩ := hrest
    cases hc
  | cons d rest ih =>
    obtain ⟨s', hs', hreads⟩ := reads_cons hreads
    cases completed hs' with
    | space _ _ hspace =>
      obtain ⟨c, hc, hnot⟩ := hrest
      rcases List.mem_cons.mp hc with rfl | hc
      · exact absurd (hspace.symm.trans hnot) nofun
      · exact ih ⟨c, hc, hnot⟩ hreads

end Json
