import Mathlib.Data.List.TakeWhile
import ZedBot.Referrals.PayoutText

/-! The payout windows are the union of the trustworthy intervals.

    The merge is a fold over windows that are sorted by their start: the window merged so far starts
    first, and what follows starts within it or after it. -/

namespace ZedBot

/-- The window contains the instant. -/
def ReferralPayoutWindow.Has (w : ReferralPayoutWindow) (t : ℤ) : Prop :=
  w.fromMs ≤ t ∧ ∀ u, w.toMs = some u → t ≤ u

def ReferralPayoutWindow.Proper (w : ReferralPayoutWindow) : Prop :=
  ∀ t, w.toMs = some t → w.fromMs < t

/-- The start and the end of the window are dates. -/
def ReferralPayoutWindow.Dated (w : ReferralPayoutWindow) : Prop :=
  isRepresentable w.fromMs = true ∧ ∀ t, w.toMs = some t → isRepresentable t = true

variable {ws : List ReferralPayoutWindow} {last w : ReferralPayoutWindow} {t : ℤ}

/-! ### The merge -/

theorem extendLast_fromMs (last w : ReferralPayoutWindow) :
    (extendLast last w).fromMs = last.fromMs := by
  unfold extendLast
  split
  · rfl
  · rfl
  · split <;> rfl

/-- The end after a merge is the end of one of the two. -/
theorem extendLast_toMs (last w : ReferralPayoutWindow) :
    (extendLast last w).toMs = last.toMs ∨ (extendLast last w).toMs = w.toMs := by
  unfold extendLast
  split
  · exact .inl rfl
  · next h => exact .inr h.symm
  · next h =>
    split
    · exact .inr h.symm
    · exact .inl rfl

theorem extendLast_proper (hlast : last.Proper) (hw : w.Proper) (hle : last.fromMs ≤ w.fromMs) :
    (extendLast last w).Proper := by
  intro t ht
  rw [extendLast_fromMs]
  rcases extendLast_toMs last w with h | h
  · exact hlast t (h ▸ ht)
  · have := hw t (h ▸ ht)
    omega

theorem extendLast_dated (hlast : last.Dated) (hw : w.Dated) : (extendLast last w).Dated := by
  refine ⟨by rw [extendLast_fromMs]; exact hlast.1, fun t ht => ?_⟩
  rcases extendLast_toMs last w with h | h
  · exact hlast.2 t (h ▸ ht)
  · exact hw.2 t (h ▸ ht)

/-- Two windows that overlap or touch are merged into their union. -/
theorem extendLast_has (hle : last.fromMs ≤ w.fromMs) (hover : overlapsLast last w = true) :
    (extendLast last w).Has t ↔ last.Has t ∨ w.Has t := by
  obtain ⟨f, e⟩ := last
  obtain ⟨g, u⟩ := w
  simp only at hle
  cases e with
  | none =>
    simp only [extendLast, ReferralPayoutWindow.Has]
    constructor
    · exact .inl
    · rintro (h | h)
      · exact h
      · exact ⟨by omega, nofun⟩
  | some e =>
    simp only [overlapsLast, decide_eq_true_eq] at hover
    cases u with
    | none =>
      simp only [extendLast, ReferralPayoutWindow.Has, Option.some.injEq, forall_eq', reduceCtorEq,
        false_implies, implies_true, and_true]
      omega
    | some u =>
      by_cases hlt : e < u
      · simp only [extendLast, if_pos hlt, ReferralPayoutWindow.Has, Option.some.injEq, forall_eq']
        omega
      · simp only [extendLast, if_neg hlt, ReferralPayoutWindow.Has, Option.some.injEq, forall_eq']
        omega

/-- The windows are sorted by their start. -/
def Sorted (ws : List ReferralPayoutWindow) : Prop := ws.Pairwise fun a b => a.fromMs ≤ b.fromMs

/-- What a merge makes of a window and those after it. -/
structure Merged (last : ReferralPayoutWindow) (ws : List ReferralPayoutWindow) : Prop where
  normal : Normal (mergeWindows last ws)
  from_le : ∀ w ∈ mergeWindows last ws, last.fromMs ≤ w.fromMs
  has : ∀ t, (∃ w ∈ mergeWindows last ws, w.Has t) ↔ last.Has t ∨ ∃ w ∈ ws, w.Has t

/-- UNION: the merge is normal, and contains what its windows contain. -/
theorem mergeWindows_merged (hproper : ∀ w ∈ last :: ws, w.Proper) (hsorted : Sorted (last :: ws)) :
    Merged last ws := by
  induction ws generalizing last with
  | nil =>
    refine ⟨⟨hproper, List.pairwise_singleton _ _⟩, fun w hw => ?_, fun t => ?_⟩
    · rw [List.mem_singleton.mp hw]
    · simp [mergeWindows]
  | cons w ws ih =>
    obtain ⟨hlast, hrest⟩ := List.pairwise_cons.mp hsorted
    have hle : last.fromMs ≤ w.fromMs := hlast w List.mem_cons_self
    have hp : ∀ x ∈ ws, x.Proper := fun x hx => hproper x (.tail _ (.tail _ hx))
    have hpw : w.Proper := hproper w (.tail _ (.head _))
    cases hover : overlapsLast last w with
    | true =>
      have hext := extendLast_proper (hproper last (.head _)) hpw hle
      have hsorted' : Sorted (extendLast last w :: ws) := by
        refine List.pairwise_cons.mpr ⟨fun x hx => ?_, (List.pairwise_cons.mp hrest).2⟩
        rw [extendLast_fromMs]
        exact hlast x (.tail _ hx)
      obtain ⟨hnormal, hfrom, hhas⟩ := ih (List.forall_mem_cons.mpr ⟨hext, hp⟩) hsorted'
      have hstep : mergeWindows last (w :: ws) = mergeWindows (extendLast last w) ws := by
        simp [mergeWindows, hover]
      rw [extendLast_fromMs] at hfrom
      refine ⟨hstep ▸ hnormal, hstep ▸ hfrom, fun t => ?_⟩
      rw [hstep, hhas, extendLast_has hle hover, or_assoc, List.exists_mem_cons_iff]
    | false =>
      obtain ⟨hnormal, hfrom, hhas⟩ := ih (List.forall_mem_cons.mpr ⟨hpw, hp⟩) hrest
      have hstep : mergeWindows last (w :: ws) = last :: mergeWindows w ws := by
        simp [mergeWindows, hover]
      obtain ⟨u, hu, hlt⟩ : ∃ u, last.toMs = some u ∧ u < w.fromMs := by
        cases hto : last.toMs with
        | none => simp [overlapsLast, hto] at hover
        | some u => exact ⟨u, rfl, by simpa [overlapsLast, hto] using hover⟩
      refine ⟨hstep ▸ ⟨?_, ?_⟩, hstep ▸ ?_, fun t => ?_⟩
      · exact List.forall_mem_cons.mpr ⟨hproper last (.head _), hnormal.proper⟩
      · refine List.pairwise_cons.mpr ⟨fun x hx => ⟨u, hu, ?_⟩, hnormal.apart⟩
        have := hfrom x hx
        omega
      · refine List.forall_mem_cons.mpr ⟨le_refl _, fun x hx => ?_⟩
        have := hfrom x hx
        omega
      · rw [hstep, List.exists_mem_cons_iff, hhas, List.exists_mem_cons_iff]

theorem mergeWindows_dated (hlast : last.Dated) (hws : ∀ w ∈ ws, w.Dated) :
    ∀ w ∈ mergeWindows last ws, w.Dated := by
  induction ws generalizing last with
  | nil =>
    intro w hw
    rw [List.mem_singleton.mp hw]
    exact hlast
  | cons v ws ih =>
    obtain ⟨hv, hrest⟩ := List.forall_mem_cons.mp hws
    simp only [mergeWindows]
    split
    · exact ih (extendLast_dated hlast hv) hrest
    · exact List.forall_mem_cons.mpr ⟨hlast, ih hv hrest⟩

theorem mem_sortWindows : w ∈ sortWindows ws ↔ w ∈ ws := (List.mergeSort_perm _ _).mem_iff

theorem sortWindows_sorted (ws : List ReferralPayoutWindow) : Sorted (sortWindows ws) := by
  have h : (sortWindows ws).Pairwise fun a b => decide (a.fromMs ≤ b.fromMs) = true :=
    List.pairwise_mergeSort (by simp; omega) (by simp; omega) ws
  simpa [Sorted] using h

/-- The sorted windows, merged. -/
theorem merged_sorted (hproper : ∀ w ∈ ws, w.Proper) :
    Normal (mergeSorted (sortWindows ws)) ∧
      ∀ t, (∃ w ∈ mergeSorted (sortWindows ws), w.Has t) ↔ ∃ w ∈ ws, w.Has t := by
  have hsorted := sortWindows_sorted ws
  have hmem (w : ReferralPayoutWindow) : w ∈ sortWindows ws ↔ w ∈ ws := mem_sortWindows
  cases hs : sortWindows ws with
  | nil =>
    refine ⟨⟨nofun, List.Pairwise.nil⟩, fun t => ?_⟩
    simp only [← hmem, hs]
    rfl
  | cons w rest =>
    rw [hs] at hsorted
    have hp : ∀ x ∈ w :: rest, x.Proper := fun x hx => hproper x ((hmem x).mp (hs ▸ hx))
    have hmerged := mergeWindows_merged hp hsorted
    refine ⟨hmerged.normal, fun t => ?_⟩
    simp only [← hmem, hs, List.exists_mem_cons_iff]
    exact hmerged.has t

/-! ### The entries of the text -/

variable {dateParse : String → Option ℤ} {toISOString : ℤ → String} {raw : String}
  {entries : List Json}

/-- The entry is an object whose `from` is a date, and whose `to` is null or a later date. -/
def WellFormed (dateParse : String → Option ℤ) (entry : Json) (w : ReferralPayoutWindow) : Prop :=
  ∃ o, entry = .object o ∧
    (∃ s, Json.member o "from" = some (.string s) ∧ dateParse s = some w.fromMs) ∧
    (Json.member o "to" = some .null ∧ w.toMs = none ∨
      ∃ s t, Json.member o "to" = some (.string s) ∧ dateParse s = some t ∧ w.fromMs < t ∧
        w.toMs = some t)

/-- The entry is well-formed and still open. -/
def IsOpen (dateParse : String → Option ℤ) (entry : Json) : Prop :=
  ∃ f, WellFormed dateParse entry ⟨f, none⟩

theorem readFrom_some {v : Option Json} {f : ℤ} :
    readFrom dateParse v = some f ↔ ∃ s, v = some (.string s) ∧ dateParse s = some f := by
  unfold readFrom
  split
  · next s => simp
  · next h => exact ⟨nofun, fun ⟨s, hs, _⟩ => absurd hs (h s)⟩

/-- What the checks keep of an object, once its start is read. -/
theorem checkWindow_readTo {g f : ℤ} {e : Option ℤ} (closing : Option Json) :
    checkWindow (.object (some g) (readTo dateParse closing)) = .ok ⟨f, e⟩ ↔
      g = f ∧ (closing = some .null ∧ e = none ∨
        ∃ s t, closing = some (.string s) ∧ dateParse s = some t ∧ f < t ∧ e = some t) := by
  match closing with
  | none => simp [readTo, checkWindow]
  | some .null => simp [readTo, checkWindow, eq_comm]
  | some (.string s) =>
    cases hs : dateParse s with
    | none => simp [readTo, checkWindow, hs]
    | some t =>
      by_cases hle : t ≤ g
      · simp only [readTo, hs, checkWindow, if_pos hle, reduceCtorEq, false_iff]
        rintro ⟨rfl, ⟨h, -⟩ | ⟨s', t', h, ht, hlt, -⟩⟩
        · simp at h
        · obtain rfl : s = s' := by simpa using h
          rw [hs, Option.some_inj] at ht
          omega
      · simp only [readTo, hs, checkWindow, if_neg hle, Except.ok.injEq,
          ReferralPayoutWindow.mk.injEq]
        constructor
        · rintro ⟨rfl, rfl⟩
          exact ⟨rfl, .inr ⟨s, t, rfl, hs, by omega, rfl⟩⟩
        · rintro ⟨rfl, ⟨h, -⟩ | ⟨s', t', h, ht, -, rfl⟩⟩
          · simp at h
          · obtain rfl : s = s' := by simpa using h
            exact ⟨rfl, hs.symm.trans ht⟩
  | some (.bool _) | some (.number _) | some (.array _) | some (.object _) =>
    simp [readTo, checkWindow]

/-- What the checks keep of an entry is its well-formed window. -/
theorem checkWindow_readEntry {entry : Json} {w : ReferralPayoutWindow} :
    checkWindow (readEntry dateParse entry) = .ok w ↔ WellFormed dateParse entry w := by
  obtain ⟨f, e⟩ := w
  match entry with
  | .object o =>
    simp only [readEntry, WellFormed, Json.object.injEq, exists_eq_left', ← readFrom_some]
    cases hfrom : readFrom dateParse (Json.member o "from") with
    | none => simp [checkWindow]
    | some g => rw [checkWindow_readTo, Option.some_inj]
  | .null | .bool _ | .number _ | .string _ | .array _ =>
    simp [readEntry, checkWindow, WellFormed]

theorem mem_cleanWindows {w : ReferralPayoutWindow} :
    w ∈ cleanWindows (entries.map (readEntry dateParse)) ↔
      ∃ e ∈ entries, WellFormed dateParse e w := by
  simp only [cleanWindows, List.mem_filterMap, List.mem_map, exists_exists_and_eq_and]
  refine exists_congr fun e => and_congr_right fun _ => ?_
  rw [← checkWindow_readEntry]
  cases checkWindow (readEntry dateParse e) <;> simp [Except.toOption]

theorem WellFormed.proper {entry : Json} {w : ReferralPayoutWindow}
    (h : WellFormed dateParse entry w) : w.Proper := by
  obtain ⟨o, -, -, ⟨-, hto⟩ | ⟨s, t, -, -, hlt, hto⟩⟩ := h
  · intro u hu
    simp [hto] at hu
  · intro u hu
    rw [hto, Option.some_inj] at hu
    omega

theorem WellFormed.dated (codec : DateText dateParse toISOString) {entry : Json}
    {w : ReferralPayoutWindow} (h : WellFormed dateParse entry w) : w.Dated := by
  obtain ⟨o, -, ⟨s, -, hs⟩, hto⟩ := h
  refine ⟨codec.representable s _ hs, fun u hu => ?_⟩
  rcases hto with ⟨-, hto⟩ | ⟨s', t, -, ht, -, hto⟩
  · simp [hto] at hu
  · rw [hto, Option.some_inj] at hu
    exact codec.representable s' u (hu ▸ ht)

/-- The open windows of the entries. -/
def openWindows (dateParse : String → Option ℤ) (entries : List Json) :
    List ReferralPayoutWindow :=
  (cleanWindows (entries.map (readEntry dateParse))).filter fun w => w.toMs = none

theorem openWindows_eq_nil :
    openWindows dateParse entries = [] ↔ ∀ e ∈ entries, ¬ IsOpen dateParse e := by
  rw [openWindows, List.filter_eq_nil_iff]
  constructor
  · rintro h e he ⟨f, hf⟩
    exact h ⟨f, none⟩ (mem_cleanWindows.mpr ⟨e, he, hf⟩) (by simp)
  · intro h w hw hopen
    obtain ⟨e, he, hwell⟩ := mem_cleanWindows.mp hw
    obtain ⟨f, u⟩ := w
    obtain rfl : u = none := by simpa using hopen
    exact h e he ⟨f, hwell⟩

/-- One more entry adds one open window if it is open, and none otherwise. -/
theorem openWindows_cons (e : Json) (es : List Json) :
    (IsOpen dateParse e ∧
      (openWindows dateParse (e :: es)).length = (openWindows dateParse es).length + 1) ∨
    (¬ IsOpen dateParse e ∧ openWindows dateParse (e :: es) = openWindows dateParse es) := by
  simp only [openWindows, cleanWindows, List.map_cons, List.filterMap_cons]
  cases hcheck : checkWindow (readEntry dateParse e) with
  | error code =>
    refine .inr ⟨?_, rfl⟩
    rintro ⟨f, hf⟩
    rw [checkWindow_readEntry.mpr hf] at hcheck
    cases hcheck
  | ok w =>
    obtain ⟨f, u⟩ := w
    cases u with
    | none => exact .inl ⟨⟨f, checkWindow_readEntry.mp hcheck⟩, by simp [Except.toOption]⟩
    | some t =>
      refine .inr ⟨?_, by simp [Except.toOption]⟩
      rintro ⟨g, hg⟩
      rw [checkWindow_readEntry.mpr hg] at hcheck
      cases hcheck

/-- At most one window is open exactly if no two entries are. -/
theorem one_open_iff (entries : List Json) :
    (openWindows dateParse entries).length ≤ 1 ↔
      entries.Pairwise fun a b => ¬ (IsOpen dateParse a ∧ IsOpen dateParse b) := by
  induction entries with
  | nil => simp [openWindows, cleanWindows]
  | cons e es ih =>
    rw [List.pairwise_cons, ← ih]
    have hnil : openWindows dateParse es = [] ↔ ∀ e ∈ es, ¬ IsOpen dateParse e := openWindows_eq_nil
    rcases @openWindows_cons dateParse e es with ⟨hopen, hlength⟩ | ⟨hclosed, hsame⟩
    · rw [hlength, ← List.length_eq_zero_iff] at *
      simp only [hopen, true_and, ← hnil]
      omega
    · rw [hsame]
      exact ⟨fun h => ⟨fun b _ hb => hclosed hb.1, h⟩, fun h => h.2⟩

/-! ### Blank texts -/

/-- A text that `trim` empties has only white space. -/
theorem spaces_of_jsTrim (h : jsTrim raw = "") : ∀ c ∈ raw.toList, isJsSpace c = true := by
  have hnil : (raw.toList.dropWhile isJsSpace).reverse.dropWhile isJsSpace = [] := by
    simpa [jsTrim] using h
  cases hcs : raw.toList.dropWhile isJsSpace with
  | nil => exact List.dropWhile_eq_nil_iff.mp hcs
  | cons c cs =>
    have hc := List.dropWhile_eq_nil_iff.mp hnil c (by simp [hcs])
    have hfirst := List.head_dropWhile_not isJsSpace (l := raw.toList) (by simp [hcs])
    simp [hcs, hc] at hfirst

/-- White space is skipped where a value may begin, or refused. -/
theorem valueStep_space {c : Char} (h : isJsSpace c = true) :
    Json.step Json.start c = some Json.start ∨ Json.step Json.start c = none := by
  simp only [Json.step, Json.start, Json.valueStep]
  split
  · exact .inl rfl
  split
  · next hdigit =>
    have hrange : 48 ≤ c.toNat ∧ c.toNat ≤ 57 := by
      simpa [Json.isDigit, Char.le_def, UInt32.le_iff_toNat_le] using hdigit
    simp [isJsSpace] at h
    omega
  · split
    all_goals first
      | exact .inr rfl
      | exact absurd h (by decide)

theorem run_spaces {cs : List Char} (h : ∀ c ∈ cs, isJsSpace c = true) :
    Json.run Json.start cs = some Json.start ∨ Json.run Json.start cs = none := by
  induction cs with
  | nil => exact .inl rfl
  | cons c cs ih =>
    rw [Json.run_cons]
    rcases valueStep_space (h c List.mem_cons_self) with hc | hc
    · rw [hc]
      exact ih fun d hd => h d (List.mem_cons_of_mem _ hd)
    · rw [hc]
      exact .inr rfl

/-- A blank text is not JSON. -/
theorem parse_blank (h : jsTrim raw = "") : Json.parse raw = none := by
  rcases run_spaces (spaces_of_jsTrim h) with hrun | hrun
  · rw [Json.parse, hrun]
    rfl
  · rw [Json.parse, hrun]
    rfl

/-! ### The parsed windows -/

/-- An instant at which the stored text says that payouts were on. -/
def StoredOn (dateParse : String → Option ℤ) (raw : String) (t : ℤ) : Prop :=
  ∃ entries, Json.parse raw = some (.array entries) ∧
    (entries.Pairwise fun a b => ¬ (IsOpen dateParse a ∧ IsOpen dateParse b)) ∧
    ∃ e ∈ entries, ∃ w, WellFormed dateParse e w ∧ w.Has t

theorem mergeSorted_dated (h : ∀ w ∈ ws, w.Dated) : ∀ w ∈ mergeSorted ws, w.Dated := by
  cases ws with
  | nil => exact h
  | cons v ws => exact mergeWindows_dated (h v (.head _)) fun w hw => h w (.tail _ hw)

/-- PARSED: the windows of a text are normal dates, and contain exactly the instants it says. -/
theorem parsed_windows (codec : DateText dateParse toISOString) (raw : String) :
    Normal (parseReferralPayoutWindowsStrict (readStored dateParse raw)).windows ∧
      (∀ w ∈ (parseReferralPayoutWindowsStrict (readStored dateParse raw)).windows, w.Dated) ∧
      ∀ t, (∃ w ∈ (parseReferralPayoutWindowsStrict (readStored dateParse raw)).windows, w.Has t) ↔
        StoredOn dateParse raw t := by
  have hempty (hno : ∀ t, ¬ StoredOn dateParse raw t) : Normal [] ∧
      (∀ w ∈ ([] : List ReferralPayoutWindow), w.Dated) ∧
      ∀ t, (∃ w ∈ ([] : List ReferralPayoutWindow), w.Has t) ↔ StoredOn dateParse raw t := by
    refine ⟨⟨nofun, List.Pairwise.nil⟩, nofun, fun t => ⟨nofun, fun h => absurd h (hno t)⟩⟩
  unfold readStored
  split
  · next hblank =>
    refine hempty fun t ⟨entries, hparse, _⟩ => ?_
    rw [parse_blank hblank] at hparse
    cases hparse
  split
  · next hparse =>
    refine hempty fun t ⟨entries, h, _⟩ => ?_
    rw [hparse] at h
    cases h
  · next entries hparse =>
    have hon (t : ℤ) : StoredOn dateParse raw t ↔
        (openWindows dateParse entries).length ≤ 1 ∧
          ∃ w ∈ cleanWindows (entries.map (readEntry dateParse)), w.Has t := by
      rw [one_open_iff]
      constructor
      · rintro ⟨entries', h, hone, e, he, w, hw, ht⟩
        obtain rfl : entries = entries' := by
          rw [hparse] at h
          simpa using h
        exact ⟨hone, w, mem_cleanWindows.mpr ⟨e, he, hw⟩, ht⟩
      · rintro ⟨hone, w, hw, ht⟩
        obtain ⟨e, he, hwell⟩ := mem_cleanWindows.mp hw
        exact ⟨entries, hparse, hone, e, he, w, hwell, ht⟩
    simp only [parseReferralPayoutWindowsStrict]
    split
    · next hmany => exact hempty fun t h => absurd ((hon t).mp h).1 (by exact not_le.mpr hmany)
    · next hone =>
      have hproper : ∀ w ∈ cleanWindows (entries.map (readEntry dateParse)), w.Proper := by
        intro w hw
        obtain ⟨e, -, hwell⟩ := mem_cleanWindows.mp hw
        exact hwell.proper
      obtain ⟨hnormal, hhas⟩ := merged_sorted hproper
      refine ⟨hnormal, mergeSorted_dated fun w hw => ?_, fun t => ?_⟩
      · obtain ⟨e, -, hwell⟩ := mem_cleanWindows.mp (mem_sortWindows.mp hw)
        exact hwell.dated codec
      · rw [hhas, hon]
        exact ⟨fun h => ⟨not_lt.mp hone, h⟩, fun h => h.2⟩
  · next other hother hparse =>
    refine hempty fun t ⟨entries, h, _⟩ => ?_
    rw [hparse, Option.some_inj] at h
    exact hother entries h

/-! ### The returned texts -/

theorem dateParse_from (codec : DateText dateParse toISOString) (h : w.Dated) :
    dateParse (windowText toISOString w).fromIso = some w.fromMs :=
  codec.round_trip _ h.1

theorem dateParse_to (codec : DateText dateParse toISOString) (h : w.Dated) :
    (windowText toISOString w).toIso.bind dateParse = w.toMs := by
  cases hto : w.toMs with
  | none => simp [windowText, hto]
  | some t => simp [windowText, hto, codec.round_trip t (h.2 t hto)]

theorem isWithin_text (codec : DateText dateParse toISOString) (h : ∀ w ∈ ws, w.Dated) (t : ℤ) :
    isWithinPayoutText dateParse (some t) (ws.map (windowText toISOString)) = true ↔
      ∃ w ∈ ws, w.Has t := by
  simp only [isWithinPayoutText, List.any_map, List.any_eq_true, Function.comp]
  refine exists_congr fun w => and_congr_right fun hw => ?_
  rw [dateParse_from codec (h w hw)]
  have hto := dateParse_to codec (h w hw)
  cases hmap : (windowText toISOString w).toIso with
  | none =>
    rw [hmap] at hto
    simp [ReferralPayoutWindow.Has, ← hto]
  | some iso =>
    rw [hmap, Option.bind_some] at hto
    obtain ⟨u, hu⟩ : ∃ u, w.toMs = some u := by
      cases hu : w.toMs with
      | none => simp [windowText, hu] at hmap
      | some u => exact ⟨u, rfl⟩
    simp [ReferralPayoutWindow.Has, hto, hu]

/-- The text of a window is read as that window. -/
theorem readEntry_text (codec : DateText dateParse toISOString) (h : w.Dated) :
    readEntry dateParse (.object [("from", .string (windowText toISOString w).fromIso),
      ("to", (windowText toISOString w).toIso.elim .null .string)]) = stringifyWindow w := by
  have hfrom := dateParse_from codec h
  have hto := dateParse_to codec h
  cases hmap : (windowText toISOString w).toIso with
  | none =>
    rw [hmap, Option.bind_none] at hto
    simp [readEntry, Json.member, readFrom, readTo, hfrom, stringifyWindow, stringifyTo, ← hto]
  | some iso =>
    rw [hmap, Option.bind_some] at hto
    obtain ⟨u, hu⟩ : ∃ u, w.toMs = some u := by
      cases hu : w.toMs with
      | none => simp [windowText, hu] at hmap
      | some u => exact ⟨u, rfl⟩
    simp [readEntry, Json.member, readFrom, readTo, hfrom, stringifyWindow, stringifyTo, hto, hu]

theorem numberFree_texts (texts : List PayoutWindowText) :
    Json.numberFreeItems (texts.map fun w =>
      .object [("from", .string w.fromIso), ("to", w.toIso.elim .null .string)]) = true := by
  induction texts with
  | nil => rfl
  | cons w texts ih =>
    rw [List.map_cons, Json.numberFreeItems, ih]
    cases hto : w.toIso <;>
      simp [Json.numberFree, Json.numberFreeEntries]

/-- The text of the windows is read as those windows. -/
theorem readStored_text (codec : DateText dateParse toISOString) (h : ∀ w ∈ ws, w.Dated) :
    readStored dateParse (stringifyPayoutText (ws.map (windowText toISOString))) =
      stringifyWindows ws := by
  have hparse : Json.parse (stringifyPayoutText (ws.map (windowText toISOString))) =
      some (.array ((ws.map (windowText toISOString)).map fun w =>
        .object [("from", .string w.fromIso), ("to", w.toIso.elim .null .string)])) :=
    Json.parse_stringify (by rw [Json.numberFree, numberFree_texts])
  have hblank : jsTrim (stringifyPayoutText (ws.map (windowText toISOString))) ≠ "" := by
    intro hblank
    rw [parse_blank hblank] at hparse
    cases hparse
  rw [readStored, if_neg hblank, hparse]
  simp only [stringifyWindows, List.map_map, StoredWindows.array.injEq]
  exact List.map_congr_left fun w hw => readEntry_text codec (h w hw)

theorem entryIssues_stringify (h : ∀ w ∈ ws, w.Proper) :
    entryIssues (ws.map stringifyWindow) = [] := by
  unfold entryIssues
  induction ws with
  | nil => rfl
  | cons w ws ih =>
    rw [List.map_cons, List.foldl_cons, checkWindow_stringify w (h w (.head _))]
    exact ih fun x hx => h x (.tail _ hx)

theorem Normal.not_overlapping (h : Normal ws) :
    (match ws with | [] => false | w :: ws => overlapping w ws) = false := by
  induction ws with
  | nil => rfl
  | cons w ws ih =>
    have ih := ih h.tail
    cases ws with
    | nil => rfl
    | cons v vs =>
      have hwv : Apart w v := (List.pairwise_cons.mp h.apart).1 v (.head _)
      simpa [overlapping, hwv.not_overlaps] using ih

/-- Normal windows are parsed to themselves, without an issue. -/
theorem parse_normal (h : Normal ws) :
    parseReferralPayoutWindowsStrict (stringifyWindows ws) = ⟨ws, true, []⟩ := by
  have hclean := cleanWindows_stringify h.proper
  have hsort : sortWindows ws = ws := List.mergeSort_of_pairwise (h.from_le.imp (by simp))
  have hone := h.one_open
  have hover := h.not_overlapping
  simp only [parseReferralPayoutWindowsStrict, stringifyWindows, hclean, hsort,
    entryIssues_stringify h.proper]
  rw [if_neg (by omega), h.merge]
  cases ws with
  | nil => simp
  | cons w ws => simp [hover]

/-! ### The windows of a text -/

/-- The windows of a text are in order and apart, at most the last is open, they contain the
    instants that the text says, and their own text is parsed back to them. -/
structure PayoutUnion (dateParse : String → Option ℤ) (toISOString : ℤ → String) (raw : String) :
    Prop where
  sorted : (parsePayoutText dateParse toISOString raw).windows.Pairwise fun a b =>
    ∃ f g, dateParse a.fromIso = some f ∧ dateParse b.fromIso = some g ∧ f < g
  apart : (parsePayoutText dateParse toISOString raw).windows.Pairwise fun a b =>
    ∃ u g, a.toIso.bind dateParse = some u ∧ dateParse b.fromIso = some g ∧ u < g
  openLast : ∀ w ∈ (parsePayoutText dateParse toISOString raw).windows.dropLast, w.toIso ≠ none
  within_iff : ∀ t, isWithinPayoutText dateParse (some t)
    (parsePayoutText dateParse toISOString raw).windows = true ↔ StoredOn dateParse raw t
  reparse : parsePayoutText dateParse toISOString
      (stringifyPayoutText (parsePayoutText dateParse toISOString raw).windows) =
    ⟨(parsePayoutText dateParse toISOString raw).windows, true, []⟩

theorem dropLast_of_pairwise {α : Type} {R : α → α → Prop} {xs : List α} (h : xs.Pairwise R) :
    ∀ x ∈ xs.dropLast, ∃ y ∈ xs, R x y := by
  induction xs with
  | nil => nofun
  | cons x xs ih =>
    obtain ⟨hx, hxs⟩ := List.pairwise_cons.mp h
    cases xs with
    | nil => nofun
    | cons y ys =>
      rw [List.dropLast_cons_cons]
      refine List.forall_mem_cons.mpr ⟨⟨y, by simp, hx y (.head _)⟩, fun z hz => ?_⟩
      obtain ⟨v, hv, hR⟩ := ih hxs z hz
      exact ⟨v, .tail _ hv, hR⟩

/-- PAYOUT WINDOWS: whatever the stored text, the parsed windows are the union of its well-formed
    intervals, in normal form. -/
theorem payout_windows_union (codec : DateText dateParse toISOString) (raw : String) :
    PayoutUnion dateParse toISOString raw := by
  obtain ⟨hnormal, hdated, hhas⟩ := parsed_windows codec raw
  have hwindows : (parsePayoutText dateParse toISOString raw).windows =
      (parseReferralPayoutWindowsStrict (readStored dateParse raw)).windows.map
        (windowText toISOString) := rfl
  generalize (parseReferralPayoutWindowsStrict (readStored dateParse raw)).windows = ws at *
  have hapart : (ws.map (windowText toISOString)).Pairwise fun a b =>
      ∃ u g, a.toIso.bind dateParse = some u ∧ dateParse b.fromIso = some g ∧ u < g := by
    refine List.pairwise_map.mpr (hnormal.apart.imp_of_mem fun {a b} ha hb ⟨u, hu, hlt⟩ => ?_)
    exact ⟨u, b.fromMs, (dateParse_to codec (hdated a ha)).trans hu,
      dateParse_from codec (hdated b hb), hlt⟩
  refine ⟨?_, hwindows ▸ hapart, ?_, fun t => ?_, ?_⟩
  · rw [hwindows]
    refine List.pairwise_map.mpr (hnormal.apart.imp_of_mem fun {a b} ha hb ⟨u, hu, hlt⟩ => ?_)
    have hproper := hnormal.proper a ha u hu
    exact ⟨a.fromMs, b.fromMs, dateParse_from codec (hdated a ha),
      dateParse_from codec (hdated b hb), by omega⟩
  · rw [hwindows]
    intro w hw hopen
    obtain ⟨v, -, u, g, hu, -⟩ := dropLast_of_pairwise hapart w hw
    simp [hopen] at hu
  · rw [hwindows, isWithin_text codec hdated, hhas]
  · rw [hwindows, parsePayoutText, readStored_text codec hdated, parse_normal hnormal]

/-! New year 2024 as a date is written; the other instants are written as tallies. -/

def newYear : ℤ := 1704067200000

def newYearIso : String := "2024-01-01T00:00:00.000Z"

def tally (ms : ℤ) : List Char :=
  (if ms < 0 then '-' else '+') :: List.replicate ms.natAbs '|'

def untally : List Char → Option ℤ
  | '-' :: marks => some (-(marks.length : ℤ))
  | '+' :: marks => some marks.length
  | _ => none

def plainISOString (ms : ℤ) : String :=
  if ms = newYear then newYearIso else String.ofList (tally ms)

def plainDateParse (s : String) : Option ℤ :=
  if s = newYearIso then some newYear else (untally s.toList).filter isRepresentable

theorem untally_tally (ms : ℤ) : untally (tally ms) = some ms := by
  unfold tally
  split
  · simp only [untally, List.length_replicate, Option.some_inj]
    omega
  · simp only [untally, List.length_replicate, Option.some_inj]
    omega

theorem plain_dateText : DateText plainDateParse plainISOString where
  round_trip ms hms := by
    by_cases hnew : ms = newYear
    · simp [plainISOString, plainDateParse, hnew]
    · have hne : String.ofList (tally ms) ≠ newYearIso := by
        intro h
        have hyear : untally newYearIso.toList = none := by decide
        rw [← h, String.toList_ofList, untally_tally] at hyear
        cases hyear
      simp [plainISOString, plainDateParse, hnew, hne, untally_tally, hms]
  representable s ms h := by
    unfold plainDateParse at h
    split at h
    · cases h
      decide
    · exact (Option.filter_eq_some_iff.mp h).2

theorem payout_windows_union_since_new_year :
    PayoutUnion plainDateParse plainISOString
      "[\x7b\"from\":\"2024-01-01T00:00:00.000Z\",\"to\":null\x7d]" :=
  payout_windows_union plain_dateText _

end ZedBot
