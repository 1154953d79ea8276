import Mathlib.Data.List.Induction
import ZedBot.Referrals.PayoutWindows

/-! Referral payouts follow the switch.

    After every history of toggles the stored windows parse as valid, are open exactly while the
    switch is on and contain the instants at which it was on, unless payouts were switched on and
    off within one millisecond: the window of such a pair is empty, and the parser takes an empty
    window for corrupt. -/

namespace ZedBot

/-! ### What a history says -/

/-- The switch after a history. -/
def switchedOn (ts : List PayoutToggle) : Bool := ts.getLast?.any (·.on)

/-- Payouts were on at `t`. -/
def payoutsOn (ts : List PayoutToggle) (t : ℤ) : Bool :=
  switchedOn (ts.filter fun x => x.now ≤ t)

/-- Payouts were on just before `t`. -/
def onBefore (ts : List PayoutToggle) (t : ℤ) : Bool :=
  switchedOn (ts.filter fun x => x.now < t)

/-- The switch was flipped at `t`. -/
def SwitchesAt (ts : List PayoutToggle) (t : ℤ) : Prop :=
  ∃ before x after, ts = before ++ x :: after ∧ x.now = t ∧ x.on ≠ switchedOn before

/-- The timestamps of a history do not decrease. -/
def InOrder (ts : List PayoutToggle) : Prop := ts.Pairwise fun x y => x.now ≤ y.now

/-- The stored windows follow the switch. -/
structure Follows (ts : List PayoutToggle) : Prop where
  valid : (parseReferralPayoutWindowsStrict (afterToggles ts).windows).valid = true
  oneOpen : ((parseReferralPayoutWindowsStrict (afterToggles ts).windows).windows.filter
    fun w => w.toMs = none).length ≤ 1
  open_iff : (∃ w ∈ (parseReferralPayoutWindowsStrict (afterToggles ts).windows).windows,
    w.toMs = none) ↔ (afterToggles ts).isEnabled = true
  eligible : ∀ t, ¬ SwitchesAt ts t →
    isWithinReferralPayoutWindows t (getReferralPayoutWindows (afterToggles ts)) = payoutsOn ts t

/-- Payouts that are switched off were on before that millisecond. -/
def SwitchesApart (ts : List PayoutToggle) : Prop :=
  ∀ before now after, ts = before ++ ⟨false, now⟩ :: after → switchedOn before = true →
    onBefore before now = true

@[simp] theorem switchedOn_nil : switchedOn [] = false := rfl

@[simp] theorem switchedOn_append (ts : List PayoutToggle) (x : PayoutToggle) :
    switchedOn (ts ++ [x]) = x.on := by
  simp [switchedOn]

theorem afterToggles_append (ts : List PayoutToggle) (x : PayoutToggle) :
    afterToggles (ts ++ [x]) = PayoutToggle.run (afterToggles ts) x := by
  simp [afterToggles]

/-! ### Normalized windows -/

/-- Window `a` ends before `b` starts. -/
def Apart (a b : ReferralPayoutWindow) : Prop := ∃ t, a.toMs = some t ∧ t < b.fromMs

/-- Non-empty windows in order, each ended before the next starts. -/
structure Normal (ws : List ReferralPayoutWindow) : Prop where
  proper : ∀ w ∈ ws, ∀ t, w.toMs = some t → w.fromMs < t
  apart : ws.Pairwise Apart

def Closed (ws : List ReferralPayoutWindow) : Prop := ∀ w ∈ ws, w.toMs ≠ none

/-- Payouts were on just before `x`, by the windows. -/
def Covers (ws : List ReferralPayoutWindow) (x : ℤ) : Prop :=
  ∃ w ∈ ws, w.fromMs < x ∧ ∀ t, w.toMs = some t → x ≤ t

variable {ws us : List ReferralPayoutWindow} {a b w : ReferralPayoutWindow} {now f : ℤ}

theorem Apart.not_overlaps (h : Apart a b) : overlapsLast a b = false := by
  obtain ⟨t, ht, hlt⟩ := h
  simp only [overlapsLast, ht, decide_eq_false_iff_not]
  omega

theorem Normal.from_le (h : Normal ws) : ws.Pairwise fun a b => a.fromMs ≤ b.fromMs := by
  refine h.apart.imp_of_mem fun {a b} ha _ hab => ?_
  obtain ⟨t, ht, hlt⟩ := hab
  have := h.proper a ha t ht
  omega

theorem Normal.tail (h : Normal (w :: ws)) : Normal ws :=
  ⟨fun x hx => h.proper x (.tail _ hx), (List.pairwise_cons.mp h.apart).2⟩

theorem mergeSorted_cons {v : ReferralPayoutWindow} (h : Apart w v) :
    mergeSorted (w :: v :: ws) = w :: mergeSorted (v :: ws) := by
  simp [mergeSorted, mergeWindows, h.not_overlaps]

theorem Normal.merge (h : Normal ws) : mergeSorted ws = ws := by
  induction ws with
  | nil => rfl
  | cons w ws ih =>
    cases ws with
    | nil => rfl
    | cons v vs =>
      have hwv : Apart w v := (List.pairwise_cons.mp h.apart).1 v (.head _)
      rw [mergeSorted_cons hwv, ih h.tail]

/-- A window that touches the last one is merged into it. -/
theorem merge_touching (h : (us ++ [a]).Pairwise Apart) (hab : overlapsLast a b = true) :
    mergeSorted (us ++ [a, b]) = us ++ [extendLast a b] := by
  induction us with
  | nil => simp [mergeSorted, mergeWindows, hab]
  | cons w us ih =>
    have hw := (List.pairwise_cons.mp h).1
    have ih := ih (List.pairwise_cons.mp h).2
    cases us with
    | nil =>
      have hwa : Apart w a := hw a (by simp)
      rw [List.cons_append, List.nil_append, mergeSorted_cons hwa]
      simpa using ih
    | cons v vs =>
      have hwv : Apart w v := hw v (by simp)
      rw [List.cons_append, List.cons_append, mergeSorted_cons hwv]
      simpa using ih

/-! ### Parsing what a toggle wrote -/

theorem checkWindow_stringify (w : ReferralPayoutWindow)
    (h : ∀ t, w.toMs = some t → w.fromMs < t) : checkWindow (stringifyWindow w) = .ok w := by
  obtain ⟨f, o⟩ := w
  cases o with
  | none => rfl
  | some t =>
    have hlt : f < t := h t rfl
    simp only [stringifyWindow, stringifyTo, checkWindow]
    rw [if_neg (by omega)]

theorem cleanWindows_stringify (h : ∀ w ∈ ws, ∀ t, w.toMs = some t → w.fromMs < t) :
    cleanWindows (ws.map stringifyWindow) = ws := by
  induction ws with
  | nil => rfl
  | cons w ws ih =>
    have hw := checkWindow_stringify w (h w (.head _))
    have ih := ih fun x hx => h x (.tail _ hx)
    simp only [cleanWindows, List.map_cons, List.filterMap_cons, hw, Except.toOption] at ih ⊢
    rw [ih]

/-- Non-empty windows in order, of which at most one is open, are parsed to their union. -/
theorem parse_stringify (hproper : ∀ w ∈ ws, ∀ t, w.toMs = some t → w.fromMs < t)
    (hsorted : ws.Pairwise fun a b => a.fromMs ≤ b.fromMs)
    (hopen : (ws.filter fun w => w.toMs = none).length ≤ 1) :
    (parseReferralPayoutWindowsStrict (stringifyWindows ws)).windows = mergeSorted ws ∧
      (parseReferralPayoutWindowsStrict (stringifyWindows ws)).valid = true := by
  have hclean := cleanWindows_stringify hproper
  have hsort : sortWindows ws = ws := List.mergeSort_of_pairwise (hsorted.imp (by simp))
  simp only [parseReferralPayoutWindowsStrict, stringifyWindows, hclean, hsort]
  rw [if_neg (by omega)]
  simp

theorem filter_open_closed (h : Closed ws) : (ws.filter fun w => w.toMs = none) = [] := by
  rw [List.filter_eq_nil_iff]
  intro w hw
  simpa using h w hw

theorem Closed.close (h : Closed us) :
    closeReferralPayoutWindow now (us ++ [⟨f, none⟩]) = us ++ [⟨f, some now⟩] := by
  induction us with
  | nil => rfl
  | cons w us ih =>
    have hw : w.toMs ≠ none := h w (.head _)
    rw [List.cons_append, closeReferralPayoutWindow, if_neg hw, ih fun x hx => h x (.tail _ hx)]
    rfl

/-- An empty window is corrupt to the parser. -/
theorem parse_empty_window (us : List ReferralPayoutWindow) (f : ℤ) :
    (parseReferralPayoutWindowsStrict (stringifyWindows (us ++ [⟨f, some f⟩]))).valid = false := by
  have hlast : checkWindow (stringifyWindow ⟨f, some f⟩) = .error "reversed-interval" := by
    simp [checkWindow, stringifyWindow, stringifyTo]
  have hclean : cleanWindows (us.map stringifyWindow ++ [stringifyWindow ⟨f, some f⟩]) =
      cleanWindows (us.map stringifyWindow) := by
    simp [cleanWindows, hlast, Except.toOption]
  have hlen : (cleanWindows (us.map stringifyWindow)).length ≤ us.length := by
    simpa [cleanWindows] using
      List.length_filterMap_le (fun e => (checkWindow e).toOption) (us.map stringifyWindow)
  simp only [parseReferralPayoutWindowsStrict, stringifyWindows, List.map_append, List.map_cons,
    List.map_nil, hclean]
  split
  · rfl
  · simp only [decide_eq_false_iff_not, List.length_map, List.length_append,
      List.length_singleton]
    omega

/-! ### The windows of a history -/

theorem switchedOn_filter_append (ts : List PayoutToggle) (x : PayoutToggle)
    (p : PayoutToggle → Bool) :
    switchedOn ((ts ++ [x]).filter p) = if p x then x.on else switchedOn (ts.filter p) := by
  rw [List.filter_append]
  cases hp : p x <;> simp [hp]

theorem onBefore_append (ts : List PayoutToggle) (x : PayoutToggle) (t : ℤ) :
    onBefore (ts ++ [x]) t = if x.now < t then x.on else onBefore ts t := by
  rw [onBefore, switchedOn_filter_append]
  simp [onBefore]

theorem SwitchesAt.append {ts : List PayoutToggle} {t : ℤ} (h : SwitchesAt ts t)
    (x : PayoutToggle) : SwitchesAt (ts ++ [x]) t := by
  obtain ⟨before, y, after, rfl, hy⟩ := h
  exact ⟨before, y, after ++ [x], by simp, hy⟩

theorem InOrder.le_last {ts : List PayoutToggle} {x : PayoutToggle} (h : InOrder (ts ++ [x])) :
    ∀ y ∈ ts, y.now ≤ x.now :=
  fun y hy => (List.pairwise_append.mp h).2.2 y hy x (by simp)

theorem InOrder.init {ts us : List PayoutToggle} (h : InOrder (ts ++ us)) : InOrder ts :=
  (List.pairwise_append.mp h).1

/-- At an instant of no switch, payouts were on if they were on just before. -/
theorem payoutsOn_eq_onBefore {ts : List PayoutToggle} {t : ℤ} (h : InOrder ts)
    (hno : ¬ SwitchesAt ts t) : payoutsOn ts t = onBefore ts t := by
  induction ts using List.reverseRecOn with
  | nil => rfl
  | append_singleton ts x ih =>
    have ih := ih h.init fun hs => hno (hs.append x)
    rw [onBefore_append, payoutsOn, switchedOn_filter_append, ← payoutsOn]
    rcases lt_trichotomy x.now t with hlt | heq | hgt
    · simp [hlt, hlt.le]
    · -- every toggle so far is at most at `t`
      have hall : ts.filter (fun y => y.now ≤ t) = ts :=
        List.filter_eq_self.mpr fun y hy => by simpa [heq] using h.le_last y hy
      have hsame : x.on = switchedOn ts := by
        by_contra hne
        exact hno ⟨ts, x, [], rfl, heq, hne⟩
      rw [if_pos (by simp [heq]), if_neg (by omega), ← ih, payoutsOn, hall, hsame]
    · rw [if_neg (by simpa using hgt), if_neg (by omega), ih]

/-- The windows `ws` that a history leaves. -/
structure Tracks (ts : List PayoutToggle) (ws : List ReferralPayoutWindow) : Prop where
  normal : Normal ws
  openOn : switchedOn ts = true → ∃ us f, ws = us ++ [⟨f, none⟩]
  closedOff : switchedOn ts = false → Closed ws
  covers : ∀ t, onBefore ts t = true ↔ Covers ws t
  bounded : ∀ n, (∀ x ∈ ts, x.now ≤ n) →
    ∀ w ∈ ws, w.fromMs ≤ n ∧ ∀ t, w.toMs = some t → t ≤ n
  starts : ∀ w ∈ ws, SwitchesAt ts w.fromMs

variable {ts : List PayoutToggle}

theorem Tracks.nil : Tracks [] [] where
  normal := ⟨by simp, .nil⟩
  openOn := by simp
  closedOff := by simp [Closed]
  covers := by simp [onBefore, Covers]
  bounded := by simp
  starts := by simp

theorem Normal.closed_init (h : Normal (us ++ [a])) : Closed us := by
  intro w hw
  obtain ⟨t, ht, -⟩ := (List.pairwise_append.mp h.apart).2.2 w hw a (by simp)
  simp [ht]

theorem Normal.one_open (h : Normal ws) : (ws.filter fun w => w.toMs = none).length ≤ 1 := by
  induction ws with
  | nil => simp
  | cons w ws ih =>
    have ih := ih h.tail
    cases hw : w.toMs with
    | some t => simpa [List.filter_cons, hw] using ih
    | none =>
      cases ws with
      | nil => simp [hw]
      | cons v vs =>
        obtain ⟨t, ht, -⟩ := (List.pairwise_cons.mp h.apart).1 v (.head _)
        simp [hw] at ht

theorem isWithin_iff (t : ℤ) (ws : List ReferralPayoutWindow) :
    isWithinReferralPayoutWindows t ws = true ↔
      ∃ w ∈ ws, w.fromMs ≤ t ∧ ∀ u, w.toMs = some u → t ≤ u := by
  simp only [isWithinReferralPayoutWindows, List.any_eq_true, Bool.and_eq_true, decide_eq_true_eq]
  refine exists_congr fun w => and_congr_right fun _ => and_congr_right fun _ => ?_
  cases w.toMs <;> simp

/-- Away from the switching instants the windows say whether payouts were on. -/
theorem Tracks.eligible (h : Tracks ts ws) (hord : InOrder ts) {t : ℤ} (hno : ¬ SwitchesAt ts t) :
    isWithinReferralPayoutWindows t ws = payoutsOn ts t := by
  rw [payoutsOn_eq_onBefore hord hno, Bool.eq_iff_iff, h.covers, isWithin_iff]
  refine exists_congr fun w => and_congr_right fun hw => and_congr_left fun _ => ?_
  have hne : w.fromMs ≠ t := fun he => hno (he ▸ h.starts w hw)
  omega

/-! ### One toggle -/

theorem Covers.append {t : ℤ} : Covers (us ++ [w]) t ↔
    Covers us t ∨ (w.fromMs < t ∧ ∀ u, w.toMs = some u → t ≤ u) := by
  simp only [Covers, List.mem_append, List.mem_singleton]
  constructor
  · rintro ⟨v, hv | rfl, hvt⟩
    · exact .inl ⟨v, hv, hvt⟩
    · exact .inr hvt
  · rintro (⟨v, hv, hvt⟩ | hwt)
    · exact ⟨v, .inl hv, hvt⟩
    · exact ⟨w, .inr rfl, hwt⟩

/-- Closed windows that end by `now` cover nothing later. -/
theorem Closed.not_covers {t : ℤ} (h : Closed ws)
    (hto : ∀ w ∈ ws, ∀ u, w.toMs = some u → u ≤ now) (ht : now < t) : ¬ Covers ws t := by
  rintro ⟨w, hw, -, hcov⟩
  obtain ⟨u, hu⟩ := Option.ne_none_iff_exists'.mp (h w hw)
  have := hto w hw u hu
  have := hcov u hu
  omega

/-- The bounds on the windows hold after a later toggle. -/
theorem Tracks.bounded_now (h : Tracks ts ws) {x : PayoutToggle} (hord : InOrder (ts ++ [x])) :
    ∀ w ∈ ws, w.fromMs ≤ x.now ∧ ∀ t, w.toMs = some t → t ≤ x.now :=
  h.bounded x.now hord.le_last

/-- A toggle to the state that already holds leaves the windows. -/
theorem Tracks.same (h : Tracks ts ws) {x : PayoutToggle} (hord : InOrder (ts ++ [x]))
    (hx : x.on = switchedOn ts) : Tracks (ts ++ [x]) ws where
  normal := h.normal
  openOn hon := h.openOn (by rw [← hx, ← hon, switchedOn_append])
  closedOff hoff := h.closedOff (by rw [← hx, ← hoff, switchedOn_append])
  covers t := by
    rw [onBefore_append]
    split
    case isFalse => exact h.covers t
    case isTrue ht =>
      have hb := h.bounded_now hord
      cases hon : switchedOn ts with
      | false =>
        have hno := (h.closedOff hon).not_covers (fun w hw => (hb w hw).2) ht
        simp [hx, hon, hno]
      | true =>
        obtain ⟨us, f, rfl⟩ := h.openOn hon
        have hf := (hb ⟨f, none⟩ (by simp)).1
        simp only [hx, hon, Covers.append, true_iff]
        exact .inr ⟨by simp only at hf ⊢; omega, by simp⟩
  bounded n hn := h.bounded n fun y hy => hn y (by simp [hy])
  starts w hw := (h.starts w hw).append x

theorem Tracks.bounded_before (h : Tracks ts ws) {x : PayoutToggle} {n : ℤ}
    (hn : ∀ y ∈ ts ++ [x], y.now ≤ n) :
    x.now ≤ n ∧ ∀ w ∈ ws, w.fromMs ≤ n ∧ ∀ t, w.toMs = some t → t ≤ n :=
  ⟨hn x (by simp), h.bounded n fun y hy => hn y (by simp [hy])⟩

theorem switchesAt_last {x : PayoutToggle} (h : x.on ≠ switchedOn ts) :
    SwitchesAt (ts ++ [x]) x.now :=
  ⟨ts, x, [], rfl, rfl, h⟩

/-- Switching on opens a window after the last one. -/
theorem Tracks.open_apart (h : Tracks ts ws) (hoff : switchedOn ts = false)
    (hap : ∀ w ∈ ws, Apart w ⟨now, none⟩) : Tracks (ts ++ [⟨true, now⟩]) (ws ++ [⟨now, none⟩]) where
  normal := by
    refine ⟨fun w hw t ht => ?_, List.pairwise_append.mpr ⟨h.normal.apart, by simp, ?_⟩⟩
    · rcases List.mem_append.mp hw with hw | hw
      · exact h.normal.proper w hw t ht
      · simp [List.mem_singleton.mp hw] at ht
    · simpa using hap
  openOn _ := ⟨ws, now, rfl⟩
  closedOff := by simp
  covers t := by
    rw [onBefore_append, Covers.append]
    simp only
    split
    case isTrue ht => simp [ht]
    case isFalse ht => simpa [ht] using h.covers t
  bounded n hn := by
    obtain ⟨hnow, hws⟩ := h.bounded_before hn
    intro w hw
    rcases List.mem_append.mp hw with hw | hw
    · exact hws w hw
    · rw [List.mem_singleton.mp hw]
      exact ⟨hnow, by simp⟩
  starts w hw := by
    rcases List.mem_append.mp hw with hw | hw
    · exact (h.starts w hw).append _
    · rw [List.mem_singleton.mp hw]
      exact switchesAt_last (by simp [hoff])

/-- Switching on in the millisecond in which the last window closed reopens it. -/
theorem Tracks.open_touching (h : Tracks ts (us ++ [⟨f, some now⟩]))
    (hord : InOrder (ts ++ [⟨true, now⟩])) :
    Tracks (ts ++ [⟨true, now⟩]) (us ++ [⟨f, none⟩]) where
  normal := by
    refine ⟨fun w hw t ht => ?_, ?_⟩
    · rcases List.mem_append.mp hw with hw | hw
      · exact h.normal.proper w (by simp [hw]) t ht
      · simp [List.mem_singleton.mp hw] at ht
    · have hap := List.pairwise_append.mp h.normal.apart
      refine List.pairwise_append.mpr ⟨hap.1, by simp, fun w hw v hv => ?_⟩
      obtain ⟨t, ht, hlt⟩ := hap.2.2 w hw ⟨f, some now⟩ (by simp)
      rw [List.mem_singleton.mp hv]
      exact ⟨t, ht, hlt⟩
  openOn _ := ⟨us, f, rfl⟩
  closedOff := by simp
  covers t := by
    have hf : f ≤ now := (h.bounded_now hord ⟨f, some now⟩ (by simp)).1
    have hcov := h.covers t
    rw [Covers.append] at hcov
    rw [onBefore_append, Covers.append]
    simp only
    split
    case isTrue ht =>
      have : f < t := by omega
      simp [this]
    case isFalse ht =>
      rw [hcov]
      have : t ≤ now := by omega
      simp [this]
  bounded n hn := by
    obtain ⟨-, hws⟩ := h.bounded_before hn
    intro w hw
    rcases List.mem_append.mp hw with hw | hw
    · exact hws w (by simp [hw])
    · rw [List.mem_singleton.mp hw]
      exact ⟨(hws ⟨f, some now⟩ (by simp)).1, by simp⟩
  starts w hw := by
    rcases List.mem_append.mp hw with hw | hw
    · exact (h.starts w (by simp [hw])).append _
    · rw [List.mem_singleton.mp hw]
      exact (h.starts ⟨f, some now⟩ (by simp)).append _

/-- Switching off closes the last window, which has begun before. -/
theorem Tracks.close (h : Tracks ts (us ++ [⟨f, none⟩])) (hord : InOrder (ts ++ [⟨false, now⟩]))
    (hf : f < now) : Tracks (ts ++ [⟨false, now⟩]) (us ++ [⟨f, some now⟩]) where
  normal := by
    refine ⟨fun w hw t ht => ?_, ?_⟩
    · rcases List.mem_append.mp hw with hw | hw
      · exact h.normal.proper w (by simp [hw]) t ht
      · rw [List.mem_singleton.mp hw] at ht ⊢
        simp only [Option.some.injEq] at ht
        exact ht ▸ hf
    · have hap := List.pairwise_append.mp h.normal.apart
      refine List.pairwise_append.mpr ⟨hap.1, by simp, fun w hw v hv => ?_⟩
      obtain ⟨t, ht, hlt⟩ := hap.2.2 w hw ⟨f, none⟩ (by simp)
      rw [List.mem_singleton.mp hv]
      exact ⟨t, ht, hlt⟩
  openOn := by simp
  closedOff _ := by
    intro w hw
    rcases List.mem_append.mp hw with hw | hw
    · exact h.normal.closed_init w hw
    · simp [List.mem_singleton.mp hw]
  covers t := by
    have hcov := h.covers t
    rw [Covers.append] at hcov
    rw [onBefore_append, Covers.append]
    simp only
    split
    case isTrue ht =>
      have hclosed := h.normal.closed_init.not_covers (t := t)
        (fun w hw => (h.bounded_now hord w (by simp [hw])).2) ht
      simp [hclosed, ht]
    case isFalse ht =>
      rw [hcov]
      have : t ≤ now := by omega
      simp [this]
  bounded n hn := by
    obtain ⟨hnow, hws⟩ := h.bounded_before hn
    intro w hw
    rcases List.mem_append.mp hw with hw | hw
    · exact hws w (by simp [hw])
    · rw [List.mem_singleton.mp hw]
      refine ⟨(hws ⟨f, none⟩ (by simp)).1, fun t ht => ?_⟩
      simp only [Option.some.injEq] at ht
      exact ht ▸ hnow
  starts w hw := by
    rcases List.mem_append.mp hw with hw | hw
    · exact (h.starts w (by simp [hw])).append _
    · rw [List.mem_singleton.mp hw]
      exact (h.starts ⟨f, none⟩ (by simp)).append _

/-- The open window has begun before `now` if payouts were on before it. -/
theorem Tracks.begun (h : Tracks ts (us ++ [⟨f, none⟩]))
    (hlt : onBefore ts now = true) (hord : InOrder (ts ++ [⟨false, now⟩])) : f < now := by
  rcases Covers.append.mp ((h.covers now).mp hlt) with ⟨w, hw, -, hcov⟩ | ⟨hf, -⟩
  · obtain ⟨t, ht, hlt⟩ :=
      (List.pairwise_append.mp h.normal.apart).2.2 w hw ⟨f, none⟩ (by simp)
    have hle : f ≤ now := (h.bounded_now hord ⟨f, none⟩ (by simp)).1
    have := hcov t ht
    simp only at hlt
    omega
  · exact hf

/-! ### The stored windows of a history -/

/-- The settings hold the windows `ws` of the history. -/
structure Stored (s : ReferralPayoutSettings) (ts : List PayoutToggle)
    (ws : List ReferralPayoutWindow) : Prop where
  enabled : s.isEnabled = switchedOn ts
  valid : (parseReferralPayoutWindowsStrict s.windows).valid = true
  windows : (parseReferralPayoutWindowsStrict s.windows).windows = ws
  started : if ws = [] then s.commissionsStartedAt = none else s.commissionsStartedAt ≠ none

variable {s : ReferralPayoutSettings}

theorem Stored.read (h : Stored s ts ws) : getReferralPayoutWindows s = ws := by
  have hstarted := h.started
  simp only [getReferralPayoutWindows, h.valid, h.windows, not_true_eq_false, if_false]
  by_cases hws : ws = []
  · rw [if_pos hws] at hstarted
    simp [hws, hstarted]
  · rw [if_pos hws]

/-- The horizon set by the first activation opens the window that it would open anyway. -/
theorem Stored.opened (h : Stored s ts ws) (hoff : Closed ws) :
    openReferralPayoutWindow (getReferralPayoutWindows
      { s with commissionsStartedAt := s.commissionsStartedAt.or (some now) }) now =
        ws ++ [⟨now, none⟩] := by
  have hstarted := h.started
  simp only [getReferralPayoutWindows, h.valid, h.windows, not_true_eq_false, if_false]
  by_cases hws : ws = []
  · rw [if_pos hws] at hstarted
    simp [hws, hstarted, openReferralPayoutWindow]
  · have hnone : ¬ (ws.any fun w => w.toMs = none) = true := by
      simp only [List.any_eq_true, decide_eq_true_eq, not_exists, not_and]
      exact hoff
    rw [if_pos hws, openReferralPayoutWindow, if_neg hnone]

theorem mergeSorted_ne_nil (h : ws ≠ []) : mergeSorted ws ≠ [] := by
  obtain ⟨w, ws, rfl⟩ := List.exists_cons_of_ne_nil h
  rw [mergeSorted]
  induction ws generalizing w with
  | nil => simp [mergeWindows]
  | cons v vs ih =>
    rw [mergeWindows]
    split
    · exact ih _ (by simp)
    · simp

/-- What a toggle wrote is read back as its union. -/
theorem Stored.written {vs : List ReferralPayoutWindow}
    (hs : s.windows = stringifyWindows vs) (henabled : s.isEnabled = switchedOn ts)
    (hstarted : s.commissionsStartedAt ≠ none) (hne : vs ≠ [])
    (hproper : ∀ w ∈ vs, ∀ t, w.toMs = some t → w.fromMs < t)
    (hsorted : vs.Pairwise fun a b => a.fromMs ≤ b.fromMs)
    (hopen : (vs.filter fun w => w.toMs = none).length ≤ 1) : Stored s ts (mergeSorted vs) where
  enabled := henabled
  valid := by rw [hs, (parse_stringify hproper hsorted hopen).2]
  windows := by rw [hs, (parse_stringify hproper hsorted hopen).1]
  started := by rwa [if_neg (mergeSorted_ne_nil hne)]

theorem Stored.written_normal (hs : s.windows = stringifyWindows ws)
    (henabled : s.isEnabled = switchedOn ts) (hstarted : s.commissionsStartedAt ≠ none)
    (hne : ws ≠ []) (h : Normal ws) : Stored s ts ws := by
  have hw := Stored.written hs henabled hstarted hne h.proper h.from_le h.one_open
  rwa [h.merge] at hw

theorem Stored.enable_on (h : Stored s ts ws) (ht : Tracks ts ws) (hon : switchedOn ts = true)
    (now : ℤ) : Stored (enableReferralPayouts now s) (ts ++ [⟨true, now⟩]) ws := by
  obtain ⟨us, f, rfl⟩ := ht.openOn hon
  have hstarted := h.started
  rw [if_neg (by simp)] at hstarted
  obtain ⟨m, hm⟩ := Option.ne_none_iff_exists'.mp hstarted
  have hsame : { s with commissionsStartedAt := s.commissionsStartedAt.or (some now) } = s := by
    rw [hm, Option.some_or, ← hm]
  refine Stored.written_normal ?_ ?_ ?_ (by simp) ht.normal
  · simp only [enableReferralPayouts]
    rw [hsame, h.read, openReferralPayoutWindow, if_pos (by simp)]
  · simp [enableReferralPayouts, ReferralPayoutSettings.isEnabled]
  · simp [enableReferralPayouts, hm]

/-- Switching on: the windows read back are those of the longer history. -/
theorem Stored.enable_off (h : Stored s ts ws) (ht : Tracks ts ws)
    (hord : InOrder (ts ++ [⟨true, now⟩])) (hoff : switchedOn ts = false) :
    ∃ vs, Stored (enableReferralPayouts now s) (ts ++ [⟨true, now⟩]) vs ∧
      Tracks (ts ++ [⟨true, now⟩]) vs := by
  have hclosed := ht.closedOff hoff
  have hb : ∀ w ∈ ws, w.fromMs ≤ now ∧ ∀ t, w.toMs = some t → t ≤ now := ht.bounded_now hord
  have hstored : Stored (enableReferralPayouts now s) (ts ++ [⟨true, now⟩])
      (mergeSorted (ws ++ [⟨now, none⟩])) := by
    refine Stored.written ?_ ?_ ?_ (by simp) ?_ ?_ ?_
    · simp only [enableReferralPayouts]
      rw [h.opened hclosed]
    · simp [enableReferralPayouts, ReferralPayoutSettings.isEnabled]
    · simp [enableReferralPayouts]
    · intro w hw t hto
      rcases List.mem_append.mp hw with hw | hw
      · exact ht.normal.proper w hw t hto
      · simp [List.mem_singleton.mp hw] at hto
    · refine List.pairwise_append.mpr ⟨ht.normal.from_le, by simp, fun w hw v hv => ?_⟩
      rw [List.mem_singleton.mp hv]
      exact (hb w hw).1
    · rw [List.filter_append, filter_open_closed hclosed]
      simp
  refine ⟨_, hstored, ?_⟩
  by_cases hap : ∀ w ∈ ws, Apart w ⟨now, none⟩
  · have hopen := ht.open_apart hoff hap
    rwa [hopen.normal.merge]
  · -- some window ends at `now`: it is the last one
    push Not at hap
    obtain ⟨w, hw, hnot⟩ := hap
    obtain ⟨t, hto⟩ := Option.ne_none_iff_exists'.mp (hclosed w hw)
    have hle := (hb w hw).2 t hto
    have hnow : t = now := by
      have hge : ¬ t < now := fun hlt => hnot ⟨t, hto, hlt⟩
      omega
    obtain ⟨us, vs, rfl⟩ := List.append_of_mem hw
    have hlast : vs = [] := by
      rw [List.eq_nil_iff_forall_not_mem]
      intro v hv
      obtain ⟨u, hu, hlt⟩ : Apart w v :=
        (List.pairwise_cons.mp (List.pairwise_append.mp ht.normal.apart).2.1).1 v hv
      have := (hb v (by simp [hv])).1
      rw [hto, Option.some.injEq] at hu
      omega
    subst hlast hnow
    obtain ⟨f, o⟩ := w
    simp only at hto
    subst hto
    rw [List.append_assoc, List.singleton_append,
      merge_touching ht.normal.apart (by simp [overlapsLast])]
    exact ht.open_touching hord

theorem Stored.disable_on (h : Stored s ts (us ++ [⟨f, none⟩]))
    (ht : Tracks ts (us ++ [⟨f, none⟩])) (hon : switchedOn ts = true) (now : ℤ) :
    (disableReferralPayouts now s).windows = stringifyWindows (us ++ [⟨f, some now⟩]) ∧
      (disableReferralPayouts now s).isEnabled = false ∧
      (disableReferralPayouts now s).commissionsStartedAt ≠ none := by
  have hstarted := h.started
  rw [if_neg (by simp)] at hstarted
  have hen : s.isEnabled = true := by rw [h.enabled, hon]
  rw [disableReferralPayouts, if_pos hen, h.read, ht.normal.closed_init.close]
  exact ⟨rfl, rfl, hstarted⟩

/-- One toggle, if payouts that it switches off were on before it. -/
theorem Stored.step (h : Stored s ts ws) (ht : Tracks ts ws) {x : PayoutToggle}
    (hord : InOrder (ts ++ [x]))
    (hapart : x.on = false → switchedOn ts = true → onBefore ts x.now = true) :
    ∃ vs, Stored (x.run s) (ts ++ [x]) vs ∧ Tracks (ts ++ [x]) vs := by
  obtain ⟨on, now⟩ := x
  cases on <;> cases hs : switchedOn ts
  · -- off while off
    have hen : s.isEnabled = false := by rw [h.enabled, hs]
    have hrun : PayoutToggle.run s ⟨false, now⟩ = s := by
      simp [PayoutToggle.run, disableReferralPayouts, hen]
    rw [hrun]
    exact ⟨ws, ⟨by rw [hen, switchedOn_append], h.valid, h.windows, h.started⟩,
      ht.same hord hs.symm⟩
  · -- off while on
    obtain ⟨us, f, rfl⟩ := ht.openOn hs
    have hf := ht.begun (hapart rfl hs) hord
    have hclose := ht.close hord hf
    obtain ⟨hw, hen, hst⟩ := h.disable_on ht hs now
    have hoff : switchedOn (ts ++ [⟨false, now⟩]) = false := switchedOn_append ..
    exact ⟨_, Stored.written_normal hw (hen.trans hoff.symm) hst (by simp) hclose.normal, hclose⟩
  · exact h.enable_off ht hord hs
  · exact ⟨ws, h.enable_on ht hs now, ht.same hord hs.symm⟩

/-! ### Every history -/

theorem SwitchesApart.init {us : List PayoutToggle} (h : SwitchesApart (ts ++ us)) :
    SwitchesApart ts := by
  intro before now after hts hon
  exact h before now (after ++ us) (by simp [hts]) hon

/-- The windows of a history whose switches lie apart. -/
theorem stored_of_switchesApart (hord : InOrder ts) (h : SwitchesApart ts) :
    ∃ ws, Stored (afterToggles ts) ts ws ∧ Tracks ts ws := by
  induction ts using List.reverseRecOn with
  | nil => exact ⟨[], ⟨rfl, rfl, rfl, rfl⟩, .nil⟩
  | append_singleton ts x ih =>
    obtain ⟨ws, hs, ht⟩ := ih hord.init h.init
    rw [afterToggles_append]
    refine hs.step ht hord fun hx hon => ?_
    obtain ⟨on, now⟩ := x
    subst hx
    exact h ts now [] rfl hon

theorem Stored.follows {ws : List ReferralPayoutWindow} (hord : InOrder ts)
    (hs : Stored (afterToggles ts) ts ws) (ht : Tracks ts ws) : Follows ts where
  valid := hs.valid
  oneOpen := by
    rw [hs.windows]
    exact ht.normal.one_open
  open_iff := by
    rw [hs.windows, hs.enabled]
    constructor
    · rintro ⟨w, hw, hnone⟩
      by_contra hoff
      exact ht.closedOff (by simpa using hoff) w hw hnone
    · intro hon
      obtain ⟨us, f, rfl⟩ := ht.openOn hon
      exact ⟨⟨f, none⟩, by simp, rfl⟩
  eligible t hno := by
    rw [hs.read]
    exact ht.eligible hord hno

/-- Payouts switched off in the millisecond in which they were switched on leave an empty window. -/
theorem not_follows_of_switch {before : List PayoutToggle}
    (hord : InOrder (before ++ [⟨false, now⟩])) (hs : Stored (afterToggles before) before ws)
    (ht : Tracks before ws) (hon : switchedOn before = true) (hlt : onBefore before now ≠ true) :
    ¬ Follows (before ++ [⟨false, now⟩]) := by
  intro hf
  obtain ⟨us, f, rfl⟩ := ht.openOn hon
  have hle : f ≤ now := (ht.bounded_now hord ⟨f, none⟩ (by simp)).1
  have hge : ¬ f < now := fun h =>
    hlt ((ht.covers now).mpr (Covers.append.mpr (.inr ⟨h, by simp⟩)))
  obtain rfl : f = now := by omega
  have hvalid := hf.valid
  rw [afterToggles_append] at hvalid
  have hw : (PayoutToggle.run (afterToggles before) ⟨false, f⟩).windows =
      stringifyWindows (us ++ [⟨f, some f⟩]) := (hs.disable_on ht hon f).1
  rw [hw, parse_empty_window] at hvalid
  exact Bool.false_ne_true hvalid

/-- The windows follow the switch all along a history exactly when every switch off comes at least
    a millisecond after payouts were on. -/
theorem referral_payouts_follow_switch (h : InOrder ts) :
    (∀ before after, ts = before ++ after → Follows before) ↔ SwitchesApart ts := by
  constructor
  · intro hall
    induction ts using List.reverseRecOn with
    | nil => simp [SwitchesApart]
    | append_singleton ts x ih =>
      have hinit := ih h.init fun before after hts => hall before (after ++ [x]) (by simp [hts])
      obtain ⟨ws, hs, ht⟩ := stored_of_switchesApart h.init hinit
      intro before now after hts hon
      rcases List.eq_nil_or_concat after with rfl | ⟨after, y, rfl⟩
      · obtain ⟨rfl, hx⟩ := List.append_inj' hts rfl
        simp only [List.cons.injEq, and_true] at hx
        subst hx
        by_contra hlt
        exact not_follows_of_switch h hs ht hon hlt (hall _ [] (by simp))
      · have hts' : ts ++ [x] = (before ++ ⟨false, now⟩ :: after) ++ [y] := by simpa using hts
        exact hinit before now after (List.append_inj' hts' rfl).1 hon
  · rintro hsw before after rfl
    obtain ⟨ws, hs, ht⟩ := stored_of_switchesApart h.init hsw.init
    exact hs.follows h.init ht

theorem referral_payouts_follow_switch_day :
    InOrder [⟨true, 0⟩, ⟨false, 86400000⟩, ⟨true, 86400000⟩] ∧
      ((∀ before after, [⟨true, 0⟩, ⟨false, 86400000⟩, ⟨true, 86400000⟩] = before ++ after →
        Follows before) ↔ SwitchesApart [⟨true, 0⟩, ⟨false, 86400000⟩, ⟨true, 86400000⟩]) :=
  have h : InOrder [⟨true, 0⟩, ⟨false, 86400000⟩, ⟨true, 86400000⟩] := by simp [InOrder]
  ⟨h, referral_payouts_follow_switch h⟩

/-- Payouts switched on and off within one millisecond: the stored list no longer parses. -/
theorem referral_payouts_same_millisecond :
    InOrder [⟨true, 0⟩, ⟨false, 0⟩] ∧ ¬ Follows [⟨true, 0⟩, ⟨false, 0⟩] := by
  refine ⟨by simp [InOrder], fun h => ?_⟩
  have hvalid := h.valid
  have hw : (afterToggles [⟨true, 0⟩, ⟨false, 0⟩]).windows =
      stringifyWindows ([] ++ [⟨0, some 0⟩]) := by decide +kernel
  rw [hw, parse_empty_window] at hvalid
  exact Bool.false_ne_true hvalid

end ZedBot
