import ZedBot.JsNumber
import ZedBot.Json
import ZedBot.Schema

/-! The thresholds of the service notifications: how the settings are read and which bucket applies.

    An expiry threshold is a window before the expiry in minutes, or the one of the expired service; a
    traffic threshold is a percentage. -/

namespace ZedBot.Notifications
open JsNumber

/-- One expiry threshold: fire so many minutes before the expiry, or on the expired service. -/
structure ExpiryThreshold where
  key : String
  minutesBefore : Option ℤ
  deriving DecidableEq, Repr

def DEFAULT_EXPIRY_THRESHOLDS : List ExpiryThreshold :=
  [⟨"7d", some (7 * 24 * 60)⟩, ⟨"3d", some (3 * 24 * 60)⟩, ⟨"1d", some (24 * 60)⟩,
    ⟨"12h", some (12 * 60)⟩, ⟨"3h", some (3 * 60)⟩, ⟨"expired", none⟩]

def DEFAULT_TRIAL_THRESHOLDS : List ExpiryThreshold :=
  [⟨"30m", some 30⟩, ⟨"10m", some 10⟩, ⟨"expired", none⟩]

def DEFAULT_TRAFFIC_THRESHOLDS : List ℤ := [80, 90, 100]

def MAX_THRESHOLD_MINUTES : ℤ := 400 * 24 * 60
def MAX_THRESHOLD_COUNT : ℕ := 12

/-! ### The settings -/

/-- The items of a setting that is a list of a length that is allowed. -/
def thresholdItems (raw : Option String) : Option (List Json) :=
  match raw.bind Json.parse with
  | some (.array items) =>
    if items = [] ∨ MAX_THRESHOLD_COUNT < items.length then none else some items
  | _ => none

/-- `rec.minutesBefore`: absent or null, an integer within the bounds, or invalid. -/
def parseMinutesBefore : Option Json → Option (Option ℤ)
  | none | some .null => some none
  | some (.number literal) =>
    match (literalNumber literal.toList).toInt? with
    | some n => if 0 < n ∧ n ≤ MAX_THRESHOLD_MINUTES then some (some n) else none
    | none => none
  | some _ => none

/-- `rec.key`, trimmed; empty where it is no string. -/
def thresholdKey (entries : List (String × Json)) : String :=
  match Json.member entries "key" with
  | some (.string s) => jsTrim s
  | _ => ""

/-- One item, after those whose keys were `seen`. -/
def parseThreshold (seen : List String) : Json → Option ExpiryThreshold
  | .object entries =>
    let key := thresholdKey entries
    if key = "" ∨ 16 < jsLength key ∨ key ∈ seen then none
    else (parseMinutesBefore (Json.member entries "minutesBefore")).map fun minutes =>
      ⟨key, minutes⟩
  | _ => none

def parseThresholdList : List ExpiryThreshold → List Json → Option (List ExpiryThreshold)
  | out, [] => some out
  | out, item :: items =>
    match parseThreshold (out.map (·.key)) item with
    | some t => parseThresholdList (out ++ [t]) items
    | none => none

/-- The comparison of the sort: the largest window first, the expired one last. -/
def compareThresholds (a b : ExpiryThreshold) : ℤ :=
  match a.minutesBefore, b.minutesBefore with
  | none, _ => 1
  | some _, none => -1
  | some x, some y => y - x

/-- The validated, sorted list of a setting, or the fallback. -/
def parseExpiryThresholds (raw : Option String) (fallback : List ExpiryThreshold) :
    List ExpiryThreshold :=
  match (thresholdItems raw).bind (parseThresholdList []) with
  | some out => out.mergeSort fun a b => ¬ compareThresholds b a < 0
  | none => fallback

/-- A percentage in (0, 100] that was not `seen`. -/
def parsePercent (seen : List ℤ) : Json → Option ℤ
  | .number literal =>
    match (literalNumber literal.toList).toInt? with
    | some n => if 0 < n ∧ n ≤ 100 ∧ n ∉ seen then some n else none
    | none => none
  | _ => none

def parsePercentList : List ℤ → List Json → Option (List ℤ)
  | out, [] => some out
  | out, item :: items =>
    match parsePercent out item with
    | some n => parsePercentList (out ++ [n]) items
    | none => none

/-- Validated ascending list of integer percentages in (0, 100]. -/
def parseTrafficThresholds (raw : Option String) (fallback : List ℤ) : List ℤ :=
  match (thresholdItems raw).bind (parsePercentList []) with
  | some out => out.mergeSort (· ≤ ·)
  | none => fallback

/-! ### Bucket selection -/

/-- The tightest window that was entered, or the expired threshold. -/
def pickExpiryBucket (minutesToExpiry : ℤ) (thresholds : List ExpiryThreshold) :
    Option ExpiryThreshold :=
  if minutesToExpiry ≤ 0 then thresholds.find? (·.minutesBefore = none)
  else thresholds.foldl (fun best t =>
    match t.minutesBefore, best.bind (·.minutesBefore) with
    | none, _ => best
    | some w, none => if w < minutesToExpiry then best else some t
    | some w, some b => if w < minutesToExpiry then best else if w < b then some t else best) none

/-- The largest threshold that the usage has reached. -/
def pickTrafficBucket (rawPercent : ℤ) (thresholds : List ℤ) : Option ℤ :=
  thresholds.foldl (fun best pct =>
    match best with
    | none => if pct ≤ rawPercent then some pct else none
    | some b => if pct ≤ rawPercent ∧ b < pct then some pct else some b) none

structure TrafficUsage where
  displayPercent : ℤ
  rawPercent : ℤ
  unlimited : Bool
  deriving DecidableEq, Repr

def computeTrafficUsage (usedBytes volumeBytes : ℤ) : TrafficUsage :=
  if volumeBytes ≤ 0 then { displayPercent := 0, rawPercent := 0, unlimited := true }
  else
    let used := if usedBytes < 0 then 0 else usedBytes
    let raw := used * 100 / volumeBytes
    { displayPercent := if 100 < raw then 100 else raw, rawPercent := raw, unlimited := false }

/-! ### What the readers promise -/

/-- The windows are positive and the keys are distinct. -/
structure ValidThresholds (thresholds : List ExpiryThreshold) : Prop where
  positive : ∀ t ∈ thresholds, ∀ w, t.minutesBefore = some w → 0 < w
  keys : (thresholds.map (·.key)).Nodup

theorem parseMinutesBefore_pos {json : Option Json} {w : ℤ}
    (h : parseMinutesBefore json = some (some w)) : 0 < w := by
  unfold parseMinutesBefore at h
  split at h
  · cases h
  · cases h
  · split at h
    · split at h
      · cases h
        rename_i hbounds
        exact hbounds.1
      · cases h
    · cases h
  · cases h

theorem parseThreshold_valid {seen : List String} {item : Json} {t : ExpiryThreshold}
    (h : parseThreshold seen item = some t) :
    t.key ∉ seen ∧ ∀ w, t.minutesBefore = some w → 0 < w := by
  cases item with
  | object entries =>
    simp only [parseThreshold] at h
    split at h
    · cases h
    · rename_i hkey
      obtain ⟨minutes, hminutes, rfl⟩ := Option.map_eq_some_iff.mp h
      refine ⟨fun hseen => hkey (.inr (.inr hseen)), fun w hw => ?_⟩
      dsimp only at hw
      subst hw
      exact parseMinutesBefore_pos hminutes
  | null | bool _ | number _ | string _ | array _ => cases h

theorem parseThresholdList_valid : ∀ {items : List Json} {out thresholds : List ExpiryThreshold},
    ValidThresholds out → parseThresholdList out items = some thresholds →
    ValidThresholds thresholds
  | [], _, _, hout, h => by
    cases h
    exact hout
  | item :: items, out, thresholds, hout, h => by
    rw [parseThresholdList] at h
    split at h
    · rename_i t ht
      obtain ⟨hnew, hpos⟩ := parseThreshold_valid ht
      refine parseThresholdList_valid ⟨fun x hx w hw => ?_, ?_⟩ h
      · rcases List.mem_append.mp hx with hx | hx
        · exact hout.positive x hx w hw
        · rw [List.mem_singleton] at hx
          subst hx
          exact hpos w hw
      · rw [List.map_append, List.nodup_append]
        refine ⟨hout.keys, List.nodup_singleton _, fun a ha b hb => ?_⟩
        rw [List.map_singleton, List.mem_singleton] at hb
        rintro rfl
        exact hnew (hb ▸ ha)
    · cases h

/-- A list that the reader accepts is valid, and so are the defaults. -/
theorem parseExpiryThresholds_valid {raw : Option String} {fallback : List ExpiryThreshold}
    (hfallback : ValidThresholds fallback) :
    ValidThresholds (parseExpiryThresholds raw fallback) := by
  rw [parseExpiryThresholds]
  split
  · rename_i out hout
    obtain ⟨items, -, hitems⟩ := Option.bind_eq_some_iff.mp hout
    have hvalid := parseThresholdList_valid (⟨by simp, by simp⟩ : ValidThresholds []) hitems
    have hperm := List.mergeSort_perm out fun a b => ¬ compareThresholds b a < 0
    exact ⟨fun t ht => hvalid.positive t (hperm.mem_iff.mp ht),
      (hperm.map _).nodup_iff.mpr hvalid.keys⟩
  · exact hfallback

theorem default_thresholds_valid : ValidThresholds DEFAULT_EXPIRY_THRESHOLDS ∧
    ValidThresholds DEFAULT_TRIAL_THRESHOLDS := by
  refine ⟨⟨?_, by decide⟩, ⟨?_, by decide⟩⟩ <;> simp [DEFAULT_EXPIRY_THRESHOLDS,
    DEFAULT_TRIAL_THRESHOLDS]

theorem parsePercent_pos {seen : List ℤ} {item : Json} {n : ℤ} (h : parsePercent seen item = some n) :
    0 < n := by
  cases item with
  | number literal =>
    rw [parsePercent] at h
    split at h
    · split at h
      · cases h
        rename_i hbounds
        exact hbounds.1
      · cases h
    · cases h
  | null | bool _ | object _ | string _ | array _ => cases h

theorem parsePercentList_pos : ∀ {items : List Json} {out thresholds : List ℤ},
    (∀ n ∈ out, 0 < n) → parsePercentList out items = some thresholds → ∀ n ∈ thresholds, 0 < n
  | [], _, _, hout, h => by
    cases h
    exact hout
  | item :: items, out, thresholds, hout, h => by
    rw [parsePercentList] at h
    split at h
    · rename_i pct hpct
      refine parsePercentList_pos (fun n hn => ?_) h
      rcases List.mem_append.mp hn with hn | hn
      · exact hout n hn
      · rw [List.mem_singleton] at hn
        rw [hn]
        exact parsePercent_pos hpct
    · cases h

/-- The percentages that the reader accepts are positive, and so are the defaults. -/
theorem parseTrafficThresholds_pos {raw : Option String} {n : ℤ}
    (hn : n ∈ parseTrafficThresholds raw DEFAULT_TRAFFIC_THRESHOLDS) : 0 < n := by
  rw [parseTrafficThresholds] at hn
  split at hn
  · rename_i out hout
    obtain ⟨items, -, hitems⟩ := Option.bind_eq_some_iff.mp hout
    exact parsePercentList_pos (by simp : ∀ n ∈ ([] : List ℤ), 0 < n) hitems n
      ((List.mergeSort_perm out (· ≤ ·)).mem_iff.mp hn)
  · simp only [DEFAULT_TRAFFIC_THRESHOLDS, List.mem_cons, List.not_mem_nil, or_false] at hn
    omega

/-! ### The bucket that is picked -/

/-- The threshold is a window of at least `minutes`, and no window of at least `minutes` is tighter. -/
structure Tightest (minutes : ℤ) (thresholds : List ExpiryThreshold) (t : ExpiryThreshold) (w : ℤ) :
    Prop where
  mem : t ∈ thresholds
  window : t.minutesBefore = some w
  entered : minutes ≤ w
  tightest : ∀ t' ∈ thresholds, ∀ w', t'.minutesBefore = some w' → minutes ≤ w' → w ≤ w'

theorem Tightest.mono {minutes : ℤ} {thresholds more : List ExpiryThreshold} {t : ExpiryThreshold}
    {w : ℤ} (h : Tightest minutes thresholds t w)
    (hmore : ∀ t' ∈ more, ∀ w', t'.minutesBefore = some w' → minutes ≤ w' → w ≤ w') :
    Tightest minutes (thresholds ++ more) t w where
  mem := List.mem_append_left _ h.mem
  window := h.window
  entered := h.entered
  tightest t' ht' := (List.mem_append.mp ht').elim (h.tightest t') (hmore t')

/-- STEP: what is best after one more threshold. -/
theorem pick_step {minutes : ℤ} {seen : List ExpiryThreshold} {best : Option ExpiryThreshold}
    (t : ExpiryThreshold)
    (hsome : ∀ b, best = some b → ∃ w, Tightest minutes seen b w)
    (hnone : best = none → ∀ t ∈ seen, ∀ w, t.minutesBefore = some w → w < minutes) :
    let best' := match t.minutesBefore, best.bind (·.minutesBefore) with
      | none, _ => best
      | some w, none => if w < minutes then best else some t
      | some w, some b => if w < minutes then best else if w < b then some t else best
    (∀ b, best' = some b → ∃ w, Tightest minutes (seen ++ [t]) b w) ∧
      (best' = none → ∀ t' ∈ seen ++ [t], ∀ w, t'.minutesBefore = some w → w < minutes) := by
  -- the best one so far stays where the new window is too small, or no tighter
  have hkeep : (∀ w, t.minutesBefore = some w → minutes ≤ w →
        ∃ b v, best = some b ∧ b.minutesBefore = some v ∧ v ≤ w) →
      (∀ b, best = some b → ∃ w, Tightest minutes (seen ++ [t]) b w) ∧
        (best = none → ∀ t' ∈ seen ++ [t], ∀ w, t'.minutesBefore = some w → w < minutes) := by
    intro h
    refine ⟨fun b hb => ?_, fun hb t' ht' w hw => ?_⟩
    · obtain ⟨v, hv⟩ := hsome b hb
      refine ⟨v, hv.mono fun t' ht' w' hw' hle => ?_⟩
      rw [List.mem_singleton] at ht'
      subst ht'
      obtain ⟨b', v', hb', hv', hle'⟩ := h w' hw' hle
      rw [hb] at hb'
      cases hb'
      rw [hv.window] at hv'
      cases hv'
      exact hle'
    · rcases List.mem_append.mp ht' with ht' | ht'
      · exact hnone hb t' ht' w hw
      · rw [List.mem_singleton] at ht'
        subst ht'
        by_contra hge
        obtain ⟨b', v', hb', -⟩ := h w hw (not_lt.mp hge)
        rw [hb] at hb'
        cases hb'
  have hnew : ∀ w, t.minutesBefore = some w → minutes ≤ w →
      (∀ t' ∈ seen, ∀ w', t'.minutesBefore = some w' → minutes ≤ w' → w ≤ w') →
      Tightest minutes (seen ++ [t]) t w := by
    intro w hw hle htight
    refine ⟨List.mem_append_right _ (List.mem_singleton_self _), hw, hle, fun t' ht' w' hw' hle' => ?_⟩
    rcases List.mem_append.mp ht' with ht' | ht'
    · exact htight t' ht' w' hw' hle'
    · rw [List.mem_singleton] at ht'
      subst ht'
      rw [hw] at hw'
      cases hw'
      exact le_refl _
  intro best'
  simp only [best']
  split
  · rename_i hw
    exact hkeep fun w hw' => by rw [hw] at hw'; cases hw'
  · rename_i w hw hbest
    -- nothing is best so far
    have hbest : best = none := by
      cases hb : best with
      | none => rfl
      | some b =>
        obtain ⟨v, hv⟩ := hsome b hb
        rw [hb, Option.bind_some, hv.window] at hbest
        cases hbest
    split
    · rename_i hlt
      refine hkeep fun w' hw' hle => ?_
      rw [hw] at hw'
      cases hw'
      omega
    · rename_i hge
      refine ⟨fun b hb => ?_, nofun⟩
      cases hb
      refine ⟨w, hnew w hw (not_lt.mp hge) fun t' ht' w' hw' hle => ?_⟩
      have hlt := hnone hbest t' ht' w' hw'
      omega
  · rename_i w v hw hbest
    obtain ⟨b, hb, hv⟩ := Option.bind_eq_some_iff.mp hbest
    obtain ⟨v', htight⟩ := hsome b hb
    obtain rfl : v' = v := by
      have hwindow := htight.window
      rw [hv] at hwindow
      cases hwindow
      rfl
    split
    · rename_i hlt
      refine hkeep fun w' hw' hle => ?_
      rw [hw] at hw'
      cases hw'
      omega
    split
    · rename_i hge hlt
      refine ⟨fun c hc => ?_, nofun⟩
      cases hc
      refine ⟨w, hnew w hw (not_lt.mp hge) fun t' ht' w' hw' hle => ?_⟩
      exact hlt.le.trans (htight.tightest t' ht' w' hw' hle)
    · rename_i hge
      refine hkeep fun w' hw' hle => ⟨b, v', hb, hv, ?_⟩
      rw [hw] at hw'
      cases hw'
      exact not_lt.mp hge

/-- Before the expiry the tightest window that was entered is picked, if any was. -/
theorem pickExpiryBucket_spec {minutes : ℤ} (hpos : 0 < minutes) (thresholds : List ExpiryThreshold) :
    (∀ t, pickExpiryBucket minutes thresholds = some t → ∃ w, Tightest minutes thresholds t w) ∧
      (pickExpiryBucket minutes thresholds = none →
        ∀ t ∈ thresholds, ∀ w, t.minutesBefore = some w → w < minutes) := by
  rw [pickExpiryBucket, if_neg (not_le.mpr hpos)]
  suffices h : ∀ (rest seen : List ExpiryThreshold) (best : Option ExpiryThreshold),
      (∀ b, best = some b → ∃ w, Tightest minutes seen b w) →
      (best = none → ∀ t ∈ seen, ∀ w, t.minutesBefore = some w → w < minutes) →
      (∀ t, rest.foldl _ best = some t → ∃ w, Tightest minutes (seen ++ rest) t w) ∧
        (rest.foldl _ best = none → ∀ t ∈ seen ++ rest, ∀ w, t.minutesBefore = some w → w < minutes)
    from h thresholds [] none nofun (by simp)
  intro rest
  induction rest with
  | nil =>
    intro seen best hsome hnone
    rw [List.append_nil]
    exact ⟨hsome, hnone⟩
  | cons t rest ih =>
    intro seen best hsome hnone
    obtain ⟨hsome', hnone'⟩ := pick_step t hsome hnone
    have h := ih (seen ++ [t]) _ hsome' hnone'
    rw [List.append_assoc] at h
    exact h

/-- The largest percentage that was reached is picked, if any was. -/
theorem pickTrafficBucket_spec (rawPercent : ℤ) (thresholds : List ℤ) :
    (∀ p, pickTrafficBucket rawPercent thresholds = some p →
      p ∈ thresholds ∧ p ≤ rawPercent ∧ ∀ q ∈ thresholds, q ≤ rawPercent → q ≤ p) ∧
      (pickTrafficBucket rawPercent thresholds = none → ∀ q ∈ thresholds, rawPercent < q) := by
  rw [pickTrafficBucket]
  induction thresholds using List.reverseRecOn with
  | nil => exact ⟨nofun, fun _ q hq => nomatch hq⟩
  | append_singleton seen pct ih =>
    obtain ⟨hsome, hnone⟩ := ih
    rw [List.foldl_append, List.foldl_cons, List.foldl_nil]
    cases hbest : seen.foldl _ (none : Option ℤ) with
    | none =>
      have hlow := hnone hbest
      dsimp only
      split
      · rename_i hreached
        refine ⟨fun p hp => ?_, nofun⟩
        cases hp
        refine ⟨by simp, hreached, fun q hq hle => ?_⟩
        rcases List.mem_append.mp hq with hq | hq
        · have hlt := hlow q hq
          omega
        · rw [List.mem_singleton.mp hq]
      · rename_i hreached
        refine ⟨nofun, fun _ q hq => ?_⟩
        rcases List.mem_append.mp hq with hq | hq
        · exact hlow q hq
        · rw [List.mem_singleton.mp hq]
          exact not_le.mp hreached
    | some b =>
      obtain ⟨hmem, hle, hmax⟩ := hsome b hbest
      dsimp only
      split
      · rename_i hreached
        refine ⟨fun p hp => ?_, nofun⟩
        cases hp
        refine ⟨by simp, hreached.1, fun q hq hq' => ?_⟩
        rcases List.mem_append.mp hq with hq | hq
        · exact (hmax q hq hq').trans hreached.2.le
        · rw [List.mem_singleton.mp hq]
      · rename_i hreached
        refine ⟨fun p hp => ?_, nofun⟩
        cases hp
        refine ⟨List.mem_append_left _ hmem, hle, fun q hq hq' => ?_⟩
        rcases List.mem_append.mp hq with hq | hq
        · exact hmax q hq hq'
        · rw [List.mem_singleton.mp hq] at hq' ⊢
          by_contra hlt
          exact hreached ⟨hq', not_le.mp hlt⟩

end ZedBot.Notifications
