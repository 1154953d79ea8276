import ZedBot.ForceJoin.Membership
import ZedBot.ForceJoin.Configuration

/-! # A channel is retired only after sustained failure

    The health columns of an active channel are a summary of the newest failures counted since
    its last reset: how many they are, and when the first and the last of them came.

        count, firstAt, lastAt   ▸   t₁ ─ t₂ ─ … ─ tₙ     every gap in [5 s, 60 min] -/

namespace ZedBot.ForceJoin

variable {db : Db} {id : String} {k : ℕ} {now : ℤ} {facts : List Fact}

/-! ### History -/

theorem sinceCleared_cons {f : Fact} (h : clearedFor id f = false) :
    sinceCleared id (f :: facts) = f :: sinceCleared id facts := by
  rw [sinceCleared, List.takeWhile_cons_of_pos (by rw [h]; rfl), ← sinceCleared]

theorem sinceCleared_cleared (k : ℕ) (id : String) (facts : List Fact) :
    sinceCleared id (.cleared k id :: facts) = [] :=
  List.takeWhile_cons_of_neg (by simp [clearedFor])

theorem countedSince_cons {f : Fact} (h : clearedFor id f = false)
    (hother : countedFor id f = none) : countedSince id (f :: facts) = countedSince id facts := by
  rw [countedSince, sinceCleared_cons h, List.filterMap_cons_none hother, ← countedSince]

theorem countedSince_counted (k : ℕ) (id : String) (now : ℤ) (facts : List Fact) :
    countedSince id (.counted k id now :: facts) = (k, now) :: countedSince id facts := by
  have hself : countedFor id (.counted k id now) = some (k, now) := if_pos rfl
  rw [countedSince, sinceCleared_cons rfl, List.filterMap_cons_some hself, ← countedSince]

theorem countedSince_counted_other {other : String} (h : id ≠ other) :
    countedSince id (.counted k other now :: facts) = countedSince id facts := by
  have hnone : countedFor id (.counted k other now) = none := if_neg h.symm
  exact countedSince_cons rfl hnone

theorem countedSince_cleared_other {other : String} (h : id ≠ other) :
    countedSince id (.cleared k other :: facts) = countedSince id facts := by
  have hother : clearedFor id (.cleared k other) = false := beq_false_of_ne h.symm
  exact countedSince_cons hother rfl

theorem countedSince_cleared (k : ℕ) (id : String) (facts : List Fact) :
    countedSince id (.cleared k id :: facts) = [] := by
  rw [countedSince, sinceCleared_cleared, List.filterMap_nil]

/-! ### The failure window of a row -/

/-- The failures, newest first, that the health columns stand for. -/
structure Window (row : ChannelHealth) (failures : List (ℕ × ℤ)) : Prop where
  count : failures.length = row.healthFailureCount
  last : failures.head?.map Prod.snd = row.healthFailureLastAt
  first : failures.getLast?.map Prod.snd = row.healthFailureFirstAt
  spaced : failures.IsChain fun newer older =>
    FORCE_JOIN_HEALTH_COUNT_DEBOUNCE_MS ≤ newer.2 - older.2 ∧
      newer.2 - older.2 ≤ FORCE_JOIN_HEALTH_RESET_MS

/-- A counted failure joins the window, or starts a new one. -/
theorem window_counted {row : ChannelHealth} {failures : List (ℕ × ℤ)} (h : Window row failures)
    (hdebounced : isDebounced row.healthFailureLastAt now = false) (k : ℕ) (errorClass : String)
    (unhealthyAt : Option ℤ) :
    Window (countedHealth row errorClass now unhealthyAt)
      ((k, now) :: if isStaleWindow row.healthFailureLastAt now then [] else failures) := by
  rw [countedHealth, nextCount, nextFirstAt]
  split_ifs with hstale
  · exact ⟨rfl, rfl, rfl, List.IsChain.singleton _⟩
  · cases failures with
    | nil =>
      rw [← h.last] at hstale
      exact absurd rfl hstale
    | cons f rest =>
      have hlast : row.healthFailureLastAt = some f.2 := h.last.symm
      rw [hlast] at hdebounced hstale
      rw [isDebounced, Option.any_some, decide_eq_false_iff_not, not_lt] at hdebounced
      rw [isStaleWindow, Option.all_some, decide_eq_true_eq, not_lt] at hstale
      refine ⟨?_, rfl, ?_, List.isChain_cons_cons.mpr ⟨⟨hdebounced, hstale⟩, h.spaced⟩⟩
      · rw [List.length_cons, h.count]
      · have hfirst := h.first
        rw [List.getLast?_cons_cons]
        cases hrow : row.healthFailureFirstAt with
        | none => rw [hrow, List.getLast?_cons, Option.map_some] at hfirst; cases hfirst
        | some t => rw [hfirst, hrow, Option.getD_some]

/-! ### What a recorded failure does -/

/-- Nothing to count, or a counted failure that retires the channel or does not. -/
inductive Failed (db : Db) (id errorClass : String) (now : ℤ) : Plan → Prop
  | uncounted (o : Outcome) (ho : ∀ off, o ≠ .retired off) :
      Failed db id errorClass now (.nothing o)
  | counted (row : ForceJoinChannel) (hrow : row ∈ db.channels) (hid : row.id = id)
      (hactive : row.isActive = true)
      (hdebounced : isDebounced row.healthFailureLastAt now = false) (count : ℕ) :
      Failed db id errorClass now
        ⟨.counted count, [.update id (fun c => c) fun current =>
          countedHealth row.toChannelHealth errorClass now current.unhealthyAt]⟩
  | retired (row : ForceJoinChannel) (hrow : row ∈ db.channels) (hid : row.id = id)
      (hactive : row.isActive = true)
      (hdebounced : isDebounced row.healthFailureLastAt now = false)
      (hretired : isRetired row.toChannelHealth now = true) :
      Failed db id errorClass now (retire row errorClass now db)

theorem failed (db : Db) (id errorClass : String) (now : ℤ) :
    Failed db id errorClass now (recordChannelHealthFailure id errorClass now db) := by
  rw [recordChannelHealthFailure]
  split
  · exact .uncounted _ (by rintro _ ⟨⟩)
  · rename_i row hrow
    obtain ⟨hmem, hid⟩ := mem_of_findUnique hrow
    split_ifs with hactive hdebounced hretired
    · exact .uncounted _ (by rintro _ ⟨⟩)
    · exact .uncounted _ (by rintro _ ⟨⟩)
    · exact .retired row hmem hid (Bool.not_eq_false _ ▸ hactive)
        (Bool.not_eq_true _ ▸ hdebounced) hretired
    · subst hid
      exact .counted row hmem rfl (Bool.not_eq_false _ ▸ hactive)
        (Bool.not_eq_true _ ▸ hdebounced) _

theorem retire_channels (row : ForceJoinChannel) (errorClass : String) (now : ℤ) (seen db : Db) :
    ((retire row errorClass now seen).writes.foldl Write.apply db).channels =
      ((Write.update row.id (setActive false) fun _ =>
        countedHealth row.toChannelHealth errorClass now (some now)).apply db).channels := by
  rw [retire, ← isLastActive]
  cases isLastActive row.id seen <;> rfl

theorem retire_writes_isEmpty (row : ForceJoinChannel) (errorClass : String) (now : ℤ)
    (seen : Db) : (retire row errorClass now seen).writes.isEmpty = false := by
  rw [retire, ← isLastActive]
  cases isLastActive row.id seen <;> rfl

/-! ### The windows of all rows -/

/-- Every active row summarises the newest failures counted since its last reset. -/
def Accounted (db : Db) (facts : List Fact) : Prop :=
  ∀ row ∈ db.channels, row.isActive = true →
    ∃ failures, Window row.toChannelHealth failures ∧ failures <+: countedSince row.id facts

theorem mem_updated {row' : ForceJoinChannel} {config : ChannelConfig → ChannelConfig}
    {health : ForceJoinChannel → ChannelHealth}
    (h : row' ∈ ((Write.update id config health).apply db).channels) :
    ∃ row ∈ db.channels,
      row.id = id ∧ row' = ⟨config row.toChannelConfig, health row⟩ ∨ row.id ≠ id ∧ row' = row := by
  obtain ⟨row, hrow, rfl⟩ := List.mem_map.mp h
  refine ⟨row, hrow, ?_⟩
  split_ifs with hid
  · exact .inl ⟨hid, rfl⟩
  · exact .inr ⟨hid, rfl⟩

theorem accounted_stamp (h : Accounted db facts) (id code : String) (now : ℤ) :
    Accounted ((recordValidationError id code now).apply db) facts := by
  intro row' hrow' hactive
  obtain ⟨row, hrow, ⟨-, rfl⟩ | ⟨-, rfl⟩⟩ := mem_updated hrow'
  · obtain ⟨failures, hwindow, hnewest⟩ := h row hrow hactive
    exact ⟨failures, ⟨hwindow.count, hwindow.last, hwindow.first, hwindow.spaced⟩, hnewest⟩
  · exact h row' hrow hactive

/-- A committed reset leaves no window on its row. -/
theorem accounted_success (h : Accounted db facts) (k : ℕ) (id : String) :
    Accounted ((recordChannelHealthSuccess id).writes.foldl Write.apply db)
      (.cleared k id :: facts) := by
  intro row' hrow' hactive
  change row' ∈ ((Write.update id (fun c => c) _).apply db).channels at hrow'
  obtain ⟨row, hrow, ⟨hid, rfl⟩ | ⟨hid, rfl⟩⟩ := mem_updated hrow'
  · refine ⟨[], ?_, List.nil_prefix⟩
    have hon : row.isActive = true := hactive
    dsimp only
    split_ifs with hcleared
    · exact ⟨rfl, rfl, rfl, .nil⟩
    · obtain ⟨failures, hwindow, -⟩ := h row hrow hon
      have hnone : failures = [] := List.eq_nil_of_length_eq_zero <|
        hwindow.count.trans <| Nat.eq_zero_of_not_pos fun hpos => hcleared ⟨hon, hpos⟩
      exact hnone ▸ hwindow
  · rw [countedSince_cleared_other hid]
    exact h row' hrow hactive

/-- The row of a counted failure, after it. -/
theorem accounted_counted (h : Accounted db facts) {row : ForceJoinChannel}
    (hrow : row ∈ db.channels) (hactive : row.isActive = true)
    (hdebounced : isDebounced row.healthFailureLastAt now = false) (k : ℕ) (errorClass : String)
    (unhealthyAt : Option ℤ) :
    ∃ failures, Window (countedHealth row.toChannelHealth errorClass now unhealthyAt) failures ∧
      failures <+: countedSince row.id (.counted k row.id now :: facts) := by
  obtain ⟨failures, hwindow, hnewest⟩ := h row hrow hactive
  refine ⟨_, window_counted hwindow hdebounced k errorClass unhealthyAt, ?_⟩
  rw [countedSince_counted, List.cons_prefix_cons]
  refine ⟨rfl, ?_⟩
  split_ifs
  · exact List.nil_prefix
  · exact hnewest

theorem accounted_failure (h : Accounted db facts) (k : ℕ) (id : String) (now : ℤ) :
    Accounted ((plan db (failureOf id now)).writes.foldl Write.apply db)
      ((if (plan db (failureOf id now)).writes.isEmpty then [] else [.counted k id now]) ++
        facts) := by
  have hother : ∀ row ∈ db.channels, row.id ≠ id → row.isActive = true →
      ∃ failures, Window row.toChannelHealth failures ∧
        failures <+: countedSince row.id (.counted k id now :: facts) := by
    intro row hrow hne hactive
    rw [countedSince_counted_other hne]
    exact h row hrow hactive
  have hfailed : Failed db id "UNVERIFIABLE" now (plan db (failureOf id now)) :=
    failed db id "UNVERIFIABLE" now
  generalize plan db (failureOf id now) = p at hfailed ⊢
  cases hfailed with
  | uncounted => exact h
  | counted row hrow hid hactive hdebounced count =>
    subst hid
    intro row' hrow' hactive'
    change row' ∈ ((Write.update row.id (fun c => c) _).apply db).channels at hrow'
    obtain ⟨other, hmem, ⟨hid, rfl⟩ | ⟨hne, rfl⟩⟩ := mem_updated hrow'
    · have hresult := accounted_counted h hrow hactive hdebounced k "UNVERIFIABLE"
        other.unhealthyAt
      rw [← hid] at hresult ⊢
      exact hresult
    · exact hother row' hmem hne hactive'
  | retired row hrow hid hactive hdebounced hretired =>
    subst hid
    intro row' hrow' hactive'
    rw [retire_channels] at hrow'
    obtain ⟨other, hmem, ⟨-, rfl⟩ | ⟨hne, rfl⟩⟩ := mem_updated hrow'
    · cases hactive'
    · rw [retire_writes_isEmpty]
      exact hother row' hmem hne hactive'

end ZedBot.ForceJoin
