import ZedBot.ForceJoin.Reorder

/-! # Runs of the configuration

    One transaction at a time holds the lock: it has read the tables when it begins, and commits
    on the tables as they are by then. Meanwhile rows may be stamped as validated.

        begin op ──▶ (validation stamps …) ──▶ commit: all its writes, or none
                                           ──▶ abort:  nothing -/

namespace ZedBot.ForceJoin

structure System where
  db : Db
  holder : Option (Operation × Db)

inductive Event
  | begin (op : Operation)
  | commit
  | abort
  | recordValidationSuccess (id : String) (at' : ℤ)

def step (s : System) : Event → Option System
  | .begin op =>
    match s.holder with
    | some _ => none
    | none => some { s with holder := some (op, s.db) }
  | .commit =>
    match s.holder with
    | none => none
    | some (op, seen) => some { db := (finish op seen s.db).2, holder := none }
  | .abort => some { s with holder := none }
  | .recordValidationSuccess id at' =>
    some { s with db := (recordValidationSuccess id at').apply s.db }

inductive Reaches (s₀ : System) : System → Prop
  | start : Reaches s₀ s₀
  | step {s s' : System} {e : Event} : Reaches s₀ s → step s e = some s' → Reaches s₀ s'

def exec (s : System) : List Event → Option System
  | [] => some s
  | e :: es => (step s e).bind fun s' => exec s' es

theorem reaches_of_exec {s₀ s s' : System} {es : List Event} (h : Reaches s₀ s)
    (hexec : exec s es = some s') : Reaches s₀ s' := by
  induction es generalizing s with
  | nil => exact Option.some.inj hexec ▸ h
  | cons e es ih =>
    obtain ⟨t, ht, hrest⟩ := Option.bind_eq_some_iff.mp hexec
    exact ih (h.step ht) hrest

/-- No channel yet, and the switch is off. -/
structure Start (s : System) : Prop where
  channels : s.db.channels = []
  off : isTruthySettingValue s.db.setting = false
  holder : s.holder = none

variable {seen now before after : Db} {op : Operation} {id : String}

/-! ### What a commit does -/

/-- An active channel is there afterwards, inactive. -/
def Deactivated (before after : Db) (id : String) : Prop :=
  ∃ c ∈ before.configs, c.id = id ∧ c.isActive = true ∧ setActive false c ∈ after.configs

/-- The events of a retirement that did or did not turn the switch off. -/
def announcement (id : String) (isPrivate : Bool) (errorClass : String) (off : Bool) :
    List OpsEvent :=
  .channelRetired id isPrivate errorClass off :: if off then [.autoDisabled id] else []

def turnsOff (before after : Db) : Bool :=
  isTruthySettingValue before.setting && !isTruthySettingValue after.setting

/-- A failed operation changes nothing; a move swaps neighbours; a health failure deactivates
    only its own channel and announces just that; and nothing else is announced. -/
structure Commits (op : Operation) (outcome : Outcome) (before after : Db) : Prop where
  unchanged : outcome.isFailure = true → after = before
  moved : ∀ id direction, op = .reorderChannel id direction → outcome.isFailure = false →
    Moved id direction ((listed before.configs).map ChannelConfig.id)
      ((listed after.configs).map ChannelConfig.id)
  announced : ∀ id errorClass at', op = .recordChannelHealthFailure id errorClass at' →
    ∀ other, Deactivated before after other → other = id ∧
      ∃ isPrivate, after.opsEvents =
        before.opsEvents ++ announcement id isPrivate errorClass (turnsOff before after)
  silent : op.isHealthFailure = false ∨ (∀ other, ¬ Deactivated before after other) →
    after.opsEvents = before.opsEvents
  switched : op.isHealthFailure = true → (∀ other, ¬ Deactivated before after other) →
    after.setting = before.setting

theorem not_deactivated (h : Sound now) (hconfigs : after.configs = now.configs) (id : String) :
    ¬ Deactivated now after id := by
  rintro ⟨c, hc, -, hactive, hafter⟩
  rw [hconfigs] at hafter
  have hsame := List.inj_on_of_nodup_map h.unique.1 hafter hc rfl
  rw [← hsame] at hactive
  cases hactive

/-- A retirement deactivates its channel and no other. -/
theorem deactivated_edit (h : Sound now) (hconfigs : after.configs = edit id (setActive false)
    now.configs) {other : String} (hother : Deactivated now after other) : other = id := by
  obtain ⟨c, hc, rfl, hactive, hafter⟩ := hother
  rw [hconfigs, edit, List.mem_map] at hafter
  obtain ⟨d, hd, hdc⟩ := hafter
  by_contra hne
  have hid : d.id = c.id := by
    have hids := congrArg ChannelConfig.id hdc
    split_ifs at hids <;> exact hids
  obtain rfl := List.inj_on_of_nodup_map h.unique.1 hd hc hid
  rw [if_neg hne] at hdc
  rw [hdc] at hactive
  cases hactive

theorem deactivated_of_edit (hconfigs : after.configs = edit id (setActive false) now.configs)
    {c : ChannelConfig} (hc : c ∈ now.configs) (hid : c.id = id) (hactive : c.isActive = true) :
    Deactivated now after id := by
  refine ⟨c, hc, hid, hactive, ?_⟩
  rw [hconfigs, edit, List.mem_map]
  exact ⟨c, hc, if_pos hid⟩

/-- The writes of a plan, committed. -/
theorem commits_writes {p : Plan} (h : Sound now) (hsame : SameConfig seen now)
    (hplanned : Planned seen op p) : Commits op p.outcome now (p.writes.foldl Write.apply now) := by
  cases hplanned with
  | nothing _ o ho =>
    refine ⟨fun _ => rfl, fun id direction hop hok => ?_, fun _ _ _ _ other hother => ?_,
      fun _ => rfl, fun _ _ => rfl⟩
    · subst hop
      rcases ho with ho | ho
      · exact absurd (ho.symm.trans hok) (by decide)
      · cases ho
    · exact absurd hother (not_deactivated h rfl other)
  | rebound _ o id identity at' ho hop hhealth =>
    refine ⟨fun hfail => absurd (ho.symm.trans hfail) (by decide), fun _ _ hr => ?_,
      fun _ _ _ hf => ?_, fun _ => rfl, fun hf => ?_⟩
    · rw [hr] at hop
      cases hop
    · rw [hf] at hhealth
      cases hhealth
    · exact absurd (hhealth.symm.trans hf) (by decide)
  | created input id at' row => exact ⟨nofun, nofun, nofun, fun _ => rfl, nofun⟩
  | activated id => exact ⟨nofun, nofun, nofun, fun _ => rfl, nofun⟩
  | deactivated id => exact ⟨nofun, nofun, nofun, fun _ => rfl, nofun⟩
  | moved id direction idx other hidx hother =>
    obtain ⟨hconfigs, hsetting, hevents⟩ :=
      renumber_configs (swapAt (listed seen.configs) idx other) now
    obtain ⟨hperm, hmoved⟩ := swapped hidx hother
    refine ⟨nofun, fun id' direction' hop _ => ?_, nofun, fun _ => hevents, nofun⟩
    obtain ⟨rfl, rfl⟩ := Operation.reorderChannel.inj hop
    rw [hconfigs, listed_renumbered h.unique.1 (hsame.configs ▸ hperm.trans (listed_perm _)),
      ← hsame.configs]
    exact hmoved
  | deleted id row => exact ⟨nofun, nofun, nofun, fun _ => rfl, nofun⟩
  | enabled => exact ⟨nofun, nofun, nofun, fun _ => rfl, nofun⟩
  | disabled => exact ⟨nofun, nofun, nofun, fun _ => rfl, nofun⟩
  | disabledDeactivated id => exact ⟨nofun, nofun, nofun, fun _ => rfl, nofun⟩
  | disabledDeleted id => exact ⟨nofun, nofun, nofun, fun _ => rfl, nofun⟩
  | observed _ o id health ho hop =>
    have hconfigs : (([.update id (fun c => c) health] : List Write).foldl Write.apply
        now).configs = now.configs := by
      rw [configs_foldl]
      exact edit_same id now.configs
    refine ⟨fun hfail => absurd (ho.symm.trans hfail) (by decide), fun _ _ hr => ?_,
      fun _ _ _ _ other hother => absurd hother (not_deactivated h hconfigs other),
      fun _ => rfl, fun _ _ => rfl⟩
    rw [hr] at hop
    cases hop
  | retired id errorClass at' row hrow hid hactive =>
    obtain ⟨hconfigs, hsetting, hevents⟩ := retire_writes row errorClass at' seen now
    subst hid
    have hmem : row.toChannelConfig ∈ now.configs := hsame.configs ▸ List.mem_map_of_mem hrow
    have hhappened := deactivated_of_edit hconfigs hmem rfl hactive
    refine ⟨nofun, nofun, fun id' errorClass' at'' hop other hother => ?_, fun hquiet => ?_,
      fun _ hnone => absurd hhappened (hnone _)⟩
    · obtain ⟨rfl, rfl, rfl⟩ := Operation.recordChannelHealthFailure.inj hop
      refine ⟨deactivated_edit h hconfigs hother, row.isPrivate, ?_⟩
      have hoff : turnsOff now ((retire row errorClass at' seen).writes.foldl Write.apply now) =
          isLastActive row.id seen := by
        rw [turnsOff, hsetting, isLastActive, hsame.setting]
        split_ifs with hlast
        · rw [Bool.and_eq_true] at hlast
          have hfalse : isTruthySettingValue (some "false") = false := by decide
          rw [hlast.1, hlast.2, hfalse]
          rfl
        · rw [Bool.not_eq_true] at hlast
          rw [hlast, Bool.and_not_self]
      rw [hevents, hoff]
      rfl
    · rcases hquiet with hquiet | hquiet
      · cases hquiet
      · exact absurd hhappened (hquiet _)

theorem commits_finish (h : Sound now) (hsame : SameConfig seen now) (op : Operation) :
    Commits op (finish op seen now).1 now (finish op seen now).2 := by
  rw [finish]
  split_ifs
  · exact commits_writes h hsame (planned seen op)
  · exact ⟨fun _ => rfl, fun _ _ _ hok => absurd (hok : true = false) Bool.noConfusion,
      fun _ _ _ _ other hother => absurd hother (not_deactivated h rfl other),
      fun _ => rfl, fun _ _ => rfl⟩

theorem sound_finish (h : Sound now) (hsame : SameConfig seen now) (op : Operation) :
    Sound (finish op seen now).2 := by
  rw [finish]
  split_ifs with hunique
  · exact sound_writes h hsame (planned seen op) hunique
  · exact h

/-- A validation stamp touches the health of one row only. -/
theorem validation_frame (db : Db) (id : String) (at' : ℤ) :
    SameConfig db ((recordValidationSuccess id at').apply db) where
  configs := by
    rw [configs_apply, recordValidationSuccess, Write.onConfigs, edit_same]
  setting := rfl

/-! ### Runs -/

/-- The tables are sound, and whoever holds the lock has read today's configuration. -/
structure Safe (s : System) : Prop where
  sound : Sound s.db
  read : ∀ op seen, s.holder = some (op, seen) → SameConfig seen s.db

theorem safe_start {s : System} (h : Start s) : Safe s where
  sound :=
    have hnone : s.db.configs = [] := by rw [Db.configs, h.channels, List.map_nil]
    { gated := fun hon => absurd (h.off.symm.trans hon) Bool.false_ne_true
      capped := by
        rw [hnone]
        exact Nat.zero_le _
      unique := by
        rw [hnone]
        exact ⟨List.nodup_nil, List.nodup_nil, List.nodup_nil⟩ }
  read := fun _ _ hholder => by
    rw [h.holder] at hholder
    cases hholder

theorem safe_step {s s' : System} {e : Event} (h : Safe s) (hstep : step s e = some s') :
    Safe s' := by
  cases e with
  | begin op =>
    rw [step] at hstep
    split at hstep
    · cases hstep
    · cases hstep
      refine ⟨h.sound, fun op' seen' hholder => ?_⟩
      cases hholder
      exact ⟨rfl, rfl⟩
  | commit =>
    rw [step] at hstep
    split at hstep
    · cases hstep
    · rename_i op seen hholder
      cases hstep
      refine ⟨sound_finish h.sound (h.read op seen hholder) op, fun _ _ hnone => ?_⟩
      cases hnone
  | abort =>
    cases hstep
    refine ⟨h.sound, fun _ _ hnone => ?_⟩
    cases hnone
  | recordValidationSuccess id at' =>
    cases hstep
    have hframe := validation_frame s.db id at'
    refine ⟨?_, fun op seen hholder => ?_⟩
    · exact h.sound.of_counts rfl (by rw [← hframe.configs]) (hframe.configs ▸ h.sound.unique)
    · have hread := h.read op seen hholder
      exact ⟨hread.configs.trans hframe.configs, hread.setting.trans hframe.setting⟩

theorem safe_of_reaches {s₀ s : System} (h₀ : Start s₀) (h : Reaches s₀ s) : Safe s := by
  induction h with
  | start => exact safe_start h₀
  | step _ hstep ih => exact safe_step ih hstep

/-- From an empty table with the switch off, in every run: while force join is enabled someone is
    active, at most ten are, and no chat or link is used twice; whatever transaction is open
    commits as `Commits` says; and a validation stamp changes no configuration. -/
theorem force_join_configuration {s₀ s : System} (h₀ : Start s₀) (h : Reaches s₀ s) :
    Sound s.db ∧
      (∀ op seen, s.holder = some (op, seen) →
        Commits op (finish op seen s.db).1 s.db (finish op seen s.db).2) ∧
      ∀ id at', SameConfig s.db ((recordValidationSuccess id at').apply s.db) ∧
        ((recordValidationSuccess id at').apply s.db).opsEvents = s.db.opsEvents := by
  have hsafe := safe_of_reaches h₀ h
  exact ⟨hsafe.sound, fun op seen hholder =>
    commits_finish hsafe.sound (hsafe.read op seen hholder) op,
    fun id at' => ⟨validation_frame s.db id at', rfl⟩⟩

/-- One channel, required, that fails five times within twelve minutes. -/
def failingRun : List Event :=
  [.begin (.createOrRebindChannel
      { chatId := -1001, title := "news", joinUrl := "https://t.me/news", normalizedLink := "news"
        isPrivate := false, publicUsername := some "news", createdByAdminId := none } "c1" 0),
    .commit, .begin .enableForceJoin, .commit,
    .begin (.recordChannelHealthFailure "c1" "BOT_NOT_ADMIN" 1000), .commit,
    .begin (.recordChannelHealthFailure "c1" "BOT_NOT_ADMIN" 180000), .commit,
    .begin (.recordChannelHealthFailure "c1" "BOT_NOT_ADMIN" 360000), .commit,
    .begin (.recordChannelHealthFailure "c1" "BOT_NOT_ADMIN" 540000), .commit,
    .begin (.recordChannelHealthFailure "c1" "BOT_NOT_ADMIN" 720000)]

def noChannels : System where
  db := { channels := [], setting := none, opsEvents := [] }
  holder := none

/-- The fifth failure retires the only channel while the switch is on. -/
theorem force_join_configuration_retires :
    ((exec noChannels failingRun).bind fun s => s.holder.map fun held =>
        (isTruthySettingValue s.db.setting, (finish held.1 held.2 s.db).1)) =
      some (true, .retired true) ∧
    ∀ s, exec noChannels failingRun = some s → Sound s.db ∧
      ∀ op seen, s.holder = some (op, seen) →
        Commits op (finish op seen s.db).1 s.db (finish op seen s.db).2 := by
  refine ⟨by decide +kernel, fun s hs => ?_⟩
  have hstart : Start noChannels := ⟨rfl, rfl, rfl⟩
  obtain ⟨hsound, hcommits, -⟩ :=
    force_join_configuration hstart (reaches_of_exec .start hs)
  exact ⟨hsound, hcommits⟩

end ZedBot.ForceJoin
