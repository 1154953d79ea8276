import ZedBot.ForceJoin.Channels
import Mathlib.Data.List.Perm.Basic

/-! # The configuration stays sound

    What a transaction plans is read off the configuration columns and the switch, which no one
    changes while it holds the lock; a row's health decides only whether a failure retires it.
    So the plan still fits the tables it is committed on: the guard that was read holds of the
    configuration that is written.

        enabled ⟹ something is active      active ≤ 10      ids, chats and links apart -/

namespace ZedBot.ForceJoin

variable {db seen now : Db} {configs : List ChannelConfig} {id : String}

/-! ### Counting active channels -/

theorem activeCount_split (id : String) (configs : List ChannelConfig) :
    activeCount configs =
      activeOthers id configs + configs.countP fun c => c.isActive && c.id == id := by
  induction configs with
  | nil => rfl
  | cons c configs ih =>
    rw [activeCount, activeOthers] at *
    rw [List.countP_cons, List.countP_cons, List.countP_cons, ih]
    by_cases hid : c.id = id <;> cases c.isActive <;> simp [hid] <;> omega

theorem countP_id_le (hnodup : (configs.map ChannelConfig.id).Nodup) (id : String) :
    (configs.countP fun c => c.id == id) ≤ 1 := by
  have hcount := List.nodup_iff_count_le_one.mp hnodup id
  rwa [List.count, List.countP_map] at hcount

theorem activeCount_le_others (hnodup : (configs.map ChannelConfig.id).Nodup) (id : String) :
    activeCount configs ≤ activeOthers id configs + 1 := by
  have hone := countP_id_le hnodup id
  have hmono : (configs.countP fun c => c.isActive && c.id == id) ≤
      configs.countP fun c => c.id == id :=
    List.countP_mono_left fun c _ h => (Bool.and_eq_true _ _ ▸ h).2
  rw [activeCount_split id configs]
  omega

/-- One row after an edit. -/
def edit (id : String) (config : ChannelConfig → ChannelConfig) (configs : List ChannelConfig) :
    List ChannelConfig :=
  configs.map fun c => if c.id = id then config c else c

theorem edit_same (id : String) (configs : List ChannelConfig) :
    edit id (fun c => c) configs = configs := by
  rw [edit]
  exact (List.map_congr_left fun c _ => ite_self c).trans (List.map_id _)

theorem activeCount_edit {config : ChannelConfig → ChannelConfig}
    (hactive : ∀ c, (config c).isActive = c.isActive) :
    activeCount (edit id config configs) = activeCount configs := by
  rw [edit, activeCount, activeCount, List.countP_map]
  refine List.countP_congr fun c _ => ?_
  rw [Function.comp_apply]
  split_ifs
  · rw [hactive]
  · rfl

theorem activeCount_deactivate :
    activeCount (edit id (setActive false) configs) = activeOthers id configs := by
  rw [edit, activeCount, activeOthers, List.countP_map]
  refine List.countP_congr fun c _ => ?_
  rw [Function.comp_apply]
  split_ifs with hid <;> simp [setActive, hid]

theorem activeCount_delete :
    activeCount (configs.filter fun c => c.id != id) = activeOthers id configs := by
  rw [activeCount, activeOthers, List.countP_filter]

theorem activeCount_activate :
    activeCount (edit id (setActive true) configs) =
      activeOthers id configs + configs.countP fun c => c.id == id := by
  induction configs with
  | nil => rfl
  | cons c configs ih =>
    rw [edit, activeCount, activeOthers] at *
    rw [List.map_cons, List.countP_cons, List.countP_cons, List.countP_cons, ih]
    by_cases hid : c.id = id <;> simp [setActive, hid] <;> omega

/-! ### What an operation plans -/

def Operation.isReorder : Operation → Bool
  | .reorderChannel _ _ => true
  | _ => false

def Operation.isHealthFailure : Operation → Bool
  | .recordChannelHealthFailure _ _ _ => true
  | _ => false

/-- The plans there are, each with the guard that was read before it. -/
inductive Planned (seen : Db) : Operation → Plan → Prop
  | nothing (op : Operation) (o : Outcome) (ho : o.isFailure = true ∨ op.isReorder = false) :
      Planned seen op (.nothing o)
  | rebound (op : Operation) (o : Outcome) (id : String) (identity : ChannelIdentity) (at' : ℤ)
      (ho : o.isFailure = false) (hop : op.isReorder = false)
      (hhealth : op.isHealthFailure = false) :
      Planned seen op ⟨o, [.update id identity.written (validated at')]⟩
  | created (input : ChannelUpsertInput) (id : String) (at' : ℤ) (row : ForceJoinChannel)
      (hactive : row.isActive = true → activeCount seen.configs < MAX_ACTIVE_FORCE_JOIN_CHANNELS) :
      Planned seen (.createOrRebindChannel input id at')
        ⟨.upserted true row.isActive, [.create row]⟩
  | activated (id : String)
      (hcap : activeCount seen.configs < MAX_ACTIVE_FORCE_JOIN_CHANNELS) :
      Planned seen (.setChannelActive id true) ⟨.ok, [updateConfig id (setActive true)]⟩
  | deactivated (id : String)
      (hguard : isTruthySettingValue seen.setting = true → 1 < activeCount seen.configs) :
      Planned seen (.setChannelActive id false) ⟨.ok, [updateConfig id (setActive false)]⟩
  | moved (id : String) (direction : Direction) (idx other : ℕ)
      (hidx : (listed seen.configs).findIdx? (fun c => c.id == id) = some idx)
      (hother : swapWith direction idx (listed seen.configs).length = some other) :
      Planned seen (.reorderChannel id direction)
        ⟨.ok, renumber (swapAt (listed seen.configs) idx other)⟩
  | deleted (id : String) (row : ForceJoinChannel) (hrow : row ∈ seen.channels) (hid : row.id = id)
      (hguard : row.isActive = true → isTruthySettingValue seen.setting = true →
        1 < activeCount seen.configs) :
      Planned seen (.deleteChannel id) ⟨.ok, [.delete id]⟩
  | enabled (hsome : activeCount seen.configs ≠ 0) :
      Planned seen .enableForceJoin ⟨.ok, [.upsertSetting "true"]⟩
  | disabled : Planned seen .disableForceJoin ⟨.ok, [.upsertSetting "false"]⟩
  | disabledDeactivated (id : String) :
      Planned seen (.disableForceJoinAndDeactivate id)
        ⟨.ok, [.upsertSetting "false", updateConfig id (setActive false)]⟩
  | disabledDeleted (id : String) :
      Planned seen (.disableForceJoinAndDelete id) ⟨.ok, [.upsertSetting "false", .delete id]⟩
  | observed (op : Operation) (o : Outcome) (id : String)
      (health : ForceJoinChannel → ChannelHealth)
      (ho : o.isFailure = false) (hop : op.isReorder = false) :
      Planned seen op ⟨o, [.update id (fun c => c) health]⟩
  | retired (id errorClass : String) (at' : ℤ) (row : ForceJoinChannel) (hrow : row ∈ seen.channels)
      (hid : row.id = id) (hactive : row.isActive = true) :
      Planned seen (.recordChannelHealthFailure id errorClass at') (retire row errorClass at' seen)

theorem mem_of_findUnique {row : ForceJoinChannel} (h : findUnique db id = some row) :
    row ∈ db.channels ∧ row.id = id :=
  ⟨List.mem_of_find?_eq_some h, by simpa using List.find?_some h⟩

theorem planned_create (input : ChannelUpsertInput) (id : String) (at' : ℤ) :
    Planned seen (.createOrRebindChannel input id at')
      (createOrRebindChannel input id at' seen) := by
  rw [createOrRebindChannel]
  split
  · exact .rebound _ _ _ _ _ rfl rfl rfl
  · exact .created input id at' _ of_decide_eq_true

theorem planned_rebind (id : String) (identity : ChannelIdentity) (at' : ℤ) :
    Planned seen (.rebindChannelIdentity id identity at')
      (rebindChannelIdentity id identity at' seen) := by
  rw [rebindChannelIdentity]
  split
  · exact .nothing _ _ (.inl rfl)
  · split_ifs
    · exact .nothing _ _ (.inl rfl)
    · exact .nothing _ _ (.inl rfl)
    · exact .rebound _ _ _ _ _ rfl rfl rfl

theorem planned_setActive (id : String) (active : Bool) :
    Planned seen (.setChannelActive id active) (setChannelActive id active seen) := by
  rw [setChannelActive]
  split
  · exact .nothing _ _ (.inl rfl)
  · split_ifs with hsame hactive hcap hguard
    · exact .nothing _ _ (.inr rfl)
    · exact .nothing _ _ (.inl rfl)
    · subst hactive
      exact .activated id (Nat.lt_of_not_le hcap)
    · exact .nothing _ _ (.inl rfl)
    · rw [Bool.not_eq_true] at hactive
      subst hactive
      exact .deactivated id fun hon => Nat.lt_of_not_le fun hle => hguard ⟨hon, hle⟩

theorem planned_reorder (id : String) (direction : Direction) :
    Planned seen (.reorderChannel id direction) (reorderChannel id direction seen) := by
  rw [reorderChannel]
  split
  · exact .nothing _ _ (.inl rfl)
  · rename_i idx hidx
    split
    · exact .nothing _ _ (.inl rfl)
    · rename_i other hother
      exact .moved id direction idx other hidx hother

theorem planned_delete (id : String) :
    Planned seen (.deleteChannel id) (deleteChannel id seen) := by
  rw [deleteChannel]
  split
  · exact .nothing _ _ (.inl rfl)
  · rename_i row hrow
    split_ifs with hguard
    · exact .nothing _ _ (.inl rfl)
    · obtain ⟨hmem, hid⟩ := mem_of_findUnique hrow
      exact .deleted id row hmem hid fun hactive hon =>
        Nat.lt_of_not_le fun hle => hguard ⟨hactive, hon, hle⟩

theorem planned_failure (id errorClass : String) (at' : ℤ) :
    Planned seen (.recordChannelHealthFailure id errorClass at')
      (recordChannelHealthFailure id errorClass at' seen) := by
  rw [recordChannelHealthFailure]
  split
  · exact .nothing _ _ (.inr rfl)
  · rename_i row hrow
    obtain ⟨hmem, hid⟩ := mem_of_findUnique hrow
    split_ifs with hactive
    · exact .nothing _ _ (.inr rfl)
    · exact .nothing _ _ (.inr rfl)
    · rw [Bool.not_eq_false] at hactive
      exact .retired id errorClass at' row hmem hid hactive
    · exact .observed _ _ _ _ rfl rfl

/-- Every plan is one of these. -/
theorem planned (seen : Db) (op : Operation) : Planned seen op (plan seen op) := by
  cases op with
  | createOrRebindChannel input id at' => exact planned_create input id at'
  | rebindChannelIdentity id identity at' => exact planned_rebind id identity at'
  | setChannelActive id active => exact planned_setActive id active
  | reorderChannel id direction => exact planned_reorder id direction
  | deleteChannel id => exact planned_delete id
  | enableForceJoin =>
    rw [plan, enableForceJoin]
    split_ifs with hnone
    · exact .nothing _ _ (.inl rfl)
    · exact .enabled hnone
  | disableForceJoin => exact .disabled
  | disableForceJoinAndDeactivate id =>
    rw [plan, disableForceJoinAndDeactivate]
    split
    · exact .nothing _ _ (.inl rfl)
    · exact .disabledDeactivated id
  | disableForceJoinAndDelete id =>
    rw [plan, disableForceJoinAndDelete]
    split
    · exact .nothing _ _ (.inl rfl)
    · exact .disabledDeleted id
  | recordChannelHealthFailure id errorClass at' => exact planned_failure id errorClass at'
  | recordChannelHealthSuccess id => exact .observed _ _ _ _ rfl rfl

/-! ### What the writes do -/

/-- A write as the configuration columns see it. -/
def Write.onConfigs (configs : List ChannelConfig) : Write → List ChannelConfig
  | .create row => configs ++ [row.toChannelConfig]
  | .update id config _ => edit id config configs
  | .delete id => configs.filter fun c => c.id != id
  | .upsertSetting _ => configs
  | .opsEvent _ => configs

theorem configs_apply (db : Db) (w : Write) : (w.apply db).configs = w.onConfigs db.configs := by
  cases w with
  | create row => simp [Write.apply, Db.configs, Write.onConfigs]
  | update id config health =>
    simp only [Write.apply, Db.configs, Write.onConfigs, edit, List.map_map]
    refine List.map_congr_left fun row _ => ?_
    rw [Function.comp_apply, Function.comp_apply]
    split_ifs <;> rfl
  | delete id =>
    simp only [Write.apply, Db.configs, Write.onConfigs, List.filter_map]
    rfl
  | upsertSetting value => rfl
  | opsEvent event => rfl

theorem configs_foldl (ws : List Write) (db : Db) :
    (ws.foldl Write.apply db).configs = ws.foldl Write.onConfigs db.configs := by
  induction ws generalizing db with
  | nil => rfl
  | cons w ws ih => rw [List.foldl_cons, List.foldl_cons, ih, configs_apply]

/-- The renumbering writes, on one row. -/
def placed (pairs : List (ChannelConfig × ℕ)) (c : ChannelConfig) : ChannelConfig :=
  pairs.foldl (fun c p => if c.id = p.1.id then setSortOrder p.2 c else c) c

theorem placed_id (pairs : List (ChannelConfig × ℕ)) (c : ChannelConfig) :
    (placed pairs c).id = c.id ∧ (placed pairs c).isActive = c.isActive := by
  induction pairs generalizing c with
  | nil => exact ⟨rfl, rfl⟩
  | cons p pairs ih =>
    obtain ⟨hid, hactive⟩ := ih (if c.id = p.1.id then setSortOrder p.2 c else c)
    rw [placed, List.foldl_cons, ← placed, hid, hactive]
    split_ifs <;> exact ⟨rfl, rfl⟩

/-- The pairs of a row and its place that a renumbering writes. -/
def misplaced (reordered : List ChannelConfig) (from' : ℕ) : List (ChannelConfig × ℕ) :=
  (reordered.zipIdx from').filter fun p => p.1.sortOrder ≠ p.2

theorem foldl_updates (pairs : List (ChannelConfig × ℕ)) (db : Db) :
    let after := (pairs.map fun p =>
      updateConfig p.1.id (setSortOrder p.2)).foldl Write.apply db
    after.configs = db.configs.map (placed pairs) ∧ after.setting = db.setting ∧
      after.opsEvents = db.opsEvents := by
  induction pairs generalizing db with
  | nil => exact ⟨(List.map_id _).symm, rfl, rfl⟩
  | cons p pairs ih =>
    rw [List.map_cons, List.foldl_cons]
    obtain ⟨hconfigs, hsetting, hevents⟩ := ih ((updateConfig p.1.id (setSortOrder p.2)).apply db)
    refine ⟨?_, hsetting, hevents⟩
    rw [hconfigs, configs_apply, updateConfig, Write.onConfigs, edit, List.map_map]
    rfl

theorem renumber_configs (reordered : List ChannelConfig) (db : Db) :
    let after := (renumber reordered).foldl Write.apply db
    after.configs = db.configs.map (placed (misplaced reordered 0)) ∧
      after.setting = db.setting ∧ after.opsEvents = db.opsEvents :=
  foldl_updates (misplaced reordered 0) db

/-- Whether a retirement would turn the switch off. -/
def isLastActive (id : String) (db : Db) : Bool :=
  isTruthySettingValue db.setting && activeOthers id db.configs == 0

/-- A retirement deactivates its row, turns the switch off with the last one, and says so. -/
theorem retire_writes (row : ForceJoinChannel) (errorClass : String) (at' : ℤ) (seen now : Db) :
    let after := (retire row errorClass at' seen).writes.foldl Write.apply now
    after.configs = edit row.id (setActive false) now.configs ∧
      after.setting = (if isLastActive row.id seen then some "false" else now.setting) ∧
      after.opsEvents = now.opsEvents ++
        .channelRetired row.id row.isPrivate errorClass (isLastActive row.id seen) ::
          if isLastActive row.id seen then [.autoDisabled row.id] else [] := by
  rw [retire, ← isLastActive]
  cases isLastActive row.id seen with
  | false =>
    refine ⟨?_, rfl, rfl⟩
    rw [configs_foldl]
    rfl
  | true =>
    refine ⟨?_, rfl, ?_⟩
    · rw [configs_foldl]
      rfl
    · exact List.append_assoc _ _ _

/-! ### The invariant -/

/-- Someone can always pass the gate, the cap holds, and no key is used twice. -/
structure Sound (db : Db) : Prop where
  gated : isTruthySettingValue db.setting = true → 0 < activeCount db.configs
  capped : activeCount db.configs ≤ MAX_ACTIVE_FORCE_JOIN_CHANNELS
  unique : UniqueKeys db.configs

/-- The configuration that was read is still there. -/
structure SameConfig (seen now : Db) : Prop where
  configs : seen.configs = now.configs
  setting : seen.setting = now.setting

theorem off_false : ¬ isTruthySettingValue (some "false") = true := by decide

theorem Sound.of_counts {after : Db} (h : Sound db) (hsetting : after.setting = db.setting)
    (hcount : activeCount after.configs = activeCount db.configs)
    (hunique : UniqueKeys after.configs) : Sound after where
  gated := fun hon => hcount ▸ h.gated (hsetting ▸ hon)
  capped := hcount ▸ h.capped
  unique := hunique

/-- A guard that more than one channel was active leaves one. -/
theorem others_pos (h : Sound db) (hguard : 1 < activeCount db.configs) (id : String) :
    0 < activeOthers id db.configs := by
  have hle := activeCount_le_others h.unique.1 id
  omega

theorem others_le (id : String) (configs : List ChannelConfig) :
    activeOthers id configs ≤ activeCount configs := by
  rw [activeCount_split id configs]
  exact Nat.le_add_right _ _

/-- An inactive row counts for nothing. -/
theorem others_of_inactive (h : Sound db) {c : ChannelConfig} (hc : c ∈ db.configs)
    (hactive : c.isActive = false) : activeOthers c.id db.configs = activeCount db.configs := by
  have hnone : (db.configs.countP fun d => d.isActive && d.id == c.id) = 0 := by
    rw [List.countP_eq_zero]
    intro d hd hboth
    rw [Bool.and_eq_true, beq_iff_eq] at hboth
    obtain rfl := List.inj_on_of_nodup_map h.unique.1 hd hc hboth.2
    rw [hboth.1] at hactive
    cases hactive
  rw [activeCount_split c.id db.configs, hnone, Nat.add_zero]

/-- The writes of a plan keep the invariant, when no unique column refuses them. -/
theorem sound_writes {op : Operation} {p : Plan} (h : Sound now) (hsame : SameConfig seen now)
    (hplanned : Planned seen op p)
    (hunique : UniqueKeys (p.writes.foldl Write.apply now).configs) :
    Sound (p.writes.foldl Write.apply now) := by
  have hseen : activeCount seen.configs = activeCount now.configs := by rw [hsame.configs]
  cases hplanned with
  | nothing => exact h
  | rebound _ o id identity at' =>
    exact h.of_counts rfl (by
      rw [configs_foldl]
      exact activeCount_edit fun _ => rfl) hunique
  | created input id at' row hactive =>
    have hcount : activeCount (([.create row] : List Write).foldl Write.apply now).configs =
        activeCount now.configs + if row.isActive then 1 else 0 := by
      rw [configs_foldl]
      change activeCount (now.configs ++ [row.toChannelConfig]) = _
      rw [activeCount, List.countP_append, List.countP_singleton]
      rfl
    refine ⟨fun hon => ?_, ?_, hunique⟩ <;> rw [hcount]
    · exact Nat.lt_of_lt_of_le (h.gated hon) (Nat.le_add_right _ _)
    · split_ifs with hon
      · exact hseen ▸ hactive hon
      · exact h.capped
  | activated id hcap =>
    have hcount : activeCount (([updateConfig id (setActive true)]).foldl Write.apply now).configs =
        activeOthers id now.configs + now.configs.countP fun c => c.id == id := by
      rw [configs_foldl]
      exact activeCount_activate
    refine ⟨fun hon => ?_, ?_, hunique⟩ <;> rw [hcount]
    · have hpos := h.gated hon
      have hmono : (now.configs.countP fun c => c.isActive && c.id == id) ≤
          now.configs.countP fun c => c.id == id :=
        List.countP_mono_left fun c _ h => (Bool.and_eq_true _ _ ▸ h).2
      rw [activeCount_split id] at hpos
      omega
    · have hone := countP_id_le h.unique.1 id
      have hle := others_le id now.configs
      rw [hseen] at hcap
      omega
  | deactivated id hguard =>
    have hcount : activeCount (([updateConfig id (setActive false)]).foldl Write.apply
        now).configs = activeOthers id now.configs := by
      rw [configs_foldl]
      exact activeCount_deactivate
    refine ⟨fun hon => ?_, ?_, hunique⟩ <;> rw [hcount]
    · exact others_pos h (hseen ▸ hguard (hsame.setting ▸ hon)) id
    · exact (others_le id _).trans h.capped
  | moved id direction idx other =>
    obtain ⟨hconfigs, hsetting, -⟩ :=
      renumber_configs (swapAt (listed seen.configs) idx other) now
    refine h.of_counts hsetting ?_ hunique
    rw [hconfigs, activeCount, activeCount, List.countP_map]
    exact List.countP_congr fun c _ => by rw [Function.comp_apply, (placed_id _ c).2]
  | deleted id row hrow hid hguard =>
    have hcount : activeCount (([.delete id] : List Write).foldl Write.apply now).configs =
        activeOthers id now.configs := by
      rw [configs_foldl]
      exact activeCount_delete
    refine ⟨fun hon => ?_, ?_, hunique⟩ <;> rw [hcount]
    · have hmem : row.toChannelConfig ∈ now.configs :=
        hsame.configs ▸ List.mem_map_of_mem hrow
      cases hactive : row.isActive with
      | false => exact hid ▸ others_of_inactive h hmem hactive ▸ h.gated hon
      | true => exact others_pos h (hseen ▸ hguard hactive (hsame.setting ▸ hon)) id
    · exact (others_le id _).trans h.capped
  | enabled hsome =>
    exact ⟨fun _ => hseen ▸ Nat.pos_of_ne_zero hsome, h.capped, h.unique⟩
  | disabled => exact ⟨fun hon => absurd hon off_false, h.capped, h.unique⟩
  | disabledDeactivated id =>
    refine ⟨fun hon => absurd hon off_false, ?_, hunique⟩
    rw [configs_foldl]
    have hcount : activeCount (edit id (setActive false) now.configs) =
        activeOthers id now.configs := activeCount_deactivate
    exact hcount.trans_le ((others_le id _).trans h.capped)
  | disabledDeleted id =>
    refine ⟨fun hon => absurd hon off_false, ?_, hunique⟩
    rw [configs_foldl]
    have hcount : activeCount (now.configs.filter fun c => c.id != id) =
        activeOthers id now.configs := activeCount_delete
    exact hcount.trans_le ((others_le id _).trans h.capped)
  | observed _ o id health =>
    exact h.of_counts rfl (by
      rw [configs_foldl]
      exact activeCount_edit fun _ => rfl) hunique
  | retired id errorClass at' row hrow hid hactive =>
    obtain ⟨hconfigs, hsetting, -⟩ := retire_writes row errorClass at' seen now
    have hcount : activeCount ((retire row errorClass at' seen).writes.foldl Write.apply
        now).configs = activeOthers row.id now.configs := by
      rw [hconfigs]
      exact activeCount_deactivate
    refine ⟨fun hon => ?_, ?_, hunique⟩ <;> rw [hcount]
    · rw [hsetting] at hon
      split_ifs at hon with hoff
      · exact absurd hon off_false
      · rw [isLastActive, Bool.and_eq_true, beq_iff_eq, not_and, hsame.setting,
          hsame.configs] at hoff
        exact Nat.pos_of_ne_zero (hoff hon)
    · exact (others_le _ _).trans h.capped

end ZedBot.ForceJoin
