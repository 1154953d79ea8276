import ZedBot.Support.OutboxTruth

/-! # Who is to hear of an event

    Whoever stamps the intent took its snapshot of the administrators while it was unstamped, and
    the obligations are those administrators: none of them is missing and none is added later.

        snapshot (not stamped) ──▶ … ──▶ stamp, obligations ──▶ …  no other -/

namespace ZedBot.Support.Outbox

open Rows

variable {db db' : Db} {s₀ s t : System} {id adminId : ℕ} {task task' : Option Task}
  {entries : List Entry}

/-- The administrator has an obligation. -/
def Owed (db : Db) (id adminId : ℕ) : Prop :=
  ∃ r ∈ db.recipients, r.intentId = id ∧ r.adminId = adminId

theorem Owed.progress_iff (hp : Progress db db') (he : Expanded db id) :
    Owed db' id adminId ↔ Owed db id adminId := by
  constructor
  · rintro ⟨r', hr', rfl, rfl⟩
    obtain ⟨r, hr, hmove⟩ := hp.frozen r' hr' he
    exact ⟨r, hr, hmove.intent.symm, hmove.admin.symm⟩
  · rintro ⟨r, hr, rfl, rfl⟩
    obtain ⟨r', hr', hmove⟩ := hp.recipients r hr
    exact ⟨r', hr', hmove.intent, hmove.admin⟩

theorem mem_eligibleAdminIds : adminId ∈ eligibleAdminIds db ↔ isActive db adminId = true := by
  rw [eligibleAdminIds, List.mem_insertionSort, isActive, List.any_eq_true, List.mem_map]
  refine exists_congr fun a => ?_
  rw [List.mem_filter, decide_eq_true_iff, and_assoc]
  exact and_congr_right fun _ => and_comm

theorem expanded_of_updateWhere {cond : SupportNotificationIntent → Bool}
    {data : SupportNotificationIntent → SupportNotificationIntent}
    (h : Expanded { db with intents := updateWhere cond data db.intents } id)
    (hdata : ∀ i, (data i).id = i.id ∧ (data i).recipientsExpandedAt = i.recipientsExpandedAt) :
    Expanded db id := by
  obtain ⟨i', hi', hid, hexpanded⟩ := h
  obtain ⟨i, hi, rfl⟩ := mem_updateWhere.mp hi'
  refine ⟨i, hi, ?_⟩
  split_ifs at hid hexpanded
  · exact ⟨(hdata i).1.symm.trans hid, (hdata i).2 ▸ hexpanded⟩
  · exact ⟨hid, hexpanded⟩

theorem expanded_of_settleIntent {intentAttempts : ℕ} {counts : Counts} {now : Instant}
    {intentId : ℕ} (h : Expanded (settleIntent intentId intentAttempts counts now db) id) :
    Expanded db id := by
  rw [settleIntent] at h
  by_cases hpending : counts.pending ≠ 0
  · rw [if_pos hpending] at h
    exact expanded_of_updateWhere h fun _ => ⟨rfl, rfl⟩
  · rw [if_neg hpending] at h
    exact expanded_of_updateWhere h fun _ => ⟨rfl, rfl⟩

/-- Only the statement that freezes the recipients expands an intent. -/
theorem Acts.expands (h : Acts db task db' task' entries) (he : Expanded db' id) :
    Expanded db id ∨ ∃ i owned adminIds now, i.id = id ∧ db' = freeze i.id adminIds now db ∧
      task = some (.working i owned (.freezing adminIds)) := by
  cases h with
  | sweep | look | finish | next | reject | die => exact .inl he
  | claim | abandon => exact .inl (expanded_of_updateWhere he fun _ => ⟨rfl, rfl⟩)
  | settle => exact .inl (expanded_of_settleIntent he)
  | deliver i owned hdeliver =>
    cases hdeliver with
    | freeze adminIds now =>
      by_cases hid : i.id = id
      · exact .inr ⟨i, owned, adminIds, now, hid, rfl, rfl⟩
      · refine .inl ?_
        rw [freeze] at he
        split_ifs at he
        · exact he
        · obtain ⟨j', hj', hjid, hexpanded⟩ := he
          obtain ⟨j, hj, rfl⟩ := mem_updateWhere.mp hj'
          split_ifs at hjid hexpanded with hcond
          · exact absurd ((of_decide_eq_true hcond).1.symm.trans hjid) hid
          · exact ⟨j, hj, hjid, hexpanded⟩
    | _ => exact .inl he

/-- A snapshot is of the administrators as they are. -/
theorem Acts.snapshot {i : DeliverableIntent} {owned : List DeliverableIntent} {adminIds : List ℕ}
    (h : Acts db task db' (some (.working i owned (.freezing adminIds))) entries) :
    adminIds = eligibleAdminIds db := by
  cases h with
  | deliver i owned hdeliver =>
    cases hdeliver with
    | snapshot | retryFreeze => rfl

/-- Whom the stamp that was set first gives obligations. -/
theorem owed_freeze {adminIds : List ℕ} {now : Instant} (hdb : DbSound db)
    (he : Expanded (freeze id adminIds now db) id) (hnot : ¬ Expanded db id) :
    Owed (freeze id adminIds now db) id adminId ↔ adminId ∈ adminIds := by
  have hnone : ∀ r ∈ db.recipients, r.intentId ≠ id := fun r hr hid => hnot (hid ▸ hdb.owed r hr)
  rw [freeze] at he ⊢
  split_ifs at he ⊢
  · exact absurd he hnot
  · constructor
    · rintro ⟨r, hr, hid, rfl⟩
      rcases List.mem_append.mp hr with hr | hr
      · exact absurd hid (hnone r hr)
      · exact (mem_newRecipients hr).2.2
    · intro hmem
      refine ⟨{ intentId := id, adminId }, List.mem_append_right _ (List.mem_map.mpr
        ⟨adminId, List.mem_filter.mpr ⟨hmem, List.all_eq_true.mpr fun r hr => ?_⟩, rfl⟩), rfl, rfl⟩
      exact decide_eq_true fun hsame => hnone r hr hsame.1

/-- Where the recipients of an intent come from. -/
def FrozenAt (s₀ s : System) (id : ℕ) : Prop :=
  ∃ t, Reaches s₀ t ∧ Reaches t s ∧ ¬ Expanded t.db id ∧
    ∀ adminId, Owed s.db id adminId ↔ isActive t.db adminId = true

structure Frozen (s₀ s : System) : Prop where
  snapshots : ∀ w i owned adminIds, s.tasks w = some (.working i owned (.freezing adminIds)) →
    ∃ t, Reaches s₀ t ∧ Reaches t s ∧ adminIds = eligibleAdminIds t.db
  frozen : ∀ id, Expanded s.db id → FrozenAt s₀ s id

theorem FrozenAt.step {e : Event} (h : FrozenAt s₀ s id) (he : Expanded s.db id)
    (hp : Progress s.db t.db) (hs : step s e = some t) : FrozenAt s₀ t id := by
  obtain ⟨u, hu, hus, hnot, howed⟩ := h
  exact ⟨u, hu, hus.step hs, hnot, fun a => (Owed.progress_iff hp he).trans (howed a)⟩

/-- The tasks and the expanded intents, before and after a step. -/
theorem step_frozen {e : Event} (hs : step s e = some t) :
    (∀ w i owned adminIds, t.tasks w = some (.working i owned (.freezing adminIds)) →
      s.tasks w = some (.working i owned (.freezing adminIds)) ∨
        adminIds = eligibleAdminIds s.db) ∧
    ∀ id, Expanded t.db id → Expanded s.db id ∨ ∃ w i owned adminIds now, i.id = id ∧
      t.db = freeze id adminIds now s.db ∧
      s.tasks w = some (.working i owned (.freezing adminIds)) := by
  cases e with
  | record id ticketId messageId kind =>
    rw [step] at hs
    split_ifs at hs
    cases hs
    refine ⟨fun _ _ _ _ h => .inl h, fun id he => .inl ?_⟩
    obtain ⟨i, hi, hid, hexpanded⟩ := he
    rcases List.mem_append.mp hi with hi | hi
    · exact ⟨i, hi, hid, hexpanded⟩
    · rw [List.mem_singleton.mp hi] at hexpanded
      exact absurd rfl hexpanded
  | setActive | recoverRecipients =>
    cases hs
    exact ⟨fun _ _ _ _ h => .inl h, fun _ he => .inl he⟩
  | recoverIntents =>
    cases hs
    exact ⟨fun _ _ _ _ h => .inl h,
      fun _ he => .inl (expanded_of_updateWhere he fun _ => ⟨rfl, rfl⟩)⟩
  | act w a =>
    obtain ⟨⟨db', task', entries⟩, hact, rfl⟩ := Option.map_eq_some_iff.mp hs
    have hacts := acts_of_act hact
    refine ⟨fun w' i owned adminIds hw' => ?_, fun id he => ?_⟩
    · change Function.update s.tasks w task' w' = _ at hw'
      by_cases hw : w' = w
      · rw [hw, Function.update_self] at hw'
        exact .inr (hw' ▸ hacts).snapshot
      · rw [Function.update_of_ne hw] at hw'
        exact .inl hw'
    · refine (hacts.expands he).imp_right ?_
      rintro ⟨i, owned, adminIds, now, rfl, hdb, htask⟩
      exact ⟨w, i, owned, adminIds, now, rfl, hdb, htask⟩

theorem Frozen.step {e : Event} (h : Frozen s₀ s) (hstart : Start s₀) (hr : Reaches s₀ s)
    (hs : Outbox.step s e = some t) : Frozen s₀ t := by
  have hsound := hstart.sound.reaches hr
  have hp := (hsound.step hs).2
  obtain ⟨htasks, hexpands⟩ := step_frozen hs
  constructor
  · intro w i owned adminIds hw
    rcases htasks w i owned adminIds hw with hw | rfl
    · obtain ⟨u, hu, hus, hids⟩ := h.snapshots w i owned adminIds hw
      exact ⟨u, hu, hus.step hs, hids⟩
    · exact ⟨s, hr, .one hs, rfl⟩
  · intro id he
    by_cases hold : Expanded s.db id
    · exact (h.frozen id hold).step hold hp hs
    · obtain ⟨w, i, owned, adminIds, now, rfl, hdb, hw⟩ := (hexpands id he).resolve_left hold
      obtain ⟨u, hu, hus, rfl⟩ := h.snapshots w i owned adminIds hw
      have hpast : Progress u.db s.db := (hstart.sound.reaches hu).progress hus
      refine ⟨u, hu, hus.step hs, fun hue => hold (hue.progress hpast), fun a => ?_⟩
      rw [hdb] at he ⊢
      exact (owed_freeze hsound.db he hold).trans mem_eligibleAdminIds

theorem Frozen.reaches (hstart : Start s₀) (h : Reaches s₀ s) : Frozen s₀ s := by
  induction h with
  | start =>
    constructor
    · intro w i owned adminIds hw
      rw [hstart.tasks w] at hw
      cases hw
    · rintro id ⟨i, hi, -⟩
      rw [hstart.intents] at hi
      cases hi
  | step hr hs ih => exact ih.step hstart hr hs

/-- The obligations of an event are the administrators of one moment before it was stamped, and
    they are the same for ever. -/
theorem recipients_frozen_at_snapshot (hstart : Start s₀) (h : Reaches s₀ s) (h' : Reaches s t)
    (he : Expanded s.db id) :
    FrozenAt s₀ s id ∧ Expanded t.db id ∧
      ∀ adminId, Owed t.db id adminId ↔ Owed s.db id adminId := by
  have hp := (hstart.sound.reaches h).progress h'
  exact ⟨(Frozen.reaches hstart h).frozen id he, he.progress hp, fun a => Owed.progress_iff hp he⟩

theorem recipients_frozen_at_snapshot_told : ∃ s, Reaches twoAdmins s ∧ FrozenAt twoAdmins s 7 := by
  obtain ⟨s, hs, hintents, -⟩ := told
  have he : Expanded s.db 7 := ⟨toldIntent, hintents ▸ List.mem_singleton_self _, rfl, by decide⟩
  exact ⟨s, hs, (recipients_frozen_at_snapshot start_twoAdmins hs .start he).1⟩

end ZedBot.Support.Outbox
