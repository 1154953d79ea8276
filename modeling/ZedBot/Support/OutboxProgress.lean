import ZedBot.Support.OutboxWorkers

/-! # What a settled intent says

    An obligation that is over is never touched again, and once the recipients of an intent are
    frozen none is added. So what a worker counted is still true when it settles, and remains true.

        frozen, all over:  SENT + FAILED + SKIPPED = recipients      0 < SENT ⇒ SENT, else FAILED -/

namespace ZedBot.Support.Outbox

open Rows

variable {db db' db'' : Db} {s s' : System} {id adminId : ℕ} {i i' : SupportNotificationIntent}
  {r r' : SupportNotificationRecipient}

def Expanded (db : Db) (id : ℕ) : Prop :=
  ∃ i ∈ db.intents, i.id = id ∧ i.recipientsExpandedAt ≠ none

def AllTerminal (db : Db) (id : ℕ) : Prop :=
  ∀ r ∈ db.recipients, r.intentId = id → r.status.isTerminal = true

def isSettled : SupportNotificationStatus → Bool
  | .SENT | .FAILED => true
  | .PENDING | .SENDING => false

/-! ### What the statements leave -/

structure IntentMove (i i' : SupportNotificationIntent) : Prop where
  id : i'.id = i.id
  expanded : i.recipientsExpandedAt ≠ none → i'.recipientsExpandedAt = i.recipientsExpandedAt
  settled : isSettled i.status = true → i'.status = i.status ∧
    i'.deliveredCount = i.deliveredCount ∧ i'.safeErrorCode = i.safeErrorCode

structure RecipientMove (r r' : SupportNotificationRecipient) : Prop where
  intent : r'.intentId = r.intentId
  admin : r'.adminId = r.adminId
  attempts : r.attempts ≤ r'.attempts
  terminal : r.status.isTerminal = true → r' = r

theorem IntentMove.refl (i : SupportNotificationIntent) : IntentMove i i :=
  ⟨rfl, fun _ => rfl, fun _ => ⟨rfl, rfl, rfl⟩⟩

theorem RecipientMove.refl (r : SupportNotificationRecipient) : RecipientMove r r :=
  ⟨rfl, rfl, le_rfl, fun _ => rfl⟩

theorem IntentMove.trans (i i' i'' : SupportNotificationIntent) (h : IntentMove i i')
    (h' : IntentMove i' i'') : IntentMove i i'' where
  id := h'.id.trans h.id
  expanded := fun he => (h'.expanded (by rwa [h.expanded he])).trans (h.expanded he)
  settled := fun hs => by
    obtain ⟨hstatus, hcount, hcode⟩ := h.settled hs
    obtain ⟨hstatus', hcount', hcode'⟩ := h'.settled (by rwa [hstatus])
    exact ⟨hstatus'.trans hstatus, hcount'.trans hcount, hcode'.trans hcode⟩

theorem RecipientMove.trans (r r' r'' : SupportNotificationRecipient) (h : RecipientMove r r')
    (h' : RecipientMove r' r'') : RecipientMove r r'' where
  intent := h'.intent.trans h.intent
  admin := h'.admin.trans h.admin
  attempts := h.attempts.trans h'.attempts
  terminal := fun ht => (h'.terminal (by rwa [h.terminal ht])).trans (h.terminal ht)

/-- No row is lost, what is over stays as it is, and an expanded intent gets no new recipient. -/
structure Progress (db db' : Db) : Prop where
  intents : Moved IntentMove db.intents db'.intents
  recipients : Moved RecipientMove db.recipients db'.recipients
  frozen : ∀ r' ∈ db'.recipients, Expanded db r'.intentId → ∃ r ∈ db.recipients, RecipientMove r r'

theorem Expanded.progress (h : Expanded db id) (hp : Progress db db') : Expanded db' id := by
  obtain ⟨i, hi, rfl, hexpanded⟩ := h
  obtain ⟨i', hi', hmove⟩ := hp.intents i hi
  exact ⟨i', hi', hmove.id, by rwa [hmove.expanded hexpanded]⟩

theorem AllTerminal.progress (h : AllTerminal db id) (he : Expanded db id) (hp : Progress db db') :
    AllTerminal db' id := by
  rintro r' hr' rfl
  obtain ⟨r, hr, hmove⟩ := hp.frozen r' hr' he
  have hover := h r hr hmove.intent.symm
  rwa [hmove.terminal hover]

theorem Progress.refl (db : Db) : Progress db db where
  intents := .refl IntentMove.refl _
  recipients := .refl RecipientMove.refl _
  frozen := fun r hr _ => ⟨r, hr, .refl r⟩

theorem Progress.trans (h : Progress db db') (h' : Progress db' db'') : Progress db db'' where
  intents := h.intents.trans IntentMove.trans h'.intents
  recipients := h.recipients.trans RecipientMove.trans h'.recipients
  frozen := fun r'' hr'' he => by
    obtain ⟨r', hr', hmove'⟩ := h'.frozen r'' hr'' (he.progress h)
    obtain ⟨r, hr, hmove⟩ := h.frozen r' hr' (by rwa [← hmove'.intent])
    exact ⟨r, hr, hmove.trans _ _ _ hmove'⟩

theorem progress_intents {cond : SupportNotificationIntent → Bool}
    {data : SupportNotificationIntent → SupportNotificationIntent}
    (h : ∀ i, cond i = true → IntentMove i (data i)) :
    Progress db { db with intents := updateWhere cond data db.intents } where
  intents := .updateWhere IntentMove.refl fun i _ => h i
  recipients := .refl RecipientMove.refl _
  frozen := fun r hr _ => ⟨r, hr, .refl r⟩

theorem progress_recipients {cond : SupportNotificationRecipient → Bool}
    {data : SupportNotificationRecipient → SupportNotificationRecipient}
    (h : ∀ r, cond r = true → RecipientMove r (data r)) :
    Progress db { db with recipients := updateWhere cond data db.recipients } where
  intents := .refl IntentMove.refl _
  recipients := .updateWhere RecipientMove.refl fun r _ => h r
  frozen := fun r' hr' _ => by
    obtain ⟨r, hr, rfl⟩ := mem_updateWhere.mp hr'
    refine ⟨r, hr, ?_⟩
    split_ifs with hcond
    · exact h r hcond
    · exact .refl r

theorem mem_newRecipients {adminIds : List ℕ} (hr : r ∈ newRecipients id adminIds db) :
    r.intentId = id ∧ r.status = .PENDING ∧ r.adminId ∈ adminIds := by
  obtain ⟨a, ha, rfl⟩ := List.mem_map.mp hr
  exact ⟨rfl, rfl, (List.mem_filter.mp ha).1⟩

theorem progress_freeze {adminIds : List ℕ} {now : Instant}
    (hids : (db.intents.map SupportNotificationIntent.id).Nodup) :
    Progress db (freeze id adminIds now db) := by
  rw [freeze]
  split_ifs with hcount
  · exact .refl db
  · obtain ⟨i, hi, hcond⟩ := List.countP_pos_iff.mp (Nat.pos_of_ne_zero hcount)
    obtain ⟨hid, hnone⟩ := of_decide_eq_true hcond
    refine ⟨.updateWhere IntentMove.refl fun j _ hj =>
      ⟨rfl, fun he => ?_, fun _ => ⟨rfl, rfl, rfl⟩⟩, .append RecipientMove.refl _ _, fun r hr he => ?_⟩
    · exact absurd (of_decide_eq_true hj).2 he
    · rcases List.mem_append.mp hr with hr | hr
      · exact ⟨r, hr, .refl r⟩
      · obtain ⟨j, hj, hjid, hexpanded⟩ := he
        have hsame := eq_of_key hids hj hi (hjid.trans ((mem_newRecipients hr).1.trans hid.symm))
        exact absurd (hsame ▸ hnone) hexpanded

/-! ### Counting obligations that are over -/

def recipientKey (r : SupportNotificationRecipient) : ℕ × ℕ := (r.intentId, r.adminId)

theorem same_recipients (hp : Progress db db') (he : Expanded db id) (ha : AllTerminal db id)
    (hid : r.intentId = id) : r ∈ db'.recipients ↔ r ∈ db.recipients := by
  constructor
  · intro hr
    obtain ⟨r₀, hr₀, hmove⟩ := hp.frozen r hr (hid ▸ he)
    have hover := ha r₀ hr₀ (hmove.intent.symm.trans hid)
    rwa [hmove.terminal hover]
  · intro hr
    obtain ⟨r', hr', hmove⟩ := hp.recipients r hr
    rwa [hmove.terminal (ha r hr hid)] at hr'

theorem countStatus_progress (hkeys : (db.recipients.map recipientKey).Nodup)
    (hkeys' : (db'.recipients.map recipientKey).Nodup) (hp : Progress db db')
    (he : Expanded db id) (ha : AllTerminal db id) (status : SupportRecipientStatus) :
    countStatus id status db' = countStatus id status db := by
  rw [countStatus, countStatus, List.countP_eq_length_filter, List.countP_eq_length_filter]
  refine List.Perm.length_eq ((List.perm_ext_iff_of_nodup (hkeys'.of_map.filter _)
    (hkeys.of_map.filter _)).mpr fun r => ?_)
  rw [List.mem_filter, List.mem_filter]
  refine and_congr_left fun hcond => same_recipients hp he ha ?_
  exact (of_decide_eq_true hcond).1

theorem countRecipients_progress (hkeys : (db.recipients.map recipientKey).Nodup)
    (hkeys' : (db'.recipients.map recipientKey).Nodup) (hp : Progress db db')
    (he : Expanded db id) (ha : AllTerminal db id) :
    countRecipients id db' = countRecipients id db := by
  simp only [countRecipients, countStatus_progress hkeys hkeys' hp he ha]

theorem countStatus_eq_zero {status : SupportRecipientStatus} (h : countStatus id status db = 0)
    (hr : r ∈ db.recipients) (hid : r.intentId = id) : r.status ≠ status := by
  intro hstatus
  exact List.countP_eq_zero.mp h r hr (decide_eq_true ⟨hid, hstatus⟩)

theorem allTerminal_of_pending (h : (countRecipients id db).pending = 0) : AllTerminal db id := by
  intro r hr hid
  obtain ⟨hpending, hsending⟩ := Nat.add_eq_zero_iff.mp h
  have hp := countStatus_eq_zero hpending hr hid
  have hs := countStatus_eq_zero hsending hr hid
  cases hstatus : r.status with
  | PENDING => exact absurd hstatus hp
  | SENDING => exact absurd hstatus hs
  | SENT | FAILED | SKIPPED => rfl

/-! ### The invariant -/

/-- What a settled intent says of its obligations. -/
structure Delivered (db : Db) (i : SupportNotificationIntent) : Prop where
  expanded : Expanded db i.id
  ended : AllTerminal db i.id
  deliveredCount : i.deliveredCount = countStatus i.id .SENT db

def Settled (db : Db) (i : SupportNotificationIntent) : Prop :=
  match i.status with
  | .PENDING | .SENDING => True
  | .SENT => Delivered db i ∧
    (0 < i.deliveredCount ∨ ∀ r ∈ db.recipients, r.intentId ≠ i.id)
  | .FAILED => (Delivered db i ∧ i.deliveredCount = 0 ∧ ∃ r ∈ db.recipients, r.intentId = i.id) ∨
    i.safeErrorCode = some "unknown-kind" ∨ i.safeErrorCode = some "ticket-missing"

structure DbSound (db : Db) : Prop where
  intentIds : (db.intents.map SupportNotificationIntent.id).Nodup
  recipientKeys : (db.recipients.map recipientKey).Nodup
  adminIds : (db.admins.map Admin.id).Nodup
  owed : ∀ r ∈ db.recipients, Expanded db r.intentId
  settled : ∀ i ∈ db.intents, Settled db i

def Known (db : Db) (i : DeliverableIntent) : Prop :=
  i.id ∈ db.intents.map SupportNotificationIntent.id

def PhaseOk (db : Db) (id : ℕ) : Phase → Prop
  | .rendering => True
  | .freezing adminIds => adminIds.Nodup
  | .expanded | .picking _ _ | .sending _ | .answered _ _ _ => Expanded db id
  | .counted counts => Expanded db id ∧
    (counts.pending = 0 → AllTerminal db id ∧ counts = countRecipients id db)

def TaskOk (db : Db) : Task → Prop
  | .claiming seen owned => ∀ i ∈ seen ++ owned, Known db i
  | .working i owned phase => (∀ j ∈ i :: owned, Known db j) ∧ PhaseOk db i.id phase

structure Sound (s : System) : Prop where
  db : DbSound s.db
  tasks : ∀ w task, s.tasks w = some task → TaskOk s.db task

/-- What a statement keeps. -/
structure Kept (db db' : Db) : Prop where
  sound : DbSound db'
  progress : Progress db db'

theorem Known.progress {i : DeliverableIntent} (h : Known db i) (hp : Progress db db') :
    Known db' i := by
  obtain ⟨j, hj, hid⟩ := List.mem_map.mp h
  obtain ⟨j', hj', hmove⟩ := hp.intents j hj
  exact List.mem_map.mpr ⟨j', hj', hmove.id.trans hid⟩

theorem PhaseOk.progress {phase : Phase} (h : PhaseOk db id phase)
    (hkeys : (db.recipients.map recipientKey).Nodup)
    (hkeys' : (db'.recipients.map recipientKey).Nodup) (hp : Progress db db') :
    PhaseOk db' id phase := by
  cases phase with
  | rendering | freezing => exact h
  | expanded | picking | sending | answered => exact Expanded.progress h hp
  | counted counts =>
    refine ⟨h.1.progress hp, fun hpending => ?_⟩
    obtain ⟨hover, hcounts⟩ := h.2 hpending
    exact ⟨hover.progress h.1 hp,
      hcounts.trans (countRecipients_progress hkeys hkeys' hp h.1 hover).symm⟩

theorem TaskOk.kept {task : Task} (h : TaskOk db task) (hdb : DbSound db) (hk : Kept db db') :
    TaskOk db' task := by
  cases task with
  | claiming => exact fun i hi => (h i hi).progress hk.progress
  | working =>
    exact ⟨fun i hi => (h.1 i hi).progress hk.progress,
      h.2.progress hdb.recipientKeys hk.sound.recipientKeys hk.progress⟩

theorem Delivered.progress (h : Delivered db i)
    (hkeys : (db.recipients.map recipientKey).Nodup)
    (hkeys' : (db'.recipients.map recipientKey).Nodup) (hp : Progress db db') :
    Delivered db' i where
  expanded := h.expanded.progress hp
  ended := h.ended.progress h.expanded hp
  deliveredCount := h.deliveredCount.trans
    (countStatus_progress hkeys hkeys' hp h.expanded h.ended .SENT).symm

theorem Settled.progress (h : Settled db i) (hkeys : (db.recipients.map recipientKey).Nodup)
    (hkeys' : (db'.recipients.map recipientKey).Nodup) (hp : Progress db db') :
    Settled db' i := by
  unfold Settled at h ⊢
  split <;> rename_i hstatus <;> rw [hstatus] at h
  · trivial
  · trivial
  · refine ⟨h.1.progress hkeys hkeys' hp, h.2.imp_right fun hnone r' hr' hid => ?_⟩
    obtain ⟨r, hr, hmove⟩ := hp.frozen r' hr' (hid ▸ h.1.expanded)
    exact hnone r hr (hmove.intent.symm.trans hid)
  · refine h.imp_left fun hfailed => ?_
    obtain ⟨hdelivered, hcount, r, hr, hid⟩ := hfailed
    obtain ⟨r', hr', hmove⟩ := hp.recipients r hr
    exact ⟨hdelivered.progress hkeys hkeys' hp, hcount, r', hr', hmove.intent.trans hid⟩

theorem Kept.refl (h : DbSound db) : Kept db db := ⟨h, .refl db⟩

theorem kept_intents {cond : SupportNotificationIntent → Bool}
    {data : SupportNotificationIntent → SupportNotificationIntent} (hdb : DbSound db)
    (hmove : ∀ i, cond i = true → IntentMove i (data i)) (hid : ∀ i, (data i).id = i.id)
    (hsettled : ∀ i ∈ db.intents, cond i = true → Settled db (data i)) :
    Kept db { db with intents := updateWhere cond data db.intents } := by
  have hp : Progress db { db with intents := updateWhere cond data db.intents } :=
    progress_intents hmove
  refine ⟨⟨?_, hdb.recipientKeys, hdb.adminIds, fun r hr => (hdb.owed r hr).progress hp,
    fun i' hi' => ?_⟩, hp⟩
  · rw [keys_updateWhere hid]
    exact hdb.intentIds
  · refine Settled.progress ?_ hdb.recipientKeys hdb.recipientKeys hp
    obtain ⟨i, hi, rfl⟩ := mem_updateWhere.mp hi'
    split_ifs with hcond
    · exact hsettled i hi hcond
    · exact hdb.settled i hi

/-- What no statement on an obligation changes or lowers. -/
structure RecipientData (r r' : SupportNotificationRecipient) : Prop where
  intent : r'.intentId = r.intentId
  admin : r'.adminId = r.adminId
  attempts : r.attempts ≤ r'.attempts

theorem kept_recipients {cond : SupportNotificationRecipient → Bool}
    {data : SupportNotificationRecipient → SupportNotificationRecipient} (hdb : DbSound db)
    (hcond : ∀ r, cond r = true → r.status.isTerminal = false)
    (hdata : ∀ r, RecipientData r (data r)) :
    Kept db { db with recipients := updateWhere cond data db.recipients } := by
  have hp : Progress db { db with recipients := updateWhere cond data db.recipients } :=
    progress_recipients fun r hr =>
      ⟨(hdata r).intent, (hdata r).admin, (hdata r).attempts, fun hover => by
        rw [hcond r hr] at hover
        cases hover⟩
  have hkeys : ((updateWhere cond data db.recipients).map recipientKey).Nodup := by
    rw [keys_updateWhere fun r => Prod.ext (hdata r).intent (hdata r).admin]
    exact hdb.recipientKeys
  refine ⟨⟨hdb.intentIds, hkeys, hdb.adminIds, fun r' hr' => ?_, fun i hi =>
    (hdb.settled i hi).progress hdb.recipientKeys hkeys hp⟩, hp⟩
  obtain ⟨r, hr, rfl⟩ := mem_updateWhere.mp hr'
  have howed := hdb.owed r hr
  split_ifs
  · rw [(hdata r).intent]
    exact howed
  · exact howed

end ZedBot.Support.Outbox
