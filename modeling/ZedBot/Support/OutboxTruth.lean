import ZedBot.Support.OutboxProgress

/-! # A settled intent tells the truth

    Every statement keeps the invariant, and so does every step of every worker. What a worker
    counted is still true when it settles, and what is settled stays. -/

namespace ZedBot.Support.Outbox

open Rows

variable {db db' : Db} {s s' t : System} {id intentId adminId : ℕ}

/-! ### The statements on intents -/

theorem kept_claimIntent (hdb : DbSound db) (now : Instant) :
    Kept db (claimIntent id now db) := by
  refine kept_intents hdb (fun i hi => ⟨rfl, fun _ => rfl, fun hs => ?_⟩) (fun _ => rfl)
    fun i _ _ => trivial
  rw [(of_decide_eq_true hi).2] at hs
  cases hs

theorem move_held {i : SupportNotificationIntent} (hi : held id i = true)
    (i' : SupportNotificationIntent) (hid : i'.id = i.id)
    (hexpanded : i'.recipientsExpandedAt = i.recipientsExpandedAt) : IntentMove i i' := by
  refine ⟨hid, fun _ => hexpanded, fun hs => ?_⟩
  rw [(of_decide_eq_true hi).2] at hs
  cases hs

theorem kept_abandonIntent (hdb : DbSound db) {code : String}
    (hcode : code = "unknown-kind" ∨ code = "ticket-missing") (now : Instant) :
    Kept db (abandonIntent id code now db) := by
  refine kept_intents hdb (fun i hi => move_held hi _ rfl rfl) (fun _ => rfl) fun i _ _ => ?_
  exact .inr (hcode.imp (congrArg some) (congrArg some))

/-- When all are over, at least one was reached exactly when the intent is called sent. -/
theorem kept_settleIntent (hdb : DbSound db) (intentAttempts : ℕ) {counts : Counts}
    (hphase : PhaseOk db id (.counted counts)) (now : Instant) :
    Kept db (settleIntent id intentAttempts counts now db) := by
  rw [settleIntent]
  by_cases hpending : counts.pending = 0
  · rw [if_neg (not_not_intro hpending)]
    obtain ⟨hover, hcounts⟩ := hphase.2 hpending
    refine kept_intents hdb (fun i hi => move_held hi _ rfl rfl) (fun _ => rfl) fun i _ hi => ?_
    obtain ⟨hid, -⟩ := of_decide_eq_true hi
    have hdelivered : ∀ i' : SupportNotificationIntent, i'.id = i.id →
        i'.deliveredCount = counts.sent → Delivered db i' := by
      intro i' hid' hcount
      refine ⟨hid'.trans hid ▸ hphase.1, hid'.trans hid ▸ hover, ?_⟩
      rw [hcount, hid'.trans hid, hcounts]
      rfl
    by_cases hreached : 0 < counts.sent ∨ counts.sent + counts.failed + counts.skipped = 0
    · simp only [Settled, hreached, decide_true, if_true]
      refine ⟨hdelivered _ rfl rfl, hreached.imp_right fun hnone r hr hrid => ?_⟩
      have hr' := hover r hr (hrid.trans hid)
      have hsum : counts.sent = 0 ∧ counts.failed = 0 ∧ counts.skipped = 0 := by omega
      rw [hcounts] at hsum
      cases hstatus : r.status with
      | PENDING | SENDING =>
        rw [hstatus] at hr'
        cases hr'
      | SENT => exact countStatus_eq_zero hsum.1 hr (hrid.trans hid) hstatus
      | FAILED => exact countStatus_eq_zero hsum.2.1 hr (hrid.trans hid) hstatus
      | SKIPPED => exact countStatus_eq_zero hsum.2.2 hr (hrid.trans hid) hstatus
    · simp only [Settled, hreached, decide_false, Bool.false_eq_true, if_false]
      have hsent : counts.sent = 0 := by omega
      refine .inl ⟨hdelivered _ rfl rfl, hsent, ?_⟩
      have hsome : 0 < counts.failed ∨ 0 < counts.skipped := by omega
      rw [hcounts] at hsome
      rcases hsome with hsome | hsome <;>
      · obtain ⟨r, hr, hcond⟩ := List.countP_pos_iff.mp hsome
        exact ⟨r, hr, (of_decide_eq_true hcond).1.trans hid.symm⟩
  · rw [if_pos hpending]
    exact kept_intents hdb (fun i hi => move_held hi _ rfl rfl) (fun _ => rfl)
      fun i _ _ => trivial

theorem kept_recoverIntents (hdb : DbSound db) (ticketIds : Option (List ℕ)) (now : Instant) :
    Kept db (recoverIntents ticketIds now db) := by
  refine kept_intents hdb (fun i hi => ⟨rfl, fun _ => rfl, fun hs => ?_⟩) (fun _ => rfl)
    fun i _ _ => trivial
  rw [(of_decide_eq_true hi).1] at hs
  cases hs

theorem kept_record (hdb : DbSound db) {ticketId messageId : ℕ} {kind : String}
    (hnew : id ∉ db.intents.map SupportNotificationIntent.id) :
    Kept db { db with intents := db.intents ++ [{ id, ticketId, messageId, kind }] } := by
  have hp : Progress db
      { db with intents := db.intents ++ [{ id, ticketId, messageId, kind }] } :=
    ⟨.append IntentMove.refl _ _, .refl RecipientMove.refl _, fun r hr _ => ⟨r, hr, .refl r⟩⟩
  refine ⟨⟨?_, hdb.recipientKeys, hdb.adminIds, fun r hr => (hdb.owed r hr).progress hp,
    fun i hi => Settled.progress ?_ hdb.recipientKeys hdb.recipientKeys hp⟩, hp⟩
  · rw [List.map_append, List.nodup_append]
    refine ⟨hdb.intentIds, List.nodup_singleton _, fun a ha b hb => ?_⟩
    have hid : b = id := List.mem_singleton.mp hb
    rintro rfl
    exact hnew (hid ▸ ha)
  · rcases List.mem_append.mp hi with hi | hi
    · exact hdb.settled i hi
    · rw [List.mem_singleton.mp hi]
      trivial

theorem kept_setActive (hdb : DbSound db) (isActive : Bool) :
    Kept db { db with
      admins := db.admins.filter (fun a => a.id ≠ adminId) ++ [⟨adminId, isActive⟩] } := by
  have hp : Progress db { db with
      admins := db.admins.filter (fun a => a.id ≠ adminId) ++ [⟨adminId, isActive⟩] } :=
    ⟨.refl IntentMove.refl _, .refl RecipientMove.refl _, fun r hr _ => ⟨r, hr, .refl r⟩⟩
  refine ⟨⟨hdb.intentIds, hdb.recipientKeys, ?_, hdb.owed, fun i hi =>
    (hdb.settled i hi).progress hdb.recipientKeys hdb.recipientKeys hp⟩, hp⟩
  rw [List.map_append, List.nodup_append]
  refine ⟨(hdb.adminIds.sublist (List.filter_sublist.map _)), List.nodup_singleton _,
    fun a ha b hb => ?_⟩
  rintro rfl
  obtain ⟨admin, hadmin, hid⟩ := List.mem_map.mp ha
  have hne := of_decide_eq_true (List.mem_filter.mp hadmin).2
  exact hne (hid.trans (List.mem_singleton.mp hb))

/-! ### The statements on obligations -/

theorem kept_updateRecipient (hdb : DbSound db) {status : SupportRecipientStatus}
    (hstatus : status.isTerminal = false)
    {data : SupportNotificationRecipient → SupportNotificationRecipient}
    (hdata : ∀ r, RecipientData r (data r)) :
    Kept db (updateRecipient intentId adminId status data db) := by
  refine kept_recipients hdb (fun r hr => ?_) hdata
  rw [(of_decide_eq_true hr).2.2]
  exact hstatus

theorem kept_recoverRecipients (hdb : DbSound db) (ticketIds : Option (List ℕ)) (now : Instant) :
    Kept db (recoverRecipients ticketIds now db) := by
  refine kept_recipients hdb (fun r hr => ?_) fun r => ⟨rfl, rfl, le_rfl⟩
  rw [(of_decide_eq_true hr).1]
  rfl

theorem newRecipients_keys {adminIds : List ℕ} (hadmins : adminIds.Nodup)
    (hkeys : (db.recipients.map recipientKey).Nodup) :
    ((db.recipients ++ newRecipients id adminIds db).map recipientKey).Nodup := by
  rw [List.map_append, List.nodup_append]
  refine ⟨hkeys, ?_, ?_⟩
  · rw [newRecipients, List.map_map]
    exact (hadmins.filter _).map fun a b hab => (Prod.mk.inj hab).2
  · intro k hk k' hk'
    rintro rfl
    obtain ⟨r, hr, hrk⟩ := List.mem_map.mp hk
    obtain ⟨r', hr', hrk'⟩ := List.mem_map.mp hk'
    obtain ⟨a, ha, rfl⟩ := List.mem_map.mp hr'
    have hall := List.all_eq_true.mp (List.mem_filter.mp ha).2 r hr
    have hsame := Prod.mk.inj (hrk.trans hrk'.symm)
    exact of_decide_eq_true hall ⟨hsame.1, hsame.2⟩

theorem Settled.stamped {i : SupportNotificationIntent} (h : Settled db i) (now : Instant) :
    Settled db { i with recipientsExpandedAt := some now } := by
  have hdelivered : Delivered db i → Delivered db { i with recipientsExpandedAt := some now } :=
    fun hd => ⟨hd.expanded, hd.ended, hd.deliveredCount⟩
  unfold Settled at h ⊢
  split <;> rename_i hstatus <;> change i.status = _ at hstatus <;> rw [hstatus] at h
  · trivial
  · trivial
  · exact h.imp_left hdelivered
  · exact h.imp_left fun hd => hd.imp_left hdelivered

theorem kept_freeze (hdb : DbSound db) {adminIds : List ℕ} (hadmins : adminIds.Nodup)
    (now : Instant) : Kept db (freeze id adminIds now db) := by
  have hp : Progress db (freeze id adminIds now db) := progress_freeze hdb.intentIds
  refine ⟨?_, hp⟩
  by_cases hcount : db.intents.countP (unexpanded id) = 0
  · rw [freeze, if_pos hcount]
    exact hdb
  · rw [freeze, if_neg hcount] at hp ⊢
    have hkeys : ((db.recipients ++ newRecipients id adminIds db).map recipientKey).Nodup :=
      newRecipients_keys hadmins hdb.recipientKeys
    refine ⟨?_, hkeys, hdb.adminIds, fun r hr => ?_, fun i' hi' => ?_⟩
    · refine Eq.subst (motive := List.Nodup) (keys_updateWhere ?_).symm hdb.intentIds
      exact fun _ => rfl
    · rcases List.mem_append.mp hr with hr | hr
      · exact (hdb.owed r hr).progress hp
      · obtain ⟨i, hi, hcond⟩ := List.countP_pos_iff.mp (Nat.pos_of_ne_zero hcount)
        refine ⟨_, mem_updateWhere.mpr ⟨i, hi, if_pos hcond⟩, ?_, Option.some_ne_none now⟩
        exact (of_decide_eq_true hcond).1.trans (mem_newRecipients hr).1.symm
    · refine Settled.progress ?_ hdb.recipientKeys hkeys hp
      obtain ⟨i, hi, rfl⟩ := mem_updateWhere.mp hi'
      split_ifs
      · exact (hdb.settled i hi).stamped now
      · exact hdb.settled i hi

theorem expanded_freeze {i : DeliverableIntent} (h : Known db i) (adminIds : List ℕ)
    (now : Instant) : Expanded (freeze i.id adminIds now db) i.id := by
  obtain ⟨j, hj, hid⟩ := List.mem_map.mp h
  by_cases hcount : db.intents.countP (unexpanded i.id) = 0
  · rw [freeze, if_pos hcount]
    refine ⟨j, hj, hid, fun hnone => ?_⟩
    exact List.countP_eq_zero.mp hcount j hj (decide_eq_true ⟨hid, hnone⟩)
  · rw [freeze, if_neg hcount]
    refine ⟨_, mem_updateWhere.mpr ⟨j, hj, rfl⟩, ?_⟩
    split_ifs with hcond
    · exact ⟨hid, Option.some_ne_none now⟩
    · exact ⟨hid, fun hnone => hcond (decide_eq_true ⟨hid, hnone⟩)⟩

theorem nodup_eligibleAdminIds (hdb : DbSound db) : (eligibleAdminIds db).Nodup :=
  (List.perm_insertionSort _ _).nodup_iff.mpr (hdb.adminIds.sublist (List.filter_sublist.map _))

/-! ### The steps -/

theorem Expanded.kept (h : Expanded db id) (hk : Kept db db') : Kept db db' ∧ Expanded db' id :=
  ⟨hk, h.progress hk.progress⟩

theorem PhaseOk.delivers {i : DeliverableIntent} {phase phase' : Phase} {entries : List Entry}
    (hdb : DbSound db) (hknown : Known db i) (hphase : PhaseOk db i.id phase)
    (h : Delivers db i phase db' phase' entries) : Kept db db' ∧ PhaseOk db' i.id phase' := by
  cases h with
  | snapshot => exact ⟨.refl hdb, nodup_eligibleAdminIds hdb⟩
  | retryFreeze => exact ⟨.refl hdb, nodup_eligibleAdminIds hdb⟩
  | freeze adminIds now => exact ⟨kept_freeze hdb hphase now, expanded_freeze hknown adminIds now⟩
  | readDue | picked | send | markThrows => exact ⟨.refl hdb, hphase⟩
  | count => exact ⟨.refl hdb, hphase, fun hpending => ⟨allTerminal_of_pending hpending, rfl⟩⟩
  | pick =>
    exact Expanded.kept hphase (kept_updateRecipient hdb rfl fun _ => ⟨rfl, rfl, Nat.le_succ _⟩)
  | skip | markSent | markFailed | markApplied =>
    exact Expanded.kept hphase (kept_updateRecipient hdb rfl fun _ => ⟨rfl, rfl, le_rfl⟩)

theorem known_filter {i : DeliverableIntent} {l : List SupportNotificationIntent}
    (hl : l ⊆ db.intents) (hi : i ∈ l.map SupportNotificationIntent.deliverable) : Known db i := by
  obtain ⟨j, hj, rfl⟩ := List.mem_map.mp hi
  exact List.mem_map.mpr ⟨j, hl hj, rfl⟩

theorem TaskOk.acts {task : Task} {task' : Option Task} {entries : List Entry} (hdb : DbSound db)
    (htask : TaskOk db task) (h : Acts db (some task) db' task' entries) :
    Kept db db' ∧ ∀ t, task' = some t → TaskOk db' t := by
  cases h with
  | claim i seen owned owned' now howned =>
    have hk : Kept db (claimIntent i.id now db) := kept_claimIntent hdb now
    refine ⟨hk, ?_⟩
    rintro t ⟨⟩ j hj
    refine Known.progress ?_ hk.progress
    rcases List.mem_append.mp hj with hj | hj
    · exact htask j (List.mem_append_left _ (List.mem_cons_of_mem _ hj))
    · rcases howned j hj with hj | hid
      · exact htask j (List.mem_append_right _ hj)
      · rw [Known, hid]
        exact htask i (List.mem_append_left _ (List.mem_cons_self ..))
  | finish | die => exact ⟨.refl hdb, fun t ht => by cases ht⟩
  | next i owned =>
    refine ⟨.refl hdb, ?_⟩
    rintro t ⟨⟩
    exact ⟨htask, trivial⟩
  | reject i owned phase =>
    refine ⟨.refl hdb, ?_⟩
    rintro t ⟨⟩ j hj
    exact htask.1 j (List.mem_cons_of_mem _ hj)
  | abandon i owned code now hcode =>
    have hk : Kept db (abandonIntent i.id code now db) := kept_abandonIntent hdb hcode now
    refine ⟨hk, ?_⟩
    rintro t ⟨⟩ j hj
    exact (htask.1 j (List.mem_cons_of_mem _ hj)).progress hk.progress
  | settle i owned counts now =>
    have hk := kept_settleIntent hdb i.attempts htask.2 now
    refine ⟨hk, ?_⟩
    rintro t ⟨⟩ j hj
    exact (htask.1 j (List.mem_cons_of_mem _ hj)).progress hk.progress
  | deliver i owned hdeliver =>
    obtain ⟨hk, hphase⟩ := htask.2.delivers hdb (htask.1 i (List.mem_cons_self ..)) hdeliver
    refine ⟨hk, ?_⟩
    rintro t ⟨⟩
    exact ⟨fun j hj => (htask.1 j hj).progress hk.progress, hphase⟩

theorem taskOk_starts {task' : Option Task} {entries : List Entry} (hdb : DbSound db)
    (h : Acts db none db' task' entries) :
    Kept db db' ∧ ∀ t, task' = some t → TaskOk db' t := by
  cases h with
  | sweep limit now =>
    refine ⟨.refl hdb, ?_⟩
    rintro t ⟨⟩ j hj
    exact known_filter (fun _ h => List.mem_of_mem_filter (List.mem_of_mem_take h))
      (List.append_nil _ ▸ hj)
  | look ticketId kind =>
    refine ⟨.refl hdb, ?_⟩
    rintro t ⟨⟩ j hj
    rw [List.append_nil, intentForTicket, Option.mem_toList, Option.map_eq_some_iff] at hj
    obtain ⟨i, hi, rfl⟩ := hj
    exact List.mem_map.mpr ⟨i, List.mem_of_mem_filter (List.mem_of_getLast? hi), rfl⟩

/-- One step. -/
theorem Sound.step {e : Event} (h : Sound s) (hs : Outbox.step s e = some t) :
    Sound t ∧ Progress s.db t.db := by
  have hother : ∀ db', Kept s.db db' → ∀ w task, s.tasks w = some task → TaskOk db' task :=
    fun db' hk w task htask => (h.tasks w task htask).kept h.db hk
  have hdone : ∀ db' log, Kept s.db db' → t = { s with db := db', log } →
      Sound t ∧ Progress s.db t.db := by
    rintro db' log hk rfl
    exact ⟨⟨hk.sound, hother db' hk⟩, hk.progress⟩
  cases e with
  | record id ticketId messageId kind =>
    rw [Outbox.step] at hs
    split_ifs at hs with hnew
    exact hdone _ _ (kept_record h.db hnew) (Option.some.inj hs).symm
  | setActive adminId isActive =>
    exact hdone _ _ (kept_setActive h.db isActive) (Option.some.inj hs).symm
  | recoverRecipients ticketIds now =>
    exact hdone _ _ (kept_recoverRecipients h.db ticketIds now) (Option.some.inj hs).symm
  | recoverIntents ticketIds now =>
    exact hdone _ _ (kept_recoverIntents h.db ticketIds now) (Option.some.inj hs).symm
  | act w a =>
    obtain ⟨⟨db', task', entries⟩, hact, rfl⟩ := Option.map_eq_some_iff.mp hs
    have hacts := acts_of_act hact
    have hkept : Kept s.db db' ∧ ∀ t, task' = some t → TaskOk db' t := by
      cases htask : s.tasks w with
      | none => exact taskOk_starts h.db (htask ▸ hacts)
      | some task => exact (h.tasks w task htask).acts h.db (htask ▸ hacts)
    refine ⟨⟨hkept.1.sound, fun w' task hw' => ?_⟩, hkept.1.progress⟩
    change Function.update s.tasks w task' w' = some task at hw'
    by_cases hw : w' = w
    · rw [hw, Function.update_self] at hw'
      exact hkept.2 task hw'
    · rw [Function.update_of_ne hw] at hw'
      exact hother _ hkept.1 w' task hw'

theorem Start.sound (h : Start s) : Sound s := by
  refine ⟨⟨?_, ?_, h.adminIds, ?_, ?_⟩, fun w task hw => ?_⟩
  · rw [h.intents]
    exact List.nodup_nil
  · rw [h.recipients]
    exact List.nodup_nil
  · rw [h.recipients]
    exact fun r hr => absurd hr List.not_mem_nil
  · rw [h.intents]
    exact fun r hr => absurd hr List.not_mem_nil
  · rw [h.tasks w] at hw
    cases hw

theorem Sound.reaches (h : Sound s) (hr : Reaches s t) : Sound t :=
  hr.invariant h fun _ _ _ hp hs => (hp.step hs).1

theorem Sound.progress (h : Sound s) (hr : Reaches s t) : Progress s.db t.db :=
  hr.related (R := fun s t => Progress s.db t.db) h (fun _ _ _ hp hs => (hp.step hs).1)
    (fun s => .refl s.db) (fun _ _ _ => .trans) fun _ _ _ hp hs => (hp.step hs).2

/-! ### Over every run -/

variable {s₀ : System} {i : SupportNotificationIntent}

/-- A settled intent says what became of its obligations, and nothing changes that any more. -/
theorem settled_intents_stay_true (hstart : Start s₀) (h : Reaches s₀ s) (h' : Reaches s t)
    (hi : i ∈ s.db.intents) (hsettled : isSettled i.status = true) :
    Settled s.db i ∧
      (∃ i' ∈ t.db.intents, i'.id = i.id ∧ i'.status = i.status ∧
        i'.deliveredCount = i.deliveredCount ∧ i'.safeErrorCode = i.safeErrorCode) ∧
      (Delivered s.db i → ∀ r : SupportNotificationRecipient, r.intentId = i.id →
        (r ∈ t.db.recipients ↔ r ∈ s.db.recipients)) ∧
      ∀ r ∈ s.db.recipients, r.status.isTerminal = true → r ∈ t.db.recipients := by
  have hsound := hstart.sound.reaches h
  have hp := hsound.progress h'
  refine ⟨hsound.db.settled i hi, ?_, fun hd r hid => same_recipients hp hd.expanded hd.ended hid,
    fun r hr hover => ?_⟩
  · obtain ⟨i', hi', hmove⟩ := hp.intents i hi
    exact ⟨i', hi', hmove.id, hmove.settled hsettled⟩
  · obtain ⟨r', hr', hmove⟩ := hp.recipients r hr
    rwa [hmove.terminal hover] at hr'

/-! Of two administrators the second is told at the second attempt; a third is hired between the
    snapshot and the stamp. -/

def twoAdmins : System := { db := { admins := [⟨2, true⟩, ⟨1, true⟩] } }

theorem start_twoAdmins : Start twoAdmins :=
  ⟨rfl, rfl, by decide, fun _ => rfl, rfl⟩

def toldRun : List Event :=
  [.record 7 70 700 "support.ticket_created", .act 0 (.look 70 "support.ticket_created"),
    .act 0 (.claim 0), .act 0 .next, .act 0 .snapshot, .setActive 3 true, .act 0 (.freeze 1),
    .act 0 (.readDue 2), .act 0 (.pick 2), .act 0 (.pick 2), .act 0 .picked, .act 0 (.send none),
    .act 0 (.mark 3), .act 0 (.send (some "telegram-unavailable")), .act 0 (.mark 3), .act 0 .count,
    .act 0 (.settle 4), .act 0 .next, .act 1 (.sweep 20 20000), .act 1 (.claim 20000),
    .act 1 .next, .act 1 .snapshot, .act 1 (.freeze 20001), .act 1 (.readDue 20002),
    .act 1 (.pick 20002), .act 1 .picked, .act 1 (.send none), .act 1 (.mark 20003),
    .act 1 .count, .act 1 (.settle 20004)]

def toldIntent : SupportNotificationIntent where
  id := 7
  ticketId := 70
  messageId := 700
  kind := "support.ticket_created"
  status := .SENT
  attempts := 2
  deliveredCount := 2
  sentAt := some 20004
  recipientsExpandedAt := some 1

theorem told : ∃ s, Reaches twoAdmins s ∧ s.db.intents = [toldIntent] ∧
    s.db.recipients.map (fun r => (r.adminId, r.status)) = [(1, .SENT), (2, .SENT)] ∧
    s.log = [.sent 7 1 1 true, .sent 7 2 1 false, .sent 7 2 2 true] := by
  have hrun : (Runs.exec step twoAdmins toldRun).map (fun s => (s.db.intents,
      s.db.recipients.map (fun r => (r.adminId, r.status)), s.log)) =
      some ([toldIntent], [(1, .SENT), (2, .SENT)],
        [.sent 7 1 1 true, .sent 7 2 1 false, .sent 7 2 2 true]) := by
    decide +kernel
  obtain ⟨s, hs, hend⟩ := Option.map_eq_some_iff.mp hrun
  obtain ⟨hintents, hrest⟩ := Prod.mk.inj hend
  exact ⟨s, Runs.reaches_of_exec hs, hintents, Prod.mk.inj hrest⟩

theorem settled_intents_stay_true_told : ∃ s, Reaches twoAdmins s ∧ Settled s.db toldIntent ∧
    ∀ t, Reaches s t → ∃ i ∈ t.db.intents, i.id = 7 ∧ i.status = .SENT ∧ i.deliveredCount = 2 := by
  obtain ⟨s, hs, hintents, -⟩ := told
  have hmem : toldIntent ∈ s.db.intents := hintents ▸ List.mem_singleton_self _
  refine ⟨s, hs, (settled_intents_stay_true start_twoAdmins hs .start hmem rfl).1, fun t ht => ?_⟩
  obtain ⟨-, ⟨i, hi, hid, hstatus, hcount, -⟩, -⟩ :=
    settled_intents_stay_true start_twoAdmins hs ht hmem rfl
  exact ⟨i, hi, hid, hstatus, hcount⟩

end ZedBot.Support.Outbox
