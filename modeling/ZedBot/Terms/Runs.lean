import ZedBot.Terms.AcceptanceTruth

/-! # Runs of the terms

    Each statement keeps the invariant, so that every run does: versions are numbered without a gap
    and never rewritten, an acceptance is of the version that its button named, and a publication
    asks everybody again. -/

namespace ZedBot.Terms

open Rows ForceJoin

variable {Digest : Type} {sha256 : JsText → Digest} {b b' : Book} {s s₀ t : System Digest}
  {db : Db Digest} {x y : Acceptance} {phase : Phase} {version acceptedAt : ℕ} {new touched : Bool}

/-! ### One constructor for each statement -/

inductive Advances (db : Db Digest) (others : List Acceptance) (x : Acceptance) :
    Phase → Outcome Digest → Prop
  | refuse {result : AcceptResult} (h : ∀ v already, result ≠ .ok v already) :
    Advances db others x .locked (.finish db result)
  | published {p : TermsDocument Digest} {version : ℕ} (acceptedAt : ℕ)
    (hp : getPublishedTerms db.documents = some p) (hid : p.id = x.documentId)
    (hversion : p.version = some version) :
    Advances db others x .locked (.goOn (.published version acceptedAt))
  | present (version acceptedAt : ℕ)
    (hkey : (x.userId, x.documentId) ∈ db.acceptances.map TermsAcceptance.key) :
    Advances db others x (.published version acceptedAt) (.goOn (.present version acceptedAt))
  | inserted (version acceptedAt : ℕ)
    (hfree : ∀ y ∈ others, y.holdsRow = true →
      (y.userId, y.documentId) ≠ (x.userId, x.documentId))
    (hkey : (x.userId, x.documentId) ∉ db.acceptances.map TermsAcceptance.key)
    (huser : x.userId ∈ db.users.map User.id) :
    Advances db others x (.published version acceptedAt) (.goOn (.inserted version acceptedAt))
  | stampNew (version acceptedAt : ℕ) (touched : Bool)
    (htouched : db.users.any (stampable x.userId acceptedAt true) = touched)
    (hfree : touched = true → ∀ y ∈ others, y.holdsUser = true → y.userId ≠ x.userId) :
    Advances db others x (.inserted version acceptedAt)
      (.goOn (.stamped version acceptedAt true touched))
  | stampOld (version acceptedAt : ℕ) (touched : Bool)
    (htouched : db.users.any (stampable x.userId acceptedAt false) = touched)
    (hfree : touched = true → ∀ y ∈ others, y.holdsUser = true → y.userId ≠ x.userId) :
    Advances db others x (.present version acceptedAt)
      (.goOn (.stamped version acceptedAt false touched))
  | commit (version acceptedAt : ℕ) (new touched : Bool) :
    Advances db others x (.stamped version acceptedAt new touched)
      (.finish (commitAcceptance x.userId x.documentId version acceptedAt new touched db)
        (.ok version (!new)))
  | fail (phase : Phase) : Advances db others x phase .rollback

theorem free_row {others : List Acceptance} {userId documentId : ℕ}
    (h : ¬ (others.any fun y =>
      y.holdsRow && (y.userId == userId && y.documentId == documentId)) = true) :
    ∀ y ∈ others, y.holdsRow = true → (y.userId, y.documentId) ≠ (userId, documentId) := by
  intro y hy hholds heq
  refine h (List.any_eq_true.mpr ⟨y, hy, ?_⟩)
  obtain ⟨huser, hdocument⟩ := Prod.mk.inj heq
  rw [hholds, huser, hdocument, beq_self_eq_true, beq_self_eq_true]
  rfl

theorem free_user {others : List Acceptance} {userId : ℕ}
    (h : ¬ (others.any fun y => y.holdsUser && y.userId == userId) = true) :
    ∀ y ∈ others, y.holdsUser = true → y.userId ≠ userId := by
  intro y hy hholds heq
  refine h (List.any_eq_true.mpr ⟨y, hy, ?_⟩)
  rw [hholds, heq, beq_self_eq_true]
  rfl

theorem advances_of_advance {others : List Acceptance} {a : Action} {o : Outcome Digest}
    (h : advance db others x phase a = some o) : Advances db others x phase o := by
  unfold advance at h
  split at h
  · split at h
    · cases h
      exact .refuse fun v already h => by cases h
    · rename_i p hp
      split_ifs at h with hid
      · cases h
        exact .refuse fun v already h => by cases h
      · split at h
        · cases h
          exact .refuse fun v already h => by cases h
        · rename_i v hversion
          cases h
          exact .published _ hp (not_not.mp hid) hversion
  · split_ifs at h with hwait hkey huser
    · cases h
      exact .present _ _ hkey
    · cases h
      exact .inserted _ _ (free_row hwait) hkey huser.1
    · cases h
      exact .fail _
  · split_ifs at h with hany hwait
    · cases h
      exact .stampNew _ _ _ hany fun _ => free_user hwait
    · cases h
      exact .stampNew _ _ _ (Bool.eq_false_iff.mpr hany) fun h => by cases h
  · split_ifs at h with hany hwait
    · cases h
      exact .stampOld _ _ _ hany fun _ => free_user hwait
    · cases h
      exact .stampOld _ _ _ (Bool.eq_false_iff.mpr hany) fun h => by cases h
  · cases h
    exact .commit _ _ _ _
  · cases h
    exact .fail _
  · cases h

/-! ### The phases -/

theorem Apart.symm (h : Apart x y) : Apart y x :=
  ⟨fun hy hx heq => h.row hx hy heq.symm, fun hy hx heq => h.user hx hy heq.symm⟩

/-- Nobody can be stamped: the stamp is there, and not before. -/
theorem stampedBy_of_not_any {userId : ℕ}
    (h : db.users.any (stampable userId acceptedAt true) = false) :
    StampedBy db userId acceptedAt := by
  intro u hu hid
  have hnot := List.any_eq_false.mp h u hu
  rw [stampable, decide_eq_true hid, Bool.true_and] at hnot
  cases hlast : u.termsAcceptedAt with
  | none =>
    rw [hlast] at hnot
    exact absurd rfl hnot
  | some last =>
    rw [hlast] at hnot
    change ¬ decide (last < acceptedAt) = true at hnot
    exact ⟨last, rfl, Nat.le_of_not_lt fun hlt => hnot (decide_eq_true hlt)⟩

/-- The user that can be stamped is the only one of this id. -/
theorem before_of_any {userId : ℕ} (hids : (db.users.map User.id).Nodup)
    (h : db.users.any (stampable userId acceptedAt true) = true) :
    ∀ u ∈ db.users, u.id = userId → ∀ last ∈ u.termsAcceptedAt, last < acceptedAt := by
  intro u hu hid last hlast
  obtain ⟨u', hu', hstampable⟩ := List.any_eq_true.mp h
  obtain ⟨hid', hstamp⟩ := Bool.and_eq_true_iff.mp hstampable
  obtain rfl := eq_of_key hids hu hu' (hid.trans (of_decide_eq_true hid').symm)
  rw [Option.mem_def.mp hlast] at hstamp
  change decide (last < acceptedAt) = true at hstamp
  exact of_decide_eq_true hstamp

/-- Who has accepted has a stamp: there is nothing left to fill in. -/
theorem not_any_of_oldRow {userId documentId : ℕ} (h : DbSound sha256 b db)
    (hrow : OldRow db userId documentId version) :
    db.users.any (stampable userId acceptedAt false) = false := by
  obtain ⟨a, ha, hkey, -⟩ := hrow
  refine List.any_eq_false.mpr fun u hu => ?_
  rw [stampable]
  by_cases hid : u.id = userId
  · obtain ⟨last, hlast, -⟩ := h.stamped a ha u hu (hid.trans (congrArg Prod.fst hkey).symm)
    rw [hlast, decide_eq_true hid]
    exact Bool.false_ne_true
  · rw [decide_eq_false hid, Bool.false_and]
    exact Bool.false_ne_true

/-! ### One step -/

theorem Apart.of_phase {phase : Phase} (h : Apart x y)
    (hrow : ({ x with phase } : Acceptance).holdsRow = true → x.holdsRow = true ∨
      (y.holdsRow = true → (x.userId, x.documentId) ≠ (y.userId, y.documentId)))
    (huser : ({ x with phase } : Acceptance).holdsUser = true →
      y.holdsUser = true → x.userId ≠ y.userId) : Apart { x with phase } y := by
  refine ⟨fun hx hy => ?_, huser⟩
  rcases hrow hx with hx | hfree
  · exact h.row hx hy
  · exact hfree hy

theorem PhaseOk.of_phase (h : PhaseOk b db x phase) (phase' : Phase) :
    PhaseOk b db { x with phase := phase' } phase := by
  cases phase with
  | locked => trivial
  | published version acceptedAt => exact h
  | inserted version acceptedAt => exact h
  | present version acceptedAt => exact h
  | stamped version acceptedAt new touched =>
    cases new with
    | true => exact h
    | false => exact h

/-- The transaction goes on to a phase that is right. -/
theorem Sound.goOn (h : Sound sha256 b s) (hx : x ∈ s.pending)
    (hphase : PhaseOk b s.db x phase)
    (hapart : ∀ y ∈ s.pending, y.id ≠ x.id → Apart { x with phase } y) :
    Sound sha256 b (conclude s x (.goOn phase)) := by
  have hmem : ∀ y ∈ updateWhere (fun y => y.id = x.id) (fun y => { y with phase }) s.pending,
      y = { x with phase } ∨ y ∈ s.pending ∧ y.id ≠ x.id := by
    intro y hy
    obtain ⟨z, hz, rfl⟩ := mem_updateWhere.mp hy
    by_cases hid : z.id = x.id
    · obtain rfl := eq_of_key h.ids hz hx hid
      exact .inl (if_pos (decide_eq_true rfl))
    · rw [if_neg fun hdec => hid (of_decide_eq_true hdec)]
      exact .inr ⟨hz, hid⟩
  refine ⟨h.db, fun _ => h.held (List.ne_nil_of_mem hx), ?_, ?_, ?_, h.answered⟩
  · have hkeys : (updateWhere (fun y : Acceptance => y.id = x.id) (fun y => { y with phase })
        s.pending).map Acceptance.id = s.pending.map Acceptance.id := keys_updateWhere fun _ => rfl
    exact hkeys.symm ▸ h.ids
  · intro y hy
    rcases hmem y hy with rfl | ⟨hy, -⟩
    · exact hphase.of_phase phase
    · exact h.phases y hy
  · intro y hy z hz hne
    rcases hmem y hy with rfl | ⟨hy, hyid⟩ <;> rcases hmem z hz with rfl | ⟨hz, hzid⟩
    · exact absurd rfl hne
    · exact hapart z hz hzid
    · exact (hapart y hy hyid).symm
    · exact h.apart y hy z hz hne

/-- The transaction is over, with the tables that it leaves. -/
theorem Sound.finish (h : Sound sha256 b s) (hx : x ∈ s.pending)
    (hdb : DbSound sha256 b db) (hset : db.setting = s.db.setting)
    (hacc : s.db.acceptances <+: db.acceptances)
    (hothers : ∀ y ∈ s.pending, y.id ≠ x.id → PhaseOk b db y y.phase) {answers : List Answer}
    (hanswers : ∀ r ∈ answers, r ∈ s.answers ∨ ∀ version already,
      r.result = .ok version already → OldRow db r.userId r.documentId version) :
    Sound sha256 b
      { db, pending := s.pending.filter fun y => y.id ≠ x.id, answers } := by
  have hmem : ∀ y ∈ s.pending.filter fun y => y.id ≠ x.id, y ∈ s.pending ∧ y.id ≠ x.id :=
    fun y hy => ⟨List.mem_of_mem_filter hy, of_decide_eq_true (List.mem_filter.mp hy).2⟩
  refine ⟨hdb, fun _ => ?_, ?_, fun y hy => ?_, fun y hy z hz => ?_, fun r hr v already hok => ?_⟩
  · change isTruthySettingValue db.setting = true
    rw [hset]
    exact h.held (List.ne_nil_of_mem hx)
  · exact h.ids.sublist (List.filter_sublist.map _)
  · exact hothers y (hmem y hy).1 (hmem y hy).2
  · exact h.apart y (hmem y hy).1 z (hmem z hz).1
  · rcases hanswers r hr with hr | hnew
    · exact (h.answered r hr v already hok).mono hacc
    · exact hnew v already hok

/-- What a step leaves: the invariant, all that was there, and no acceptance that was not asked
    for. -/
structure Good (sha256 : JsText → Digest) (b b' : Book) (s t : System Digest) : Prop where
  sound : Sound sha256 b' t
  history : b.history <+: b'.history
  later : Later s t
  asked : t.db.acceptances ≠ s.db.acceptances → isTruthySettingValue s.db.setting = true

theorem oldRow_of_key (h : DbSound sha256 b db) (hnames : b.Names x.documentId version)
    (hkey : (x.userId, x.documentId) ∈ db.acceptances.map TermsAcceptance.key) :
    OldRow db x.userId x.documentId version := by
  obtain ⟨a, ha, hakey⟩ := List.mem_map.mp hkey
  refine ⟨a, ha, hakey, ?_⟩
  have hdocument : a.termsDocumentId = x.documentId := congrArg Prod.snd hakey
  exact (hdocument ▸ h.names a ha).unique hnames

theorem later_pending (s : System Digest) (pending : List Acceptance) (answers : List Answer) :
    Later s { s with pending, answers := s.answers ++ answers } where
  acceptances := List.prefix_rfl
  users := (Later.refl s).users
  answers := List.prefix_append _ _

theorem Good.act {o : Outcome Digest} (h : Sound sha256 b s) (hx : x ∈ s.pending)
    (ha : Advances s.db (s.pending.filter fun y => y.id ≠ x.id) x x.phase o) :
    Good sha256 b b s (conclude s x o) := by
  have hphase := h.phases x hx
  have hapart : ∀ y ∈ s.pending, y.id ≠ x.id → Apart x y :=
    fun y hy hne => h.apart x hx y hy hne.symm
  have hother : ∀ y ∈ s.pending, y.id ≠ x.id → y ∈ s.pending.filter fun y => y.id ≠ x.id :=
    fun y hy hne => List.mem_filter.mpr ⟨hy, decide_eq_true hne⟩
  have hgo : ∀ phase', PhaseOk b s.db x phase' →
      (∀ y ∈ s.pending, y.id ≠ x.id → Apart { x with phase := phase' } y) →
      Good sha256 b b s (conclude s x (.goOn phase')) := fun phase' hok hap =>
    ⟨h.goOn hx hok hap, List.prefix_rfl, ⟨List.prefix_rfl, (Later.refl s).users, List.prefix_rfl⟩,
      fun hne => absurd rfl hne⟩
  generalize hgen : x.phase = phase at ha
  rw [hgen] at hphase
  cases ha with
  | refuse hresult =>
    refine ⟨h.finish hx h.db rfl List.prefix_rfl (fun y hy _ => h.phases y hy) ?_,
      List.prefix_rfl, later_pending _ _ _, fun hne => absurd rfl hne⟩
    intro r hr
    refine (List.mem_append.mp hr).imp_right fun hr v already hok => ?_
    rw [List.mem_singleton.mp hr] at hok
    exact absurd hok (hresult v already)
  | published acceptedAt hp hid hversion =>
    rw [h.db.documents, getPublishedTerms_rows] at hp
    obtain ⟨e, he, rfl⟩ := Option.map_eq_some_iff.mp hp
    obtain rfl := Option.some.inj hversion
    have hnames : b.Names x.documentId (b.archive.length + 1) := by
      rw [← hid]
      exact names_current he
    refine hgo _ hnames fun y hy hne => (hapart y hy hne).of_phase ?_ ?_
    · rintro ⟨⟩
    · rintro ⟨⟩
  | present version acceptedAt hkey =>
    refine hgo _ (oldRow_of_key h.db hphase hkey) fun y hy hne => (hapart y hy hne).of_phase ?_ ?_
    · rintro ⟨⟩
    · rintro ⟨⟩
  | inserted version acceptedAt hfree hkey huser =>
    refine hgo _ ⟨hphase, hkey, huser⟩ fun y hy hne => (hapart y hy hne).of_phase ?_ ?_
    · exact fun _ => .inr fun hholds => (hfree y (hother y hy hne) hholds).symm
    · rintro ⟨⟩
  | stampNew version acceptedAt touched htouched hfree =>
    refine hgo _ ⟨hphase, ?_⟩ fun y hy hne => (hapart y hy hne).of_phase ?_ ?_
    · cases touched with
      | true => exact before_of_any h.db.userIds htouched
      | false => exact stampedBy_of_not_any htouched
    · exact fun _ => .inl (by rw [Acceptance.holdsRow, hgen])
    · exact fun hyes hholds => (hfree hyes y (hother y hy hne) hholds).symm
  | stampOld version acceptedAt touched htouched hfree =>
    rw [not_any_of_oldRow h.db hphase] at htouched
    subst htouched
    refine hgo _ ⟨rfl, hphase⟩ fun y hy hne => (hapart y hy hne).of_phase ?_ ?_
    · rintro ⟨⟩
    · rintro ⟨⟩
  | commit version acceptedAt new touched =>
    refine ⟨h.finish hx (h.db.commit hphase) rfl acceptances_commit (fun y hy hne =>
      hphase.commit hgen (hapart y hy hne) (h.phases y hy)) ?_, List.prefix_rfl,
      later_commit hphase _ _, fun _ => h.held (List.ne_nil_of_mem hx)⟩
    intro r hr
    refine (List.mem_append.mp hr).imp_right fun hr v already hok => ?_
    rw [List.mem_singleton.mp hr] at hok ⊢
    obtain ⟨rfl, -⟩ := AcceptResult.ok.inj hok
    exact oldRow_commit hphase
  | fail =>
    refine ⟨h.finish hx h.db rfl List.prefix_rfl (fun y hy _ => h.phases y hy) fun r hr => .inl hr,
      List.prefix_rfl, ⟨List.prefix_rfl, (Later.refl s).users, List.prefix_rfl⟩,
      fun hne => absurd rfl hne⟩

/-- A change of the documents that a refusal leaves out. -/
theorem Good.change (h : Sound sha256 b s)
    {result : Except ConfigError (List (TermsDocument Digest))}
    (hok : ∀ docs, result = .ok docs → ∃ b' : Book, docs = b'.rows sha256 ∧
      b.history <+: b'.history ∧ (b.current.isSome → b'.current.isSome) ∧
        (b'.current = none → b'.history = [])) :
    ∃ b', Good sha256 b b' s (changeDocuments s result) := by
  cases result with
  | error e =>
    exact ⟨b, h, List.prefix_rfl, Later.refl s, fun hne => absurd rfl hne⟩
  | ok docs =>
    obtain ⟨b', rfl, hhist, hcurrent, hserving⟩ := hok docs rfl
    exact ⟨b', h.documents_grow hhist hcurrent hserving, hhist,
      ⟨List.prefix_rfl, (Later.refl s).users, List.prefix_rfl⟩, fun hne => absurd rfl hne⟩

/-- The tables with one more user. -/
def withUser (db : Db Digest) (userId : ℕ) : Db Digest :=
  { db with users := db.users ++ [{ id := userId }] }

theorem mem_withUser {userId id : ℕ} (h : id ∈ db.users.map User.id) :
    id ∈ (withUser db userId).users.map User.id := by
  rw [withUser, List.map_append]
  exact List.mem_append_left _ h

theorem StampedBy.withUser {userId id : ℕ} (hnew : userId ∉ db.users.map User.id)
    (hid : id ∈ db.users.map User.id) (h : StampedBy db id acceptedAt) :
    StampedBy (withUser db userId) id acceptedAt := by
  intro u hu huid
  rcases List.mem_append.mp hu with hu | hu
  · exact h u hu huid
  · rw [List.mem_singleton.mp hu] at huid
    exact absurd (huid.symm ▸ hid :) hnew

theorem NewRow.withUser {userId id documentId : ℕ} (h : NewRow b db id documentId version) :
    NewRow b (withUser db userId) id documentId version :=
  ⟨h.names, h.key, mem_withUser h.user⟩

theorem PhaseOk.withUser {userId : ℕ} (hnew : userId ∉ db.users.map User.id)
    (h : PhaseOk b db x phase) : PhaseOk b (withUser db userId) x phase := by
  cases phase with
  | locked => trivial
  | published version acceptedAt => exact h
  | inserted version acceptedAt => exact NewRow.withUser h
  | present version acceptedAt => exact h
  | stamped version acceptedAt new touched =>
    cases new with
    | false => exact h
    | true =>
      refine ⟨h.1.withUser, ?_⟩
      cases touched with
      | false => exact StampedBy.withUser hnew h.1.user h.2
      | true =>
        intro u hu huid last hlast
        rcases List.mem_append.mp hu with hu | hu
        · exact h.2 u hu huid last hlast
        · rw [List.mem_singleton.mp hu] at hlast
          cases hlast

theorem Good.register (h : Sound sha256 b s) {userId : ℕ}
    (hnew : userId ∉ s.db.users.map User.id) :
    Good sha256 b b s { s with db := withUser s.db userId } := by
  have hdb : DbSound sha256 b (withUser s.db userId) := by
    exact ⟨h.db.documents, h.db.switch, h.db.serving, nodup_keys_append h.db.userIds hnew,
      h.db.keys, h.db.names, fun a ha => mem_withUser (h.db.known a ha),
      fun a ha => (h.db.stamped a ha).withUser hnew (h.db.known a ha)⟩
  refine ⟨⟨hdb, h.held, h.ids, fun x hx => (h.phases x hx).withUser hnew, h.apart, h.answered⟩,
    List.prefix_rfl, ⟨List.prefix_rfl, fun u hu last hlast => ?_, List.prefix_rfl⟩,
    fun hne => absurd rfl hne⟩
  exact ⟨u, List.mem_append_left _ hu, rfl, last, hlast, Nat.le_refl _⟩

/-- The switch is written while nobody holds its row. -/
theorem Good.switch (h : Sound sha256 b s) (hpending : s.pending = []) (value : String)
    (hvalue : isTruthySettingValue (some value) = true → b.current.isSome) :
    Good sha256 b b s { s with db := { s.db with setting := some value } } := by
  refine ⟨⟨⟨h.db.documents, hvalue, h.db.serving, h.db.userIds, h.db.keys, h.db.names, h.db.known,
      h.db.stamped⟩, fun hne => absurd hpending hne, h.ids, ?_, h.apart, h.answered⟩,
    List.prefix_rfl, ⟨List.prefix_rfl, (Later.refl s).users, List.prefix_rfl⟩,
    fun hne => absurd rfl hne⟩
  intro x hx
  rw [hpending] at hx
  cases hx

/-- A press that the switch lets in. -/
theorem Good.press (h : Sound sha256 b s) {id : ℕ} (userId documentId : ℕ)
    (hnew : id ∉ s.pending.map Acceptance.id) (hon : isTruthySettingValue s.db.setting = true) :
    Good sha256 b b s { s with pending := s.pending ++ [{ id, userId, documentId }] } := by
  have hmem : ∀ y ∈ s.pending ++ [({ id, userId, documentId } : Acceptance)],
      y ∈ s.pending ∨ y = ({ id, userId, documentId } : Acceptance) :=
    fun y hy => (List.mem_append.mp hy).imp_right List.mem_singleton.mp
  have hfresh : ∀ y, Apart ({ id, userId, documentId } : Acceptance) y := by
    refine fun y => ⟨?_, ?_⟩
    · rintro ⟨⟩
    · rintro ⟨⟩
  refine ⟨⟨h.db, fun _ => hon, ?_, fun y hy => ?_, fun y hy z hz hne => ?_, h.answered⟩,
    List.prefix_rfl, ⟨List.prefix_rfl, (Later.refl s).users, List.prefix_rfl⟩,
    fun hne => absurd rfl hne⟩
  · exact nodup_keys_append h.ids hnew
  · rcases hmem y hy with hy | rfl
    · exact h.phases y hy
    · trivial
  · rcases hmem y hy with hy | rfl
    · rcases hmem z hz with hz | rfl
      · exact h.apart y hy z hz hne
      · exact (hfresh y).symm
    · exact hfresh z

theorem Good.disabled (h : Sound sha256 b s) (userId documentId : ℕ) :
    Good sha256 b b s { s with answers := s.answers ++ [⟨userId, documentId, .DISABLED⟩] } := by
  refine ⟨⟨h.db, h.held, h.ids, h.phases, h.apart, fun r hr v already hok => ?_⟩, List.prefix_rfl,
    later_pending _ _ _, fun hne => absurd rfl hne⟩
  rcases List.mem_append.mp hr with hr | hr
  · exact h.answered r hr v already hok
  · rw [List.mem_singleton.mp hr] at hok
    cases hok

/-- Every event is good, and the book may have grown. -/
theorem Sound.step {e : Event} (h : Sound sha256 b s)
    (hstep : Terms.step sha256 s e = some t) : ∃ b', Good sha256 b b' s t := by
  have hdocs := h.db.documents
  cases e with
  | register userId =>
    rw [Terms.step] at hstep
    split_ifs at hstep with hknown
    cases hstep
    exact ⟨b, Good.register h hknown⟩
  | createDraft id =>
    rw [Terms.step] at hstep
    split_ifs at hstep with hused
    cases hstep
    rw [hdocs] at hused ⊢
    refine Good.change h fun docs hok => ?_
    obtain ⟨b', rfl, hhist, hcurrent⟩ := createTermsDraft_rows hused hok
    exact ⟨b', rfl, hhist ▸ List.prefix_rfl, fun hsome => hcurrent ▸ hsome,
      fun hnone => hhist.trans (h.db.serving (hcurrent ▸ hnone))⟩
  | editDraft draftId rawBody =>
    cases hstep
    rw [hdocs]
    refine Good.change h fun docs hok => ?_
    obtain ⟨b', rfl, hhist, hcurrent⟩ := updateTermsDraftBody_rows hok
    exact ⟨b', rfl, hhist ▸ List.prefix_rfl, fun hsome => hcurrent ▸ hsome,
      fun hnone => hhist.trans (h.db.serving (hcurrent ▸ hnone))⟩
  | deleteDraft draftId =>
    cases hstep
    rw [hdocs]
    refine Good.change h fun docs hok => ?_
    obtain ⟨b', rfl, hhist, hcurrent⟩ := deleteTermsDraft_rows hok
    exact ⟨b', rfl, hhist ▸ List.prefix_rfl, fun hsome => hcurrent ▸ hsome,
      fun hnone => hhist.trans (h.db.serving (hcurrent ▸ hnone))⟩
  | publish draftId now =>
    cases hstep
    rw [hdocs]
    refine Good.change h fun docs hok => ?_
    obtain ⟨b', e, rfl, hhist, hcurrent, -⟩ := publishTermsDraft_rows hok
    refine ⟨b', rfl, hhist ▸ List.prefix_append _ _, fun _ => hcurrent ▸ rfl, fun hnone => ?_⟩
    rw [hcurrent] at hnone
    cases hnone
  | enable =>
    rw [Terms.step, hdocs, enableTermsRequirement, getPublishedTerms_rows] at hstep
    cases hcurrent : b.current with
    | none =>
      rw [hcurrent] at hstep
      cases hstep
      exact ⟨b, h, List.prefix_rfl, Later.refl s, fun hne => absurd rfl hne⟩
    | some e =>
      rw [hcurrent] at hstep
      dsimp only [Option.map_some] at hstep
      split at hstep
      · cases hstep
        exact ⟨b, h, List.prefix_rfl, Later.refl s, fun hne => absurd rfl hne⟩
      · split_ifs at hstep with hpending
        cases hstep
        exact ⟨b, Good.switch h hpending _ fun _ => hcurrent ▸ rfl⟩
  | disable =>
    rw [Terms.step] at hstep
    split_ifs at hstep with hpending
    cases hstep
    exact ⟨b, Good.switch h hpending _ fun htrue => absurd htrue (by decide)⟩
  | press id userId documentId =>
    rw [Terms.step] at hstep
    split_ifs at hstep with hused hon
    · cases hstep
      exact ⟨b, Good.press h userId documentId hused hon⟩
    · cases hstep
      exact ⟨b, Good.disabled h userId documentId⟩
  | act id a =>
    rw [Terms.step] at hstep
    split at hstep
    · cases hstep
    · rename_i x hx
      obtain ⟨o, ho, rfl⟩ := Option.map_eq_some_iff.mp hstep
      exact ⟨b, Good.act h (List.mem_of_find?_eq_some hx) (advances_of_advance ho)⟩

end ZedBot.Terms
