import ZedBot.Support.OutboxTruth

/-! # What is sent under a claim

    A claim of an obligation is sent at most once, and its answer is marked before anyone else may
    claim the obligation. So an administrator gets a message twice only if a claim was recovered
    while its worker went on, or if the mark of a success threw.

        claim c of (intent, admin):   held ──▶ sent ──▶ marked        c ≤ attempts -/

namespace ZedBot.Support.Outbox

open Rows

variable {db db' : Db} {s s₀ t : System} {rows rows' : List SupportNotificationRecipient}
  {log log' entries : List Entry} {intentId adminId c w : ℕ} {ok : Bool}

/-- A claim that a worker holds, with the answer once its message was sent. -/
structure Held where
  recipient : DeliverableRecipient
  answer : Option (Option String)

def unanswered (r : DeliverableRecipient) : Held := ⟨r, none⟩

def Phase.held : Phase → List Held
  | .picking _ claimed => claimed.map unanswered
  | .sending todo => todo.map unanswered
  | .answered r code todo => ⟨r, some code⟩ :: todo.map unanswered
  | .rendering | .freezing _ | .expanded | .counted _ => []

def heldBy : Option Task → List Held
  | some (.working _ _ phase) => phase.held
  | some (.claiming _ _) | none => []

abbrev Held.key (x : Held) : ℕ × ℕ := (x.recipient.intentId, x.recipient.adminId)

def DeliverableRecipient.claimKey (r : DeliverableRecipient) : ℕ × ℕ × ℕ :=
  (r.intentId, r.adminId, r.claim)

def Held.claimKey (x : Held) : ℕ × ℕ × ℕ := x.recipient.claimKey

def Entry.claimKey : Entry → Option (ℕ × ℕ × ℕ)
  | .sent intentId adminId claim _ => some (intentId, adminId, claim)
  | .recovered _ _ | .unmarked _ _ => none

def sentClaims (log : List Entry) : List (ℕ × ℕ × ℕ) := log.filterMap Entry.claimKey

/-- The message of an event reached an administrator. -/
def Entry.isDelivery (intentId adminId : ℕ) : Entry → Bool
  | .sent i a _ ok => i = intentId ∧ a = adminId ∧ ok
  | .recovered _ _ | .unmarked _ _ => false

/-- No claim of the obligation was recovered, and no mark of it threw. -/
structure Clean (log : List Entry) (key : ℕ × ℕ) : Prop where
  recovered : Entry.recovered key.1 key.2 ∉ log
  unmarked : Entry.unmarked key.1 key.2 ∉ log

theorem Clean.of_subset (h : Clean log' key) (hlog : log ⊆ log') : Clean log key :=
  ⟨fun hmem => h.recovered (hlog hmem), fun hmem => h.unmarked (hlog hmem)⟩

theorem mem_sentClaims {e : Entry} {k : ℕ × ℕ × ℕ} (he : e ∈ log) (hk : e.claimKey = some k) :
    k ∈ sentClaims log :=
  List.mem_filterMap.mpr ⟨e, he, hk⟩

theorem sent_unique {e e' : Entry} {k : ℕ × ℕ × ℕ} (h : (sentClaims log).Nodup) (he : e ∈ log)
    (he' : e' ∈ log) (hk : e.claimKey = some k) (hk' : e'.claimKey = some k) : e = e' := by
  induction log with
  | nil => cases he
  | cons e₀ log ih =>
    have hrest : (sentClaims log).Nodup := h.sublist ((List.sublist_cons_self ..).filterMap _)
    have hhead : ∀ k, e₀.claimKey = some k → k ∉ sentClaims log := by
      intro k hk
      rw [sentClaims, List.filterMap_cons_some hk] at h
      exact (List.nodup_cons.mp h).1
    rcases List.mem_cons.mp he with rfl | hmem
    · rcases List.mem_cons.mp he' with rfl | hmem'
      · rfl
      · exact absurd (mem_sentClaims hmem' hk') (hhead k hk)
    · rcases List.mem_cons.mp he' with rfl | hmem'
      · exact absurd (mem_sentClaims hmem hk) (hhead k hk')
      · exact ih hrest hmem hmem'

/-! ### The invariant -/

/-- What a held claim says of its obligation. -/
structure HeldOk (rows : List SupportNotificationRecipient) (log : List Entry) (x : Held) :
    Prop where
  row : ∃ r ∈ rows, recipientKey r = x.key ∧ x.recipient.claim ≤ r.attempts
  current : Clean log x.key → ∀ r ∈ rows, recipientKey r = x.key →
    r.status = .SENDING ∧ r.attempts = x.recipient.claim
  unsent : x.answer = none → x.claimKey ∉ sentClaims log
  sent : x.answer = some none →
    Entry.sent x.recipient.intentId x.recipient.adminId x.recipient.claim true ∈ log
  failed : ∀ code, x.answer = some (some code) → Clean log x.key →
    Entry.sent x.recipient.intentId x.recipient.adminId x.recipient.claim false ∈ log

/-- What a message that was sent says of its obligation. -/
structure SentOk (rows : List SupportNotificationRecipient) (log : List Entry)
    (intentId adminId c : ℕ) (ok : Bool) : Prop where
  row : ∃ r ∈ rows, recipientKey r = (intentId, adminId) ∧ c ≤ r.attempts
  current : Clean log (intentId, adminId) → ok = true → ∀ r ∈ rows,
    recipientKey r = (intentId, adminId) →
      r.attempts = c ∧ (r.status = .SENDING ∨ r.status = .SENT)

/-- A mark says that a message was sent. -/
def Marked (rows : List SupportNotificationRecipient) (log : List Entry) : Prop :=
  ∀ r ∈ rows, r.status = .SENT → ∃ c, Entry.sent r.intentId r.adminId c true ∈ log

structure Sends (s : System) : Prop where
  held : ∀ w, ∀ x ∈ heldBy (s.tasks w), HeldOk s.db.recipients s.log x
  sent : ∀ intentId adminId c ok, Entry.sent intentId adminId c ok ∈ s.log →
    SentOk s.db.recipients s.log intentId adminId c ok
  once : (sentClaims s.log).Nodup
  distinct : ∀ w, ((heldBy (s.tasks w)).map Held.claimKey).Nodup
  apart : ∀ w w', w ≠ w' → ∀ x ∈ heldBy (s.tasks w), ∀ y ∈ heldBy (s.tasks w'),
    x.claimKey ≠ y.claimKey
  marked : Marked s.db.recipients s.log

/-! ### What a change of the rows leaves -/

def Grown (rows rows' : List SupportNotificationRecipient) : Prop := Moved RecipientMove rows rows'

theorem exists_row {k : ℕ × ℕ} (h : Grown rows rows')
    (hrow : ∃ r ∈ rows, recipientKey r = k ∧ c ≤ r.attempts) :
    ∃ r ∈ rows', recipientKey r = k ∧ c ≤ r.attempts := by
  obtain ⟨r, hr, hkey, hle⟩ := hrow
  obtain ⟨r', hr', hmove⟩ := h r hr
  exact ⟨r', hr', (Prod.ext hmove.intent hmove.admin).trans hkey, hle.trans hmove.attempts⟩

/-- The row of a held claim is as it was, if nothing was recovered. -/
theorem HeldOk.frame {x : Held} (h : HeldOk rows log x) (hgrown : Grown rows rows')
    (hrow : Clean log' x.key → ∀ r ∈ rows', recipientKey r = x.key → r ∈ rows)
    (hlog : log ⊆ log')
    (hunsent : x.answer = none → x.claimKey ∈ sentClaims log' → x.claimKey ∈ sentClaims log) :
    HeldOk rows' log' x where
  row := exists_row hgrown h.row
  current := fun hclean r hr hkey =>
    h.current (hclean.of_subset hlog) r (hrow hclean r hr hkey) hkey
  unsent := fun hnone hmem => h.unsent hnone (hunsent hnone hmem)
  sent := fun hsome => hlog (h.sent hsome)
  failed := fun code hsome hclean => hlog (h.failed code hsome (hclean.of_subset hlog))

/-- The row of a delivered message is as it was or marked, if nothing was recovered. -/
theorem SentOk.frame (h : SentOk rows log intentId adminId c ok) (hgrown : Grown rows rows')
    (hrow : Clean log' (intentId, adminId) → ok = true → ∀ r' ∈ rows',
      recipientKey r' = (intentId, adminId) → ∃ r ∈ rows, recipientKey r = (intentId, adminId) ∧
        r'.attempts = r.attempts ∧ (r'.status = r.status ∨ r'.status = .SENT))
    (hlog : log ⊆ log') : SentOk rows' log' intentId adminId c ok where
  row := exists_row hgrown h.row
  current := fun hclean hok r' hr' hkey => by
    obtain ⟨r, hr, hrkey, hattempts, hstatus⟩ := hrow hclean hok r' hr' hkey
    obtain ⟨hcurrent, hsending⟩ := h.current (hclean.of_subset hlog) hok r hr hrkey
    refine ⟨hattempts.trans hcurrent, ?_⟩
    rcases hstatus with hstatus | hstatus
    · exact hsending.imp hstatus.trans hstatus.trans
    · exact .inr hstatus

/-- What is to hold after a step of a worker: of its claims, of the others' and of the log. -/
structure Next (s : System) (w : ℕ) (rows : List SupportNotificationRecipient) (claims : List Held)
    (log : List Entry) : Prop where
  others : ∀ w', w' ≠ w → ∀ x ∈ heldBy (s.tasks w'), HeldOk rows log x
  held : ∀ x ∈ claims, HeldOk rows log x
  distinct : (claims.map Held.claimKey).Nodup
  apart : ∀ x ∈ claims, x.claimKey ∈ (heldBy (s.tasks w)).map Held.claimKey ∨
    ∀ w', w' ≠ w → ∀ y ∈ heldBy (s.tasks w'), x.claimKey ≠ y.claimKey
  sent : ∀ intentId adminId c ok, Entry.sent intentId adminId c ok ∈ log →
    SentOk rows log intentId adminId c ok
  once : (sentClaims log).Nodup
  marked : Marked rows log

theorem Sends.of_next (h : Sends s) (htasks : ∀ w', w' ≠ w → t.tasks w' = s.tasks w')
    (hn : Next s w t.db.recipients (heldBy (t.tasks w)) t.log) : Sends t := by
  have hfar : ∀ w', w' ≠ w → ∀ x ∈ heldBy (t.tasks w), ∀ y ∈ heldBy (s.tasks w'),
      x.claimKey ≠ y.claimKey := by
    intro w' hw x hx y hy
    rcases hn.apart x hx with hold | hnew
    · obtain ⟨z, hz, hkey⟩ := List.mem_map.mp hold
      exact hkey ▸ h.apart w w' hw.symm z hz y hy
    · exact hnew w' hw y hy
  refine ⟨fun w' x hx => ?_, hn.sent, hn.once, fun w' => ?_, fun w₁ w₂ hne x hx y hy => ?_,
    hn.marked⟩
  · by_cases hw : w' = w
    · exact hn.held x (hw ▸ hx)
    · exact hn.others w' hw x (htasks w' hw ▸ hx)
  · by_cases hw : w' = w
    · exact hw ▸ hn.distinct
    · exact htasks w' hw ▸ h.distinct w'
  · by_cases hw₁ : w₁ = w
    · have hw₂ : w₂ ≠ w := hw₁ ▸ hne.symm
      exact hfar w₂ hw₂ x (hw₁ ▸ hx) y (htasks w₂ hw₂ ▸ hy)
    · by_cases hw₂ : w₂ = w
      · exact (hfar w₁ hw₁ y (hw₂ ▸ hy) x (htasks w₁ hw₁ ▸ hx)).symm
      · exact h.apart w₁ w₂ hne x (htasks w₁ hw₁ ▸ hx) y (htasks w₂ hw₂ ▸ hy)

theorem Next.same (h : Sends s) {claims : List Held} (hsub : claims.Sublist (heldBy (s.tasks w))) :
    Next s w s.db.recipients claims s.log where
  others := fun w' _ => h.held w'
  held := fun x hx => h.held w x (hsub.subset hx)
  distinct := (h.distinct w).sublist (hsub.map _)
  apart := fun _ hx => .inl (List.mem_map_of_mem (hsub.subset hx))
  sent := h.sent
  once := h.once
  marked := h.marked

/-! ### A message is sent -/

variable {r : DeliverableRecipient} {claims : List Held}

theorem mem_sentClaims_append {e : Entry} {k k' : ℕ × ℕ × ℕ} (hk : e.claimKey = some k) :
    k' ∈ sentClaims (log ++ [e]) ↔ k' ∈ sentClaims log ∨ k' = k := by
  rw [sentClaims, List.filterMap_append, List.mem_append, List.filterMap_cons_some hk,
    List.filterMap_nil, List.mem_singleton]
  rfl

theorem Next.send (h : Sends s) (hheld : heldBy (s.tasks w) = unanswered r :: claims)
    (code : Option String) :
    Next s w s.db.recipients (⟨r, some code⟩ :: claims)
      (s.log ++ [.sent r.intentId r.adminId r.claim code.isNone]) := by
  have hlog : s.log ⊆ s.log ++ [.sent r.intentId r.adminId r.claim code.isNone] :=
    List.subset_append_left _ _
  have hlast : Entry.sent r.intentId r.adminId r.claim code.isNone ∈
      s.log ++ [.sent r.intentId r.adminId r.claim code.isNone] :=
    List.mem_append_right _ (List.mem_singleton_self _)
  have hgrown : Grown s.db.recipients s.db.recipients := .refl RecipientMove.refl _
  have hr : HeldOk s.db.recipients s.log (unanswered r) :=
    h.held w _ (hheld ▸ List.mem_cons_self)
  have hdistinct : (r.claimKey :: claims.map Held.claimKey).Nodup :=
    (congrArg (List.map Held.claimKey) hheld ▸ h.distinct w :)
  have hframe : ∀ x, HeldOk s.db.recipients s.log x → x.claimKey ≠ r.claimKey →
      HeldOk s.db.recipients (s.log ++ [.sent r.intentId r.adminId r.claim code.isNone]) x := by
    intro x hx hne
    refine hx.frame hgrown (fun _ _ h _ => h) hlog fun _ hmem => ?_
    exact ((mem_sentClaims_append rfl).mp hmem).resolve_right hne
  refine ⟨fun w' hw x hx => hframe x (h.held w' x hx) ?_, fun x hx => ?_, hdistinct, fun x hx => ?_,
    fun i a c ok he => ?_, ?_, fun row hrow hstatus => ?_⟩
  · exact h.apart w' w hw x hx _ (hheld ▸ List.mem_cons_self)
  · rcases List.mem_cons.mp hx with rfl | hx
    · refine ⟨hr.row, fun hclean => hr.current (hclean.of_subset hlog), fun hno => ?_,
        fun hno => ?_, fun c hc _ => ?_⟩
      · cases hno
      · cases hno
        exact hlast
      · cases hc
        exact hlast
    · refine hframe x (h.held w x (hheld ▸ List.mem_cons_of_mem _ hx)) fun heq => ?_
      exact (List.nodup_cons.mp hdistinct).1 (heq ▸ List.mem_map_of_mem hx)
  · refine .inl (hheld ▸ ?_)
    rcases List.mem_cons.mp hx with rfl | hx
    · exact List.mem_map.mpr ⟨unanswered r, List.mem_cons_self, rfl⟩
    · exact List.mem_map_of_mem (List.mem_cons_of_mem _ hx)
  · rcases List.mem_append.mp he with he | he
    · exact (h.sent i a c ok he).frame hgrown
        (fun _ _ row hrow hkey => ⟨row, hrow, hkey, rfl, .inl rfl⟩) hlog
    · cases List.mem_singleton.mp he
      refine ⟨hr.row, fun hclean _ row hrow hkey => ?_⟩
      obtain ⟨hstatus, hattempts⟩ := hr.current (hclean.of_subset hlog) row hrow hkey
      exact ⟨hattempts, .inl hstatus⟩
  · rw [sentClaims, List.filterMap_append, List.nodup_append]
    refine ⟨h.once, List.nodup_singleton _, fun k hk k' hk' heq => ?_⟩
    have hlastKey : k' = (unanswered r).claimKey := List.mem_singleton.mp hk'
    exact hr.unsent rfl (hlastKey ▸ heq ▸ hk)
  · obtain ⟨c, hc⟩ := h.marked row hrow hstatus
    exact ⟨c, hlog hc⟩

/-! ### Notes in the log -/

/-- The log says the same of the messages. -/
structure Noted (log log' : List Entry) : Prop where
  subset : log ⊆ log'
  claims : sentClaims log' = sentClaims log
  sends : ∀ intentId adminId c ok, Entry.sent intentId adminId c ok ∈ log' →
    Entry.sent intentId adminId c ok ∈ log

theorem Noted.append (h : ∀ e ∈ entries, e.claimKey = none) : Noted log (log ++ entries) where
  subset := List.subset_append_left _ _
  claims := by
    rw [sentClaims, List.filterMap_append, List.filterMap_eq_nil_iff.mpr h, List.append_nil]
    rfl
  sends := fun intentId adminId c ok he => by
    refine (List.mem_append.mp he).resolve_right fun hmem => ?_
    cases h _ hmem

theorem Next.noted (hn : Next s w rows claims log) (hnoted : Noted log log') :
    Next s w rows claims log' := by
  have hgrown : Grown rows rows := .refl RecipientMove.refl _
  have hheld : ∀ x, HeldOk rows log x → HeldOk rows log' x := fun x hx =>
    hx.frame hgrown (fun _ _ h _ => h) hnoted.subset fun _ hmem => hnoted.claims ▸ hmem
  refine ⟨fun w' hw x hx => hheld x (hn.others w' hw x hx), fun x hx => hheld x (hn.held x hx),
    hn.distinct, hn.apart, fun i a c ok he => ?_, hnoted.claims ▸ hn.once, fun r hr hstatus => ?_⟩
  · exact (hn.sent i a c ok (hnoted.sends i a c ok he)).frame hgrown
      (fun _ _ row hrow hkey => ⟨row, hrow, hkey, rfl, .inl rfl⟩) hnoted.subset
  · obtain ⟨c, hc⟩ := hn.marked r hr hstatus
    exact ⟨c, hnoted.subset hc⟩

/-- A success whose mark threw is taken for a failure. -/
theorem Next.unmarked (h : Sends s) (hheld : heldBy (s.tasks w) = ⟨r, some none⟩ :: claims)
    (hn : Next s w rows claims s.log) (hgrown : Grown s.db.recipients rows) (code : String) :
    Next s w rows (⟨r, some (some code)⟩ :: claims)
      (s.log ++ [.unmarked r.intentId r.adminId]) := by
  have hnoted : Noted s.log (s.log ++ [.unmarked r.intentId r.adminId]) := by
    refine .append fun e he => ?_
    rw [List.mem_singleton.mp he]
    rfl
  have hlast : Entry.unmarked r.intentId r.adminId ∈
      s.log ++ [.unmarked r.intentId r.adminId] :=
    List.mem_append_right _ (List.mem_singleton_self _)
  have hn' := hn.noted hnoted
  have hr := h.held w _ (hheld ▸ List.mem_cons_self)
  refine ⟨hn'.others, fun x hx => ?_, ?_, fun x hx => ?_, hn'.sent, hn'.once, hn'.marked⟩
  · rcases List.mem_cons.mp hx with rfl | hx
    · refine ⟨exists_row hgrown hr.row, fun hclean => absurd hlast hclean.unmarked, fun hno => ?_,
        fun hno => ?_, fun _ _ hclean => absurd hlast hclean.unmarked⟩
      · cases hno
      · cases hno
    · exact hn'.held x hx
  · exact (congrArg (List.map Held.claimKey) hheld ▸ h.distinct w :)
  · rcases List.mem_cons.mp hx with rfl | hx
    · exact .inl (hheld ▸ List.mem_map.mpr ⟨_, List.mem_cons_self, rfl⟩)
    · exact hn'.apart x hx

/-! ### One obligation is updated -/

variable {status : SupportRecipientStatus}
  {data : SupportNotificationRecipient → SupportNotificationRecipient}

theorem mem_updateRecipient {r' : SupportNotificationRecipient}
    (h : r' ∈ (updateRecipient intentId adminId status data db).recipients) :
    r' ∈ db.recipients ∨ ∃ r ∈ db.recipients, recipientKey r = (intentId, adminId) ∧
      r.status = status ∧ r' = data r := by
  obtain ⟨r, hr, rfl⟩ := mem_updateWhere.mp h
  split_ifs with hcond
  · obtain ⟨hintent, hadmin, hstatus⟩ := of_decide_eq_true hcond
    exact .inr ⟨r, hr, Prod.ext hintent hadmin, hstatus, rfl⟩
  · exact .inl hr

theorem RecipientData.key {r r' : SupportNotificationRecipient} (h : RecipientData r r') :
    recipientKey r' = recipientKey r :=
  Prod.ext h.intent h.admin

theorem HeldOk.updated {x : Held} (h : HeldOk db.recipients log x)
    (hk : Kept db (updateRecipient intentId adminId status data db))
    (hdata : ∀ r, RecipientData r (data r))
    (hfree : Clean log x.key → x.key = (intentId, adminId) → ∀ r ∈ db.recipients,
      recipientKey r = (intentId, adminId) → r.status ≠ status) :
    HeldOk (updateRecipient intentId adminId status data db).recipients log x := by
  refine h.frame hk.progress.recipients (fun hclean r' hr' hkey => ?_) (List.Subset.refl _)
    fun _ hmem => hmem
  rcases mem_updateRecipient hr' with hr' | ⟨r, hr, hrkey, hstatus, rfl⟩
  · exact hr'
  · have hsame := hkey.symm.trans ((hdata r).key.trans hrkey)
    exact absurd hstatus (hfree hclean hsame r hr hrkey)

theorem SentOk.updated {i a : ℕ} (h : SentOk db.recipients log i a c ok)
    (hk : Kept db (updateRecipient intentId adminId status data db))
    (hdata : ∀ r, RecipientData r (data r))
    (hfree : Clean log (i, a) → ok = true → (i, a) = (intentId, adminId) → ∀ r ∈ db.recipients,
      recipientKey r = (intentId, adminId) → r.status = status →
        (data r).attempts = r.attempts ∧ (data r).status = .SENT) :
    SentOk (updateRecipient intentId adminId status data db).recipients log i a c ok := by
  refine h.frame hk.progress.recipients (fun hclean hok r' hr' hkey => ?_) (List.Subset.refl _)
  rcases mem_updateRecipient hr' with hr' | ⟨r, hr, hrkey, hstatus, rfl⟩
  · exact ⟨r', hr', hkey, rfl, .inl rfl⟩
  · have hsame := hkey.symm.trans ((hdata r).key.trans hrkey)
    obtain ⟨hattempts, hsent⟩ := hfree hclean hok hsame r hr hrkey hstatus
    exact ⟨r, hr, hrkey.trans hsame.symm, hattempts, .inr hsent⟩

theorem Marked.updated (h : Marked db.recipients log)
    (hdata : ∀ r, RecipientData r (data r))
    (hsent : ∀ r, (data r).status = .SENT → ∃ c, Entry.sent intentId adminId c true ∈ log) :
    Marked (updateRecipient intentId adminId status data db).recipients log := by
  intro r' hr' hstatus
  rcases mem_updateRecipient hr' with hr' | ⟨r, hr, hrkey, -, rfl⟩
  · exact h r' hr' hstatus
  · obtain ⟨hintent, hadmin⟩ := Prod.mk.inj ((hdata r).key.trans hrkey)
    rw [hintent, hadmin]
    exact hsent r hstatus

/-! ### A pending obligation is claimed or skipped -/

theorem HeldOk.pending {x : Held} (h : HeldOk db.recipients log x)
    (hk : Kept db (updateRecipient intentId adminId .PENDING data db))
    (hdata : ∀ r, RecipientData r (data r)) :
    HeldOk (updateRecipient intentId adminId .PENDING data db).recipients log x := by
  refine h.updated hk hdata fun hclean hkey r hr hrkey hstatus => ?_
  rw [(h.current hclean r hr (hrkey.trans hkey.symm)).1] at hstatus
  cases hstatus

theorem SentOk.pending {i a : ℕ} (h : SentOk db.recipients log i a c ok)
    (hk : Kept db (updateRecipient intentId adminId .PENDING data db))
    (hdata : ∀ r, RecipientData r (data r)) :
    SentOk (updateRecipient intentId adminId .PENDING data db).recipients log i a c ok := by
  refine h.updated hk hdata fun hclean hok hkey r hr hrkey hstatus => ?_
  have hcurrent := (h.current hclean hok r hr (hrkey.trans hkey.symm)).2
  rw [hstatus] at hcurrent
  rcases hcurrent with hno | hno <;> cases hno

theorem Next.pending (h : Sends s) (hdb : DbSound s.db) (hdata : ∀ r, RecipientData r (data r))
    (hnot : ∀ r, (data r).status ≠ .SENT) (hsub : claims.Sublist (heldBy (s.tasks w))) :
    Next s w (updateRecipient intentId adminId .PENDING data s.db).recipients claims s.log := by
  have hk : Kept s.db (updateRecipient intentId adminId .PENDING data s.db) :=
    kept_updateRecipient hdb rfl hdata
  have hn := Next.same h hsub
  exact ⟨fun w' hw x hx => (hn.others w' hw x hx).pending hk hdata,
    fun x hx => (hn.held x hx).pending hk hdata, hn.distinct, hn.apart,
    fun i a c ok he => (hn.sent i a c ok he).pending hk hdata, hn.once,
    hn.marked.updated hdata fun r hstatus => absurd hstatus (hnot r)⟩

theorem row_eq {rows : List SupportNotificationRecipient} {r r' : SupportNotificationRecipient}
    (hkeys : (rows.map recipientKey).Nodup) (hr : r ∈ rows) (hr' : r' ∈ rows)
    (hkey : recipientKey r = recipientKey r') : r = r' :=
  eq_of_key hkeys hr hr' hkey

/-- A claim that was won is a new one. -/
theorem Next.pick (h : Sends s) (hdb : DbSound s.db) (hheld : heldBy (s.tasks w) = claims)
    (i : ℕ) (cand : Candidate) (now : Instant) :
    Next s w (claimRecipient i cand.adminId now s.db).recipients
      (claims ++ (wonClaim i cand s.db).map unanswered) s.log := by
  have hdata : ∀ r : SupportNotificationRecipient, RecipientData r
      { r with status := .SENDING, claimedAt := some now, attempts := r.attempts + 1 } :=
    fun r => ⟨rfl, rfl, Nat.le_succ _⟩
  have hk : Kept s.db (claimRecipient i cand.adminId now s.db) :=
    kept_updateRecipient hdb rfl hdata
  have hn : Next s w (claimRecipient i cand.adminId now s.db).recipients claims s.log := by
    refine .pending h hdb hdata (fun r hstatus => ?_) (hheld ▸ .refl _)
    cases hstatus
  rw [wonClaim]
  split
  · rename_i row hfilter
    have hmem : row ∈ s.db.recipients.filter (isRecipient i cand.adminId .PENDING) :=
      hfilter ▸ List.mem_singleton_self row
    obtain ⟨hrow, hcond⟩ := List.mem_filter.mp hmem
    obtain ⟨hintent, hadmin, hstatus⟩ := of_decide_eq_true hcond
    have hrowKey : recipientKey row = (i, cand.adminId) := Prod.ext hintent hadmin
    have hlate : ∀ c, (∃ r ∈ s.db.recipients, recipientKey r = (i, cand.adminId) ∧
        c ≤ r.attempts) → c ≠ row.attempts + 1 := by
      rintro c ⟨r, hr, hkey, hle⟩ rfl
      rw [row_eq hdb.recipientKeys hr hrow (hkey.trans hrowKey.symm)] at hle
      exact Nat.not_succ_le_self _ hle
    have hother : ∀ x : Held, HeldOk s.db.recipients s.log x →
        x.claimKey ≠ (i, cand.adminId, row.attempts + 1) := by
      intro x hx hkey
      obtain ⟨hxi, hrest⟩ := Prod.mk.inj hkey
      obtain ⟨hxa, hxc⟩ := Prod.mk.inj hrest
      refine hlate _ ?_ hxc
      obtain ⟨r, hr, hrkey, hle⟩ := hx.row
      exact ⟨r, hr, hrkey.trans (Prod.ext hxi hxa), hle⟩
    have hnew : { row with status := .SENDING, claimedAt := some now, attempts := row.attempts + 1 }
        ∈ (claimRecipient i cand.adminId now s.db).recipients :=
      mem_updateWhere.mpr ⟨row, hrow, if_pos hcond⟩
    refine ⟨hn.others, fun x hx => ?_, ?_, fun x hx => ?_, hn.sent, hn.once, hn.marked⟩
    · rcases List.mem_append.mp hx with hx | hx
      · exact hn.held x hx
      · rw [List.map_singleton, List.mem_singleton] at hx
        subst hx
        refine ⟨⟨_, hnew, hrowKey, le_rfl⟩, fun _ r hr hkey => ?_, fun _ hmem => ?_, fun hno => ?_,
          fun _ hno => ?_⟩
        · rw [row_eq hk.sound.recipientKeys hr hnew (hkey.trans hrowKey.symm)]
          exact ⟨rfl, rfl⟩
        · obtain ⟨e, he, hekey⟩ := List.mem_filterMap.mp hmem
          cases e with
          | sent i' a' c' ok' =>
            obtain ⟨rfl, hrest⟩ := Prod.mk.inj (Option.some.inj hekey)
            obtain ⟨rfl, hc⟩ := Prod.mk.inj hrest
            exact hlate c' (h.sent _ _ _ _ he).row hc
          | recovered | unmarked => cases hekey
        · cases hno
        · cases hno
    · rw [List.map_append, List.nodup_append]
      refine ⟨hn.distinct, List.nodup_singleton _, fun k hk k' hk' heq => ?_⟩
      obtain ⟨x, hx, rfl⟩ := List.mem_map.mp hk
      refine hother x (h.held w x (hheld ▸ hx)) ?_
      rw [heq]
      exact List.mem_singleton.mp hk'
    · rcases List.mem_append.mp hx with hx | hx
      · exact hn.apart x hx
      · rw [List.map_singleton, List.mem_singleton] at hx
        subst hx
        exact .inr fun w' hw y hy => (hother y (h.held w' y hy)).symm
  · rw [List.map_nil, List.append_nil]
    exact hn

/-! ### A claim is marked -/

theorem HeldOk.marked {x : Held} {answer : Option (Option String)}
    (h : HeldOk db.recipients log x) (hr : HeldOk db.recipients log ⟨r, answer⟩)
    (hne : x.claimKey ≠ r.claimKey)
    (hk : Kept db (updateRecipient r.intentId r.adminId .SENDING data db))
    (hdata : ∀ r, RecipientData r (data r)) :
    HeldOk (updateRecipient r.intentId r.adminId .SENDING data db).recipients log x := by
  refine h.updated hk hdata fun hclean hkey row hrow hrowKey _ => hne ?_
  have hsame : Clean log (Held.key ⟨r, answer⟩) := (congrArg (Clean log) hkey).mp hclean
  have hx := (h.current hclean row hrow (hrowKey.trans hkey.symm)).2
  have hr' := (hr.current hsame row hrow hrowKey).2
  obtain ⟨hintent, hadmin⟩ := Prod.mk.inj hkey
  exact Prod.ext hintent (Prod.ext hadmin (hx.symm.trans hr'))

/-- The worker marks what it was answered: a delivery as sent, a failure as anything but sent. -/
theorem Next.mark (h : Sends s) (hdb : DbSound s.db) {code : Option String}
    (hheld : heldBy (s.tasks w) = ⟨r, some code⟩ :: claims)
    (hdata : ∀ r, RecipientData r (data r))
    (hsent : code = none → ∀ r, (data r).attempts = r.attempts ∧ (data r).status = .SENT)
    (hfailed : code ≠ none → ∀ r, (data r).status ≠ .SENT) :
    Next s w (updateRecipient r.intentId r.adminId .SENDING data s.db).recipients claims s.log := by
  have hk : Kept s.db (updateRecipient r.intentId r.adminId .SENDING data s.db) :=
    kept_updateRecipient hdb rfl hdata
  have hr := h.held w _ (hheld ▸ List.mem_cons_self)
  have hdistinct : (r.claimKey :: claims.map Held.claimKey).Nodup :=
    (congrArg (List.map Held.claimKey) hheld ▸ h.distinct w :)
  have hn : Next s w s.db.recipients claims s.log :=
    .same h (hheld ▸ List.sublist_cons_self _ _)
  refine ⟨fun w' hw x hx => (hn.others w' hw x hx).marked hr ?_ hk hdata,
    fun x hx => (hn.held x hx).marked hr (fun heq => ?_) hk hdata, hn.distinct, hn.apart,
    fun i a c ok he => ?_, hn.once, hn.marked.updated hdata fun row hstatus => ?_⟩
  · exact h.apart w' w hw x hx _ (hheld ▸ List.mem_cons_self)
  · exact (List.nodup_cons.mp hdistinct).1 (heq ▸ List.mem_map_of_mem hx)
  · have hok' := hn.sent i a c ok he
    refine hok'.updated hk hdata fun hclean hok hkey row hrow hrowKey _ => ?_
    cases code with
    | none => exact hsent rfl row
    | some code =>
      -- the claim was answered with a failure, so it is not the one that was delivered
      have hc := (hok'.current hclean hok row hrow (hrowKey.trans hkey.symm)).1
      have hsame : Clean s.log (r.intentId, r.adminId) := (congrArg (Clean s.log) hkey).mp hclean
      have hclaim := (hr.current hsame row hrow hrowKey).2
      obtain ⟨rfl, rfl⟩ := Prod.mk.inj hkey
      subst hok
      have hfail := hr.failed code rfl hclean
      have hsame := sent_unique h.once he hfail rfl
        (congrArg some (Prod.ext rfl (Prod.ext rfl (hclaim.symm.trans hc))))
      cases hsame
  · cases code with
    | none => exact ⟨_, hr.sent rfl⟩
    | some code => exact absurd hstatus (hfailed (Option.some_ne_none code) row)

/-! ### Obligations are added or recovered -/

/-- The rows that were there stay, and the rows that are new are pending. -/
theorem Next.grow {db' : Db} (h : Sends s) (hk : Kept s.db db')
    (hsub : s.db.recipients ⊆ db'.recipients)
    (hpending : ∀ r ∈ db'.recipients, r ∈ s.db.recipients ∨ r.status = .PENDING)
    (hclaims : claims.Sublist (heldBy (s.tasks w))) : Next s w db'.recipients claims s.log := by
  have hold : ∀ k c, (∃ r ∈ s.db.recipients, recipientKey r = k ∧ c ≤ r.attempts) →
      ∀ r ∈ db'.recipients, recipientKey r = k → r ∈ s.db.recipients := by
    rintro k c ⟨r₀, hr₀, hkey₀, -⟩ r hr hkey
    rwa [row_eq hk.sound.recipientKeys hr (hsub hr₀) (hkey.trans hkey₀.symm)]
  have hheld : ∀ x, HeldOk s.db.recipients s.log x → HeldOk db'.recipients s.log x := fun x hx =>
    hx.frame hk.progress.recipients (fun _ => hold _ _ hx.row) (List.Subset.refl _) fun _ h => h
  have hn := Next.same h hclaims
  refine ⟨fun w' hw x hx => hheld x (hn.others w' hw x hx), fun x hx => hheld x (hn.held x hx),
    hn.distinct, hn.apart, fun i a c ok he => ?_, hn.once, fun r hr hstatus => ?_⟩
  · have hok := hn.sent i a c ok he
    refine hok.frame hk.progress.recipients (fun _ _ r hr hkey => ?_) (List.Subset.refl _)
    exact ⟨r, hold _ _ hok.row r hr hkey, hkey, rfl, .inl rfl⟩
  · rcases hpending r hr with hr | hno
    · exact hn.marked r hr hstatus
    · rw [hstatus] at hno
      cases hno

theorem Next.freeze (h : Sends s) (hdb : DbSound s.db) {adminIds : List ℕ}
    (hadmins : adminIds.Nodup) (i : ℕ) (now : Instant)
    (hclaims : claims.Sublist (heldBy (s.tasks w))) :
    Next s w (Outbox.freeze i adminIds now s.db).recipients claims s.log := by
  refine .grow h (kept_freeze hdb hadmins now) ?_ ?_ hclaims
  · rw [Outbox.freeze]
    split_ifs
    · exact List.Subset.refl _
    · exact List.subset_append_left _ _
  · intro r hr
    rw [Outbox.freeze] at hr
    split_ifs at hr
    · exact .inl hr
    · exact (List.mem_append.mp hr).imp_right fun hnew => (mem_newRecipients hnew).2.1

/-- A claim that is recovered is noted in the log. -/
theorem Next.recover (h : Sends s) (hdb : DbSound s.db) (ticketIds : Option (List ℕ))
    (now : Instant) :
    Next s w (recoverRecipients ticketIds now s.db).recipients (heldBy (s.tasks w))
      (s.log ++ (s.db.recipients.filter (staleRecipient ticketIds now s.db)).map
        fun r => .recovered r.intentId r.adminId) := by
  have hk : Kept s.db (recoverRecipients ticketIds now s.db) :=
    kept_recoverRecipients hdb ticketIds now
  set notes : List Entry := (s.db.recipients.filter (staleRecipient ticketIds now s.db)).map
    fun r => .recovered r.intentId r.adminId with hnotes
  have hnoted : Noted s.log (s.log ++ notes) := by
    refine .append fun e he => ?_
    obtain ⟨r, -, rfl⟩ := List.mem_map.mp he
    rfl
  -- a row that was recovered is not clean
  have hold : ∀ k, Clean (s.log ++ notes) k →
      ∀ r ∈ (recoverRecipients ticketIds now s.db).recipients, recipientKey r = k →
        r ∈ s.db.recipients := by
    rintro k hclean r hr rfl
    obtain ⟨r₀, hr₀, rfl⟩ := mem_updateWhere.mp hr
    split_ifs at hclean ⊢ with hstale
    · refine absurd (List.mem_append_right _ (List.mem_map.mpr ⟨r₀, ?_, rfl⟩)) hclean.recovered
      exact List.mem_filter.mpr ⟨hr₀, hstale⟩
    · exact hr₀
  have hheld : ∀ x, HeldOk s.db.recipients s.log x →
      HeldOk (recoverRecipients ticketIds now s.db).recipients (s.log ++ notes) x := fun x hx =>
    hx.frame hk.progress.recipients (fun hclean => hold _ hclean) hnoted.subset
      fun _ hmem => hnoted.claims ▸ hmem
  have hn : Next s w s.db.recipients (heldBy (s.tasks w)) s.log := .same h (.refl _)
  refine ⟨fun w' hw x hx => hheld x (hn.others w' hw x hx), fun x hx => hheld x (hn.held x hx),
    hn.distinct, hn.apart, fun i a c ok he => ?_, hnoted.claims ▸ hn.once, fun r hr hstatus => ?_⟩
  · have hok := hn.sent i a c ok (hnoted.sends i a c ok he)
    refine hok.frame hk.progress.recipients (fun hclean _ r hr hkey => ?_) hnoted.subset
    exact ⟨r, hold _ hclean r hr hkey, hkey, rfl, .inl rfl⟩
  · obtain ⟨r₀, hr₀, rfl⟩ := mem_updateWhere.mp hr
    split_ifs at hstatus ⊢
    obtain ⟨c, hc⟩ := hn.marked r₀ hr₀ hstatus
    exact ⟨c, hnoted.subset hc⟩

/-! ### The steps -/

theorem Next.delivers {i : DeliverableIntent} {phase phase' : Phase} (h : Sends s)
    (hdb : DbSound s.db) (hphase : PhaseOk s.db i.id phase)
    (hheld : heldBy (s.tasks w) = phase.held) (hd : Delivers s.db i phase db' phase' entries) :
    Next s w db'.recipients phase'.held (s.log ++ entries) := by
  cases hd with
  | snapshot | retryFreeze | readDue | count =>
    rw [List.append_nil]
    exact .same h (List.nil_sublist _)
  | freeze adminIds now =>
    rw [List.append_nil]
    exact .freeze h hdb hphase _ now (List.nil_sublist _)
  | pick c candidates claimed now =>
    rw [List.append_nil, Phase.held, List.map_append]
    exact .pick h hdb hheld i.id c now
  | skip c candidates claimed =>
    rw [List.append_nil]
    refine .pending h hdb (fun r => ⟨rfl, rfl, le_rfl⟩) (fun r hstatus => ?_) (hheld ▸ .refl _)
    cases hstatus
  | picked claimed =>
    rw [List.append_nil]
    exact .same h (hheld ▸ .refl _)
  | send r todo code => exact .send h hheld code
  | markSent r todo now =>
    rw [List.append_nil]
    exact .mark h hdb hheld (fun r => ⟨rfl, rfl, le_rfl⟩) (fun _ r => ⟨rfl, rfl⟩)
      fun hno => absurd rfl hno
  | markFailed r todo code now =>
    rw [List.append_nil]
    refine .mark h hdb hheld (fun r => ⟨rfl, rfl, le_rfl⟩) (fun hno => ?_) fun _ r hstatus => ?_
    · cases hno
    · change (if decide (NOTIFICATION_MAX_ATTEMPTS ≤ _) = true then
        SupportRecipientStatus.FAILED else .PENDING) = .SENT at hstatus
      split_ifs at hstatus
  | markThrows r todo code =>
    refine .unmarked h hheld (.same h ?_) (.refl RecipientMove.refl _) code
    exact hheld ▸ List.sublist_cons_self _ _
  | markApplied r todo code now =>
    have hdata : ∀ r : SupportNotificationRecipient, RecipientData r
        { r with status := .SENT, sentAt := some now, claimedAt := none, safeErrorCode := none } :=
      fun r => ⟨rfl, rfl, le_rfl⟩
    have hk : Kept s.db (markRecipientSent r.intentId r.adminId now s.db) :=
      kept_updateRecipient hdb rfl hdata
    refine .unmarked h hheld (.mark h hdb hheld hdata (fun _ r => ⟨rfl, rfl⟩)
      fun hno => absurd rfl hno) hk.progress.recipients code

theorem settleIntent_recipients (id intentAttempts : ℕ) (counts : Counts) (now : Instant)
    (db : Db) : (settleIntent id intentAttempts counts now db).recipients = db.recipients := by
  rw [settleIntent]
  split
  · rfl
  · rfl

theorem Next.acts {task task' : Option Task} (h : Sends s) (hsound : Sound s)
    (htask : s.tasks w = task) (ha : Acts s.db task db' task' entries) :
    Next s w db'.recipients (heldBy task') (s.log ++ entries) := by
  cases ha with
  | sweep | look | claim | finish | next | abandon | reject | die =>
    rw [List.append_nil]
    exact .same h (List.nil_sublist _)
  | settle i owned counts now =>
    rw [List.append_nil, settleIntent_recipients]
    exact .same h (List.nil_sublist _)
  | deliver i owned hd =>
    exact .delivers h hsound.db (hsound.tasks w _ htask).2 (congrArg heldBy htask) hd

theorem Sends.step {e : Event} (h : Sends s) (hsound : Sound s) (hs : Outbox.step s e = some t) :
    Sends t := by
  cases e with
  | record =>
    rw [Outbox.step] at hs
    split_ifs at hs
    cases hs
    exact ⟨h.held, h.sent, h.once, h.distinct, h.apart, h.marked⟩
  | setActive | recoverIntents =>
    cases hs
    exact ⟨h.held, h.sent, h.once, h.distinct, h.apart, h.marked⟩
  | recoverRecipients ticketIds now =>
    cases hs
    exact h.of_next (w := 0) (fun _ _ => rfl) (.recover h hsound.db ticketIds now)
  | act w a =>
    obtain ⟨⟨db', task', entries⟩, hact, rfl⟩ := Option.map_eq_some_iff.mp hs
    have hn := Next.acts h hsound rfl (acts_of_act hact)
    refine h.of_next (w := w) (fun w' hw => Function.update_of_ne hw ..) ?_
    change Next s w db'.recipients (heldBy (Function.update s.tasks w task' w)) _
    rw [Function.update_self]
    exact hn

theorem Start.sends (h : Start s) : Sends s := by
  have hheld : ∀ w, heldBy (s.tasks w) = [] := fun w => by rw [h.tasks w, heldBy]
  refine ⟨fun w x hx => ?_, fun i a c ok he => ?_, ?_, fun w => ?_, fun w w' _ x hx => ?_,
    fun r hr => ?_⟩
  · rw [hheld] at hx
    cases hx
  · rw [h.log] at he
    cases he
  · rw [h.log]
    exact List.nodup_nil
  · rw [hheld]
    exact List.nodup_nil
  · rw [hheld] at hx
    cases hx
  · rw [h.recipients] at hr
    cases hr

theorem Sends.reaches (hstart : Start s₀) (h : Reaches s₀ s) : Sends s := by
  induction h with
  | start => exact hstart.sends
  | step hr hs ih => exact ih.step (hstart.sound.reaches hr) hs

theorem Entry.isDelivery_iff {e : Entry} : e.isDelivery intentId adminId = true ↔
    ∃ c, e = .sent intentId adminId c true := by
  cases e with
  | sent i a c ok =>
    rw [Entry.isDelivery, decide_eq_true_iff]
    constructor
    · rintro ⟨rfl, rfl, rfl⟩
      exact ⟨c, rfl⟩
    · rintro ⟨c', heq⟩
      cases heq
      exact ⟨rfl, rfl, rfl⟩
  | recovered | unmarked =>
    rw [Entry.isDelivery]
    refine iff_of_false Bool.false_ne_true ?_
    rintro ⟨c, heq⟩
    cases heq

/-- Two deliveries of one obligation were under two claims, and only the last can stand. -/
theorem Sends.delivered_once (h : Sends s) (hclean : Clean s.log (intentId, adminId)) :
    s.log.countP (Entry.isDelivery intentId adminId) ≤ 1 := by
  rw [List.countP_eq_length_filter]
  have hsub : (s.log.filter (Entry.isDelivery intentId adminId)).Sublist s.log :=
    List.filter_sublist
  have hall : ∀ e ∈ s.log.filter (Entry.isDelivery intentId adminId),
      ∃ c, e = .sent intentId adminId c true := fun e he =>
    Entry.isDelivery_iff.mp (List.mem_filter.mp he).2
  rcases hF : s.log.filter (Entry.isDelivery intentId adminId) with _ | ⟨e, _ | ⟨e', rest⟩⟩
  · exact Nat.zero_le _
  · exact le_rfl
  · rw [hF] at hsub hall
    obtain ⟨c, rfl⟩ := hall e List.mem_cons_self
    obtain ⟨c', rfl⟩ := hall e' (List.mem_cons_of_mem _ List.mem_cons_self)
    have hok := h.sent _ _ _ _ (hsub.subset List.mem_cons_self)
    have hok' := h.sent _ _ _ _ (hsub.subset (List.mem_cons_of_mem _ List.mem_cons_self))
    obtain ⟨r, hr, hkey, -⟩ := hok.row
    have hsame : c = c' := (hok.current hclean rfl r hr hkey).1.symm.trans
      (hok'.current hclean rfl r hr hkey).1
    have hnodup : (sentClaims (.sent intentId adminId c true :: .sent intentId adminId c' true ::
        rest)).Nodup := h.once.sublist (hsub.filterMap _)
    rw [hsame] at hnodup
    exact absurd List.mem_cons_self (List.nodup_cons.mp hnodup).1

/-- What is sent: one message for each claim, marked as sent only after a success, and a second
    success only where a claim was recovered or a mark threw. -/
theorem sends_of_claims (hstart : Start s₀) (h : Reaches s₀ s) :
    (sentClaims s.log).Nodup ∧
      (∀ intentId adminId c ok, Entry.sent intentId adminId c ok ∈ s.log →
        ∃ r ∈ s.db.recipients, recipientKey r = (intentId, adminId) ∧ c ≤ r.attempts) ∧
      (∀ r ∈ s.db.recipients, r.status = .SENT →
        0 < s.log.countP (Entry.isDelivery r.intentId r.adminId)) ∧
      ∀ intentId adminId, Clean s.log (intentId, adminId) →
        s.log.countP (Entry.isDelivery intentId adminId) ≤ 1 := by
  have hsends := Sends.reaches hstart h
  refine ⟨hsends.once, fun i a c ok he => (hsends.sent i a c ok he).row, fun r hr hstatus => ?_,
    fun i a => hsends.delivered_once⟩
  · obtain ⟨c, hc⟩ := hsends.marked r hr hstatus
    exact List.countP_pos_iff.mpr ⟨_, hc, Entry.isDelivery_iff.mpr ⟨c, rfl⟩⟩

theorem sends_of_claims_told : ∃ s, Reaches twoAdmins s ∧ Clean s.log (7, 2) ∧
    s.log.countP (Entry.isDelivery 7 2) ≤ 1 := by
  obtain ⟨s, hs, -, -, hlog⟩ := told
  have hclean : Clean s.log (7, 2) := by
    rw [hlog]
    exact ⟨by decide, by decide⟩
  exact ⟨s, hs, hclean, (sends_of_claims start_twoAdmins hs).2.2.2 7 2 hclean⟩

end ZedBot.Support.Outbox
