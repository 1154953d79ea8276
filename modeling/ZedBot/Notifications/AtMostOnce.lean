import ZedBot.Notifications.Delivery

/-! A notification is sent once, as long as a run sends and records only while its claim stands, and no
    claim is ended by another after its message was sent. -/

namespace ZedBot.Notifications
open ReadCommitted

variable {procs : ℕ → NoticeProcess} {p q id : ℕ} {s s' : NoticeStore} {t : NoticeTx}

/-! ### The history of a row -/

/-- The run has not sent its message. -/
def Unsent (s : NoticeStore) (p : ℕ) : Prop := ∀ x ∈ s.world, x.run ≠ p

/-- A commit writes a row. -/
def writes (id : ℕ) (e : Commit NoticeRow Unit) : Bool := (e.tx.chg (.notification id)).isSome

/-- A commit makes a row SENDING. -/
def claims (id : ℕ) (e : Commit NoticeRow Unit) : Bool :=
  (e.tx.chg (.notification id)).any fun c => c.2.any fun n => n.status = .SENDING

/-- Who wrote a row last. -/
def lastWriter (s : NoticeStore) (id : ℕ) : Option ℕ := (s.log.find? (writes id)).map (·.pid)

/-- The run has claimed a row. -/
def hasClaimed (s : NoticeStore) (p id : ℕ) : Bool := s.log.any fun e => e.pid = p ∧ claims id e

def isSending (s : NoticeStore) (id : ℕ) : Bool :=
  (s.rows (.notification id)).any fun n => n.status = .SENDING

/-- The claim of a run is the last write of its row. -/
def claimStands (s : NoticeStore) (p id : ℕ) : Bool := lastWriter s id = some p ∧ isSending s id

/-! ### The rules -/

/-- What may become of a row.
    `guarded`: one that is not terminal changes, before the run has sent.
    `deleted`: one that is not SENDING goes.
    `result`: a run that has claimed it records its result, SENT where it has sent. -/
inductive RowMove (procs : ℕ → NoticeProcess) (s : NoticeStore) (p id : ℕ) :
    AutomatedNotification → Option AutomatedNotification → Prop
  | guarded {row row' : AutomatedNotification} (hunsent : Unsent s p) (h : row.status ∉ TERMINAL) :
    RowMove procs s p id row (some row')
  | deleted {row : AutomatedNotification} (hunsent : Unsent s p) (h : row.status ≠ .SENDING) :
    RowMove procs s p id row none
  | result {row row' : AutomatedNotification} (hproc : ∃ b, procs p = .deliver id b)
    (hclaimed : hasClaimed s p id = true) (hsent : Unsent s p ∨ row'.status = .SENT) :
    RowMove procs s p id row (some row')

/-- The rules of the deliveries. -/
def delivering (procs : ℕ → NoticeProcess) : Discipline NoticeRow Unit (List Sent) where
  Inv _ := True
  Commits p _ s t := ∀ id o n, t.chg (.notification id) = some (o, n) →
    ∃ row, o = some row ∧ RowMove procs s p id row n
  Acts p _ s w := w = s.world ∨ Unsent s p ∧ ∃ id, w = ⟨id, p⟩ :: s.world
  commits_empty _ _ _ _ h := (nomatch h)
  inv_commit _ _ _ := trivial
  inv_act _ _ := trivial

theorem Unsent.later {ks : NoticeKey → Prop} (h : Unsent s p)
    (hl : (delivering procs).Later p ks s s') : Unsent s' p := by
  refine hl.stable (P := fun s => Unsent s p) (fun hq _ hst h => ?_) trivial h
  cases hst with
  | commit t _ _ => exact h
  | act w hw =>
    rcases hw with rfl | ⟨-, id, rfl⟩
    · exact h
    · intro x hx
      rcases List.mem_cons.mp hx with rfl | hx
      · exact hq
      · exact h x hx

theorem claimed_later {ks : NoticeKey → Prop} (h : hasClaimed s p id = true)
    (hl : (delivering procs).Later p ks s s') : hasClaimed s' p id = true := by
  refine hl.stable (P := fun s => hasClaimed s p id = true) (fun _ _ hst h => ?_) trivial h
  cases hst with
  | act w _ => exact h
  | commit t _ _ =>
    obtain ⟨e, he, hc⟩ := List.any_eq_true.mp h
    exact List.any_eq_true.mpr ⟨e, List.mem_cons_of_mem _ he, hc⟩

/-! ### Statements -/

section Statements

variable {r : List NoticeStore} {cond : AutomatedNotification → Bool}
  {data : AutomatedNotification → AutomatedNotification}

/-- What the update of one row leads to. -/
theorem onRow_some {o n : Option AutomatedNotification} (h : onRow cond data o = some n) :
    ∃ row, o = some row ∧ cond row = true ∧ n = some (data row) := by
  cases o with
  | none => cases h
  | some row =>
    rw [onRow] at h
    split at h
    · cases h
      exact ⟨row, rfl, ‹_›, rfl⟩
    · cases h

theorem chg_write {id' : ℕ} {n o n' : Option AutomatedNotification}
    (h : (Tx.write ({} : NoticeTx) s.rows ⟨.notification id, n⟩).chg (.notification id') =
      some (o, n')) : id' = id ∧ o = s.rows (.notification id') ∧ n' = n := by
  by_cases hid : id' = id
  · subst hid
    rw [Tx.chg_write_self] at h
    cases h
    exact ⟨rfl, rfl, rfl⟩
  · rw [Tx.chg_write_ne _ fun he => hid (by cases he; rfl)] at h
    cases h

/-- An update that asks for a row that is not terminal, by a run that has not sent. -/
theorem wp_updateOpen {Q : ℕ → Local NoticeRow Unit (List Sent) → NoticeStore → Prop}
    (hunsent : Unsent s p) (hcond : ∀ n, cond n = true → n.status ∉ TERMINAL)
    (h0 : ∀ s', Unsent s' p → Q 0 ⟨none, r⟩ s')
    (h1 : ∀ s' n, Unsent s' p → (∃ e ∈ s'.log, e.pid = p ∧ ∃ o,
      e.tx.chg (.notification id) = some (o, some (data n))) → Q 1 ⟨none, r⟩ s') :
    wp (delivering procs) p (updateMany id cond data) Q ⟨none, r⟩ s := by
  refine wp_update fun s' hl _ => ?_
  have hunsent' : Unsent s' p := hunsent.later hl
  refine ⟨fun _ => h0 _ hunsent', fun n hn => ?_⟩
  obtain ⟨row, hrow, hc, rfl⟩ := onRow_some hn
  refine ⟨fun id' o n' hchg => ?_, h1 _ row hunsent' ⟨_, .head _, rfl, s'.rows _, ?_⟩⟩
  · obtain ⟨rfl, rfl, rfl⟩ := chg_write hchg
    exact ⟨row, hrow, .guarded hunsent' (hcond row hc)⟩
  · exact Tx.chg_write_self _ _

/-- The result of a run that has claimed its row. -/
theorem wp_record {b : Bool} (hproc : procs p = .deliver id b) (hclaimed : hasClaimed s p id = true)
    (hsent : Unsent s p ∨ ∀ n, (data n).status = .SENT) :
    wp (delivering procs) p (record id data) (fun _ _ _ => True) ⟨none, r⟩ s := by
  refine wp_update fun s' hl _ => ⟨fun _ => trivial, fun n hn => ⟨fun id' o n' hchg => ?_, trivial⟩⟩
  obtain ⟨row, hrow, -, rfl⟩ := onRow_some hn
  obtain ⟨rfl, rfl, rfl⟩ := chg_write hchg
  refine ⟨row, hrow, .result ⟨b, hproc⟩ (claimed_later hclaimed hl) ?_⟩
  exact hsent.imp (fun h => h.later hl) fun h => h row

end Statements

/-! ### Processes -/

theorem firstGate_asks : ∀ {checks : List (Notices (Option Gate))}, (∀ c ∈ checks, c.Asks) →
    (firstGate checks).Asks
  | [], _ => .pure _
  | check :: rest, h => by
    refine .bind (h check (.head _)) fun gate => ?_
    split
    · exact .pure _
    · exact firstGate_asks fun c hc => h c (.tail _ hc)

theorem revalidate_checks_ask (now : ℕ) (n : AutomatedNotification) : ∀ c ∈ [windowGate now n,
    systemGate, userGate, serviceGate n, checkoutGate n, winbackGate n, starsGate n,
    autoRenewalGate n, lowBalanceGate n, quietGate n, capGate n], c.Asks := by
  intro c hc
  simp only [List.mem_cons, List.not_mem_nil, or_false] at hc
  rcases hc with rfl | rfl | rfl | rfl | rfl | rfl | rfl | rfl | rfl | rfl | rfl
  · exact .pure _
  · exact .bind (.ask _) fun _ => .pure _
  · exact .bind (.ask _) fun _ => .pure _
  · rw [serviceGate]
    split
    · refine .bind (.ask _) fun service => ?_
      split
      · exact .pure _
      split
      · exact .pure _
      · exact .pure _
    · exact .pure _
  · rw [checkoutGate]
    split
    · exact .bind (.ask _) fun _ => .pure _
    · exact .pure _
  · rw [winbackGate]
    split
    · exact .ask _
    · exact .pure _
  · rw [starsGate]
    split
    · exact .bind (.ask _) fun _ => .pure _
    · exact .pure _
  · rw [autoRenewalGate]
    split
    · refine .bind (.ask _) fun enabled => ?_
      split
      · exact .pure _
      · exact .bind (.ask _) fun _ => .pure _
    · exact .pure _
  · rw [lowBalanceGate]
    split
    · exact .bind (.ask _) fun _ => .pure _
    · exact .pure _
  · exact .bind (.ask _) fun _ => .pure _
  · exact .bind (.ask _) fun _ => .pure _

/-- The checks read, and write nothing. -/
theorem revalidate_asks (now : ℕ) (n : AutomatedNotification) : (revalidate now n).Asks :=
  firstGate_asks (revalidate_checks_ask now n)

variable {r : List NoticeStore}

theorem isOpen_iff {n : AutomatedNotification} : isOpen n = true ↔ n.status ∉ TERMINAL :=
  decide_eq_true_iff

theorem wp_markTerminal (hunsent : Unsent s p) (decision : Terminal) :
    wp (delivering procs) p (markTerminal id decision) (fun _ _ _ => True) ⟨none, r⟩ s := by
  refine (wp_seq _ _).mpr (wp_ask _ fun c => wp_updateOpen hunsent (fun n => isOpen_iff.mp) ?_ ?_)
  · exact fun _ _ => trivial
  · exact fun _ _ _ _ => trivial

theorem wp_deferTo (hunsent : Unsent s p) (later : ℕ) :
    wp (delivering procs) p (deferTo id later) (fun _ _ _ => True) ⟨none, r⟩ s := by
  refine (wp_seq _ _).mpr (wp_ask _ fun c => wp_updateOpen hunsent (fun n => isOpen_iff.mp) ?_ ?_)
  · exact fun _ _ => trivial
  · exact fun _ _ _ _ => trivial

theorem open_of_claimable {n : AutomatedNotification} (h : isClaimable n = true) :
    n.status ∉ TERMINAL := by
  rw [isClaimable, decide_eq_true_eq] at h
  revert h
  cases n.status <;> decide

/-- After its claim a run sends at most once, and records what came of it. -/
theorem wp_sendClaimed {b : Bool} (hproc : procs p = .deliver id b) (hunsent : Unsent s p)
    (hclaimed : hasClaimed s p id = true) (n : AutomatedNotification) :
    wp (delivering procs) p (sendClaimed p id b n) (fun _ _ _ => True) ⟨none, r⟩ s := by
  refine (wp_seq _ _).mpr (wp_ask _ fun c => ?_)
  split
  · refine (wp_seq _ _).mpr (wp_ask _ fun c => (wp_seq _ _).mpr ?_)
    exact wp_record hproc hclaimed (.inl hunsent)
  refine (wp_seq _ _).mpr (wp_ask _ fun c => ?_)
  split
  · exact (wp_seq _ _).mpr (wp_markTerminal hunsent _)
  refine (wp_seq _ _).mpr (wp_ext _ fun s' hl _ c => ?_)
  have hunsent' : Unsent s' p := hunsent.later hl
  have hclaimed' : hasClaimed s' p id = true := claimed_later hclaimed hl
  split
  · refine ⟨.inr ⟨hunsent', id, rfl⟩, (wp_seq _ _).mpr (wp_ask _ fun c => (wp_seq _ _).mpr ?_)⟩
    exact wp_record hproc hclaimed' (.inr fun _ => rfl)
  · refine ⟨.inl rfl, (wp_seq _ _).mpr (wp_ask _ fun c => (wp_seq _ _).mpr ?_)⟩
    exact wp_record hproc hclaimed' (.inl hunsent')

theorem wp_deliver {b : Bool} (hproc : procs p = .deliver id b) (hunsent : Unsent s p) :
    wp (delivering procs) p (deliver p id b) (fun _ _ _ => True) ⟨none, r⟩ s := by
  refine (wp_seq _ _).mpr (wp_ask _ fun c => (wp_seq _ _).mpr (wp_select _ fun s₁ hl _ => ?_))
  have hunsent₁ : Unsent s₁ p := hunsent.later hl
  split
  · trivial
  split
  · trivial
  refine (wp_seq _ _).mpr (wp_asks _ (revalidate_asks _ _) fun gate => ?_)
  cases gate with
  | some outcome =>
    cases outcome with
    | terminal decision => exact (wp_seq _ _).mpr (wp_markTerminal hunsent₁ decision)
    | deferTo _ later => exact (wp_seq _ _).mpr (wp_deferTo hunsent₁ later)
  | none =>
    refine (wp_seq _ _).mpr (wp_updateOpen hunsent₁ (fun n => open_of_claimable) ?_ ?_)
    · exact fun _ _ => trivial
    · rintro s₂ n hunsent₂ ⟨e, he, hpid, o, hchg⟩
      rw [if_neg Nat.one_ne_zero]
      refine wp_sendClaimed hproc hunsent₂ (List.any_eq_true.mpr ⟨e, he, ?_⟩) _
      simp [claims, hpid, hchg]

/-- A statement over the rows that changes only open rows and deletes only rows that are not SENDING. -/
theorem wp_overRows {ids : List ℕ}
    {f : AutomatedNotification → Option (Option AutomatedNotification)} (hunsent : Unsent s p)
    (hf : ∀ n, (∀ row, f n = some (some row) → n.status ∉ TERMINAL) ∧
      (f n = some none → n.status ≠ .SENDING))
    {Q : Unit → Local NoticeRow Unit (List Sent) → NoticeStore → Prop}
    (hQ : ∀ s', Unsent s' p → Q () ⟨none, r⟩ s') :
    wp (delivering procs) p (overRows ids f) Q ⟨none, r⟩ s := by
  refine wp_sql fun s' hl _ => ?_
  have hunsent' : Unsent s' p := hunsent.later hl
  refine ⟨fun id o n hchg => ?_, hQ _ hunsent'⟩
  obtain ⟨rfl, hmem⟩ := Tx.chg_add_empty hchg
  obtain ⟨id', -, hw⟩ := List.mem_filterMap.mp hmem
  obtain ⟨row, hrow, hw⟩ := Option.bind_eq_some_iff.mp hw
  obtain ⟨n', hn, he⟩ := Option.map_eq_some_iff.mp hw
  cases he
  refine ⟨row, hrow, ?_⟩
  cases n with
  | none => exact .deleted hunsent' ((hf row).2 hn)
  | some row' => exact .guarded hunsent' ((hf row).1 row' hn)

theorem wp_process (hunsent : Unsent s p) :
    wp (delivering procs) p ((procs p).program p) (fun _ _ _ => True) ⟨none, r⟩ s := by
  cases hproc : procs p with
  | deliver id b => exact wp_deliver hproc hunsent
  | reconcile ids =>
    refine (wp_seq _ _).mpr (wp_ask _ fun c => wp_overRows hunsent (fun n => ?_) fun _ _ => trivial)
    split
    · rename_i h
      refine ⟨fun row _ => ?_, fun hn => (nomatch hn)⟩
      rw [h.1]
      decide
    · exact ⟨fun _ h => (nomatch h), fun h => (nomatch h)⟩
  | cleanup ids =>
    refine (wp_seq _ _).mpr (wp_ask _ fun c => (wp_seq _ _).mpr (wp_ask _ fun c =>
      (wp_seq _ _).mpr (wp_ask _ fun c => ?_)))
    refine (wp_seq _ _).mpr (wp_overRows hunsent ?_ fun s₁ h₁ => (wp_seq _ _).mpr
      (wp_overRows h₁ ?_ fun s₂ h₂ => wp_overRows h₂ ?_ fun _ _ => trivial))
    all_goals
      intro n
      split
      · rename_i h
        refine ⟨fun row hn => (nomatch hn), fun _ hs => ?_⟩
        rw [hs] at h
        exact absurd h.1 (by decide)
      · exact ⟨fun _ h => (nomatch h), fun h => (nomatch h)⟩

/-! ### Runs -/

/-- A step writes a row. -/
def touches (s s' : NoticeStore) (id : ℕ) : Bool :=
  s.log.length < s'.log.length ∧ s'.log.head?.any (writes id)

/-- After its claim a run writes its row only while the claim stands. -/
def writesOwn (procs : ℕ → NoticeProcess) (p : ℕ) (s s' : NoticeStore) : Bool :=
  match procs p with
  | .deliver id _ => hasClaimed s p id ∧ touches s s' id → claimStands s p id
  | _ => true

/-- Besides, a step sends only while the claim of its run stands, and it takes no SENDING row whose
    message was sent from the run that sent it. -/
def keepsClaims (procs : ℕ → NoticeProcess) (p : ℕ) (s s' : NoticeStore) : Bool :=
  ((s'.world.take (s'.world.length - s.world.length)).all fun x => claimStands s p x.notificationId) ∧
  (s.world.all fun x => touches s s' x.notificationId ∧ isSending s x.notificationId → p = x.run) ∧
  writesOwn procs p s s'

/-- No notification was sent twice; and what was sent is SENT or deleted, or it is SENDING and was last
    written by the run that sent it. -/
structure SentOnce (s : NoticeStore) : Prop where
  nodup : (s.world.map (·.notificationId)).Nodup
  settled : ∀ x ∈ s.world, s.rows (.notification x.notificationId) = none ∨
    ∃ row, s.rows (.notification x.notificationId) = some row ∧
      (row.status = .SENT ∨ row.status = .SENDING ∧
        lastWriter s x.notificationId = some x.run)

theorem isSending_iff : isSending s id = true ↔
    ∃ row, s.rows (.notification id) = some row ∧ row.status = .SENDING := by
  simp [isSending, Option.any_eq_true]

theorem touches_commit : touches s (s.commit p t) id = (t.chg (.notification id)).isSome := by
  simp [touches, Store.commit, writes]

/-- STEP: a run that keeps the claims does not write a terminal row, but to delete it. -/
theorem terminal_step {r : List NoticeStore} (hst : (delivering procs).Step p r s s')
    (hC : keepsClaims procs p s s' = true) {row : AutomatedNotification}
    (hrow : s.rows (.notification id) = some row) (hterm : row.status ∈ TERMINAL) :
    s'.rows (.notification id) = none ∨
      ∃ row', s'.rows (.notification id) = some row' ∧ row'.status = row.status := by
  cases hst with
  | act w _ => exact .inr ⟨row, hrow, rfl⟩
  | commit t hheld ht =>
    rcases s.commit_rows p hheld (.notification id) with ⟨he, -⟩ | hchg
    · exact .inr ⟨row, he.trans hrow, rfl⟩
    obtain ⟨row', hrow', hmove⟩ := ht id _ _ hchg
    cases hrow.symm.trans hrow'
    generalize (s.commit p t).rows (.notification id) = n at hchg hmove ⊢
    cases hmove with
    | guarded _ h => exact absurd hterm h
    | deleted _ _ => exact .inl rfl
    | result hproc hclaimed _ =>
      obtain ⟨b, hproc⟩ := hproc
      obtain ⟨-, -, hown⟩ := of_decide_eq_true hC
      rw [writesOwn, hproc] at hown
      have hstands := of_decide_eq_true hown ⟨hclaimed, by rw [touches_commit, hchg]; rfl⟩
      obtain ⟨-, hsending⟩ := of_decide_eq_true hstands
      obtain ⟨row', hrow', hs⟩ := isSending_iff.mp hsending
      cases hrow.symm.trans hrow'
      rw [hs] at hterm
      exact absurd hterm (by decide)

theorem lastWriter_commit_of_none (h : t.chg (.notification id) = none) :
    lastWriter (s.commit p t) id = lastWriter s id := by
  simp [lastWriter, Store.commit, writes, h]

/-- STEP: a run that keeps the claims sends no notification again. -/
theorem SentOnce.step {r : List NoticeStore} (h : SentOnce s)
    (hst : (delivering procs).Step p r s s') (hC : keepsClaims procs p s s' = true) :
    SentOnce s' := by
  obtain ⟨hnew, hkept, -⟩ := of_decide_eq_true hC
  cases hst with
  | act w hw =>
    rcases hw with rfl | ⟨hunsent, id, rfl⟩
    · exact ⟨h.nodup, h.settled⟩
    have hstands := List.all_eq_true.mp hnew ⟨id, p⟩ (by simp)
    obtain ⟨hlast, hsending⟩ := of_decide_eq_true hstands
    obtain ⟨row, hrow, hs⟩ := isSending_iff.mp hsending
    refine ⟨?_, fun x hx => ?_⟩
    · refine List.nodup_cons.mpr ⟨fun hmem => ?_, h.nodup⟩
      obtain ⟨x, hx, he⟩ := List.mem_map.mp hmem
      change x.notificationId = id at he
      have hsettled := h.settled x hx
      rw [he] at hsettled
      rcases hsettled with hnone | ⟨row', hrow', hsent | ⟨-, hlast'⟩⟩
      · rw [hrow] at hnone
        cases hnone
      · cases hrow.symm.trans hrow'
        rw [hs] at hsent
        cases hsent
      · exact hunsent x hx (Option.some.inj (hlast'.symm.trans hlast))
    · rcases List.mem_cons.mp hx with rfl | hx
      · exact .inr ⟨row, hrow, .inr ⟨hs, hlast⟩⟩
      · exact h.settled x hx
  | commit t hheld ht =>
    refine ⟨h.nodup, fun x hx => ?_⟩
    rcases s.commit_rows p hheld (.notification x.notificationId) with ⟨he, hnone⟩ | hchg
    · rw [he, lastWriter_commit_of_none hnone]
      exact h.settled x hx
    obtain ⟨row, hrow, hmove⟩ := ht _ _ _ hchg
    rcases h.settled x hx with hnone | ⟨row', hrow', hstatus⟩
    · rw [hrow] at hnone
      cases hnone
    cases hrow.symm.trans hrow'
    rcases hstatus with hsent | ⟨hs, -⟩
    · have hterm : row.status ∈ TERMINAL := by
        rw [hsent]
        decide
      rcases terminal_step (.commit t hheld ht) hC hrow hterm with hgone | ⟨row', hrow', he⟩
      · exact .inl hgone
      · exact .inr ⟨row', hrow', .inl (he.trans hsent)⟩
    · have hp : p = x.run := by
        have hx' := of_decide_eq_true (List.all_eq_true.mp hkept x hx)
        refine hx' ⟨?_, isSending_iff.mpr ⟨row, hrow, hs⟩⟩
        rw [touches_commit, hchg]
        rfl
      generalize (s.commit p t).rows (.notification x.notificationId) = n at hchg hmove ⊢
      cases hmove with
      | guarded hunsent _ => exact absurd hp.symm (hunsent x hx)
      | deleted hunsent _ => exact absurd hp.symm (hunsent x hx)
      | result _ _ hsent =>
        rcases hsent with hunsent | hsent
        · exact absurd hp.symm (hunsent x hx)
        · exact .inr ⟨_, rfl, .inl hsent⟩

/-- A row that is gone stays gone. -/
theorem gone_step {r : List NoticeStore} (hst : (delivering procs).Step p r s s')
    (hnone : s.rows (.notification id) = none) : s'.rows (.notification id) = none := by
  cases hst with
  | act w _ => exact hnone
  | commit t hheld ht =>
    rcases s.commit_rows p hheld (.notification id) with ⟨he, -⟩ | hchg
    · exact he.trans hnone
    · obtain ⟨row, hrow, -⟩ := ht id _ _ hchg
      rw [hnone] at hrow
      cases hrow

def oneNotice : NoticeStore where
  rows
    | .notification 1 => some {}
    | .notification _ => none
  world := []

def twoRuns (_ : ℕ) : NoticeProcess := .deliver 1 false

/-- The second run comes after the first. -/
def oneAfterTheOther : List (Event NoticeChoice) :=
  List.replicate 12 (.run 0 {}) ++ List.replicate 2 (.run 1 {})

theorem oneAfterTheOther_runs :
    ((Config.start oneNotice fun p => (twoRuns p).program p).execWhile
      (fun p _ => keepsClaims twoRuns p) oneAfterTheOther).any (fun c =>
        c.store.world = [⟨1, 0⟩] ∧ (c.threads 1).prog.isReturned = true) = true := by
  decide +kernel

/-- The second run claims the row while the first is sending. -/
def overlapping : List (Event NoticeChoice) :=
  List.replicate 7 (.run 0 {}) ++ List.replicate 7 (.run 1 {}) ++ List.replicate 5 (.run 0 {}) ++
    List.replicate 5 (.run 1 {})

theorem overlapping_runs :
    ((Config.start oneNotice fun p => (twoRuns p).program p).exec overlapping).any (fun c =>
      c.store.world = [⟨1, 1⟩, ⟨1, 0⟩] ∧ (c.threads 0).prog.isReturned = true ∧
        (c.threads 1).prog.isReturned = true) = true := by decide +kernel

end ZedBot.Notifications
