import Mathlib.Data.Finset.Card
import Mathlib.Order.Monotone.Basic
import ZedBot.Notifications.AtMostOnce
import ZedBot.ReadCommitted.Solo

/-! The daily cap of the automated notifications.

    A delivery counts what its user was SENT since the start of the user's local day and puts the
    notification off to the next local day where the count has reached the cap. The start of the day is
    the instant less the whole local minutes, so it carries the seconds of the instant. -/

namespace ZedBot.Notifications
open ReadCommitted

/-- What the cap reads of a user: the zone, at a fixed offset from UTC in milliseconds, the limit and
    the user's notifications. -/
structure DeliveryPreferences where
  offset : ℤ := 0
  dailyLimit : ℕ := 3
  table : Finset ℕ := ∅

namespace DeliveryPreferences

variable (prefs : DeliveryPreferences)

/-- The local calendar day of an instant. -/
def localDay (date : ℕ) : ℤ := (date + prefs.offset) / 86400000

/-- Minutes since local midnight. -/
def localMinutesInZone (date : ℕ) : ℕ :=
  ((date + prefs.offset) / 3600000 % 24 * 60 + (date + prefs.offset) / 60000 % 60).toNat

/-- The instant from which the SENT ones are counted. -/
def dayStart (now : ℕ) : ℤ := now - prefs.localMinutesInZone now * 60000

/-- Where a capped notice waits. -/
def nextLocalMidnight (now : ℕ) : ℕ := now + (24 * 60 - prefs.localMinutesInZone now) * 60000

end DeliveryPreferences

/-- When a notification was SENT. -/
def sentAtOf (s : NoticeStore) (id : ℕ) : Option ℕ :=
  ((s.rows (.notification id)).filter fun n => n.status = .SENT).bind (·.sentAt)

/-- The notifications of the user that are SENT within a set of instants. -/
def sentWhen (prefs : DeliveryPreferences) (within : ℕ → Bool) (s : NoticeStore) : Finset ℕ :=
  prefs.table.filter fun id => (sentAtOf s id).any within

/-- Count of automated notifications already SENT to the user since the start of the day. -/
def sentTodayCount (prefs : DeliveryPreferences) (now : ℕ) (s : NoticeStore) : ℕ :=
  (sentWhen prefs (fun t => prefs.dayStart now ≤ t) s).card

/-- The notifications that the user is SENT on a local day. -/
def sentOn (prefs : DeliveryPreferences) (day : ℤ) (s : NoticeStore) : ℕ :=
  (sentWhen prefs (fun t => prefs.localDay t = day) s).card

/-- What the cap answers to a delivery. -/
def capOf (prefs : DeliveryPreferences) (now : ℕ) (s : NoticeStore) : Option ℕ :=
  if prefs.dailyLimit ≤ sentTodayCount prefs now s then some (prefs.nextLocalMidnight now) else none

/-! ### The local day -/

section LocalDay

variable (prefs : DeliveryPreferences) (now : ℕ)

theorem localMinutes_eq :
    (prefs.localMinutesInZone now : ℤ) = (now + prefs.offset) % 86400000 / 60000 := by
  rw [DeliveryPreferences.localMinutesInZone]
  omega

theorem localMinutes_lt : prefs.localMinutesInZone now < 24 * 60 := by
  have h := localMinutes_eq prefs now
  omega

/-- A capped notice waits until an instant of the next local day. -/
theorem localDay_nextLocalMidnight :
    prefs.localDay (prefs.nextLocalMidnight now) = prefs.localDay now + 1 := by
  have hlt := localMinutes_lt prefs now
  have h := localMinutes_eq prefs now
  rw [DeliveryPreferences.nextLocalMidnight, DeliveryPreferences.localDay,
    DeliveryPreferences.localDay]
  omega

variable {prefs now}

/-- What lies on the local day is counted, unless it lies before the seconds of the instant. -/
theorem dayStart_le {t : ℕ} (hday : prefs.localDay t = prefs.localDay now)
    (h : ¬ (t + prefs.offset) % 86400000 < (now + prefs.offset) % 60000) :
    prefs.dayStart now ≤ t := by
  have hm := localMinutes_eq prefs now
  rw [DeliveryPreferences.localDay, DeliveryPreferences.localDay] at hday
  rw [DeliveryPreferences.dayStart]
  omega

end LocalDay

/-! ### One delivery after another -/

/-- The oracle of a delivery that finds the tables `s` at the time `t` or later: its clock runs on, the
    cap counts in `s`, and the win-back check puts off under its own reason. -/
structure Answers (prefs : DeliveryPreferences) (s : NoticeStore) (t : ℕ) (ch : ℕ → NoticeChoice) :
    Prop where
  mono : Monotone fun i => (ch i).now
  started : t ≤ (ch 0).now
  capped : ∀ i, (ch i).cappedUntil = capOf prefs (ch 0).now s
  winback : ∀ i reason later, (ch i).winback = some (.deferTo reason later) →
    reason = "winback-uncertain"

/-- The state after a delivery that ran alone. -/
def delivered (run id : ℕ) (finalAttempt : Bool) (ch : ℕ → NoticeChoice) (s : NoticeStore) :
    Solo NoticeRow Unit (List Sent) :=
  ((deliver run id finalAttempt).solo run ch { store := s }).2

/-- The next delivery of a notification of the user, where `may` allows it; in between time passes and
    the tables change but for what is SENT. -/
inductive Next (prefs : DeliveryPreferences) (may : NoticeStore → ℕ → Prop) :
    NoticeStore × ℕ → NoticeStore × ℕ → Prop
  | deliver {s : NoticeStore} {t : ℕ} (run id : ℕ) (finalAttempt : Bool) (ch : ℕ → NoticeChoice)
      (hid : id ∈ prefs.table) (hch : Answers prefs s t ch) (hmay : may s (ch 0).now) :
      Next prefs may (s, t) ((delivered run id finalAttempt ch s).store,
        (ch (delivered run id finalAttempt ch s).time).now)
  | between {s s' : NoticeStore} {t t' : ℕ} (hsent : ∀ id ∈ prefs.table, sentAtOf s' id = sentAtOf s id)
      (ht : t ≤ t') : Next prefs may (s, t) (s', t')

/-- Nothing was SENT on the local day of an instant before the seconds of the instant. -/
def Covered (prefs : DeliveryPreferences) (s : NoticeStore) (now : ℕ) : Prop :=
  ∀ id ∈ prefs.table, ∀ t, sentAtOf s id = some t → prefs.localDay t = prefs.localDay now →
    ¬ (t + prefs.offset) % 86400000 < (now + prefs.offset) % 60000

/-! ### What a lone delivery does -/

/-- A lone delivery of the notification `id` that started from `s`, which has come to the row `n`. -/
structure Delivering (s : NoticeStore) (id : ℕ) (n : AutomatedNotification)
    (σ : Solo NoticeRow Unit (List Sent)) : Prop where
  tx : σ.tx = none
  own : σ.store.rows (.notification id) = some n
  frame : ∀ j, j ≠ id → σ.store.rows (.notification j) = s.rows (.notification j)

/-- What a lone delivery leaves: the row `n'`, which is SENT only where the cap had not been reached. -/
structure Outcome (s : NoticeStore) (id : ℕ) (ch : ℕ → NoticeChoice)
    (σ : Solo NoticeRow Unit (List Sent)) (n' : AutomatedNotification) : Prop where
  row : Delivering s id n' σ
  sent : n'.status = .SENT → (∃ i ≤ σ.time, n'.sentAt = some (ch i).now) ∧
    ∃ i, (ch i).cappedUntil = none

section Lone

variable {s : NoticeStore} {run id : ℕ} {n : AutomatedNotification} {ch : ℕ → NoticeChoice}
  {σ : Solo NoticeRow Unit (List Sent)} {cond : AutomatedNotification → Bool}
  {data : AutomatedNotification → AutomatedNotification} {finalAttempt : Bool}

theorem soloWp_updateMany {Q : ℕ → Solo NoticeRow Unit (List Sent) → Prop}
    (hσ : Delivering s id n σ) (hcond : cond n = true)
    (h : ∀ σ', Delivering s id (data n) σ' → σ'.time = σ.time + 1 → Q 1 σ') :
    soloWp run ch (updateMany id cond data) Q σ := by
  have hn : onRow cond data (σ.view.rows (.notification id)) = some (some (data n)) := by
    rw [Solo.view_rows hσ.tx, hσ.own, onRow, if_pos hcond]
  refine soloWp_update hn (h _ ⟨?_, ?_, fun j hj => ?_⟩ ?_)
  · exact Solo.apply_tx hσ.tx _ _
  · rw [Solo.tick_store, Solo.apply_store hσ.tx]
    exact Tx.row_write_self _ _ _
  · rw [Solo.tick_store, Solo.apply_store hσ.tx, Store.commit_rows_of_free, hσ.frame j hj]
    refine fun hc => hc (Tx.chg_write_ne _ fun he => hj ?_)
    cases he
    rfl
  · rw [Solo.tick, Solo.apply, hσ.tx]

theorem claimable_of_open (h : n.status ∉ TERMINAL) : isClaimable n = true := by
  rw [isClaimable, decide_eq_true_eq]
  revert h
  cases n.status <;> decide

theorem ended_status (now : ℕ) (decision : Terminal) : (ended now decision n).status ≠ .SENT := by
  cases decision <;> exact nofun

theorem recorded_sent {now : ℕ} {read : AutomatedNotification} {result : SendResult}
    (h : (recorded now finalAttempt read result n).status = .SENT) :
    (recorded now finalAttempt read result n).sentAt = some now := by
  cases result with
  | ok messageId => rfl
  | failed code retryable =>
    rw [recorded] at h
    split at h
    · cases h
    split at h <;> cases h

theorem soloWp_markTerminal {Q : ℕ → Solo NoticeRow Unit (List Sent) → Prop}
    (hσ : Delivering s id n σ) (hopen : n.status ∉ TERMINAL) (decision : Terminal)
    (h : ∀ σ' n', Delivering s id n' σ' → n'.status ≠ .SENT → Q 1 σ') :
    soloWp run ch (markTerminal id decision) Q σ := by
  refine (soloWp_seq _ _).mpr (soloWp_ask _ ?_)
  refine soloWp_updateMany (σ := σ.tick) ⟨hσ.tx, hσ.own, hσ.frame⟩ (isOpen_iff.mpr hopen) ?_
  exact fun σ' hσ' _ => h σ' _ hσ' (ended_status _ _)

/-- After the claim the row is SENT at an instant of the clock, or not SENT. -/
theorem soloWp_sendClaimed {read : AutomatedNotification} (hσ : Delivering s id n σ)
    (hsending : n.status = .SENDING) (hcap : ∃ i, (ch i).cappedUntil = none) :
    soloWp run ch (sendClaimed run id finalAttempt read) (fun _ σ' => ∃ n', Outcome s id ch σ' n')
      σ := by
  have htick : ∀ {σ : Solo NoticeRow Unit (List Sent)}, Delivering s id n σ →
      Delivering s id n σ.tick := fun h => ⟨h.tx, h.own, h.frame⟩
  have hopen : n.status ∉ TERMINAL := by
    rw [hsending]
    decide
  refine (soloWp_seq _ _).mpr (soloWp_ask _ ?_)
  split
  · refine (soloWp_seq _ _).mpr (soloWp_ask _ ((soloWp_seq _ _).mpr ?_))
    refine soloWp_updateMany (htick (htick hσ)) rfl fun σ' hσ' _ => ?_
    exact ⟨_, hσ', nofun⟩
  refine (soloWp_seq _ _).mpr (soloWp_ask _ ?_)
  split
  · refine (soloWp_seq _ _).mpr (soloWp_markTerminal (htick (htick hσ)) hopen _ ?_)
    exact fun σ' n' hσ' hn' => ⟨n', hσ', fun h => absurd h hn'⟩
  refine (soloWp_seq _ _).mpr (soloWp_ext _ ?_)
  refine (soloWp_seq _ _).mpr (soloWp_ask _ ((soloWp_seq _ _).mpr ?_))
  refine soloWp_updateMany (n := n) ⟨hσ.tx, hσ.own, hσ.frame⟩ rfl fun σ' hσ' htime => ?_
  refine ⟨_, hσ', fun hsent => ⟨⟨_, ?_, recorded_sent hsent⟩, hcap⟩⟩
  change _ ≤ σ'.time
  rw [htime]
  exact Nat.le_add_right _ 2

/-- What the checks of a lone delivery answer. -/
def gateOf (s : NoticeStore) (run : ℕ) (ch : ℕ → NoticeChoice) (n : AutomatedNotification) :
    Option Gate :=
  ((revalidate (ch 0).now n).solo run ch { store := s, time := 2, reads := [s] }).1

/-- The first check that objects is one of the checks; where none objects, no check does. -/
theorem firstGate_solo (run : ℕ) (ch : ℕ → NoticeChoice) :
    ∀ {checks : List (Notices (Option Gate))}, (∀ c ∈ checks, c.Asks) →
    ∀ σ : Solo NoticeRow Unit (List Sent),
      match ((firstGate checks).solo run ch σ).1 with
      | none => ∀ c ∈ checks, ∃ m, (c.solo run ch { σ with time := m }).1 = none
      | some gate => ∃ c ∈ checks, ∃ m, (c.solo run ch { σ with time := m }).1 = some gate
  | [], _, _ => nofun
  | check :: rest, hasks, σ => by
    obtain ⟨m, hm⟩ : ∃ m, (check.solo run ch σ).2 = { σ with time := m } :=
      soloWp_asks (Q := fun _ σ' => ∃ m, σ' = { σ with time := m }) check (hasks check (.head _))
        fun _ m _ _ => ⟨m, rfl⟩
    rw [firstGate, Prog.solo_bind]
    cases hgate : (check.solo run ch σ).1 with
    | some gate => exact ⟨check, .head _, σ.time, hgate⟩
    | none =>
      have ih := firstGate_solo run ch (fun c hc => hasks c (.tail _ hc)) { σ with time := m }
      rw [hm]
      change match ((firstGate rest).solo run ch { σ with time := m }).1 with
        | none => ∀ c ∈ check :: rest, ∃ m, (c.solo run ch { σ with time := m }).1 = none
        | some gate => ∃ c ∈ check :: rest, ∃ m, (c.solo run ch { σ with time := m }).1 = some gate
      cases hrest : ((firstGate rest).solo run ch { σ with time := m }).1 with
      | some gate =>
        rw [hrest] at ih
        obtain ⟨c, hc, i, hi⟩ := ih
        exact ⟨c, .tail _ hc, i, hi⟩
      | none =>
        rw [hrest] at ih
        intro c hc
        rcases List.mem_cons.mp hc with rfl | hc
        · exact ⟨σ.time, hgate⟩
        · exact ih c hc

/-- Where no check objects the cap has not been reached. -/
theorem cap_of_gate {now : ℕ} (h : ((revalidate now n).solo run ch σ).1 = none) :
    ∃ i, (ch i).cappedUntil = none := by
  have hchecks := firstGate_solo run ch (fun c hc => revalidate_checks_ask now n c hc) σ
  rw [← revalidate, h] at hchecks
  obtain ⟨i, hi⟩ := hchecks (capGate n) (by simp)
  exact ⟨i, Option.map_eq_none_iff.mp hi⟩

/-- A delivery of what is missing or terminal does nothing. -/
theorem delivered_skips (h : ∀ n, s.rows (.notification id) = some n → n.status ∈ TERMINAL) :
    (delivered run id finalAttempt ch s).store = s := by
  suffices h : soloWp run ch (deliver run id finalAttempt) (fun _ σ' => σ'.store = s) { store := s }
    from h
  refine (soloWp_seq _ _).mpr (soloWp_ask _ ((soloWp_seq _ _).mpr (soloWp_select _ ?_)))
  cases hn : s.rows (.notification id) with
  | none =>
    rw [show (Solo.tick ⟨s, 0, none, [], []⟩).view.rows (.notification id) = none from hn]
    rfl
  | some n =>
    rw [show (Solo.tick ⟨s, 0, none, [], []⟩).view.rows (.notification id) = some n from hn]
    simp only [if_pos (h n hn)]
    rfl

/-- A delivery of an open notification changes it alone, and only SENDs it below the cap. -/
theorem delivered_outcome (run : ℕ) (ch : ℕ → NoticeChoice) (finalAttempt : Bool)
    (hn : s.rows (.notification id) = some n) (hopen : n.status ∉ TERMINAL) :
    ∃ n', Outcome s id ch (delivered run id finalAttempt ch s) n' ∧
      ∀ reason later, gateOf s run ch n = some (.deferTo reason later) →
        n'.status = .SCHEDULED ∧ n'.scheduledFor = later := by
  suffices h : soloWp run ch (deliver run id finalAttempt) (fun _ σ' => ∃ n', Outcome s id ch σ' n' ∧
      ∀ reason later, gateOf s run ch n = some (.deferTo reason later) →
        n'.status = .SCHEDULED ∧ n'.scheduledFor = later) { store := s } from h
  refine (soloWp_seq _ _).mpr (soloWp_ask _ ((soloWp_seq _ _).mpr (soloWp_select _ ?_)))
  rw [show (Solo.tick ⟨s, 0, none, [], []⟩).view.rows (.notification id) = some n from hn]
  simp only [if_neg hopen]
  refine (soloWp_seq _ _).mpr (soloWp_asks _ (revalidate_asks _ n) fun gate m _ hgate => ?_)
  have hgateOf : gateOf s run ch n = gate := hgate
  have hstart : ∀ m acts reads, Delivering s id n
      { store := s, time := m, acts := acts, reads := reads } :=
    fun _ _ _ => ⟨rfl, hn, fun _ _ => rfl⟩
  match gate with
  | some (.terminal decision) =>
    refine (soloWp_seq _ _).mpr (soloWp_markTerminal (hstart _ _ _) hopen _ fun σ' n' hσ' hn' => ?_)
    refine ⟨n', ⟨hσ', fun h => absurd h hn'⟩, fun reason later hdefer => ?_⟩
    rw [hgateOf] at hdefer
    cases hdefer
  | some (.deferTo reason later) =>
    refine (soloWp_seq _ _).mpr ((soloWp_seq _ _).mpr (soloWp_ask _ ?_))
    refine soloWp_updateMany (hstart _ _ _) (isOpen_iff.mpr hopen) fun σ' hσ' _ => ?_
    refine ⟨_, ⟨hσ', nofun⟩, fun reason' later' hdefer => ?_⟩
    rw [hgateOf] at hdefer
    cases hdefer
    exact ⟨rfl, rfl⟩
  | none =>
    refine (soloWp_seq _ _).mpr (soloWp_updateMany (hstart _ _ _) (claimable_of_open hopen)
      fun σ' hσ' _ => ?_)
    rw [if_neg Nat.one_ne_zero]
    refine soloWp_mono _ (fun _ σ'' ⟨n', hn'⟩ => ⟨n', ?_, fun reason later hdefer => ?_⟩)
      (soloWp_sendClaimed hσ' rfl (cap_of_gate hgate))
    · exact hn'
    · rw [hgateOf] at hdefer
      cases hdefer

/-- A check that cancels, or lets through. -/
theorem cancelUnless_ne {ok : Bool} {reason reason' : String} {later : ℕ} :
    cancelUnless ok reason ≠ some (.deferTo reason' later) := by
  rw [cancelUnless]
  split <;> exact nofun

theorem map_terminal_ne {decision : Option Terminal} {reason : String} {later : ℕ} :
    decision.map Gate.terminal ≠ some (.deferTo reason later) := by
  cases decision <;> exact nofun

theorem putOff_deferTo {waits later : ℕ} {late reason reason' : String}
    (h : putOff n waits late reason = .deferTo reason' later) : reason' = reason ∧ later = waits := by
  rw [putOff] at h
  split at h
  · cases h
  · cases h
    exact ⟨rfl, rfl⟩

/-- Only the cap puts a notification off under its reason. -/
theorem deferred_by_cap {now later : ℕ}
    (hwinback : ∀ i reason later, (ch i).winback = some (.deferTo reason later) →
      reason = "winback-uncertain")
    (h : ((revalidate now n).solo run ch σ).1 = some (.deferTo "daily-limit" later)) :
    ∃ i, (ch i).cappedUntil = some later := by
  have hchecks := firstGate_solo run ch (fun c hc => revalidate_checks_ask now n c hc) σ
  rw [← revalidate, h] at hchecks
  obtain ⟨c, hc, i, hi⟩ := hchecks
  simp only [List.mem_cons, List.not_mem_nil, or_false] at hc
  rcases hc with rfl | rfl | rfl | rfl | rfl | rfl | rfl | rfl | rfl | rfl | rfl
  · rw [windowGate] at hi
    split at hi <;> cases hi
  · exact (cancelUnless_ne hi).elim
  · exact (cancelUnless_ne hi).elim
  · rw [serviceGate] at hi
    split at hi
    · rw [Prog.solo_bind] at hi
      split at hi
      · cases hi
      split at hi
      · cases hi
      · exact (cancelUnless_ne hi).elim
    · cases hi
  · rw [checkoutGate] at hi
    split at hi
    · exact (map_terminal_ne hi).elim
    · cases hi
  · rw [winbackGate] at hi
    split at hi
    · exact absurd (hwinback _ _ _ hi) (by decide)
    · cases hi
  · rw [starsGate] at hi
    split at hi
    · exact (cancelUnless_ne hi).elim
    · cases hi
  · rw [autoRenewalGate] at hi
    split at hi
    · change (Prog.solo run ch (if ¬ (ch i).autoRenewalEnabled then _ else _) _).1 = _ at hi
      split at hi
      · cases hi
      · exact (map_terminal_ne hi).elim
    · cases hi
  · rw [lowBalanceGate] at hi
    split at hi
    · exact (map_terminal_ne hi).elim
    · cases hi
  · obtain ⟨t, -, ht⟩ := Option.map_eq_some_iff.mp hi
    exact absurd (putOff_deferTo ht).1 (by decide)
  · obtain ⟨t, ht, hput⟩ := Option.map_eq_some_iff.mp hi
    exact ⟨i, ht.trans (congrArg some (putOff_deferTo hput).2.symm)⟩

end Lone

/-! ### The cap over a sequence of deliveries -/

/-- No local day exceeds the cap, and nothing is SENT in the future. -/
structure WithinCap (prefs : DeliveryPreferences) (s : NoticeStore) (t : ℕ) : Prop where
  cap : ∀ day, sentOn prefs day s ≤ prefs.dailyLimit
  past : ∀ id ∈ prefs.table, ∀ x, sentAtOf s id = some x → x ≤ t

section Cap

variable {prefs : DeliveryPreferences} {s s' : NoticeStore} {t t' id x : ℕ}
  {within within' : ℕ → Bool}

theorem mem_sentWhen : id ∈ sentWhen prefs within s ↔
    id ∈ prefs.table ∧ ∃ t, sentAtOf s id = some t ∧ within t = true := by
  rw [sentWhen, Finset.mem_filter, Option.any_eq_true]

theorem sentWhen_congr (h : ∀ id ∈ prefs.table, sentAtOf s' id = sentAtOf s id) :
    sentWhen prefs within s' = sentWhen prefs within s :=
  Finset.filter_congr fun id hid => by rw [h id hid]

/-- Of the notifications that are SENT on a day, one is new at most. -/
theorem sentWhen_subset_insert (prefs : DeliveryPreferences) (within : ℕ → Bool)
    (hframe : ∀ j, j ≠ id → sentAtOf s' j = sentAtOf s j) :
    sentWhen prefs within s' ⊆ insert id (sentWhen prefs within s) := by
  intro j hj
  by_cases hid : j = id
  · exact Finset.mem_insert.mpr (.inl hid)
  · rw [mem_sentWhen, hframe j hid] at hj
    exact Finset.mem_insert_of_mem (mem_sentWhen.mpr hj)

/-- Another day than that of the new one has what it had. -/
theorem sentWhen_subset (hframe : ∀ j, j ≠ id → sentAtOf s' j = sentAtOf s j)
    (hsent : sentAtOf s' id = some x) (hx : within x = false) :
    sentWhen prefs within s' ⊆ sentWhen prefs within s := by
  intro j hj
  by_cases hid : j = id
  · obtain ⟨-, y, hy, hin⟩ := mem_sentWhen.mp hj
    rw [hid, hsent] at hy
    cases hy
    rw [hx] at hin
    cases hin
  · rw [mem_sentWhen, hframe j hid] at hj
    exact mem_sentWhen.mpr hj

/-- The count covers the local day. -/
theorem sentOn_le_sentTodayCount {now : ℕ} (h : Covered prefs s now) :
    sentOn prefs (prefs.localDay now) s ≤ sentTodayCount prefs now s := by
  refine Finset.card_le_card fun j hj => ?_
  obtain ⟨hmem, y, hy, hday⟩ := mem_sentWhen.mp hj
  have hday : prefs.localDay y = prefs.localDay now := of_decide_eq_true hday
  exact mem_sentWhen.mpr ⟨hmem, y, hy, decide_eq_true (dayStart_le hday (h j hmem y hy hday))⟩

/-- STEP: one more notification that is SENT below the cap. -/
theorem WithinCap.send {now : ℕ} (h : WithinCap prefs s t) (hcovered : Covered prefs s now)
    (hcount : sentTodayCount prefs now s < prefs.dailyLimit) (htn : t ≤ now) (hnx : now ≤ x)
    (hxt : x ≤ t') (hframe : ∀ j, j ≠ id → sentAtOf s' j = sentAtOf s j)
    (hsent : sentAtOf s' id = some x) : WithinCap prefs s' t' where
  cap day := by
    by_cases hday : prefs.localDay x = day
    · have hcard := (Finset.card_le_card (sentWhen_subset_insert prefs
        (fun t => prefs.localDay t = day) hframe)).trans (Finset.card_insert_le _ _)
      refine hcard.trans ?_
      by_cases hnow : prefs.localDay now = day
      · have hle := sentOn_le_sentTodayCount hcovered
        rw [hnow] at hle
        exact Nat.succ_le_of_lt (hle.trans_lt hcount)
      · -- the send went on into the next day, where nothing was SENT yet
        have hnone : sentWhen prefs (fun t => prefs.localDay t = day) s = ∅ := by
          refine Finset.eq_empty_of_forall_notMem fun j hj => hnow ?_
          obtain ⟨hmem, y, hy, hin⟩ := mem_sentWhen.mp hj
          have hpast := h.past j hmem y hy
          have hin : prefs.localDay y = day := of_decide_eq_true hin
          simp only [DeliveryPreferences.localDay] at hin hday ⊢
          omega
        rw [hnone, Finset.card_empty]
        exact Nat.succ_le_of_lt (Nat.zero_lt_of_lt hcount)
    · exact (Finset.card_le_card (sentWhen_subset hframe hsent (decide_eq_false hday))).trans
        (h.cap day)
  past j hj y hy := by
    by_cases hid : j = id
    · rw [hid, hsent] at hy
      cases hy
      exact hxt
    · rw [hframe j hid] at hy
      exact (h.past j hj y hy).trans (htn.trans (hnx.trans hxt))

/-- STEP: the tables change, but for what is SENT. -/
theorem WithinCap.keep (h : WithinCap prefs s t) (ht : t ≤ t')
    (hsame : ∀ id ∈ prefs.table, sentAtOf s' id = sentAtOf s id) : WithinCap prefs s' t' where
  cap day := by
    rw [sentOn, sentWhen_congr hsame]
    exact h.cap day
  past j hj y hy := by
    rw [hsame j hj] at hy
    exact (h.past j hj y hy).trans ht

theorem sentAtOf_some {n : AutomatedNotification} (hn : s.rows (.notification id) = some n) :
    sentAtOf s id = if n.status = .SENT then n.sentAt else none := by
  rw [sentAtOf, hn, Option.filter_some]
  by_cases h : n.status = .SENT
  · simp [h]
  · simp [h]

/-- STEP: a delivery whose count covers the local day. -/
theorem WithinCap.next {a b : NoticeStore × ℕ} (h : WithinCap prefs a.1 a.2)
    (hstep : Next prefs (Covered prefs) a b) : WithinCap prefs b.1 b.2 := by
  cases hstep with
  | between hsent ht => exact h.keep ht hsent
  | @deliver s t run id finalAttempt ch hid hch hmay =>
    have hclock : ∀ i, (ch 0).now ≤ (ch i).now := fun i => hch.mono (Nat.zero_le i)
    by_cases hskip : ∀ n, s.rows (.notification id) = some n → n.status ∈ TERMINAL
    · refine h.keep (hch.started.trans (hclock _)) fun j _ => ?_
      rw [delivered_skips hskip]
    obtain ⟨n, hn⟩ := not_forall.mp hskip
    obtain ⟨hn, hopen⟩ := Classical.not_imp.mp hn
    obtain ⟨n', hn', -⟩ := delivered_outcome run ch finalAttempt hn hopen
    have hframe : ∀ j, j ≠ id →
        sentAtOf (delivered run id finalAttempt ch s).store j = sentAtOf s j := by
      intro j hj
      rw [sentAtOf, hn'.row.frame j hj, sentAtOf]
    by_cases hsent : n'.status = .SENT
    · obtain ⟨⟨i, hi, hat⟩, k, hcap⟩ := hn'.sent hsent
      rw [hch.capped k, capOf] at hcap
      refine h.send hmay ?_ hch.started (hclock i) (hch.mono hi) hframe ?_
      · by_contra hle
        rw [if_pos (not_lt.mp hle)] at hcap
        cases hcap
      · rw [sentAtOf_some hn'.row.own, if_pos hsent, hat]
    · refine h.keep (hch.started.trans (hclock _)) fun j _ => ?_
      by_cases hj : j = id
      · have hnot : n.status ≠ .SENT := fun he => hopen (by rw [he]; decide)
        rw [hj, sentAtOf_some hn'.row.own, if_neg hsent, sentAtOf_some hn, if_neg hnot]
      · exact hframe j hj

end Cap

/-- THE DAILY CAP: over every sequence of deliveries of a user's notifications, one after the other,
    none of which finds a notification SENT on its local day before its own seconds, no local day has
    more SENT than the cap; what the cap puts off waits until the next local day. -/
theorem daily_cap (prefs : DeliveryPreferences) {s₀ s : NoticeStore} {t₀ t : ℕ}
    (h₀ : WithinCap prefs s₀ t₀)
    (hrun : Relation.ReflTransGen (Next prefs (Covered prefs)) (s₀, t₀) (s, t)) :
    (∀ day, sentOn prefs day s ≤ prefs.dailyLimit) ∧
    ∀ run id finalAttempt ch n later, Answers prefs s t ch →
      s.rows (.notification id) = some n → n.status ∉ TERMINAL →
      gateOf s run ch n = some (.deferTo "daily-limit" later) →
      prefs.localDay later = prefs.localDay (ch 0).now + 1 ∧
      ∃ n', (delivered run id finalAttempt ch s).store.rows (.notification id) = some n' ∧
        n'.status = .SCHEDULED ∧ n'.scheduledFor = later := by
  have hcap : WithinCap prefs s t := by
    suffices h : ∀ b, Relation.ReflTransGen (Next prefs (Covered prefs)) (s₀, t₀) b →
        WithinCap prefs b.1 b.2 from h _ hrun
    intro b hb
    induction hb with
    | refl => exact h₀
    | tail _ hstep ih => exact ih.next hstep
  refine ⟨hcap.cap, fun run id finalAttempt ch n later hch hn hopen hgate => ⟨?_, ?_⟩⟩
  · obtain ⟨i, hi⟩ := deferred_by_cap hch.winback hgate
    rw [hch.capped i, capOf] at hi
    split at hi
    · cases hi
      exact localDay_nextLocalMidnight prefs _
    · cases hi
  · obtain ⟨n', hn', hdefer⟩ := delivered_outcome run ch finalAttempt hn hopen
    exact ⟨n', hn'.row.own, hdefer _ _ hgate⟩

/-! ### One notification a day -/

/-- A user in UTC with two notifications, of whom one a day may be sent. -/
def onePerDay : DeliveryPreferences := { dailyLimit := 1, table := {1, 2} }

def twoNotices : NoticeStore where
  rows | .notification id => if id = 1 ∨ id = 2 then some {} else none
  log := []
  world := []

/-- An oracle whose clock stands still. -/
def stopped (now : ℕ) (cappedUntil : Option ℕ) (_ : ℕ) : NoticeChoice := { now, cappedUntil }

theorem stopped_answers {s : NoticeStore} {t now : ℕ} {cappedUntil : Option ℕ} (ht : t ≤ now)
    (hcap : cappedUntil = capOf onePerDay now s) : Answers onePerDay s t (stopped now cappedUntil) where
  mono := monotone_const
  started := ht
  capped _ := hcap
  winback _ _ _ := nofun

theorem twoNotices_unsent (id : ℕ) : sentAtOf twoNotices id = none := by
  rw [sentAtOf, twoNotices]
  dsimp only
  split <;> rfl

theorem twoNotices_withinCap : WithinCap onePerDay twoNotices 0 where
  cap day := by
    have hempty : sentWhen onePerDay (fun t => onePerDay.localDay t = day) twoNotices = ∅ :=
      Finset.filter_eq_empty_iff.mpr fun id _ => by
        rw [twoNotices_unsent id]
        exact Bool.false_ne_true
    rw [sentOn, hempty]
    exact Nat.zero_le _
  past id _ x hx := by
    rw [twoNotices_unsent id] at hx
    cases hx

/-- The tables after the first notification was sent at `now`. -/
def firstSent (now : ℕ) : NoticeStore := (delivered 0 1 false (stopped now none) twoNotices).store

/-- The first one is sent at ten o'clock, the second one waits for midnight. -/
theorem daily_cap_one_per_day : (∀ day, sentOn onePerDay day (firstSent 36000000) ≤ 1) ∧
    ∃ n', (delivered 1 2 false (stopped 43230000 (some 86430000)) (firstSent 36000000)).store.rows
      (.notification 2) = some n' ∧ n'.status = .SCHEDULED ∧ n'.scheduledFor = 86430000 := by
  have h := daily_cap onePerDay (s := firstSent 36000000) (t := 36000000) twoNotices_withinCap
    (.single (.deliver 0 1 false (stopped 36000000 none) (by decide)
      (stopped_answers (Nat.zero_le _) (by decide +kernel)) fun id _ x hx => by
        rw [twoNotices_unsent id] at hx
        cases hx))
  exact ⟨h.1, (h.2 1 2 false _ {} _ (stopped_answers (by decide) (by decide +kernel)) rfl (by decide)
    (by decide +kernel)).2⟩

/-- Ten seconds after midnight the first one is sent, at half a minute past noon the second one: the
    count starts half a minute after midnight. -/
theorem cap_exceeded : ∃ s t, WithinCap onePerDay twoNotices 0 ∧
    Relation.ReflTransGen (Next onePerDay fun _ _ => True) (twoNotices, 0) (s, t) ∧
    onePerDay.dailyLimit < sentOn onePerDay 0 s := by
  refine ⟨(delivered 1 2 false (stopped 43230000 none) (firstSent 10000)).store, 43230000,
    twoNotices_withinCap, .tail (.single (.deliver 0 1 false (stopped 10000 none) (by decide)
      (stopped_answers (Nat.zero_le _) ?_) trivial)) (.deliver 1 2 false (stopped 43230000 none) (by decide)
      (stopped_answers ?_ ?_) trivial), ?_⟩
  · decide +kernel
  · decide
  · decide +kernel
  · decide +kernel

end ZedBot.Notifications
