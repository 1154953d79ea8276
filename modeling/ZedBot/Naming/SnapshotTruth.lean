import ZedBot.Naming.Snapshots

/-! One identity for an order.

    A snapshot is only ever stored where there is none, so what a call returns, be it its own identity
    or the one that it read, is what is stored from then on. -/

namespace ZedBot.Naming
open ReadCommitted

/-- What a statement may make of the row of an order: a snapshot with a name, where there is none. -/
def Freezes (o n : Option NamingOrder) : Prop :=
  ∃ (row : NamingOrder) (i : ResolvedVpnIdentity), o = some row ∧ row.namingSnapshot = none ∧
    n = some { row with namingSnapshot := some (.identity i) } ∧ i.resolvedRemoteUsername ≠ ""

/-- A snapshot of an order is written once. -/
def freezing : Discipline NamingRow Unit Unit where
  Inv _ := True
  Commits _ _ _ t := ∀ id o n, t.chg (.order id) = some (o, n) → Freezes o n
  Acts _ _ _ _ := True
  commits_empty _ _ _ _ h := nomatch h
  inv_commit _ _ _ := trivial
  inv_act _ _ := trivial

variable {p : ℕ} {s s' : NamingStore} {r : List NamingStore} {orderId : String}
  {i : ResolvedVpnIdentity}

/-- The identity that is stored for an order. -/
def Stored (s : NamingStore) (orderId : String) (i : ResolvedVpnIdentity) : Prop :=
  ∃ row, s.rows (.order orderId) = some row ∧ parseNamingSnapshot row.namingSnapshot = some i

/-- STEP: what is stored stays. -/
theorem Stored.step {q : ℕ} (hst : freezing.Step q r s s') (h : Stored s orderId i) :
    Stored s' orderId i := by
  cases hst with
  | act w _ => exact h
  | commit t hh hc =>
    obtain ⟨row, hrow, hparse⟩ := h
    rcases s.commit_rows q hh (.order orderId) with ⟨hsame, -⟩ | hchg
    · exact ⟨row, hsame.trans hrow, hparse⟩
    · obtain ⟨row', i', ho, hnone, -, -⟩ := hc _ _ _ hchg
      rw [hrow] at ho
      cases ho
      rw [hnone] at hparse
      cases hparse

theorem Stored.later {ks : NamingKey → Prop} (hl : freezing.Later p ks s s')
    (h : Stored s orderId i) : Stored s' orderId i :=
  hl.stable (P := fun s => Stored s orderId i) (fun _ _ hst h => h.step hst) trivial h

theorem Stored.unique {j : ResolvedVpnIdentity} (hi : Stored s orderId i) (hj : Stored s orderId j) :
    i = j := by
  obtain ⟨row, hrow, hparse⟩ := hi
  obtain ⟨row', hrow', hparse'⟩ := hj
  rw [hrow] at hrow'
  cases hrow'
  rw [hparse] at hparse'
  exact Option.some.inj hparse'

/-! ### What a call returns -/

theorem normalize_ne_empty (raw orderShort : String) : normalizeRemoteUsername raw orderShort ≠ "" := by
  have hcore : ∀ raw s : List Char, coreOr raw s ≠ [] := by
    intro raw s
    rw [coreOr]
    split_ifs with h
    · rintro ⟨⟩
    · exact h
  have hcut : ∀ s w : List Char, w ≠ [] → cutLong s w ≠ [] := by
    intro s w hw
    rw [cutLong]
    split_ifs
    · simp
    · exact hw
  intro hempty
  have hnil : normalizeChars raw.toList orderShort.toList = [] := by
    have h := congrArg String.toList hempty
    rwa [normalizeRemoteUsername, String.toList_ofList] at h
  have hne := hcut orderShort.toList _ (hcore raw.toList orderShort.toList)
  rw [normalizeChars, padShort] at hnil
  split_ifs at hnil
  · obtain ⟨c, cs, hcons⟩ := List.exists_cons_of_ne_nil hne
    rw [hcons] at hnil
    cases hnil
  · exact hne hnil

section Calls

theorem wp_isTaken {username : String} {Q : Bool → Local NamingRow Unit Unit → NamingStore → Prop}
    (h : ∀ b r s', Q b ⟨none, r⟩ s') :
    wp freezing p (isTaken username orderId) Q ⟨none, r⟩ s := by
  refine (wp_seq _ _).mpr (wp_select _ fun s₁ _ _ => ?_)
  split
  · exact h _ _ _
  · exact (wp_seq _ _).mpr (wp_select _ fun s₂ _ _ => h _ _ _)

theorem wp_reserveSequence {panelId : ℕ} {representative : Bool}
    {Q : Option ℤ → Local NamingRow Unit Unit → NamingStore → Prop} (h : ∀ x s', Q x ⟨none, r⟩ s') :
    wp freezing p (reserveSequence panelId representative) Q ⟨none, r⟩ s := by
  refine wp_sql fun s₁ _ _ => ⟨fun id o n hchg => ?_, h _ _⟩
  obtain ⟨-, hmem⟩ := Tx.chg_add_empty hchg
  split at hmem
  · cases hmem
  · split at hmem <;> cases List.mem_singleton.mp hmem

theorem wp_chooseName {raw orderShort : String}
    {Q : Option String → Local NamingRow Unit Unit → NamingStore → Prop}
    (h : ∀ x r s', (∀ name, x = some name → name ≠ "") → Q x ⟨none, r⟩ s') :
    wp freezing p (chooseName raw orderShort orderId) Q ⟨none, r⟩ s := by
  refine (wp_seq _ _).mpr (wp_isTaken fun taken r₁ s₁ => ?_)
  split
  · exact h _ _ _ fun name hname => Option.some.inj hname ▸ normalize_ne_empty _ _
  · refine (wp_seq _ _).mpr (wp_isTaken fun stillTaken r₂ s₂ => ?_)
    refine h _ _ _ fun name hname => ?_
    cases stillTaken with
    | true => cases hname
    | false => exact Option.some.inj hname ▸ normalize_ne_empty _ _

/-- The postconditions of a resolution: what it resolves has a name. -/
def Resolves (Q : Except NamingError ResolvedVpnIdentity → Local NamingRow Unit Unit →
    NamingStore → Prop) : Prop :=
  ∀ x r s', (∀ i, x = .ok i → i.resolvedRemoteUsername ≠ "") → Q x ⟨none, r⟩ s'

variable {order : NamingOrder} {panelId : ℕ} {config : NamingConfigSnapshot}
  {Q : Except NamingError ResolvedVpnIdentity → Local NamingRow Unit Unit → NamingStore → Prop}

theorem Resolves.ok (h : Resolves Q) (hi : i.resolvedRemoteUsername ≠ "") (r : List NamingStore)
    (s' : NamingStore) : Q (.ok i) ⟨none, r⟩ s' :=
  h _ _ _ fun _ hj => Except.ok.inj hj ▸ hi

theorem Resolves.error (h : Resolves Q) (e : NamingError) (r : List NamingStore)
    (s' : NamingStore) : Q (.error e) ⟨none, r⟩ s' :=
  h _ _ _ fun _ hj => by cases hj

theorem wp_resolveUserSelected {userSelected : String} (h : Resolves Q) (hne : userSelected ≠ "") :
    wp freezing p (resolveUserSelected order config userSelected) Q ⟨none, r⟩ s := by
  rw [resolveUserSelected]
  split
  · exact h.error _ _ _
  refine (wp_seq _ _).mpr (wp_isTaken fun taken r₁ s₁ => ?_)
  split
  · exact h.error _ _ _
  · refine (wp_seq _ _).mpr (wp_ask _ fun c => ?_)
    exact h.ok hne _ _

theorem wp_resolveNumbered {sequence : Option ℤ} (h : Resolves Q) :
    wp freezing p (resolveNumbered order config sequence) Q ⟨none, r⟩ s := by
  refine (wp_seq _ _).mpr (wp_ask _ fun bytes => (wp_seq _ _).mpr (wp_chooseName ?_))
  intro chosen r₁ s₁ hchosen
  cases chosen with
  | none => exact h.error _ _ _
  | some name =>
    refine (wp_seq _ _).mpr (wp_ask _ fun c => ?_)
    exact h.ok (hchosen name rfl) _ _

/-- A resolution has a name, and changes no order. -/
theorem wp_resolve (h : Resolves Q) :
    wp freezing p (resolveVpnRemoteIdentity order panelId config) Q ⟨none, r⟩ s := by
  rw [resolveVpnRemoteIdentity]
  split
  · rename_i hselected
    exact wp_resolveUserSelected h hselected
  · rw [resolveStrategy]
    split
    · exact h.error _ _ _
    dsimp only
    split
    · exact wp_resolveNumbered h
    · refine (wp_seq _ _).mpr (wp_reserveSequence fun sequence s₁ => ?_)
      cases sequence with
      | none => exact h.error _ _ _
      | some n => exact wp_resolveNumbered h

/-- The postcondition of a call: an identity that it returns is stored. -/
def ReturnsStored (orderId : String) (x : Except NamingError ResolvedVpnIdentity)
    (_ : Local NamingRow Unit Unit) (s : NamingStore) : Prop :=
  ∀ i, x = .ok i → Stored s orderId i

theorem ReturnsStored.error (e : NamingError) (l : Local NamingRow Unit Unit) (s : NamingStore) :
    ReturnsStored orderId (.error e) l s := fun _ hj => by cases hj

theorem ReturnsStored.ok {l : Local NamingRow Unit Unit} (h : Stored s orderId i) :
    ReturnsStored orderId (.ok i) l s := fun _ hj => Except.ok.inj hj ▸ h

/-- FREEZE: the statement that stores an identity, and what a call does after it. -/
theorem wp_freezeSnapshot {P : ℕ → Local NamingRow Unit Unit → NamingStore → Prop}
    (hname : i.resolvedRemoteUsername ≠ "") (h0 : ∀ s', P 0 ⟨none, r⟩ s')
    (h1 : ∀ s', Stored s' orderId i → P 1 ⟨none, r⟩ s') :
    wp freezing p (freezeSnapshot orderId i) P ⟨none, r⟩ s := by
  refine wp_update fun s' hl _ => ⟨fun _ => h0 _, fun n hn => ?_⟩
  cases hrow : s'.rows (.order orderId) with
  | none =>
    rw [hrow] at hn
    cases hn
  | some row =>
    rw [hrow] at hn
    dsimp only at hn
    split_ifs at hn with hnone
    cases hn
    refine ⟨fun id o n hchg => ?_, h1 _ ⟨_, Tx.row_write_self _ _ _, if_neg hname⟩⟩
    rcases eq_or_ne id orderId with rfl | hid
    · rw [Tx.chg_write_self, Tx.base_empty] at hchg
      obtain ⟨rfl, rfl⟩ := Prod.mk.inj (Option.some.inj hchg)
      exact ⟨row, i, hrow, hnone, rfl, hname⟩
    · rw [Tx.chg_write_ne _ fun h => hid (NamingKey.order.inj h)] at hchg
      cases hchg

theorem parse_bind {row : Option NamingOrder}
    (h : parseNamingSnapshot (row.bind (·.namingSnapshot)) = some i) :
    ∃ order, row = some order ∧ parseNamingSnapshot order.namingSnapshot = some i := by
  cases row with
  | none => cases h
  | some order => exact ⟨order, rfl, h⟩

theorem wp_ensure {panel : NamingPanel} {captured : Option NamingConfigSnapshot}
    (hid : order.id = orderId)
    (hread : ∀ j, parseNamingSnapshot order.namingSnapshot = some j → Stored s orderId j) :
    wp freezing p (ensureOrderNamingSnapshot order panelId panel captured) (ReturnsStored orderId)
      ⟨none, r⟩ s := by
  rw [ensureOrderNamingSnapshot]
  split
  · exact .ok (hread _ ‹_›)
  · rw [wp_seq]
    refine wp_resolve ?_
    intro resolved r₁ s₁ hresolved
    cases resolved with
    | error e => exact .error _ _ _
    | ok identity =>
      rw [hid]
      dsimp only
      rw [wp_seq]
      refine wp_freezeSnapshot (hresolved _ rfl) (fun s₂ => ?_) fun s₂ h₂ => ?_
      · refine (wp_seq _ _).mpr (wp_select _ fun s₃ _ _ => ?_)
        split
        · rename_i winner hwinner
          refine .ok ?_
          obtain ⟨row, hrow, hsnapshot⟩ := parse_bind hwinner
          exact ⟨row, hrow, hsnapshot⟩
        · exact .error _ _ _
      · exact .ok h₂

theorem wp_call (call : EnsureCall) :
    wp freezing p call.run (ReturnsStored call.orderId) ⟨none, r⟩ s := by
  refine (wp_seq _ _).mpr (wp_select _ fun s₁ _ _ => ?_)
  refine (wp_seq _ _).mpr (wp_select _ fun s₂ hl _ => ?_)
  split
  · rename_i order panel horder hpanel
    refine wp_ensure rfl fun j hj => Stored.later hl ⟨order, horder, hj⟩
  · exact .error _ _ _

theorem wp_process (proc : NamingProcess) :
    wp freezing p proc.program (fun _ _ _ => True) ⟨none, r⟩ s := by
  cases proc <;> refine wp_sql fun s' _ _ => ⟨fun id o n hchg => ?_, trivial⟩
  all_goals
    obtain ⟨-, hmem⟩ := Tx.chg_add_empty hchg
    cases List.mem_singleton.mp hmem

end Calls

section Statements

/-- A naming statement writes what it likes, and the naming acts on nothing else. -/
abbrev NamingStatements {α : Type} (m : Namings α) : Prop :=
  m.Each (fun _ _ _ => True) fun _ _ => False

theorem each_isTaken (username orderId : String) : NamingStatements (isTaken username orderId) := by
  refine .bind (.select _) fun existing => ?_
  split
  · exact .pure _
  · exact .bind (.select _) fun _ => .pure _

theorem each_chooseName (raw orderShort orderId : String) :
    NamingStatements (chooseName raw orderShort orderId) := by
  refine .bind (each_isTaken _ _) fun taken => ?_
  split
  · exact .pure _
  · exact .bind (each_isTaken _ _) fun _ => .pure _

theorem each_resolveNumbered (order : NamingOrder) (config : NamingConfigSnapshot)
    (sequence : Option ℤ) : NamingStatements (resolveNumbered order config sequence) := by
  refine .bind (.ask _) fun bytes => .bind (each_chooseName _ _ _) fun chosen => ?_
  cases chosen with
  | none => exact .pure _
  | some name => exact .bind (.ask _) fun _ => .pure _

theorem each_resolve (order : NamingOrder) (panelId : ℕ) (config : NamingConfigSnapshot) :
    NamingStatements (resolveVpnRemoteIdentity order panelId config) := by
  rw [resolveVpnRemoteIdentity]
  split
  · rw [resolveUserSelected]
    split
    · exact .pure _
    refine .bind (each_isTaken _ _) fun taken => ?_
    split
    · exact .pure _
    · exact .bind (.ask _) fun _ => .pure _
  · rw [resolveStrategy]
    split
    · exact .pure _
    dsimp only
    split
    · exact each_resolveNumbered _ _ _
    · refine .bind (.sql fun _ => trivial) fun sequence => ?_
      cases sequence with
      | none => exact .pure _
      | some n => exact each_resolveNumbered _ _ _

theorem each_call (call : EnsureCall) : NamingStatements call.run := by
  refine .bind (.select _) fun order => .bind (.select _) fun panel => ?_
  split
  · rw [ensureOrderNamingSnapshot]
    split
    · exact .pure _
    refine .bind (each_resolve _ _ _) fun resolved => ?_
    split
    · exact .pure _
    refine .bind (.update (fun _ => trivial) fun _ _ _ => trivial) fun written => ?_
    split
    · exact .pure _
    refine .bind (.select _) fun fresh => ?_
    split
    · exact .pure _
    · exact .pure _
  · exact .pure _

end Statements

/-! ### Runs -/

/-- The processes: calls that hand out what they return, and what else happens. -/
def naming (calls : ℕ → Option EnsureCall) (procs : ℕ → NamingProcess) (p : ℕ) : Namings Unit :=
  match calls p with
  | some call => answering call.run
  | none => (procs p).program

variable {calls : ℕ → Option EnsureCall} {procs : ℕ → NamingProcess}

theorem good_naming : Good freezing (Config.start s (naming calls procs)) := by
  refine good_start trivial fun p => ?_
  rw [naming]
  split
  · exact (wp_bind _ _).mpr (wp_mono _ (fun _ _ _ _ _ _ _ _ => ⟨trivial, trivial⟩) (wp_call _))
  · exact wp_process _

/-- What a call has returned is stored. -/
theorem returned_stored {c : NamingConfig}
    (hrun : Run anyStep (Config.start s (naming calls procs)) c) {call : EnsureCall}
    (hcall : calls p = some call)
    (hi : (c.threads p).prog = answered (Except.ok i : Except NamingError ResolvedVpnIdentity)) :
    Stored c.store call.orderId i := by
  have hstart : ((Config.start s (naming calls procs)).threads p).prog = answering call.run := by
    simp only [Config.start, naming, hcall]
  obtain ⟨s', hl, hstored⟩ := hrun.answers good_naming hstart (each_call call).quiet (wp_call call) hi
  exact (hstored i rfl).later hl

/-- All successful calls on an order return the same identity, the one that is stored. -/
def Frozen (calls : ℕ → Option EnsureCall) (c : NamingConfig) : Prop :=
  ∀ p q call call' i j, calls p = some call → calls q = some call' →
    call'.orderId = call.orderId →
    (c.threads p).prog = answered (Except.ok i : Except NamingError ResolvedVpnIdentity) →
    (c.threads q).prog = answered (Except.ok j : Except NamingError ResolvedVpnIdentity) →
    i = j ∧ Stored c.store call.orderId i

/-- What the naming promises of a raw name and the short id of an order. -/
structure NamingSound (raw orderShort : String) : Prop where
  wellFormed : WellFormed (normalizeRemoteUsername raw orderShort).toList
  idempotent : normalizeRemoteUsername (normalizeRemoteUsername raw orderShort) orderShort =
    normalizeRemoteUsername raw orderShort
  separates : ∀ other, ShortId other.toList → other ≠ orderShort →
    Truncates raw.toList orderShort.toList →
    normalizeRemoteUsername raw orderShort ≠ normalizeRemoteUsername raw other
  fallback : fallbackName raw orderShort ≠ normalizeRemoteUsername raw orderShort

section Sound

variable {raw orderShort : String}

theorem toList_normalize (raw orderShort : String) : (normalizeRemoteUsername raw orderShort).toList =
    normalizeChars raw.toList orderShort.toList := String.toList_ofList

/-- A name is cut for its core alone. -/
theorem Truncates.other {raw s s' : List Char} (hs : ShortId s) (h : Truncates raw s) :
    Truncates raw s' := by
  rw [Truncates, coreOr] at h
  split_ifs at h with hnil
  · rw [List.length_cons, List.length_cons, hs.length] at h
    exact absurd h (by decide)
  · rwa [Truncates, coreOr, if_neg hnil]

theorem fallbackName_ne_iff (hs : ShortId orderShort.toList) :
    fallbackName raw orderShort ≠ normalizeRemoteUsername raw orderShort ↔
      Extends raw.toList orderShort.toList := by
  have htext : (s!"{raw}_{orderShort}").toList = raw.toList ++ '_' :: orderShort.toList := by
    simp [toString]
  rw [← fallback_ne_iff hs, ← htext, ← toList_normalize, ← toList_normalize, ne_eq, ne_eq,
    String.toList_inj]
  rfl

/-- REMOTE USERNAMES: a name is well formed, is its own normal form and differs between orders where it
    was cut, and all calls on an order return what is stored; the fallback of a name that is taken
    differs from it exactly where the core can be extended. -/
theorem remote_usernames_iff (raw orderShort : String) (hs : ShortId orderShort.toList) :
    (NamingSound raw orderShort ∧
      ∀ (calls : ℕ → Option EnsureCall) (procs : ℕ → NamingProcess) (s₀ : NamingStore)
        (c : NamingConfig), Run anyStep (Config.start s₀ (naming calls procs)) c → Frozen calls c) ↔
      Extends raw.toList orderShort.toList := by
  constructor
  · exact fun h => (fallbackName_ne_iff hs).mp h.1.fallback
  · refine fun hextends => ⟨⟨?_, ?_, ?_, (fallbackName_ne_iff hs).mpr hextends⟩, ?_⟩
    · rw [toList_normalize]
      exact normalizeChars_wellFormed hs _
    · rw [normalizeRemoteUsername, toList_normalize,
        normalizeChars_of_wellFormed (normalizeChars_wellFormed hs _)]
      rfl
    · intro other hother hne hcut heq
      have hchars := congrArg String.toList heq
      rw [toList_normalize, toList_normalize] at hchars
      exact normalizeChars_separates hs hother (fun h => hne (String.toList_inj.mp h).symm) hcut
        (hcut.other hs) hchars
    · intro calls procs s₀ c hrun p q call call' i j hcall hcall' hsame hi hj
      have hstored := returned_stored hrun hcall hi
      have hstored' := returned_stored hrun hcall' hj
      rw [hsame] at hstored'
      exact ⟨hstored.unique hstored', hstored⟩

end Sound

/-! A name that is long enough is used by its order; a custom text of thirty characters has one name, and
    no fallback. -/

def anOrderId : String := "a1b2c3d4-0000-4000-8000-000000000000"

theorem anOrder_short :
    (orderShortId anOrderId).toList = ['a', '1', 'b', '2', 'c', '3', 'd', '4'] := by
  decide +kernel

theorem anOrder_shortId : ShortId (orderShortId anOrderId).toList := by
  rw [anOrder_short]
  refine ⟨rfl, fun c hc => ?_⟩
  simp only [List.mem_cons, List.not_mem_nil, or_false] at hc
  rcases hc with rfl | rfl | rfl | rfl | rfl | rfl | rfl | rfl <;> decide

/-- An order, its panel and nothing else. -/
def oneOrder : NamingStore where
  rows
    | .order id => if id = anOrderId then some { id := id } else none
    | .panel _ => some { usernamePatternType := .TELEGRAM_ID_RANDOM }
    | .service _ | .activeReservation _ => none
  world := ()

def oneCall : EnsureCall := { orderId := anOrderId, panelId := 0 }

/-- Where the lone call ends: it has its result to hand out. -/
theorem oneCall_answered : ∃ c : NamingConfig,
    Run anyStep (Config.start oneOrder
      (naming (fun _ => some oneCall) fun _ => .putService "" none)) c ∧
    c.Alone 0 (answered (oneCall.run.solo 0 (fun _ => {}) { store := oneOrder }).1)
      (oneCall.run.solo 0 (fun _ => {}) { store := oneOrder }).2 :=
  Run.of_solo (fun _ => {}) oneCall.run answered ⟨rfl, rfl, rfl, fun _ => .inl rfl⟩

/-- A call on the order finds a name, and it is what is stored. -/
theorem remote_usernames_one_order : NamingSound "0_aaaa" (orderShortId anOrderId) ∧
    ∃ (c : NamingConfig) (i : ResolvedVpnIdentity),
      Run anyStep (Config.start oneOrder
        (naming (fun _ => some oneCall) fun _ => .putService "" none)) c ∧
      i.resolvedRemoteUsername = "0_aaaa" ∧ Stored c.store anOrderId i := by
  obtain ⟨hsound, hfrozen⟩ := (remote_usernames_iff "0_aaaa" (orderShortId anOrderId)
    anOrder_shortId).mpr (.inr ⟨by decide +kernel, by decide +kernel, by decide +kernel⟩)
  refine ⟨hsound, ?_⟩
  obtain ⟨c, hrun, halone⟩ := oneCall_answered
  have hprog := halone.prog
  have hresult : ∃ i, (oneCall.run.solo 0 (fun _ => {}) { store := oneOrder }).1 = Except.ok i ∧
      i.resolvedRemoteUsername = "0_aaaa" := by
    cases h : (oneCall.run.solo 0 (fun _ => {}) { store := oneOrder }).1 with
    | error e =>
      have hok : (oneCall.run.solo 0 (fun _ => {}) { store := oneOrder }).1.toOption.isSome := by
        decide +kernel
      rw [h] at hok
      cases hok
    | ok i =>
      have hname : (oneCall.run.solo 0 (fun _ => {}) { store := oneOrder }).1.toOption.map
          (·.resolvedRemoteUsername) = some "0_aaaa" := by decide +kernel
      rw [h] at hname
      exact ⟨i, rfl, Option.some.inj hname⟩
  obtain ⟨i, hi, hname⟩ := hresult
  rw [hi] at hprog
  exact ⟨c, i, hrun, hname, (hfrozen _ _ _ c hrun 0 0 oneCall oneCall i i rfl rfl rfl hprog hprog).2⟩

/-- A custom text of thirty characters. -/
def longText : NamingConfigSnapshot :=
  { strategy := .CUSTOM, customText := some "aaaaaaaaaaaaaaaaaaaaaaaaaaaaaa" }

def longParts : NameParts where
  telegramId := "1"
  telegramUsernameOrFallback := "u1"
  orderShort := orderShortId anOrderId
  sequence := none
  random := none

/-- NO FALLBACK: the name of a long text is cut, and so is its fallback, to the same name. -/
theorem long_text_no_fallback : ¬ ∀ raw orderShort : String, ShortId orderShort.toList →
    NamingSound raw orderShort := by
  intro h
  refine (h (buildRawName longText longParts) (orderShortId anOrderId) anOrder_shortId).fallback ?_
  decide +kernel

end ZedBot.Naming
