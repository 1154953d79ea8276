import ZedBot.Operations.Agreement

/-! The reconciliation of an uncertain operation.

    The shared executor logs what it is about to do before it calls the panel: the quota and the expiry
    that the service has, and those that the panel is asked for. Where the call stays uncertain, the
    reconciliation reads the account and compares. Bigints and instants of the logged event stand for
    the texts that are written from them. -/

namespace ZedBot.Operations

/-- The metadata of `COMMERCE_OPERATION_INTENT`. -/
structure OperationIntent where
  operation : Operation
  beforeTotalBytes : ℤ
  beforeRemainingBytes : ℤ
  beforeExpiresAt : Option ℤ
  expectedTotalBytes : Option ℤ
  expectedExpiresAt : Option ℤ
  deriving DecidableEq, Repr

/-- What the shared executor logs before it calls the panel. -/
def operationIntent (operation : Operation) (service : Service) (post : PostState) :
    OperationIntent where
  operation := operation
  beforeTotalBytes := service.volumeBytes
  beforeRemainingBytes := service.remainingBytes
  beforeExpiresAt := service.expiresAt
  expectedTotalBytes := post.totalBytes
  expectedExpiresAt := post.expiresAt

inductive ReconciliationResult
  | alreadyConverged (service : Option Service)
  | refunded (refunded : Bool) (code : String)
  | uncertain (code : String)
  | busy (code : String)
  /-- The read throws. -/
  | thrown
  deriving DecidableEq, Repr

/-- The panel shows one of the expected values. -/
def intentApplied (intent : OperationIntent) (remote : PanelResult) : Bool :=
  (intent.expectedTotalBytes.any fun b => remote.totalBytes = some (some b)) ∨
    intent.expectedExpiresAt.any fun e => remote.expiresAt = some (some e)

/-- The panel shows both values from before. -/
def intentUnchanged (intent : OperationIntent) (remote : PanelResult) : Bool :=
  remote.totalBytes = some (some intent.beforeTotalBytes) ∧
    intent.beforeExpiresAt = remote.expiresAt.join

/-- The row of the service after a read; what the panel does not report stays. -/
def adoptRemote (remote : PanelResult) (service : Service) : Service :=
  { service with
    volumeBytes := (remote.totalBytes.map (·.getD 0)).getD service.volumeBytes
    remainingBytes := (remote.remainingBytes.map (·.getD 0)).getD service.remainingBytes
    usedBytes := remote.usedBytes.getD service.usedBytes
    expiresAt := remote.expiresAt.getD service.expiresAt }

/-- The verdict on a read. -/
def judgeRemote (now : ℕ) (intent : OperationIntent) (remote : PanelResult) (service : Service)
    (x : OrderRows) : ReconciliationResult × OrderRows :=
  if ¬ remote.ok then (.uncertain "REMOTE_READ_UNCERTAIN", x)
  else if intentApplied intent remote then
    let y := markTrialConversion now { x with
      service := some (adoptRemote remote service)
      events := x.events ++ [.COMMERCE_OPERATION_APPLIED]
      order := { x.order with status := .COMPLETED, completedAt := some now } }
    (.alreadyConverged y.service, y)
  else if intentUnchanged intent remote then
    let r := refundDefinite "reconciliation proved operation absent" x
    (.refunded r.1 "REMOTE_UNCHANGED", r.2)
  else (.uncertain "REMOTE_STATE_AMBIGUOUS", x)

def reconciliationBusy : ReconciliationResult := .busy "EXECUTION_BUSY"

/-- The reconciliation of an order on an existing service. -/
def reconcileCommerceOrder (now : ℕ) (lock : LockAcquisition) (read : PanelAnswer)
    (intent : Option OperationIntent) (x : OrderRows) : ReconciliationResult × OrderRows :=
  if x.order.status ≠ .PROVISIONING then (reconciliationBusy, x)
  else
    match intent, x.order.serviceId, x.service.filter fun s => s.userId = x.order.userId with
    | some intent, some _, some service =>
      match lock, read with
      | .acquired _, .result remote => judgeRemote now intent remote service x
      | .acquired _, .throws _ => (.thrown, x)
      | .contended, _ | .unavailable, _ => (reconciliationBusy, x)
    | _, _, _ => (reconciliationBusy, x)

/-! ### What a panel shows -/

/-- The quota and the expiry of an account. -/
structure AccountState where
  quota : Option ℤ
  expiry : Option ℤ
  deriving DecidableEq, Repr

/-- A panel keeps instants to the second or to the millisecond. -/
inductive PanelPrecision
  | seconds | milliseconds
  deriving DecidableEq, Repr

/-- A quota of zero is unlimited. -/
def shownQuota (quota : Option ℤ) : Option ℤ := quota.filter (0 < ·)

/-- An expiry of zero is none. -/
def shownExpiry : PanelPrecision → Option ℤ → Option ℤ
  | .milliseconds, expiry => expiry.filter (0 < ·)
  | .seconds, expiry => ((expiry.map (· / 1000)).filter (0 < ·)).map (· * 1000)

/-- The state as a panel shows it. -/
def AccountState.shown (precision : PanelPrecision) (state : AccountState) : AccountState :=
  ⟨shownQuota state.quota, shownExpiry precision state.expiry⟩

/-- A read shows exactly a state. -/
def Shows (precision : PanelPrecision) (state : AccountState) (remote : PanelResult) : Prop :=
  remote.totalBytes = some (shownQuota state.quota) ∧
    remote.expiresAt = some (shownExpiry precision state.expiry)

/-- The fields of a Marzban user that are compared. -/
structure MarzbanUser where
  used_traffic : Option ℤ := none
  data_limit : Option (Option ℤ) := none
  expire : Option (Option ℤ) := none
  deriving DecidableEq, Repr

def mapUserFields (user : MarzbanUser) : PanelResult :=
  let usedBytes := user.used_traffic.map (max 0)
  let totalBytes := user.data_limit.map fun limit => limit.filter (0 < ·)
  { ok := true
    usedBytes
    totalBytes
    remainingBytes := totalBytes.map fun total => total.map fun t => max (t - usedBytes.getD 0) 0
    expiresAt := user.expire.map fun e => (e.filter (0 < ·)).map (· * 1000) }

/-- What the adapter writes of a state. -/
def marzbanUser (used : Option ℤ) (state : AccountState) : MarzbanUser where
  used_traffic := used
  data_limit := some (some (state.quota.getD 0))
  expire := some (some ((state.expiry.map (· / 1000)).getD 0))

/-- MARZBAN: what was written is shown to the second. -/
theorem marzban_shows (used : Option ℤ) (state : AccountState) :
    Shows .seconds state (mapUserFields (marzbanUser used state)) := by
  obtain ⟨quota, expiry⟩ := state
  constructor
  · cases quota <;> rfl
  · cases expiry <;> rfl

/-! ### The verdict -/

/-- The state that the intent records as the present one. -/
def beforeState (service : Service) : AccountState := ⟨some service.volumeBytes, service.expiresAt⟩

/-- The state that the panel is asked for. -/
def afterState (operation : Operation) (service : Service) (order : Order) (now : ℕ) :
    AccountState :=
  let request := operationRequest operation service (expected operation service order now)
  ⟨request.totalBytes, request.expiresAt⟩

variable {operation : Operation} {service current : Service} {order : Order} {now now' : ℕ}
variable {precision : PanelPrecision} {remote : PanelResult} {x : OrderRows}

/-- The intent names what the panel is asked for. -/
theorem intent_expected (operation : Operation) (service : Service) (order : Order) (now : ℕ) :
    (operationIntent operation service
      (expected operation service order now)).expectedTotalBytes =
        (afterState operation service order now).quota ∧
    (operationIntent operation service
      (expected operation service order now)).expectedExpiresAt =
        (afterState operation service order now).expiry := by
  cases operation <;> exact ⟨rfl, rfl⟩

/-- An order that waits for its reconciliation. -/
structure Waiting (x : OrderRows) (current : Service) : Prop where
  provisioning : x.order.status = .PROVISIONING
  serviceId : x.order.serviceId ≠ none
  service : x.service = some current
  owner : current.userId = x.order.userId

theorem reconcile_waiting (hx : Waiting x current) (lost : Bool) (intent : OperationIntent) :
    reconcileCommerceOrder now (.acquired lost) (.result remote) (some intent) x =
      judgeRemote now intent remote current x := by
  obtain ⟨id, hid⟩ := Option.ne_none_iff_exists'.mp hx.serviceId
  have hmine : x.service.filter (fun s => s.userId = x.order.userId) = some current := by
    rw [Option.filter_eq_some_iff]
    exact ⟨hx.service, by simpa using hx.owner⟩
  unfold reconcileCommerceOrder
  rw [if_neg (by simp [hx.provisioning]), hid, hmine]

theorem intentApplied_iff {intent : OperationIntent} : intentApplied intent remote = true ↔
    (∃ b, intent.expectedTotalBytes = some b ∧ remote.totalBytes = some (some b)) ∨
      ∃ e, intent.expectedExpiresAt = some e ∧ remote.expiresAt = some (some e) := by
  simp [intentApplied, Option.any_eq_true]

/-- A PROVISIONING order is refunded. -/
theorem refundDefinite_provisioning (reason : String) (h : x.order.status = .PROVISIONING) :
    (refundDefinite reason x).1 = true ∧ (refundDefinite reason x).2.order.status = .FAILED := by
  unfold refundDefinite failAndRefund
  simp only [h]
  split
  · exact ⟨rfl, rfl⟩
  split
  · contradiction
  split
  · exact ⟨rfl, rfl⟩
  · exact ⟨rfl, rfl⟩

/-- A verdict of refund: the order fails, and its price is credited. -/
def IsRefund (y : ReconciliationResult × OrderRows) : Prop :=
  y.1 = .refunded true "REMOTE_UNCHANGED" ∧ y.2.order.status = .FAILED

section Verdict

variable {intent : OperationIntent} (hok : remote.ok = true) (hx : x.order.status = .PROVISIONING)
include hok

theorem judge_applied (h : intentApplied intent remote = true) :
    (judgeRemote now intent remote current x).2.order.status = .COMPLETED := by
  unfold judgeRemote
  rw [if_neg (by simp [hok]), if_pos h]
  exact congrArg Order.status (markTrialConversion_same now _).1

include hx

theorem judge_unchanged (h : intentApplied intent remote = false)
    (h' : intentUnchanged intent remote = true) :
    IsRefund (judgeRemote now intent remote current x) := by
  unfold judgeRemote
  rw [if_neg (by simp [hok]), if_neg (by simp [h]), if_pos h']
  obtain ⟨htrue, hfailed⟩ :=
    refundDefinite_provisioning "reconciliation proved operation absent" hx
  exact ⟨congrArg (ReconciliationResult.refunded · "REMOTE_UNCHANGED") htrue, hfailed⟩

theorem judge_ambiguous (h : intentApplied intent remote = false)
    (h' : intentUnchanged intent remote = false) :
    (judgeRemote now intent remote current x).2.order.status = .PROVISIONING := by
  unfold judgeRemote
  rw [if_neg (by simp [hok]), if_neg (by simp [h]), if_neg (by simp [h'])]
  exact hx

/-- The order is completed where the panel shows one of the expected values. -/
theorem completed_iff : (judgeRemote now intent remote current x).2.order.status = .COMPLETED ↔
    intentApplied intent remote = true := by
  refine ⟨fun hdone => ?_, judge_applied hok⟩
  by_contra hnot
  rw [Bool.not_eq_true] at hnot
  cases hun : intentUnchanged intent remote with
  | true =>
    rw [(judge_unchanged hok hx hnot hun).2] at hdone
    cases hdone
  | false =>
    rw [judge_ambiguous hok hx hnot hun] at hdone
    cases hdone

/-- It is refunded where the panel shows none of them, and both values from before. -/
theorem refund_iff : IsRefund (judgeRemote now intent remote current x) ↔
    intentApplied intent remote = false ∧ intentUnchanged intent remote = true := by
  refine ⟨fun hrefund => ?_, fun ⟨h, h'⟩ => judge_unchanged hok hx h h'⟩
  cases happ : intentApplied intent remote with
  | true =>
    have hdone : (judgeRemote now intent remote current x).2.order.status = .COMPLETED :=
      judge_applied hok happ
    rw [hrefund.2] at hdone
    cases hdone
  | false =>
    cases hun : intentUnchanged intent remote with
    | true => exact ⟨rfl, rfl⟩
    | false =>
      have hwaits : (judgeRemote now intent remote current x).2.order.status = .PROVISIONING :=
        judge_ambiguous hok hx happ hun
      rw [hrefund.2] at hwaits
      cases hwaits

end Verdict

/-- The verdict is right: a refund where the panel shows the state from before, a completion where it
    shows the state that it was asked for, and only there where the two differ. -/
structure JudgedRightly (before after : AccountState) (precision : PanelPrecision)
    (remote : PanelResult) (y : ReconciliationResult × OrderRows) : Prop where
  refunds : Shows precision before remote → IsRefund y
  completes : Shows precision after remote → y.2.order.status = .COMPLETED
  only : before.shown precision ≠ after.shown precision → y.2.order.status = .COMPLETED →
    Shows precision after remote

/-- When the two comparisons tell the states apart.
    `unchanged`: the panel shows the recorded values as they are, and the operation changes both.
    `changed`: the panel shows one of the expected values as it is.
    `neither`: a read of another state has neither of the expected values. -/
structure TellsApart (service : Service) (after : AccountState) (precision : PanelPrecision)
    (remote : PanelResult) : Prop where
  unchanged : Shows precision (beforeState service) remote → 0 < service.volumeBytes ∧
    shownExpiry precision service.expiresAt = service.expiresAt ∧
    after.quota ≠ some service.volumeBytes ∧
    (after.expiry = service.expiresAt → service.expiresAt = none)
  changed : Shows precision after remote → (∃ b, 0 < b ∧ after.quota = some b) ∨
    ∃ e, after.expiry = some e ∧ shownExpiry precision (some e) = some e
  neither : (beforeState service).shown precision ≠ after.shown precision →
    ¬ Shows precision after remote →
      (∀ b, after.quota = some b → remote.totalBytes ≠ some (some b)) ∧
        ∀ e, after.expiry = some e → remote.expiresAt ≠ some (some e)

theorem shownQuota_eq_some {quota : Option ℤ} {b : ℤ} :
    shownQuota quota = some b ↔ quota = some b ∧ 0 < b := by
  rw [shownQuota, Option.filter_eq_some_iff, decide_eq_true_eq]

section Comparison

variable {intent : OperationIntent} {after : AccountState}

/-- On the state from before. -/
theorem refund_before_iff (hbytes : intent.beforeTotalBytes = service.volumeBytes)
    (hexpiry : intent.beforeExpiresAt = service.expiresAt)
    (hquota : intent.expectedTotalBytes = after.quota)
    (hafter : intent.expectedExpiresAt = after.expiry)
    (hshow : Shows precision (beforeState service) remote) :
    (intentApplied intent remote = false ∧ intentUnchanged intent remote = true) ↔
      0 < service.volumeBytes ∧ shownExpiry precision service.expiresAt = service.expiresAt ∧
      after.quota ≠ some service.volumeBytes ∧
      (after.expiry = service.expiresAt → service.expiresAt = none) := by
  obtain ⟨htotal, hexp⟩ := hshow
  change remote.totalBytes = some (shownQuota (some service.volumeBytes)) at htotal
  change remote.expiresAt = some (shownExpiry precision service.expiresAt) at hexp
  have hun : intentUnchanged intent remote = true ↔ 0 < service.volumeBytes ∧
      shownExpiry precision service.expiresAt = service.expiresAt := by
    rw [intentUnchanged, decide_eq_true_eq, hbytes, hexpiry, htotal, hexp, Option.some.injEq,
      shownQuota_eq_some, Option.join_some, eq_comm (a := service.expiresAt)]
    simp
  have happ (hpos : 0 < service.volumeBytes)
      (hsame : shownExpiry precision service.expiresAt = service.expiresAt) :
      intentApplied intent remote = true ↔ after.quota = some service.volumeBytes ∨
        after.expiry = service.expiresAt ∧ service.expiresAt ≠ none := by
    rw [intentApplied_iff, hquota, hafter, htotal, hexp, hsame,
      shownQuota_eq_some.mpr ⟨rfl, hpos⟩]
    constructor
    · rintro (⟨b, hb, he⟩ | ⟨e, he, he'⟩)
      · cases he
        exact .inl hb
      · have hexp' := Option.some.inj he'
        exact .inr ⟨he.trans hexp'.symm, hexp' ▸ Option.some_ne_none e⟩
    · rintro (hb | ⟨he, hne⟩)
      · exact .inl ⟨_, hb, rfl⟩
      · obtain ⟨e, hexp'⟩ := Option.ne_none_iff_exists'.mp hne
        exact .inr ⟨e, he.trans hexp', congrArg some hexp'⟩
  rw [hun]
  constructor
  · rintro ⟨hnot, hpos, hsame⟩
    have hno : ¬ (after.quota = some service.volumeBytes ∨
        after.expiry = service.expiresAt ∧ service.expiresAt ≠ none) := fun h => by
      rw [(happ hpos hsame).mpr h] at hnot
      cases hnot
    exact ⟨hpos, hsame, fun h => hno (.inl h), fun h => by_contra fun hne => hno (.inr ⟨h, hne⟩)⟩
  · rintro ⟨hpos, hsame, hquota', hexpiry'⟩
    refine ⟨Bool.eq_false_iff.mpr fun h => ?_, hpos, hsame⟩
    rcases (happ hpos hsame).mp h with h | ⟨h, hne⟩
    · exact hquota' h
    · exact hne (hexpiry' h)

/-- On the state that was asked for. -/
theorem applied_after_iff (hquota : intent.expectedTotalBytes = after.quota)
    (hafter : intent.expectedExpiresAt = after.expiry) (hshow : Shows precision after remote) :
    intentApplied intent remote = true ↔ (∃ b, 0 < b ∧ after.quota = some b) ∨
      ∃ e, after.expiry = some e ∧ shownExpiry precision (some e) = some e := by
  obtain ⟨htotal, hexp⟩ := hshow
  rw [intentApplied_iff, hquota, hafter, htotal, hexp]
  constructor
  · rintro (⟨b, hb, he⟩ | ⟨e, he, he'⟩)
    · exact .inl ⟨b, (shownQuota_eq_some.mp (Option.some.inj he)).2, hb⟩
    · rw [he] at he'
      exact .inr ⟨e, he, Option.some.inj he'⟩
  · rintro (⟨b, hpos, hb⟩ | ⟨e, he, he'⟩)
    · exact .inl ⟨b, hb, congrArg some (shownQuota_eq_some.mpr ⟨hb, hpos⟩)⟩
    · refine .inr ⟨e, he, ?_⟩
      rw [he, he']

/-- On another state. -/
theorem not_applied_iff (hquota : intent.expectedTotalBytes = after.quota)
    (hafter : intent.expectedExpiresAt = after.expiry) : ¬ intentApplied intent remote = true ↔
      (∀ b, after.quota = some b → remote.totalBytes ≠ some (some b)) ∧
        ∀ e, after.expiry = some e → remote.expiresAt ≠ some (some e) := by
  rw [intentApplied_iff, hquota, hafter]
  simp only [not_or, not_exists, not_and, ne_eq]

end Comparison

/-- RECONCILIATION: the verdict is right exactly when the two comparisons tell the states apart. -/
theorem judged_rightly_iff (operation : Operation) (service : Service) (order : Order) (now now' : ℕ)
    (precision : PanelPrecision) (lost : Bool) (hx : Waiting x current) (hok : remote.ok = true) :
    JudgedRightly (beforeState service) (afterState operation service order now) precision remote
      (reconcileCommerceOrder now' (.acquired lost) (.result remote)
        (some (operationIntent operation service (expected operation service order now))) x) ↔
    TellsApart service (afterState operation service order now) precision remote := by
  rw [reconcile_waiting hx]
  obtain ⟨hquota, hafter⟩ := intent_expected operation service order now
  have hrefund : IsRefund (judgeRemote now' (operationIntent operation service
      (expected operation service order now)) remote current x) ↔ _ :=
    refund_iff hok hx.provisioning
  have hdone : (judgeRemote now' (operationIntent operation service
      (expected operation service order now)) remote current x).2.order.status = .COMPLETED ↔ _ :=
    completed_iff hok hx.provisioning
  constructor
  · intro h
    refine ⟨fun hshow => ?_, fun hshow => ?_, fun hne hno => ?_⟩
    · exact (refund_before_iff rfl rfl hquota hafter hshow).mp (hrefund.mp (h.refunds hshow))
    · exact (applied_after_iff hquota hafter hshow).mp (hdone.mp (h.completes hshow))
    · exact (not_applied_iff hquota hafter).mp fun happ => hno (h.only hne (hdone.mpr happ))
  · intro h
    refine ⟨fun hshow => ?_, fun hshow => ?_, fun hne hcompleted => ?_⟩
    · exact hrefund.mpr ((refund_before_iff rfl rfl hquota hafter hshow).mpr (h.unchanged hshow))
    · exact hdone.mpr ((applied_after_iff hquota hafter hshow).mpr (h.changed hshow))
    · by_contra hno
      exact (not_applied_iff hquota hafter).mpr (h.neither hne hno) (hdone.mp hcompleted)

/-! ### The monthly service again -/

/-- The panel does not answer. -/
def silentPanel (_ : PanelRequest) : PanelAnswer := .throws "timeout"

/-- The order after an execution whose call stays uncertain. -/
def uncertainOrder (operation : Operation) : OrderRows :=
  (executeServiceOperation operation (running (20 * 86400000) silentPanel)
    (paidOrder operation.onBot.type)).2

theorem uncertainOrder_waits (operation : Operation) :
    Waiting (uncertainOrder operation) monthlyService := by
  cases operation <;> exact ⟨by decide +kernel, by decide +kernel, by decide +kernel, by decide +kernel⟩

/-- A read of a state. -/
def readOf (precision : PanelPrecision) (state : AccountState) : PanelResult where
  ok := true
  totalBytes := some (shownQuota state.quota)
  expiresAt := some (shownExpiry precision state.expiry)

/-- The state that the panel is asked for. -/
def askedState (operation : Operation) : AccountState :=
  afterState operation monthlyService (paidOrder operation.onBot.type).order (20 * 86400000)

/-- The reconciliation of the order on a read of a state. -/
def reconciled (operation : Operation) (state : AccountState) : ReconciliationResult × OrderRows :=
  reconcileCommerceOrder (21 * 86400000) (.acquired false) (.result (readOf .seconds state))
    (some (operationIntent operation monthlyService (expected operation monthlyService
      (paidOrder operation.onBot.type).order (20 * 86400000)))) (uncertainOrder operation)

/-- A renewal changes both values: where it did not land, it is refunded. -/
theorem renewal_judged_rightly : JudgedRightly (beforeState monthlyService) (askedState .RENEWAL)
    .seconds (readOf .seconds (beforeState monthlyService))
    (reconciled .RENEWAL (beforeState monthlyService)) := by
  refine (judged_rightly_iff .RENEWAL monthlyService _ (20 * 86400000) (21 * 86400000) .seconds false
    (uncertainOrder_waits .RENEWAL) rfl).mpr ⟨fun _ => ?_, fun h => ?_, fun _ _ => ?_⟩
  · exact ⟨by decide, by decide, by decide, by decide⟩
  · exact absurd h.1 (by decide)
  · exact ⟨fun b hb => by cases hb; decide, fun e he => by cases he; decide⟩

/-- Extra volume keeps the expiry: where it did not land, it counts as applied. -/
theorem extraVolume_judged_wrongly :
    (beforeState monthlyService).shown .seconds ≠ (askedState .EXTRA_VOLUME).shown .seconds ∧
    Shows .seconds (beforeState monthlyService) (readOf .seconds (beforeState monthlyService)) ∧
    (reconciled .EXTRA_VOLUME (beforeState monthlyService)).2.order.status = .COMPLETED ∧
    ¬ JudgedRightly (beforeState monthlyService) (askedState .EXTRA_VOLUME) .seconds
      (readOf .seconds (beforeState monthlyService))
      (reconciled .EXTRA_VOLUME (beforeState monthlyService)) := by
  have hdone : (reconciled .EXTRA_VOLUME (beforeState monthlyService)).2.order.status =
      .COMPLETED := by decide +kernel
  refine ⟨by decide, ⟨rfl, rfl⟩, hdone, fun h => ?_⟩
  have hfailed := (h.refunds ⟨rfl, rfl⟩).2
  rw [hdone] at hfailed
  cases hfailed

end ZedBot.Operations
