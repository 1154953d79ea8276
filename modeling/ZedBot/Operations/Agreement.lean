import ZedBot.Operations.Executors

/-! When the two executors of one paid order agree.

    Each of them refuses and refunds, or completes the order with one call of the panel. They agree when
    they refuse the same orders, sell the same volume and days, and persist the same entitlement;
    in particular the shared executor keeps the days shown on the service while the bot recomputes
    them. -/

namespace ZedBot.Operations

variable {x y y' : OrderRows} {panel : PanelRequest → PanelAnswer} {now : ℕ}

/-- The entitlement of a service. -/
def Service.entitlement (s : Service) : ℤ × ℤ × ℤ × Option ℤ × ServiceStatus × ℤ :=
  (s.volumeBytes, s.usedBytes, s.remainingBytes, s.expiresAt, s.status, s.durationDays)

/-- The totals that a request asks for. -/
def PanelRequest.totals (r : PanelRequest) : Option ℤ × Option ℤ := (r.totalBytes, r.expiresAt)

/-- Two executions have asked the same of the panel and left the same order status, entitlement and
    refund. -/
structure Agree (y y' : OrderRows) : Prop where
  requests : y.requests.map (·.totals) = y'.requests.map (·.totals)
  status : y.order.status = y'.order.status
  service : y.service.map (·.entitlement) = y'.service.map (·.entitlement)
  refund : y.refundRow = y'.refundRow
  balance : y.balanceToman = y'.balanceToman

/-- The panel reports success; the total and the expiry that it reports, if any, are the requested
    ones. -/
def Reports (panel : PanelRequest → PanelAnswer) : Prop :=
  ∀ req, ∃ r, panel req = .result r ∧ r.ok ∧ (∀ t, r.totalBytes = some t → t = req.totalBytes) ∧
    ∀ e, r.expiresAt = some e → e = req.expiresAt

/-- An executor runs under the lock to its end. -/
def running (now : ℕ) (panel : PanelRequest → PanelAnswer) : ExecutionEnv := { now, panel }

/-- The bot's executor of an operation. -/
def Operation.onBot : Operation → BotOperation
  | .RENEWAL => executeRenewal
  | .EXTRA_VOLUME => executeExtraVolume
  | .EXTRA_TIME => executeExtraTime

/-! ### What each kind of ending leaves -/

/-- The order has failed and is refunded. -/
def Refused (x y : OrderRows) : Prop := ∃ reason, y = (failAndRefund reason x).2

/-- The order is completed by one request, which leaves the service `s`. -/
structure Completed (x y : OrderRows) (req : PanelRequest) (s : Service) : Prop where
  requests : y.requests = x.requests ++ [req]
  status : y.order.status = .COMPLETED
  service : y.service.map (·.entitlement) = some s.entitlement
  refund : y.refundRow = x.refundRow
  balance : y.balanceToman = x.balanceToman

theorem Refused.status (h : Refused x y) (hpaid : x.order.status = .PAID) :
    y.order.status = .FAILED := by
  obtain ⟨reason, rfl⟩ := h
  unfold failAndRefund
  simp only [hpaid, true_or, decide_true, if_true, not_true_eq_false, if_false]
  split
  · rfl
  · split <;> rfl

/-- What a refund leaves does not depend on its reason. -/
theorem Refused.agree (h : Refused x y) (h' : Refused x y') : Agree y y' := by
  obtain ⟨reason, rfl⟩ := h
  obtain ⟨reason', rfl⟩ := h'
  unfold failAndRefund
  simp only
  split
  · split <;> exact ⟨rfl, rfl, rfl, rfl, rfl⟩
  · split
    · exact ⟨rfl, rfl, rfl, rfl, rfl⟩
    · split <;> exact ⟨rfl, rfl, rfl, rfl, rfl⟩

/-- Two completions agree if they asked for the same and left the same. -/
theorem Completed.agree_iff {req req' : PanelRequest} {s s' : Service} (h : Completed x y req s)
    (h' : Completed x y' req' s') :
    Agree y y' ↔ req.totals = req'.totals ∧ s.entitlement = s'.entitlement := by
  constructor
  · intro ha
    have hr := ha.requests
    rw [h.requests, h'.requests, List.map_append, List.map_append] at hr
    have hs := ha.service
    rw [h.service, h'.service] at hs
    refine ⟨?_, Option.some.inj hs⟩
    simpa using List.append_cancel_left hr
  · rintro ⟨hr, hs⟩
    refine ⟨?_, ?_, ?_, ?_, ?_⟩
    · rw [h.requests, h'.requests, List.map_append, List.map_append, List.map_singleton,
        List.map_singleton, hr]
    · rw [h.status, h'.status]
    · rw [h.service, h'.service, hs]
    · rw [h.refund, h'.refund]
    · rw [h.balance, h'.balance]

theorem entitlement_markTrialConversion (x : OrderRows) :
    (markTrialConversion now x).service.map (·.entitlement) = x.service.map (·.entitlement) := by
  unfold markTrialConversion
  split
  · rfl
  · rename_i s hs
    split
    · rw [hs]
      rfl
    · rfl

theorem markTrialConversion_same (now : ℕ) (x : OrderRows) :
    (markTrialConversion now x).order = x.order ∧ (markTrialConversion now x).requests = x.requests ∧
      (markTrialConversion now x).refundRow = x.refundRow ∧
      (markTrialConversion now x).balanceToman = x.balanceToman := by
  unfold markTrialConversion
  split
  · exact ⟨rfl, rfl, rfl, rfl⟩
  · split <;> exact ⟨rfl, rfl, rfl, rfl⟩

/-- The conversion of a trial leaves what a completion is. -/
theorem Completed.markTrialConversion {req : PanelRequest} {s : Service}
    (h : Completed x y req s) : Completed x (markTrialConversion now y) req s := by
  obtain ⟨horder, hreqs, hrefund, hbalance⟩ := markTrialConversion_same now y
  refine ⟨?_, ?_, ?_, ?_, ?_⟩
  · rw [hreqs, h.requests]
  · rw [horder, h.status]
  · rw [entitlement_markTrialConversion, h.service]
  · rw [hrefund, h.refund]
  · rw [hbalance, h.balance]

/-! Both transactions that persist an applied operation complete its order. -/

theorem BotOperation.persist_completed (op : BotOperation) {req : PanelRequest} {s : Service}
    (hst : y.order.status = .PROVISIONING) (hreq : y.requests = x.requests ++ [req])
    (href : y.refundRow = x.refundRow) (hbal : y.balanceToman = x.balanceToman) :
    Completed x (op.persist now s y) req s :=
  Completed.markTrialConversion ⟨hreq, moveOrder_status _ _ _ _ hst, rfl, href, hbal⟩

theorem persistOperation_completed {req : PanelRequest} {s : Service}
    (hst : y.order.status = .PROVISIONING) (hreq : y.requests = x.requests ++ [req])
    (href : y.refundRow = x.refundRow) (hbal : y.balanceToman = x.balanceToman) :
    Completed x (persistOperation now s y) req s :=
  Completed.markTrialConversion ⟨hreq, moveOrder_status _ _ _ _ hst, rfl, href, hbal⟩

/-- Nothing is left to fail of an order that is completed. -/
theorem failAndRefund_completed (reason : String) (h : x.order.status = .COMPLETED) :
    (failAndRefund reason x).2 = x := by
  unfold failAndRefund
  simp [h]
  split <;> rfl

/-! ### The bot -/

/-- The service that a PAID order names, where it is the buyer's and not deleted. -/
def IsTarget (x : OrderRows) (s : Service) : Prop :=
  x.service = some s ∧ s.userId = x.order.userId ∧ s.deletedAt = none

/-- What the bot does not refuse. -/
def BotOperation.Grants (op : BotOperation) (x : OrderRows) (s : Service) : Prop :=
  s.status ≠ .DELETED ∧ serviceSupportsGlobalLifecycle s ∧ op.refusal x s = none ∧
    s.panelStatus = .ACTIVE

variable {op : BotOperation}

theorem execute_running (htype : x.order.type = op.type) :
    op.execute (running now panel) x = op.executeUnlocked (running now panel) false x := by
  unfold BotOperation.execute
  rw [if_neg (not_not.mpr htype)]
  cases x.order.serviceId <;> rfl

/-- Without a service the order is refunded. -/
theorem onTarget_none {env : ExecutionEnv} {lost : Bool} {rows : OrderRows}
    (hs : rows.service = none) :
    (op.onTarget env lost rows x).2 = (failAndRefund op.missingReason x).2 := by
  unfold BotOperation.onTarget
  simp only [hs, Option.filter_none]
  cases rows.order.serviceId <;> rfl

/-- An operation that is logged as applied only completes its order. -/
theorem bot_applied (htype : x.order.type = op.type) (hpaid : x.order.status = .PAID)
    (h : op.eventType ∈ x.events) :
    (op.execute (running now panel) x).2.order.status = .COMPLETED ∧
      (op.execute (running now panel) x).2.requests = x.requests := by
  rw [execute_running htype]
  unfold BotOperation.executeUnlocked
  rw [if_neg (not_not.mpr htype)]
  cases hs : x.service with
  | some s => simp [h, hpaid]
  | none =>
    simp only [h, hpaid, decide_true]
    rw [if_neg (by simp), if_neg (by simp), if_neg (by simp), onTarget_none hs, if_pos (by simp),
      failAndRefund_completed _ rfl]
    exact ⟨rfl, rfl⟩

theorem executeUnlocked_paid (htype : x.order.type = op.type) (hpaid : x.order.status = .PAID)
    (h : op.eventType ∉ x.events) :
    op.executeUnlocked (running now panel) false x = op.onTarget (running now panel) false x x := by
  unfold BotOperation.executeUnlocked
  simp [htype, hpaid, h]

theorem bot_refused (htype : x.order.type = op.type) (hpaid : x.order.status = .PAID)
    (h : op.eventType ∉ x.events)
    (hno : ∀ s, IsTarget x s → x.order.serviceId ≠ none → ¬ op.Grants x s) :
    Refused x (op.execute (running now panel) x).2 := by
  rw [execute_running htype, executeUnlocked_paid htype hpaid h]
  unfold BotOperation.onTarget
  simp only
  split
  · exact ⟨_, rfl⟩
  · exact ⟨_, rfl⟩
  rename_i sid s hsid hs
  obtain ⟨hs, hmine⟩ := Option.filter_eq_some_iff.mp hs
  simp only [decide_eq_true_eq] at hmine
  have hgrant := hno s ⟨hs, hmine.1, hmine.2.1⟩ (by simp [hsid])
  split
  · exact ⟨_, rfl⟩
  split
  · exact ⟨_, rfl⟩
  split
  · exact ⟨_, rfl⟩
  · exact absurd ⟨hmine.2.2, by simp_all, ‹_›, by simp_all⟩ hgrant

theorem bot_granted {s : Service} {r : PanelResult} (htype : x.order.type = op.type)
    (hpaid : x.order.status = .PAID) (h : op.eventType ∉ x.events) (hsid : x.order.serviceId ≠ none)
    (hs : IsTarget x s) (hgrant : op.Grants x s)
    (hr : panel (op.request x s now) = .result r) (hok : r.ok) :
    Completed x (op.execute (running now panel) x).2 (op.request x s now) (op.data x s r now) := by
  rw [execute_running htype, executeUnlocked_paid htype hpaid h]
  obtain ⟨sid, hsid⟩ := Option.ne_none_iff_exists'.mp hsid
  have htarget : x.service.filter (fun s => s.userId = x.order.userId ∧ s.deletedAt = none ∧
      s.status ≠ .DELETED) = some s := by
    rw [Option.filter_eq_some_iff]
    exact ⟨hs.1, by simpa using ⟨hs.2.1, hs.2.2, hgrant.1⟩⟩
  unfold BotOperation.onTarget
  simp only [hsid, htarget, hgrant.2.1, hgrant.2.2.1, hgrant.2.2.2, hpaid, running, hr, panelResult]
  rw [if_neg (by simp), if_neg (by simp), if_neg (by simp)]
  unfold BotOperation.finish
  rw [if_neg (by simp [hok]), if_neg (by simp [hok]), if_neg (by simp), if_pos (by simp)]
  exact op.persist_completed (moveOrder_status _ _ _ _ hpaid) rfl rfl rfl

/-! ### The shared executor -/

/-- What the shared executor does not refuse. -/
def Operation.Grants (op : Operation) (x : OrderRows) (s : Service) (now : ℕ) : Prop :=
  s.panelStatus = .ACTIVE ∧ invalidGrant op s (expected op s x.order now) = false

variable {operation : Operation}

theorem shared_idle (h : x.order.serviceId = none) :
    (executeServiceOperation operation (running now panel) x).2 = x := by
  unfold executeServiceOperation
  simp [h]

theorem executeServiceOperation_running (h : x.order.serviceId ≠ none) :
    executeServiceOperation operation (running now panel) x =
      executeServiceOperationLocked operation (running now panel) false x := by
  obtain ⟨sid, hsid⟩ := Option.ne_none_iff_exists'.mp h
  unfold executeServiceOperation
  rw [hsid]
  rfl

theorem shared_replay {s : Service} (hsid : x.order.serviceId ≠ none) (hs : x.service = some s)
    (h : .COMMERCE_OPERATION_APPLIED ∈ x.events) :
    (executeServiceOperation operation (running now panel) x).2 = x := by
  rw [executeServiceOperation_running hsid]
  unfold executeServiceOperationLocked
  simp [hs, h]

/-- A PAID order that is not logged as applied goes on to its target. -/
theorem executeServiceOperation_paid (hsid : x.order.serviceId ≠ none)
    (hpaid : x.order.status = .PAID)
    (h : .COMMERCE_OPERATION_APPLIED ∈ x.events → x.service = none) :
    executeServiceOperation operation (running now panel) x =
      operationOnTarget operation (running now panel) false x := by
  rw [executeServiceOperation_running hsid]
  unfold executeServiceOperationLocked
  cases hs : x.service with
  | none => simp [hpaid]
  | some s =>
    have hnot : .COMMERCE_OPERATION_APPLIED ∉ x.events := fun hmem => by simp [h hmem] at hs
    simp [hnot, hpaid]

theorem shared_refused (hsid : x.order.serviceId ≠ none) (hpaid : x.order.status = .PAID)
    (h : .COMMERCE_OPERATION_APPLIED ∈ x.events → x.service = none)
    (hno : ∀ s, IsTarget x s → ¬ operation.Grants x s now) :
    Refused x (executeServiceOperation operation (running now panel) x).2 := by
  rw [executeServiceOperation_paid hsid hpaid h]
  unfold operationOnTarget
  split
  · exact ⟨_, rfl⟩
  rename_i s hs
  obtain ⟨hs, hmine⟩ := Option.filter_eq_some_iff.mp hs
  simp only [decide_eq_true_eq] at hmine
  split
  · exact ⟨_, rfl⟩
  split
  · exact ⟨_, rfl⟩
  · exact absurd ⟨by simp_all, Bool.not_eq_true _ ▸ ‹_›⟩ (hno s ⟨hs, hmine⟩)

theorem shared_granted {s : Service} {r : PanelResult} (hsid : x.order.serviceId ≠ none)
    (hpaid : x.order.status = .PAID)
    (h : .COMMERCE_OPERATION_APPLIED ∈ x.events → x.service = none) (hs : IsTarget x s)
    (hgrant : operation.Grants x s now)
    (hr : panel (operationRequest operation s (expected operation s x.order now)) = .result r)
    (hok : r.ok) :
    Completed x (executeServiceOperation operation (running now panel) x).2
      (operationRequest operation s (expected operation s x.order now))
      (operationUpdate (expected operation s x.order now) r s) := by
  rw [executeServiceOperation_paid hsid hpaid h]
  unfold operationOnTarget
  have htarget : x.service.filter (fun s => s.userId = x.order.userId ∧ s.deletedAt = none) =
      some s := by
    rw [Option.filter_eq_some_iff]
    exact ⟨hs.1, by simpa using hs.2⟩
  simp only [htarget, running, hgrant.1, hgrant.2, hr, remoteResult]
  rw [if_neg (by simp), if_neg (by simp)]
  unfold finishOperation
  rw [if_neg (by simp [hok]), if_neg (by simp), if_neg (by simp)]
  exact persistOperation_completed (moveOrder_status _ _ _ _ hpaid) rfl rfl rfl

/-! ### When two completions agree -/

/-- The renewal sells the same volume and days in both: the snapshots are the sold values, and what
    remains counts alike. -/
def SameSale (x : OrderRows) (s : Service) : Prop :=
  (soldVolumeGb x ≤ 0 ∧ x.order.volumeGbSnapshot.getD 0 = 0 ∨
    0 < soldVolumeGb x ∧ x.order.volumeGbSnapshot.getD 0 = soldVolumeGb x ∧
      (0 < s.volumeBytes ∨ s.remainingBytes ≤ 0)) ∧
  (x.order.durationDaysSnapshot.getD 0 = soldDays x ∨
    x.order.durationDaysSnapshot.getD 0 ≤ 0 ∧ soldDays x ≤ 0)

/-- What completing an operation leaves is the same in both. -/
def SameEffect (op : Operation) (x : OrderRows) (s : Service) (now : ℕ) (r : PanelResult) : Prop :=
  match op with
  | .RENEWAL =>
    SameSale x s ∧
      r.remainingBytes.join.getD ((renewalOf x s now).totalBytes.getD 0) =
        (renewalOf x s now).totalBytes.getD 0 ∧
      s.durationDays = renewedDurationDays s.startsAt (renewalOf x s now).expiresAt
  | .EXTRA_VOLUME => True
  | .EXTRA_TIME =>
    (s.usedBytes = 0 ∨ r.usedBytes ≠ none) ∧ 0 ≤ s.volumeBytes ∧
      (s.volumeBytes = 0 ∨ 0 < s.remainingBytes) ∧
      s.durationDays =
        renewedDurationDays s.startsAt (some (calculateExtraTime s (soldDays x) now))

theorem soldVolumeGb_of_some {v : ℤ} (h : x.order.volumeGbSnapshot = some v) :
    soldVolumeGb x = v := by simp [soldVolumeGb, h]

theorem soldDays_of_some {d : ℤ} (h : x.order.durationDaysSnapshot = some d) : soldDays x = d := by
  simp [soldDays, h]

/-- A positive snapshot is the sold value. -/
theorem soldVolumeGb_of_pos (h : 0 < x.order.volumeGbSnapshot.getD 0) :
    soldVolumeGb x = x.order.volumeGbSnapshot.getD 0 := by
  cases hv : x.order.volumeGbSnapshot with
  | none => simp [hv] at h
  | some v => rw [soldVolumeGb_of_some hv, Option.getD_some]

theorem soldDays_of_pos (h : 0 < x.order.durationDaysSnapshot.getD 0) :
    soldDays x = x.order.durationDaysSnapshot.getD 0 := by
  cases hd : x.order.durationDaysSnapshot with
  | none => simp [hd] at h
  | some d => rw [soldDays_of_some hd, Option.getD_some]

theorem lt_expiryBase (now : ℕ) (s : Service) {d e : ℤ} (hd : 0 < d) (he : s.expiresAt = some e) :
    e < expiryBase now s.expiresAt + d * DAY_MS := by
  have hbase : e ≤ expiryBase now s.expiresAt := by
    rw [he]
    change e ≤ if (now : ℤ) < e then e else now
    split <;> omega
  unfold DAY_MS
  omega

/-- The new expiries of two renewals are equal if they sell the same days. -/
theorem expiry_iff (now : ℕ) (s : Service) {d d' : ℤ} :
    (if 0 < d then some (expiryBase now s.expiresAt + d * DAY_MS) else s.expiresAt) =
      (if 0 < d' then some (expiryBase now s.expiresAt + d' * DAY_MS) else s.expiresAt) ↔
    d' = d ∨ d' ≤ 0 ∧ d ≤ 0 := by
  constructor
  · intro h
    split at h <;> split at h
    · have := Option.some.inj h
      unfold DAY_MS at this
      omega
    · have := lt_expiryBase now s ‹0 < d› h.symm
      omega
    · have := lt_expiryBase now s ‹0 < d'› h
      omega
    · omega
  · rintro (rfl | ⟨h, h'⟩)
    · rfl
    · rw [if_neg (by omega), if_neg (by omega)]

/-- What remains of a limited service. -/
def keptBytes (s : Service) : ℤ :=
  if 0 < s.volumeBytes ∧ 0 < s.remainingBytes then s.remainingBytes else 0

theorem renewal_totalBytes (x : OrderRows) (s : Service) : (renewalOf x s now).totalBytes =
    if soldVolumeGb x ≤ 0 then none else some (keptBytes s + soldVolumeGb x * GIB) := by
  unfold renewalOf calculateRenewal keptBytes
  simp only
  split <;> rfl

theorem renewal_remainingBytes (x : OrderRows) (s : Service) :
    (renewalOf x s now).remainingBytes = (renewalOf x s now).totalBytes := by
  unfold renewalOf calculateRenewal
  simp only
  split <;> rfl

theorem renewal_expiresAt (x : OrderRows) (s : Service) : (renewalOf x s now).expiresAt =
    if 0 < soldDays x then some (expiryBase now s.expiresAt + soldDays x * DAY_MS)
    else s.expiresAt := by
  unfold renewalOf calculateRenewal
  simp only
  split <;> rfl

theorem keptBytes_eq_max_iff {s : Service} :
    keptBytes s = max s.remainingBytes 0 ↔ 0 < s.volumeBytes ∨ s.remainingBytes ≤ 0 := by
  unfold keptBytes
  split <;> omega

/-- The new totals of the two renewals are equal if they sell the same volume and count what remains
    alike. -/
theorem renewal_total_iff {s : Service} :
    (renewalOf x s now).totalBytes = (expected .RENEWAL s x.order now).totalBytes ↔
      (soldVolumeGb x ≤ 0 ∧ x.order.volumeGbSnapshot.getD 0 = 0 ∨
        0 < soldVolumeGb x ∧ x.order.volumeGbSnapshot.getD 0 = soldVolumeGb x ∧
          (0 < s.volumeBytes ∨ s.remainingBytes ≤ 0)) := by
  rw [renewal_totalBytes, ← keptBytes_eq_max_iff]
  change _ = (if x.order.volumeGbSnapshot.getD 0 = 0 then none
    else some (max s.remainingBytes 0 + x.order.volumeGbSnapshot.getD 0 * GIB)) ↔ _
  cases hv : x.order.volumeGbSnapshot with
  | none =>
    rw [Option.getD_none, if_pos rfl]
    split
    · exact ⟨fun _ => .inl ⟨‹_›, rfl⟩, fun _ => rfl⟩
    · simp only [reduceCtorEq, false_iff]
      omega
  | some v =>
    rw [soldVolumeGb_of_some hv, Option.getD_some]
    split
    · split
      · simp only [true_iff]
        omega
      · simp only [reduceCtorEq, false_iff]
        omega
    · rw [if_neg (by omega), Option.some_inj]
      omega

/-- A reported total is the requested one. -/
theorem reported_total {r : PanelResult} {total : Option ℤ}
    (h : ∀ t, r.totalBytes = some t → t = total) : r.totalBytes.join.or total = total := by
  cases ht : r.totalBytes with
  | none => rfl
  | some t =>
    rw [h t ht]
    cases total <;> rfl

theorem reported_expiry {r : PanelResult} {expiresAt : Option ℤ}
    (h : ∀ e, r.expiresAt = some e → e = expiresAt) : r.expiresAt.getD expiresAt = expiresAt := by
  cases he : r.expiresAt with
  | none => rfl
  | some e => exact h e he

theorem getD_or_getD {o : Option ℤ} {b : Option ℤ} : (o.or b).getD 0 = o.getD (b.getD 0) := by
  cases o <;> rfl

/-- Two renewals leave the same entitlement if the panel does not report something else to remain and
    the days shown are those of the new period. -/
theorem renewal_entitlement_iff {s : Service} {r : PanelResult}
    (htotal : (renewalOf x s now).totalBytes = (expected .RENEWAL s x.order now).totalBytes)
    (hexp : (renewalOf x s now).expiresAt = (expected .RENEWAL s x.order now).expiresAt)
    (ht : ∀ t, r.totalBytes = some t → t = (renewalOf x s now).totalBytes)
    (he : ∀ e, r.expiresAt = some e → e = (renewalOf x s now).expiresAt) :
    (serviceUpdateData (renewalOf x s now) r s now).entitlement =
        (operationUpdate (expected .RENEWAL s x.order now) r s).entitlement ↔
      r.remainingBytes.join.getD ((renewalOf x s now).totalBytes.getD 0) =
          (renewalOf x s now).totalBytes.getD 0 ∧
        s.durationDays = renewedDurationDays s.startsAt (renewalOf x s now).expiresAt := by
  have hremaining : (expected .RENEWAL s x.order now).remainingBytes =
      (renewalOf x s now).totalBytes := htotal.symm
  have hvolume : r.totalBytes.join.or (renewalOf x s now).totalBytes =
      (renewalOf x s now).totalBytes :=
    reported_total ht
  have hexpiry : r.expiresAt.getD (renewalOf x s now).expiresAt = (renewalOf x s now).expiresAt :=
    reported_expiry he
  simp only [Service.entitlement, serviceUpdateData, operationUpdate, ← htotal, ← hexp, hremaining,
    hvolume, hexpiry, renewal_remainingBytes, getD_or_getD, Prod.mk.injEq, true_and, eq_comm]

/-- Two extensions leave the same entitlement if the usage is reported or zero, the service is not
    exhausted and the days shown are those up to the new expiry. -/
theorem extraTime_entitlement_iff {s : Service} {r : PanelResult}
    (hdays : 0 < x.order.durationDaysSnapshot.getD 0)
    (ht : ∀ t, r.totalBytes = some t → t = (expected .EXTRA_TIME s x.order now).totalBytes)
    (he : ∀ e, r.expiresAt = some e → e = some (calculateExtraTime s (soldDays x) now)) :
    (extraTimeData (calculateExtraTime s (soldDays x) now) r s now).entitlement =
        (operationUpdate (expected .EXTRA_TIME s x.order now) r s).entitlement ↔
      SameEffect .EXTRA_TIME x s now r := by
  have hexp : (expected .EXTRA_TIME s x.order now).expiresAt =
      some (calculateExtraTime s (soldDays x) now) := by
    rw [soldDays_of_pos hdays]
    rfl
  have hvolume : r.totalBytes.join.or (expected .EXTRA_TIME s x.order now).totalBytes =
      (expected .EXTRA_TIME s x.order now).totalBytes :=
    reported_total ht
  have hnew : r.expiresAt.join.getD (calculateExtraTime s (soldDays x) now) =
      calculateExtraTime s (soldDays x) now := by
    cases hr : r.expiresAt with
    | none => rfl
    | some e => rw [he e hr]; rfl
  have hexpiry : r.expiresAt.getD (some (calculateExtraTime s (soldDays x) now)) =
      some (calculateExtraTime s (soldDays x) now) :=
    reported_expiry he
  have hbytes : (expected .EXTRA_TIME s x.order now).totalBytes.getD 0 = s.volumeBytes ↔
      0 ≤ s.volumeBytes := by
    change (if 0 < s.volumeBytes then some s.volumeBytes else none).getD 0 = _ ↔ _
    split
    · simp only [Option.getD_some, true_iff]
      omega
    · simp only [Option.getD_none]
      omega
  have hused : r.usedBytes.getD s.usedBytes = r.usedBytes.getD 0 ↔
      s.usedBytes = 0 ∨ r.usedBytes ≠ none := by
    cases r.usedBytes <;> simp
  have hstatus : (if 0 < s.volumeBytes ∧ s.remainingBytes ≤ 0 then ServiceStatus.LIMITED
      else .ACTIVE) = .ACTIVE ↔ ¬ (0 < s.volumeBytes ∧ s.remainingBytes ≤ 0) := by
    split <;> simp_all
  simp only [Service.entitlement, extraTimeData, operationUpdate, hexp, hvolume, hnew, hexpiry,
    Prod.mk.injEq, hstatus, hused, true_and]
  have hremaining : (r.remainingBytes.join.or
      (expected .EXTRA_TIME s x.order now).remainingBytes).getD 0 =
      r.remainingBytes.join.getD s.remainingBytes := getD_or_getD
  rw [hremaining, eq_comm, hbytes]
  change _ ↔ (s.usedBytes = 0 ∨ r.usedBytes ≠ none) ∧ 0 ≤ s.volumeBytes ∧
    (s.volumeBytes = 0 ∨ 0 < s.remainingBytes) ∧ s.durationDays =
      max 0 (ceilDiv (calculateExtraTime s (soldDays x) now - s.startsAt) DAY_MS)
  constructor
  · rintro ⟨hvol, hused, -, hactive, hshown⟩
    exact ⟨hused, hvol, by omega, hshown.symm⟩
  · rintro ⟨hused, hvol, hactive, hshown⟩
    exact ⟨hvol, hused, rfl, by omega, hshown.symm⟩

/-- Two purchases of volume that are granted leave the same entitlement. -/
theorem extraVolume_entitlement {s : Service} {r : PanelResult}
    (hvol : 0 < x.order.volumeGbSnapshot.getD 0)
    (ht : ∀ t, r.totalBytes = some t → t = some (calculateExtraVolume s (soldVolumeGb x)))
    (he : ∀ e, r.expiresAt = some e → e = s.expiresAt) :
    (extraVolumeData (calculateExtraVolume s (soldVolumeGb x)) r s now).entitlement =
      (operationUpdate (expected .EXTRA_VOLUME s x.order now) r s).entitlement := by
  have htotal : (expected .EXTRA_VOLUME s x.order now).totalBytes =
      some (calculateExtraVolume s (soldVolumeGb x)) := by
    rw [soldVolumeGb_of_pos hvol]
    rfl
  have hremaining : (expected .EXTRA_VOLUME s x.order now).remainingBytes =
      some (calculateExtraVolume s (soldVolumeGb x)) := htotal
  have hvolume : r.totalBytes.join.or (some (calculateExtraVolume s (soldVolumeGb x))) =
      some (calculateExtraVolume s (soldVolumeGb x)) :=
    reported_total ht
  have hexpiry : r.expiresAt.getD s.expiresAt = s.expiresAt :=
    reported_expiry he
  have hexp : (expected .EXTRA_VOLUME s x.order now).expiresAt = s.expiresAt := rfl
  simp only [Service.entitlement, extraVolumeData, operationUpdate, htotal, hremaining, hvolume, hexp,
    hexpiry, getD_or_getD, Option.getD_some]

variable {s : Service} {r r' : PanelResult}

/-- What a granted operation sells. -/
theorem Operation.Grants.volume (h : Operation.EXTRA_VOLUME.Grants x s now) :
    0 < x.order.volumeGbSnapshot.getD 0 := by
  have hg := h.2
  simp only [invalidGrant, expected] at hg
  simp at hg
  exact hg.1

theorem Operation.Grants.days (h : Operation.EXTRA_TIME.Grants x s now) :
    0 < x.order.durationDaysSnapshot.getD 0 := by
  have hg := h.2
  simp only [invalidGrant, expected] at hg
  simp at hg
  exact hg.1

/-- Two granted executions agree if their effect is the same. -/
theorem granted_iff (hgrant : operation.Grants x s now) (hrep : Reports panel)
    (hr : panel (operation.onBot.request x s now) = .result r)
    (hr' : panel (operationRequest operation s (expected operation s x.order now)) = .result r') :
    (operation.onBot.request x s now).totals =
        (operationRequest operation s (expected operation s x.order now)).totals ∧
      (operation.onBot.data x s r now).entitlement =
        (operationUpdate (expected operation s x.order now) r' s).entitlement ↔
    SameEffect operation x s now r := by
  obtain ⟨r₁, h₁, -, ht, he⟩ := hrep (operation.onBot.request x s now)
  cases hr.symm.trans h₁
  cases operation with
  | RENEWAL =>
    change ((renewalOf x s now).totalBytes, (renewalOf x s now).expiresAt) =
      ((expected .RENEWAL s x.order now).totalBytes, (expected .RENEWAL s x.order now).expiresAt) ∧
      _ ↔ SameSale x s ∧ _
    have hsale : SameSale x s ↔
        (renewalOf x s now).totalBytes = (expected .RENEWAL s x.order now).totalBytes ∧
        (renewalOf x s now).expiresAt = (expected .RENEWAL s x.order now).expiresAt := by
      unfold SameSale
      rw [renewal_total_iff, renewal_expiresAt, ← expiry_iff now s]
      rfl
    rw [hsale, Prod.mk.injEq]
    refine and_congr_right fun ⟨htotal, hexp⟩ => ?_
    have hreq : operationRequest .RENEWAL s (expected .RENEWAL s x.order now) =
        Operation.RENEWAL.onBot.request x s now := by
      change (⟨_, _, _, _⟩ : PanelRequest) = ⟨_, _, _, _⟩
      rw [htotal, hexp]
    rw [hreq, hr] at hr'
    cases hr'
    exact renewal_entitlement_iff htotal hexp ht he
  | EXTRA_VOLUME =>
    have hvol := hgrant.volume
    have hreq : operationRequest .EXTRA_VOLUME s (expected .EXTRA_VOLUME s x.order now) =
        Operation.EXTRA_VOLUME.onBot.request x s now := by
      change _ = (⟨_, _, some (calculateExtraVolume s (soldVolumeGb x)), _⟩ : PanelRequest)
      rw [soldVolumeGb_of_pos hvol]
      rfl
    rw [hreq, hr] at hr'
    cases hr'
    rw [hreq]
    exact ⟨fun _ => trivial, fun _ => ⟨rfl, extraVolume_entitlement hvol ht he⟩⟩
  | EXTRA_TIME =>
    have hdays := hgrant.days
    have hreq : operationRequest .EXTRA_TIME s (expected .EXTRA_TIME s x.order now) =
        Operation.EXTRA_TIME.onBot.request x s now := by
      change _ = (⟨_, _, _, some (calculateExtraTime s (soldDays x) now)⟩ : PanelRequest)
      rw [soldDays_of_pos hdays]
      rfl
    rw [hreq, hr] at hr'
    cases hr'
    rw [hreq, ← extraTime_entitlement_iff hdays ht he]
    exact ⟨fun h => h.2, fun h => ⟨rfl, h⟩⟩

/-! ### The agreement -/

/-- The order names a service and no executor has logged it as applied; both executors refuse its target
    or neither does, and completing it leaves the same. -/
structure Agreeing (op : Operation) (panel : PanelRequest → PanelAnswer) (now : ℕ)
    (x : OrderRows) : Prop where
  service : x.order.serviceId ≠ none
  bot : op.onBot.eventType ∉ x.events
  shared : .COMMERCE_OPERATION_APPLIED ∈ x.events → x.service = none
  grants : ∀ s, IsTarget x s → (op.onBot.Grants x s ↔ op.Grants x s now)
  effect : ∀ s, IsTarget x s → op.Grants x s now →
    ∀ r, panel (op.onBot.request x s now) = .result r → SameEffect op x s now r

theorem IsTarget.eq {s s' : Service} (h : IsTarget x s) (h' : IsTarget x s') : s = s' :=
  Option.some.inj (h.1.symm.trans h'.1)

/-- Where neither executor has anything logged, they agree if they grant alike and leave the same. -/
theorem target_agree_iff (htype : x.order.type = operation.onBot.type)
    (hpaid : x.order.status = .PAID) (hrep : Reports panel) (hsid : x.order.serviceId ≠ none)
    (hbot : operation.onBot.eventType ∉ x.events)
    (hshared : .COMMERCE_OPERATION_APPLIED ∈ x.events → x.service = none) (hs : IsTarget x s)
    (hr : panel (operation.onBot.request x s now) = .result r) :
    Agree (operation.onBot.execute (running now panel) x).2
        (executeServiceOperation operation (running now panel) x).2 ↔
      (operation.onBot.Grants x s ↔ operation.Grants x s now) ∧
        (operation.Grants x s now → SameEffect operation x s now r) := by
  obtain ⟨r₁, h₁, hok, -⟩ := hrep (operation.onBot.request x s now)
  cases hr.symm.trans h₁
  obtain ⟨r', hr', hok', -⟩ := hrep (operationRequest operation s (expected operation s x.order now))
  by_cases hb : operation.onBot.Grants x s <;> by_cases hg : operation.Grants x s now
  · rw [(bot_granted htype hpaid hbot hsid hs hb hr hok).agree_iff
      (shared_granted hsid hpaid hshared hs hg hr' hok'), granted_iff hg hrep hr hr']
    simp only [hb, hg, true_and, forall_const]
  · have hrefused : Refused x (executeServiceOperation operation (running now panel) x).2 :=
      shared_refused hsid hpaid hshared fun s' hs' h => hg (hs.eq hs' ▸ h)
    refine ⟨fun ha => ?_, fun h => absurd (h.1.mp hb) hg⟩
    have := ha.status
    rw [hrefused.status hpaid, (bot_granted htype hpaid hbot hsid hs hb hr hok).status] at this
    cases this
  · have hrefused : Refused x (operation.onBot.execute (running now panel) x).2 :=
      bot_refused htype hpaid hbot fun s' hs' _ h => hb (hs.eq hs' ▸ h)
    refine ⟨fun ha => ?_, fun h => absurd (h.1.mpr hg) hb⟩
    have := ha.status
    rw [hrefused.status hpaid, (shared_granted hsid hpaid hshared hs hg hr' hok').status] at this
    cases this
  · simp only [hb, hg, true_and, false_implies, iff_true]
    exact (bot_refused htype hpaid hbot fun s' hs' _ h => hb (hs.eq hs' ▸ h)).agree
      (shared_refused hsid hpaid hshared fun s' hs' h => hg (hs.eq hs' ▸ h))

/-- The bot never leaves a PAID order PAID. -/
theorem bot_status_ne (htype : x.order.type = operation.onBot.type) (hpaid : x.order.status = .PAID)
    (hrep : Reports panel) :
    (operation.onBot.execute (running now panel) x).2.order.status ≠ .PAID := by
  by_cases hbot : operation.onBot.eventType ∈ x.events
  · rw [(bot_applied htype hpaid hbot).1]
    simp
  by_cases h : ∃ s, IsTarget x s ∧ x.order.serviceId ≠ none ∧ operation.onBot.Grants x s
  · obtain ⟨s, hs, hsid, hgrant⟩ := h
    obtain ⟨r, hr, hok, -⟩ := hrep (operation.onBot.request x s now)
    rw [(bot_granted htype hpaid hbot hsid hs hgrant hr hok).status]
    simp
  · rw [(bot_refused htype hpaid hbot fun s hs hsid hgrant => h ⟨s, hs, hsid, hgrant⟩).status hpaid]
    simp

/-- The shared executor completes a PAID order with one more request. -/
theorem shared_completed (hsid : x.order.serviceId ≠ none) (hpaid : x.order.status = .PAID)
    (hshared : .COMMERCE_OPERATION_APPLIED ∈ x.events → x.service = none) (hrep : Reports panel)
    (h : (executeServiceOperation operation (running now panel) x).2.order.status = .COMPLETED) :
    (executeServiceOperation operation (running now panel) x).2.requests.length ≠
      x.requests.length := by
  by_cases ht : ∃ s, IsTarget x s ∧ operation.Grants x s now
  · obtain ⟨s, hs, hgrant⟩ := ht
    obtain ⟨r, hr, hok, -⟩ :=
      hrep (operationRequest operation s (expected operation s x.order now))
    rw [(shared_granted hsid hpaid hshared hs hgrant hr hok).requests, List.length_append]
    simp
  · rw [(shared_refused hsid hpaid hshared fun s hs hgrant => ht ⟨s, hs, hgrant⟩).status hpaid] at h
    cases h

/-- AGREEMENT: the bot and the shared executor agree on a PAID order exactly if the order names a
    service, is not logged as applied, is refused by both or by none, and completing it leaves the
    same. -/
theorem executors_agree_iff {operation : Operation} {x : OrderRows}
    {panel : PanelRequest → PanelAnswer} {now : ℕ} (htype : x.order.type = operation.onBot.type)
    (hpaid : x.order.status = .PAID) (hrep : Reports panel) :
    Agree (operation.onBot.execute (running now panel) x).2
        (executeServiceOperation operation (running now panel) x).2 ↔
      Agreeing operation panel now x := by
  have hidle : (executeServiceOperation operation (running now panel) x).2 = x →
      ¬ Agree (operation.onBot.execute (running now panel) x).2
        (executeServiceOperation operation (running now panel) x).2 := by
    intro hx ha
    have := ha.status
    rw [hx, hpaid] at this
    exact bot_status_ne htype hpaid hrep this
  by_cases hsid : x.order.serviceId = none
  · exact ⟨fun ha => absurd ha (hidle (shared_idle hsid)), fun h => absurd hsid h.service⟩
  by_cases hshared : .COMMERCE_OPERATION_APPLIED ∈ x.events → x.service = none
  case neg =>
    simp only [Classical.not_imp] at hshared
    obtain ⟨s, hs⟩ := Option.ne_none_iff_exists'.mp hshared.2
    refine ⟨fun ha => absurd ha (hidle (shared_replay hsid hs hshared.1)), fun h => ?_⟩
    exact absurd (h.shared hshared.1) hshared.2
  by_cases hbot : operation.onBot.eventType ∈ x.events
  · refine ⟨fun ha => ?_, fun h => absurd hbot h.bot⟩
    obtain ⟨hstatus, hreqs⟩ : (operation.onBot.execute (running now panel) x).2.order.status =
        .COMPLETED ∧ _ := bot_applied htype hpaid hbot
    have hsame := congrArg List.length ha.requests
    rw [List.length_map, List.length_map, hreqs] at hsame
    exact absurd hsame.symm (shared_completed hsid hpaid hshared hrep (ha.status.symm.trans hstatus))
  by_cases ht : ∃ s, IsTarget x s
  · obtain ⟨s, hs⟩ := ht
    obtain ⟨r, hr, -⟩ := hrep (operation.onBot.request x s now)
    rw [target_agree_iff htype hpaid hrep hsid hbot hshared hs hr]
    constructor
    · rintro ⟨hgrants, heffect⟩
      refine ⟨hsid, hbot, hshared, fun s' hs' => ?_, fun s' hs' hg r' hr' => ?_⟩
      · rw [← hs.eq hs']
        exact hgrants
      · rw [← hs.eq hs'] at hg hr' ⊢
        cases hr.symm.trans hr'
        exact heffect hg
    · intro h
      exact ⟨h.grants s hs, fun hg => h.effect s hs hg r hr⟩
  · refine ⟨fun _ => ?_, fun _ => ?_⟩
    · exact ⟨hsid, hbot, hshared, fun s hs => absurd ⟨s, hs⟩ ht, fun s hs => absurd ⟨s, hs⟩ ht⟩
    · exact (bot_refused htype hpaid hbot fun s hs => absurd ⟨s, hs⟩ ht).agree
        (shared_refused hsid hpaid hshared fun s hs => absurd ⟨s, hs⟩ ht)

/-! ### Two orders of one service -/

/-- A panel that does what it is asked for. -/
def obedientPanel (req : PanelRequest) : PanelAnswer :=
  .result { ok := true, usedBytes := some 0, totalBytes := some req.totalBytes,
            remainingBytes := some req.totalBytes, expiresAt := some req.expiresAt }

theorem obedientPanel_reports : Reports obedientPanel :=
  fun _ => ⟨_, rfl, rfl, fun _ h => (Option.some.inj h).symm, fun _ h => (Option.some.inj h).symm⟩

/-- A service of 30 days and 50 GB, of which 10 are left, ten days before its expiry. -/
def monthlyService : Service where
  userId := 1
  username := "user1"
  volumeBytes := 50 * GIB
  usedBytes := 40 * GIB
  remainingBytes := 10 * GIB
  durationDays := 30
  expiresAt := some (30 * DAY_MS)

def paidOrder (type : OrderType) : OrderRows where
  order := { userId := 1, type := type, status := .PAID, serviceId := some 7, finalPriceToman := 100,
             volumeGbSnapshot := some 50, durationDaysSnapshot := some 30 }
  service := some monthlyService

/-- Both executors sell the 50 GB alike. -/
theorem executors_agree_extraVolume :
    Agree (executeExtraVolumeOrder (running (20 * 86400000) obedientPanel)
        (paidOrder .EXTRA_VOLUME)).2
      (executeServiceOperation .EXTRA_VOLUME (running (20 * 86400000) obedientPanel)
        (paidOrder .EXTRA_VOLUME)).2 := by
  refine (@executors_agree_iff .EXTRA_VOLUME (paidOrder .EXTRA_VOLUME) obedientPanel (20 * 86400000)
    rfl rfl obedientPanel_reports).mpr
    ⟨by decide, by decide, by decide, fun s hs => ?_, fun s hs _ r _ => trivial⟩
  cases Option.some.inj hs.1
  exact ⟨fun _ => ⟨rfl, by decide⟩, fun _ => ⟨by decide, by decide, by decide, rfl⟩⟩

/-- A renewal: the bot shows 60 days on the service, the shared executor 30. -/
theorem executors_differ : ¬ ∀ (operation : Operation) (x : OrderRows)
    (panel : PanelRequest → PanelAnswer) (now : ℕ), x.order.type = operation.onBot.type →
    x.order.status = .PAID → Reports panel →
    Agree (operation.onBot.execute (running now panel) x).2
      (executeServiceOperation operation (running now panel) x).2 := by
  intro h
  have ha := (h .RENEWAL (paidOrder .SERVICE_RENEWAL) obedientPanel (20 * 86400000) rfl rfl
    obedientPanel_reports).service
  revert ha
  decide +kernel

end ZedBot.Operations
