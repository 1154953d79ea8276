import ZedBot.Payments.WalletOrders

/-! Checkout drafts of the Mini App, and the request-level idempotency around their creation.

    Both creators cancel the older PENDING drafts of their target and create a new one: of the same
    service as two statements, of the same product in one transaction under an advisory lock. What
    the catalog, the price list, the discounts and the username holds decide is left to the
    oracle. -/

namespace ZedBot
open ReadCommitted

inductive ServiceOperation
  | RENEWAL | EXTRA_VOLUME | EXTRA_TIME
  deriving DecidableEq, Repr

/-- `OPERATION_ORDER_TYPE`. -/
def ServiceOperation.orderType : ServiceOperation → OrderType
  | .RENEWAL => .SERVICE_RENEWAL
  | .EXTRA_VOLUME => .EXTRA_VOLUME
  | .EXTRA_TIME => .EXTRA_TIME

/-- A draft that was not created: the code of the refusal, or an exception. -/
inductive DraftFailure
  | refused (code : CommerceCode)
  | threw
  deriving DecidableEq, Repr

/-! ### Drafts -/

/-- The ids of the inserted drafts. -/
def draftIds (journal : List Entry) : List ℕ :=
  journal.filterMap fun
    | .draft id => some id
    | .wallet _ | .openPayment _ | .commission _ => none

/-- `checkoutSession.create` of a draft; `false` is P2002. -/
def insertDraft (id : ℕ) (c : CheckoutSession) : App Bool := sql fun v =>
  match v.rows (.checkout id) with
  | some _ => { result := false }
  | none => { result := true, writes := [⟨.checkout id, some c⟩], entries := [.draft id] }

/-- The drafts that match, with their rows. -/
def matchingDrafts (cond : CheckoutSession → Bool) (v : AppView) : List (ℕ × CheckoutSession) :=
  (draftIds v.journal).filterMap fun id => (v.rows (.checkout id)).bind fun c =>
    if cond c then some (id, c) else none

def cancelEffect (cond : CheckoutSession → Bool) (v : AppView) : Effect Row Entry ℕ where
  result := (matchingDrafts cond v).length
  writes := (matchingDrafts cond v).map fun x =>
    ⟨.checkout x.1, some { x.2 with status := .CANCELLED }⟩

/-- `updateMany`: every matching draft becomes CANCELLED. -/
def cancelDrafts (cond : CheckoutSession → Bool) : App ℕ := sql (cancelEffect cond)

theorem mem_matchingDrafts {cond : CheckoutSession → Bool} {v : AppView} {id : ℕ}
    {c : CheckoutSession} : (id, c) ∈ matchingDrafts cond v ↔
      .draft id ∈ v.journal ∧ v.rows (.checkout id) = some c ∧ cond c = true := by
  have hid : ∀ j, j ∈ draftIds v.journal ↔ .draft j ∈ v.journal := by
    intro j
    simp only [draftIds, List.mem_filterMap]
    constructor
    · rintro ⟨e, he, hj⟩
      cases e with
      | wallet w | openPayment i | commission i => cases hj
      | draft i => cases hj; exact he
    · exact fun h => ⟨_, h, rfl⟩
  simp only [matchingDrafts, List.mem_filterMap, hid, Option.bind_eq_some_iff]
  constructor
  · rintro ⟨j, hj, c', hc', heq⟩
    split at heq
    · rename_i hcond
      cases heq
      exact ⟨hj, hc', hcond⟩
    · cases heq
  · rintro ⟨hj, hc, hcond⟩
    exact ⟨id, hj, c, hc, by rw [if_pos hcond]⟩

/-- A row that a cancellation changes matched and becomes CANCELLED. -/
theorem chg_cancelEffect {cond : CheckoutSession → Bool} {v : AppView} {t : AppTx}
    {rows : ∀ k, Row k} {c : ℕ} {o n : Option CheckoutSession}
    (h : (t.add rows (cancelEffect cond v)).chg (.checkout c) = some (o, n)) :
    t.chg (.checkout c) = some (o, n) ∨ o = t.base rows (.checkout c) ∧
      ∃ row, v.rows (.checkout c) = some row ∧ cond row = true ∧
        n = some { row with status := .CANCELLED } := by
  rcases Tx.chg_add h with h | ⟨ho, hmem⟩
  · exact .inl h
  · obtain ⟨⟨id, row⟩, hx, heq⟩ := List.mem_map.mp hmem
    cases heq
    obtain ⟨-, hrow, hcond⟩ := mem_matchingDrafts.mp hx
    exact .inr ⟨ho, row, hrow, hcond, rfl⟩

/-- A cancellation writes checkouts only. -/
theorem chg_cancelEffect_other {cond : CheckoutSession → Bool} {v : AppView} {t : AppTx}
    {rows : ∀ k, Row k} {k : Key} (hk : ∀ c, k ≠ .checkout c) :
    (t.add rows (cancelEffect cond v)).chg k = t.chg k := by
  refine Tx.chg_add_of_notMem fun hmem => ?_
  obtain ⟨w, hw, rfl⟩ := List.mem_map.mp hmem
  obtain ⟨x, -, rfl⟩ := List.mem_map.mp hw
  exact hk x.1 rfl

/-- The insertion of a draft inside a transaction. -/
theorem wp_insertDraft_tx {D : Discipline Row Entry World} {p id : ℕ} {c : CheckoutSession}
    {t : AppTx} {r : List AppStore} {s : AppStore} {Q : Bool → Local Row Entry World → AppStore → Prop}
    (h : ∀ s', D.Later p t.Holds s s' → D.Inv s' →
      Q false ⟨some t, r⟩ s' ∧ (t.row s'.rows (.checkout id) = none →
        Q true ⟨some ((t.write s'.rows ⟨.checkout id, some c⟩).append [.draft id]), r⟩ s')) :
    wp D p (insertDraft id c) Q ⟨some t, r⟩ s := by
  refine wp_sql_tx fun s' hl hi _ => ?_
  obtain ⟨hfalse, htrue⟩ := h s' hl hi
  simp only [Store.view]
  cases hrow : t.row s'.rows (.checkout id) with
  | none => exact htrue hrow
  | some _ => simpa [Tx.add] using hfalse

/-! ### The creators -/

structure OperationCheckoutArgs where
  userId : ℕ
  operation : ServiceOperation
  serviceId : ℕ
  productId : ℕ
  deriving DecidableEq, Repr

def operationCheckout (args : OperationCheckoutArgs) (terms : DraftTerms) (minutes now : ℕ) :
    CheckoutSession where
  userId := args.userId
  purpose := .ORDER_PAYMENT
  productId := some args.productId
  serviceId := some args.serviceId
  orderType := some args.operation.orderType
  productSnapshot := terms.snapshot
  originalPriceToman := terms.originalPriceToman
  discountAmountToman := terms.discountAmountToman
  finalPriceToman := terms.finalPriceToman
  discountCodeId := terms.discountCodeId
  status := .PENDING
  expiresAt := now + minutes * 60000

/-- Creates one PENDING draft for a service operation. -/
def createOperationCheckout (args : OperationCheckoutArgs) :
    App (Except DraftFailure (ℕ × CheckoutSession)) := do
  let terms ← ask (·.terms)
  match terms with
  | .error code => return .error (.refused code)
  | .ok terms =>
    let minutes ← ask (·.number)
    let now ← now
    let _ ← cancelDrafts fun c =>
      c.userId = args.userId ∧ c.serviceId = some args.serviceId ∧ c.status = .PENDING
    let id ← freshId
    let c := operationCheckout args terms minutes now
    let created ← insertDraft id c
    if ¬ created then
      return .error .threw
    return .ok (id, c)

structure PurchaseCheckoutArgs where
  userId : ℕ
  productId : ℕ
  deriving DecidableEq, Repr

def purchaseCheckout (args : PurchaseCheckoutArgs) (terms : DraftTerms) (minutes now : ℕ) :
    CheckoutSession where
  userId := args.userId
  purpose := .ORDER_PAYMENT
  productId := some args.productId
  orderType := some .SERVICE_PURCHASE
  productSnapshot := terms.snapshot
  originalPriceToman := terms.originalPriceToman
  discountAmountToman := terms.discountAmountToman
  finalPriceToman := terms.finalPriceToman
  discountCodeId := terms.discountCodeId
  status := .PENDING
  expiresAt := now + minutes * 60000

/-- `pg_advisory_xact_lock`: held until the transaction ends. -/
def lockPurchaseCheckout (userId productId : ℕ) : App ℕ :=
  update (.purchaseCheckoutLock userId productId) fun holders : ℕ => some (holders + 1)

/-- Creates a PENDING draft for a new subscription, with its username reserved. -/
def createPurchaseCheckout (args : PurchaseCheckoutArgs) :
    App (Except DraftFailure (ℕ × CheckoutSession)) := do
  let terms ← ask (·.terms)
  match terms with
  | .error code => return .error (.refused code)
  | .ok terms =>
    let held ← external
    if ¬ held then
      return .error (.refused .OPTION_UNAVAILABLE)
    let minutes ← ask (·.number)
    let now ← now
    transaction do
      let _ ← lockPurchaseCheckout args.userId args.productId
      let _ ← cancelDrafts fun c =>
        c.userId = args.userId ∧ c.productId = some args.productId ∧ c.status = .PENDING
      let id ← freshId
      let c := purchaseCheckout args terms minutes now
      let created ← insertDraft id c
      if ¬ created then
        return .error .threw
      let claimed ← external
      if ¬ claimed then
        return .error (.refused .CHECKOUT_UNAVAILABLE)
      return .ok (id, c)

/-! ### Request-level idempotency -/

structure CommerceIdempotencyResult where
  resultCheckoutSessionId : Option ℕ
  resultPaymentId : Option ℕ
  deriving DecidableEq, Repr

inductive RunIdempotentOutcome
  | executed (value : CommerceIdempotencyResult)
  | replayed (stored : CommerceIdempotencyResult)
  | conflict
  deriving DecidableEq, Repr

structure RunIdempotentArgs where
  userId : ℕ
  clientRequestId : String
  operation : String
  fingerprint : String
  deriving DecidableEq, Repr

def findMiniAppRequest (userId : ℕ) (clientRequestId : String) :
    App (Option MiniAppRequestIdempotency) :=
  select fun v => v.rows (.miniAppRequest userId clientRequestId)

def createMiniAppRequest (userId : ℕ) (clientRequestId : String) (row : MiniAppRequestIdempotency) :
    App ℕ :=
  update (.miniAppRequest userId clientRequestId) (onFree row)

/-- The stored refs of a request row. -/
def storedResult (row : MiniAppRequestIdempotency) : CommerceIdempotencyResult where
  resultCheckoutSessionId := row.resultCheckoutSessionId
  resultPaymentId := row.resultPaymentId

/-- Runs `execute` and records its result, unless the request has a recorded one. -/
def runIdempotentCommerce (args : RunIdempotentArgs)
    (execute : App (Except DraftFailure CommerceIdempotencyResult)) :
    App (Except DraftFailure RunIdempotentOutcome) := do
  let existing ← findMiniAppRequest args.userId args.clientRequestId
  match existing with
  | some row =>
    if row.fingerprint ≠ args.fingerprint ∨ row.operation ≠ args.operation then
      return .ok .conflict
    return .ok (.replayed (storedResult row))
  | none =>
    let value ← execute
    match value with
    | .error e => return .error e
    | .ok value =>
      let created ← createMiniAppRequest args.userId args.clientRequestId
        { operation := args.operation
          fingerprint := args.fingerprint
          resultCheckoutSessionId := value.resultCheckoutSessionId
          resultPaymentId := value.resultPaymentId }
      if created = 1 then
        return .ok (.executed value)
      let winner ← findMiniAppRequest args.userId args.clientRequestId
      match winner with
      | some row =>
        if row.fingerprint = args.fingerprint then
          return .ok (.replayed (storedResult row))
        return .ok .conflict
      | none => return .ok .conflict

/-! ### The two quote requests -/

/-- What a draft is for. -/
inductive DraftTarget
  | operation (operation : ServiceOperation) (serviceId productId : ℕ)
  | purchase (productId : ℕ)
  deriving DecidableEq, Repr

structure DraftRequest where
  userId : ℕ
  clientRequestId : String
  fingerprint : String
  target : DraftTarget
  deriving DecidableEq, Repr

/-- The creator that a request runs. -/
def DraftRequest.create (req : DraftRequest) : App (Except DraftFailure (ℕ × CheckoutSession)) :=
  match req.target with
  | .operation op serviceId productId =>
    createOperationCheckout ⟨req.userId, op, serviceId, productId⟩
  | .purchase productId => createPurchaseCheckout ⟨req.userId, productId⟩

/-- The created checkout as the result to store. -/
def DraftRequest.execute (req : DraftRequest) :
    App (Except DraftFailure CommerceIdempotencyResult) := do
  let created ← req.create
  match created with
  | .error e => return .error e
  | .ok (id, _) => return .ok ⟨some id, none⟩

/-- What the call of a request returns: the checkout, or the refusal. -/
def draftReply : Except DraftFailure RunIdempotentOutcome → Reply
  | .error (.refused code) => .refused 409 code
  | .error .threw => .refused 503 .INTERNAL
  | .ok .conflict => .refused 409 .IDEMPOTENCY_CONFLICT
  | .ok (.executed value) | .ok (.replayed value) =>
    match value.resultCheckoutSessionId with
    | some id => .draft id
    | none => .refused 503 .INTERNAL

/-- Process `p` answers. -/
def answer (p : ℕ) (reply : Reply) : App Unit :=
  ext fun _ w => ((), { w with http := .replied p reply :: w.http })

/-- One call of the idempotent creation, as process `p`. -/
def DraftRequest.call (req : DraftRequest) (p : ℕ) : App Unit := do
  let outcome ← runIdempotentCommerce
    ⟨req.userId, req.clientRequestId, "commerce-checkout-confirm", req.fingerprint⟩ req.execute
  answer p (draftReply outcome)

end ZedBot
