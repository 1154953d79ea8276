import ZedBot.ReadCommitted.Statements
import ZedBot.Schema

/-! The stock of the other products.

    A dispatch reserves an item for its order, sends the content to the buyer and marks the item
    DELIVERED; a failed send rolls the reservation back. The unique index on `deliveredOrderId` is a
    family of rows of its own, written with the item. The outside world is the list of the contents
    that reached a buyer; the journal lists the inserted items and records. -/

namespace ZedBot.Stock
open ReadCommitted

/-! ### Rows -/

inductive StockItemStatus
  | AVAILABLE | RESERVED | DELIVERED | DISABLED
  deriving DecidableEq, Repr

structure OtherProductStockItem where
  productId : ℕ
  status : StockItemStatus := .AVAILABLE
  deliveredOrderId : Option ℕ := none
  deliveredToUserId : Option ℕ := none
  deliveredAt : Option ℕ := none
  disabledAt : Option ℕ := none
  createdAt : ℕ := 0
  deriving DecidableEq, Repr

inductive OtherProductOrderStatus
  | PAID | WAITING_USER_INFO | WAITING_ADMIN_DELIVERY | DELIVERED | CANCELLED | REFUNDED
  | DELIVERY_CANCELLED_REFUNDED | DELIVERY_REJECTED_NO_REFUND | AWAITING_STOCK | STOCK_RESERVED
  deriving DecidableEq, Repr

/-- The fulfillment record of an order, keyed by its unique `orderId`. -/
structure OtherProductOrder where
  userId : ℕ
  productId : ℕ
  status : OtherProductOrderStatus := .PAID
  stockProfile : Bool := true
  awaitingStockSince : Option ℕ := none
  fulfillmentAdminsNotifiedAt : Option ℕ := none
  deliveredAt : Option ℕ := none
  createdAt : ℕ := 0
  deriving DecidableEq, Repr

inductive StockKey
  | item (id : ℕ)
  | itemOfOrder (orderId : ℕ)
  | order (id : ℕ)
  | record (orderId : ℕ)
  deriving DecidableEq

/-- The row type of a key. -/
@[reducible] def StockRow : StockKey → Type
  | .item _ => Option OtherProductStockItem
  | .itemOfOrder _ => Option ℕ
  | .order _ => Option Order
  | .record _ => Option OtherProductOrder

inductive StockEntry
  | item (id : ℕ)
  | record (orderId : ℕ)
  deriving DecidableEq, Repr

/-- A content that reached the buyer of an order. -/
structure Sent where
  itemId : ℕ
  orderId : ℕ
  deriving DecidableEq, Repr

/-- What the oracle answers: the clock, whether a content can be decrypted, whether a send reaches the
    buyer, whether a statement throws; and the columns of the product. -/
structure StockChoice where
  now : ℕ := 0
  decrypts : Bool := true
  reaches : Bool := true
  throws : Bool := false
  isStockDelivery : Bool := true
  requiredUserInfo : Bool := false
  deriving DecidableEq, Repr

abbrev Stocking := Prog StockRow StockEntry (List Sent) StockChoice

abbrev StockStore := Store StockRow StockEntry (List Sent)
abbrev StockTx := Tx StockRow StockEntry
abbrev StockView := View StockRow StockEntry
abbrev StockConfig := Config StockRow StockEntry (List Sent) StockChoice

namespace OtherProductStockItem

def reservedFor (orderId userId : ℕ) (i : OtherProductStockItem) : OtherProductStockItem :=
  { i with status := .RESERVED, deliveredOrderId := some orderId, deliveredToUserId := some userId }

def delivered (now : ℕ) (i : OtherProductStockItem) : OtherProductStockItem :=
  { i with status := .DELIVERED, deliveredAt := some now }

/-- The rollback of a failed send. -/
def rolledBack (i : OtherProductStockItem) : OtherProductStockItem :=
  { i with status := .AVAILABLE, deliveredOrderId := none, deliveredToUserId := none }

def released (i : OtherProductStockItem) : OtherProductStockItem :=
  { i with
    status := .AVAILABLE
    deliveredOrderId := none
    deliveredToUserId := none
    deliveredAt := none }

/-- The end of an item whose content cannot be read. -/
def unreadable (now : ℕ) (i : OtherProductStockItem) : OtherProductStockItem :=
  { i with
    status := .DISABLED
    disabledAt := some now
    deliveredOrderId := none
    deliveredToUserId := none }

/-- The end of a reservation that an admin disables. -/
def withdrawn (now : ℕ) (i : OtherProductStockItem) : OtherProductStockItem :=
  { i with
    status := .DISABLED
    disabledAt := some now
    deliveredOrderId := none
    deliveredToUserId := none
    deliveredAt := none }

def disabled (now : ℕ) (i : OtherProductStockItem) : OtherProductStockItem :=
  { i with status := .DISABLED, disabledAt := some now }

end OtherProductStockItem

/-! ### Statements -/

/-- The write of an item over `o`; the index is written where the order changes. -/
def itemWrites (id : ℕ) (o n : OtherProductStockItem) : List (Write StockRow) :=
  ⟨.item id, some n⟩ ::
    if n.deliveredOrderId = o.deliveredOrderId then [] else
      (o.deliveredOrderId.toList.map fun x => ⟨.itemOfOrder x, none⟩) ++
        n.deliveredOrderId.toList.map fun x => ⟨.itemOfOrder x, some id⟩

/-- `updateMany` of the item with an id. -/
def updateItem (id : ℕ) (cond : OtherProductStockItem → Bool)
    (data : OtherProductStockItem → OtherProductStockItem) : Stocking ℕ := sql fun v =>
  match v.rows (.item id) with
  | some i => if cond i then { result := 1, writes := itemWrites id i (data i) } else { result := 0 }
  | none => { result := 0 }

inductive ClaimResult
  | claimed | lost | uniqueViolation
  deriving DecidableEq, Repr

/-- `updateMany` AVAILABLE → RESERVED; it throws when another item has the order. -/
def claimItem (id orderId userId : ℕ) : Stocking ClaimResult := sql fun v =>
  match v.rows (.item id) with
  | some i =>
    if i.status = .AVAILABLE then
      if (v.rows (.itemOfOrder orderId)).all (· = id) then
        { result := .claimed, writes := itemWrites id i (i.reservedFor orderId userId) }
      else { result := .uniqueViolation }
    else { result := .lost }
  | none => { result := .lost }

/-- The update of a row that exists. -/
def onSome {α : Type} (cond : α → Bool) (data : α → α) : Option α → Option (Option α)
  | some x => if cond x then some (some (data x)) else none
  | none => none

def updateOrder (id : ℕ) (cond : Order → Bool) (data : Order → Order) : Stocking ℕ :=
  update (.order id) (onSome cond data)

def updateRecord (orderId : ℕ) (cond : OtherProductOrder → Bool)
    (data : OtherProductOrder → OtherProductOrder) : Stocking ℕ :=
  update (.record orderId) (onSome cond data)

def findItem (id : ℕ) : Stocking (Option (ℕ × OtherProductStockItem)) := select fun v =>
  (v.rows (.item id)).map fun i => (id, i)

/-- `findUnique` by the order. -/
def findItemOfOrder (orderId : ℕ) : Stocking (Option (ℕ × OtherProductStockItem)) := select fun v =>
  (v.rows (.itemOfOrder orderId)).bind fun id => (v.rows (.item id)).map fun i => (id, i)

def findOrder (id : ℕ) : Stocking (Option Order) := select fun v => v.rows (.order id)

def findRecord (orderId : ℕ) : Stocking (Option OtherProductOrder) := select fun v =>
  v.rows (.record orderId)

/-- The first of the items that were created first. -/
def oldest : List (ℕ × OtherProductStockItem) → Option (ℕ × OtherProductStockItem)
  | [] => none
  | x :: xs => match oldest xs with
    | none => some x
    | some y => if x.2.createdAt ≤ y.2.createdAt then some x else some y

/-- The oldest AVAILABLE item of a product. -/
def findCandidate (productId : ℕ) : Stocking (Option (ℕ × OtherProductStockItem)) := select fun v =>
  oldest (v.journal.filterMap fun
    | .item id => ((v.rows (.item id)).filter fun i =>
      i.productId = productId ∧ i.status = .AVAILABLE).map fun i => (id, i)
    | _ => none)

/-- The content of an item is sent to the buyer of an order; `false` is a failed send. -/
def sendContent (itemId orderId : ℕ) : Stocking Bool := ext fun c sent =>
  if c.reaches then (true, ⟨itemId, orderId⟩ :: sent) else (false, sent)

/-! ### Claims -/

def CLAIM_RETRIES : ℕ := 3

/-- Oldest AVAILABLE item first; RESERVE it for the order. -/
def claimStockItem (orderId productId userId : ℕ) :
    ℕ → Stocking (Option (ℕ × OtherProductStockItem))
  | 0 => return none
  | attempts + 1 => do
    let candidate ← findCandidate productId
    match candidate with
    | none => return none
    | some (id, _) =>
      let claimed ← claimItem id orderId userId
      match claimed with
      | .claimed => findItem id
      | .lost => claimStockItem orderId productId userId attempts
      | .uniqueViolation =>
        let winner ← findItemOfOrder orderId
        match winner with
        | some winner => return some winner
        | none => claimStockItem orderId productId userId attempts

inductive ReserveStockOutcome
  | ok (id : ℕ) (item : OtherProductStockItem) (resumed : Bool)
  | NO_STOCK
  | ERROR
  deriving DecidableEq, Repr

/-- The item is one that the order holds. -/
def isHeld (i : OtherProductStockItem) : Bool := i.status = .RESERVED ∨ i.status = .DELIVERED

def reserveCandidate (orderId productId userId : ℕ) : ℕ → Stocking ReserveStockOutcome
  | 0 => return .NO_STOCK
  | attempts + 1 => do
    let candidate ← findCandidate productId
    match candidate with
    | none => return .NO_STOCK
    | some (id, _) =>
      let claimed ← claimItem id orderId userId
      match claimed with
      | .claimed =>
        let item ← findItem id
        match item with
        | some (id, item) => return .ok id item false
        | none => reserveCandidate orderId productId userId attempts
      | .lost => reserveCandidate orderId productId userId attempts
      | .uniqueViolation =>
        let winner ← findItemOfOrder orderId
        match winner with
        | some (id, item) => return if isHeld item then .ok id item true else .ERROR
        | none => reserveCandidate orderId productId userId attempts

/-- Reserves the oldest AVAILABLE item of a product for an order, or returns the one it holds. -/
def reserveStockItemForOrder (orderId productId userId : ℕ) : Stocking ReserveStockOutcome := do
  let existing ← findItemOfOrder orderId
  match existing.filter fun x => isHeld x.2 with
  | some (id, item) => return .ok id item true
  | none => reserveCandidate orderId productId userId CLAIM_RETRIES

/-- The claim of the order on the item. -/
def isClaimOf (orderId : ℕ) (i : OtherProductStockItem) : Bool :=
  i.status = .RESERVED ∧ i.deliveredOrderId = some orderId

/-- RESERVED → DELIVERED for the claim of the order. -/
def finalizeStockDelivery (itemId orderId : ℕ) : Stocking Bool := do
  let now ← ask (·.now)
  let count ← updateItem itemId (isClaimOf orderId) (.delivered now)
  return count = 1

/-- RESERVED → AVAILABLE for the claim of the order. -/
def releaseStockClaim (itemId orderId : ℕ) : Stocking Bool := do
  let count ← updateItem itemId (isClaimOf orderId) .released
  return count = 1

/-! ### Deliveries -/

inductive DeliveryOutcome
  | DELIVERED | ALREADY_DELIVERED | NOT_ELIGIBLE | NO_STOCK | AWAITING_STOCK | SEND_FAILED | ERROR
  deriving DecidableEq, Repr

/-- PAID → COMPLETED. -/
def completeOrder (orderId : ℕ) : Stocking ℕ :=
  updateOrder orderId (fun o => o.status = .PAID) fun o => { o with status := .COMPLETED }

/-- The item DELIVERED and the order COMPLETED in one transaction. -/
def finalizeOrder (itemId orderId now : ℕ) : Stocking (Except Unit Unit) := transaction do
  let _ ← updateItem itemId (isClaimOf orderId) (.delivered now)
  let _ ← completeOrder orderId
  let throws ← ask (·.throws)
  return if throws then .error () else .ok ()

/-- A finalize is retried once. -/
def withRetry (finalize : Stocking (Except Unit Unit)) : Stocking Unit := do
  let result ← finalize
  match result with
  | .ok _ => return ()
  | .error _ =>
    let _ ← finalize
    return ()

/-- The reserved item is sent; a failed send rolls its reservation back. -/
def sendClaimed (orderId itemId : ℕ) : Stocking DeliveryOutcome := do
  let decrypts ← ask (·.decrypts)
  if ¬ decrypts then
    let now ← ask (·.now)
    let _ ← updateItem itemId (isClaimOf orderId) (.unreadable now)
    return .NO_STOCK
  let reached ← sendContent itemId orderId
  if ¬ reached then
    let _ ← updateItem itemId (isClaimOf orderId) .rolledBack
    return .SEND_FAILED
  let now ← ask (·.now)
  withRetry (finalizeOrder itemId orderId now)
  return .DELIVERED

/-- Auto-delivers one PAID order from stock. -/
def autoDeliverStockOrder (orderId : ℕ) : Stocking DeliveryOutcome := do
  let order ← findOrder orderId
  let isStockDelivery ← ask (·.isStockDelivery)
  let requiredUserInfo ← ask (·.requiredUserInfo)
  match order.bind fun o => o.productId.map fun productId => (o, productId) with
  | none => return .NOT_ELIGIBLE
  | some (order, productId) =>
    if order.type ≠ .OTHER_PRODUCT then
      return .NOT_ELIGIBLE
    if order.status = .COMPLETED then
      return .ALREADY_DELIVERED
    if order.status ≠ .PAID then
      return .ERROR
    if ¬ isStockDelivery ∨ requiredUserInfo then
      return .NOT_ELIGIBLE
    let found ← findItemOfOrder orderId
    let existing := found.filter fun x => isHeld x.2
    if existing.any fun x => x.2.status = .DELIVERED then
      let _ ← completeOrder orderId
      return .ALREADY_DELIVERED
    match existing with
    | some (itemId, _) => sendClaimed orderId itemId
    | none =>
      let claimed ← claimStockItem orderId productId order.userId CLAIM_RETRIES
      match claimed with
      | some (itemId, _) => sendClaimed orderId itemId
      | none => return .NO_STOCK

/-- Parks an order as AWAITING_STOCK. -/
def parkOrderAwaitingStock (orderId : ℕ) (record : OtherProductOrder) : Stocking Unit := do
  let now ← ask (·.now)
  let _ ← updateRecord orderId (fun r => r.status = .PAID ∨ r.status = .STOCK_RESERVED) fun r =>
    { r with
      status := .AWAITING_STOCK
      awaitingStockSince := some (record.awaitingStockSince.getD now) }
  let _ ← updateRecord orderId (fun r => r.status = .AWAITING_STOCK ∧
    r.fulfillmentAdminsNotifiedAt = none) fun r => { r with fulfillmentAdminsNotifiedAt := some now }
  return ()

/-- The record may still be delivered from stock. -/
def isDeliverable (r : OtherProductOrder) : Bool :=
  r.status = .PAID ∨ r.status = .STOCK_RESERVED ∨ r.status = .AWAITING_STOCK

/-- Marks the record DELIVERED and completes the order. -/
def finalizeStockRecord (orderId now : ℕ) : Stocking (Except Unit Unit) := transaction do
  let _ ← updateRecord orderId isDeliverable fun r =>
    { r with status := .DELIVERED, deliveredAt := some now }
  let _ ← completeOrder orderId
  let throws ← ask (·.throws)
  return if throws then .error () else .ok ()

/-- The item and the record DELIVERED and the order COMPLETED in one transaction. -/
def finalizeSpecialized (itemId orderId now : ℕ) : Stocking (Except Unit Unit) := transaction do
  let _ ← updateItem itemId (isClaimOf orderId) (.delivered now)
  let _ ← updateRecord orderId isDeliverable fun r =>
    { r with status := .DELIVERED, deliveredAt := some now }
  let _ ← completeOrder orderId
  let throws ← ask (·.throws)
  return if throws then .error () else .ok ()

/-- The attempts of a specialized delivery: an unreadable item is disabled and the next one tried. -/
def deliverSpecialized (orderId : ℕ) (record : OtherProductOrder) : ℕ → Stocking DeliveryOutcome
  | 0 => do
    parkOrderAwaitingStock orderId record
    return .AWAITING_STOCK
  | attempts + 1 => do
    let reserved ← reserveStockItemForOrder orderId record.productId record.userId
    match reserved with
    | .NO_STOCK =>
      parkOrderAwaitingStock orderId record
      return .AWAITING_STOCK
    | .ERROR => return .ERROR
    | .ok itemId item _ =>
      let now ← ask (·.now)
      if item.status = .DELIVERED then
        let _ ← finalizeStockRecord orderId now
        return .ALREADY_DELIVERED
      let _ ← updateRecord orderId (fun r => r.status = .PAID ∨ r.status = .AWAITING_STOCK) fun r =>
        { r with status := .STOCK_RESERVED }
      let decrypts ← ask (·.decrypts)
      if ¬ decrypts then
        let _ ← updateItem itemId (isClaimOf orderId) (.unreadable now)
        deliverSpecialized orderId record attempts
      else
        let reached ← sendContent itemId orderId
        if ¬ reached then
          let _ ← releaseStockClaim itemId orderId
          let _ ← updateRecord orderId (fun r => r.status = .STOCK_RESERVED) fun r =>
            { r with status := .PAID }
          return .SEND_FAILED
        let now ← ask (·.now)
        withRetry (finalizeSpecialized itemId orderId now)
        return .DELIVERED

/-- The specialized delivery of a record and an order as they were read. -/
def runSpecializedStockDelivery (orderId : ℕ) (record : OtherProductOrder) (order : Order) :
    Stocking DeliveryOutcome := do
  if record.status = .DELIVERED ∨ order.status = .COMPLETED then
    let now ← ask (·.now)
    let _ ← finalizeStockRecord orderId now
    return .ALREADY_DELIVERED
  if order.status ≠ .PAID then
    return .ERROR
  deliverSpecialized orderId record 3

/-- The record of an order; a concurrent creation wins. -/
def ensureSpecializedRecord (orderId : ℕ) (order : Order) : Stocking (Option OtherProductOrder) := do
  match order.productId with
  | none => return none
  | some productId =>
    let existing ← findRecord orderId
    match existing with
    | some record => return some record
    | none =>
      let now ← ask (·.now)
      let created ← sql fun v =>
        let row : OtherProductOrder := { userId := order.userId, productId, createdAt := now }
        match v.rows (.record orderId) with
        | none =>
          { result := true, writes := [⟨.record orderId, some row⟩], entries := [.record orderId] }
        | some _ => { result := false }
      if created then
        return some { userId := order.userId, productId, createdAt := now }
      findRecord orderId

/-- A dispatch of an order with a stock profile. -/
def fulfillStockProfile (orderId : ℕ) : Stocking Unit := do
  let order ← findOrder orderId
  match order with
  | none => return ()
  | some order =>
    let record ← ensureSpecializedRecord orderId order
    match record with
    | none => return ()
    | some record =>
      let current ← findOrder orderId
      let _ ← runSpecializedStockDelivery orderId record (current.getD order)
      return ()

/-- The records that a replenishment retries. -/
def parkedRecords (productId : ℕ) (v : StockView) : List (ℕ × OtherProductOrder × Order) :=
  v.journal.filterMap fun
    | .record orderId => (v.rows (.record orderId)).bind fun r => (v.rows (.order orderId)).bind fun o =>
      if r.productId = productId ∧ isDeliverable r ∧ r.stockProfile ∧ o.status = .PAID then
        some (orderId, r, o)
      else none
    | _ => none

/-- The parked records in order; the pass stops when the stock runs dry. -/
def retryRecords : List (ℕ × OtherProductOrder × Order) → Stocking Unit
  | [] => return ()
  | (orderId, record, order) :: rest => do
    let outcome ← runSpecializedStockDelivery orderId record order
    if outcome = .AWAITING_STOCK then
      return ()
    retryRecords rest

/-- The order of a replenishment: by the time of parking, those never parked last. -/
def parkedBefore (a b : OtherProductOrder) : Bool :=
  match a.awaitingStockSince, b.awaitingStockSince with
  | some x, some y => x < y ∨ (x = y ∧ a.createdAt ≤ b.createdAt)
  | some _, none => true
  | none, some _ => false
  | none, none => a.createdAt ≤ b.createdAt

def retryAwaitingStockOrders (productId : ℕ) : Stocking Unit := do
  let records ← select (parkedRecords productId)
  retryRecords (records.mergeSort fun a b => parkedBefore a.2.1 b.2.1)

/-! ### Admin actions -/

/-- An admin may act on a reserved item whose order is not COMPLETED. -/
def checkReservedActionable (itemId : ℕ) : Stocking Bool := do
  let item ← findItem itemId
  match item with
  | none => return false
  | some (_, item) =>
    if item.status ≠ .RESERVED then
      return false
    match item.deliveredOrderId with
    | none => return true
    | some orderId =>
      let order ← findOrder orderId
      return order.all fun o => o.status ≠ .COMPLETED

/-- RESERVED → AVAILABLE. -/
def releaseReservedStockItem (itemId : ℕ) : Stocking Unit := do
  let actionable ← checkReservedActionable itemId
  if actionable then
    let _ ← updateItem itemId (fun i => i.status = .RESERVED) .released
    return ()
  else
    return ()

/-- RESERVED → DISABLED. -/
def disableReservedStockItem (itemId : ℕ) : Stocking Unit := do
  let actionable ← checkReservedActionable itemId
  if actionable then
    let now ← ask (·.now)
    let _ ← updateItem itemId (fun i => i.status = .RESERVED) (.withdrawn now)
    return ()
  else
    return ()

/-- AVAILABLE → DISABLED. -/
def disableStockItem (itemId : ℕ) : Stocking Unit := do
  let now ← ask (·.now)
  let _ ← updateItem itemId (fun i => i.status = .AVAILABLE) (.disabled now)
  return ()

/-! ### Processes -/

/-- An admin adds an item. -/
def addStockItem (id productId : ℕ) : Stocking Unit := do
  let now ← ask (·.now)
  sql fun v => match v.rows (.item id) with
    | none => { result := (), writes := [⟨.item id, some { productId, createdAt := now }⟩]
                entries := [.item id] }
    | some _ => { result := () }

/-- What runs against the stock. `editOrder` and `editRecord` stand for the other flows, which write the
    orders and the records as they please. -/
inductive StockProcess
  | autoDeliver (orderId : ℕ)
  | dispatch (orderId : ℕ)
  | retry (productId : ℕ)
  | reserve (orderId productId userId : ℕ)
  | finalize (itemId orderId : ℕ)
  | releaseClaim (itemId orderId : ℕ)
  | releaseReserved (itemId : ℕ)
  | disableReserved (itemId : ℕ)
  | disable (itemId : ℕ)
  | add (id productId : ℕ)
  | editOrder (id : ℕ) (row : Order)
  | editRecord (orderId : ℕ) (row : OtherProductOrder)

def StockProcess.program : StockProcess → Stocking Unit
  | .autoDeliver orderId => do let _ ← autoDeliverStockOrder orderId; return ()
  | .dispatch orderId => fulfillStockProfile orderId
  | .retry productId => retryAwaitingStockOrders productId
  | .reserve orderId productId userId => do
    let _ ← reserveStockItemForOrder orderId productId userId
    return ()
  | .finalize itemId orderId => do let _ ← finalizeStockDelivery itemId orderId; return ()
  | .releaseClaim itemId orderId => do let _ ← releaseStockClaim itemId orderId; return ()
  | .releaseReserved itemId => releaseReservedStockItem itemId
  | .disableReserved itemId => disableReservedStockItem itemId
  | .disable itemId => disableStockItem itemId
  | .add id productId => addStockItem id productId
  | .editOrder id row => sql fun _ => { result := (), writes := [⟨.order id, some row⟩] }
  | .editRecord orderId row => sql fun _ =>
    { result := (), writes := [⟨.record orderId, some row⟩], entries := [.record orderId] }

end ZedBot.Stock
