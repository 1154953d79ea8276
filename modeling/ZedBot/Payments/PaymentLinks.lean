import ZedBot.Payments.PaymentCreation

/-! The links of the gateway payments.

    A call finds the payment of its checkout and gateway or creates it, asks the provider for a handle
    and stores it on the row. The outside world is the list of the handles that the providers have
    issued; the journal is the history of the links that were handed out. -/

namespace ZedBot.Links
open ReadCommitted

/-! ### Rows -/

/-- What the creation stored of the provider's answer. -/
structure CallbackPayload where
  redirectUrl : Option String := none
  invoiceUrl : Option String := none
  stars : Option ℕ := none
  deriving DecidableEq, Repr

/-- A payment with its `callbackPayload`. -/
structure GatewayPayment where
  payment : Payment
  callbackPayload : CallbackPayload := {}
  deriving DecidableEq, Repr

inductive LinkKey
  | payment (id : ℕ)
  | paymentOfKey (key : IdempotencyKey)
  | paymentOfAuthority (authority : String)
  deriving DecidableEq

/-- The row type of a key. -/
@[reducible] def LinkRow : LinkKey → Type
  | .payment _ => Option GatewayPayment
  | .paymentOfKey _ => Option ℕ
  | .paymentOfAuthority _ => Option ℕ

/-- A link that was handed out. -/
inductive LinkEntry
  | link (paymentId : ℕ) (authority : String)
  deriving DecidableEq, Repr

/-- What the oracle answers: the clock, a fresh id, whether the adapter is there, and what the provider
    makes of a creation. -/
structure LinkChoice where
  now : ℕ := 0
  id : ℕ := 0
  available : Bool := true
  created : Bool := true
  authority : String := ""
  externalReference : Option String := none
  redirectUrl : Option String := none
  stars : Option ℕ := none
  deriving DecidableEq, Repr

abbrev Linking := Prog LinkRow LinkEntry (List String) LinkChoice

abbrev LinkStore := Store LinkRow LinkEntry (List String)
abbrev LinkTx := Tx LinkRow LinkEntry
abbrev LinkView := View LinkRow LinkEntry
abbrev LinkLocal := Local LinkRow LinkEntry (List String)
abbrev LinkConfig := Config LinkRow LinkEntry (List String) LinkChoice

/-! ### Statements -/

/-- The write of a payment over the row `o`, with the unique index on its authority. -/
def rowWrites (id : ℕ) (o : Option GatewayPayment) (n : GatewayPayment) : List (Write LinkRow) :=
  ((o.bind (·.payment.authority)).toList.map fun a => ⟨.paymentOfAuthority a, none⟩) ++
    ⟨.payment id, some n⟩ :: n.payment.authority.toList.map fun a => ⟨.paymentOfAuthority a, some id⟩

/-- `payment.create`; `false` is P2002 on the key. -/
def createPayment (id : ℕ) (key : IdempotencyKey) (row : GatewayPayment) : Linking Bool := sql fun v =>
  match v.rows (.payment id), v.rows (.paymentOfKey key) with
  | none, none =>
    { result := true
      writes := rowWrites id none row ++ [⟨.paymentOfKey key, some id⟩] }
  | _, _ => { result := false }

/-- `updateMany` of the payment with an id. -/
def updatePayment (id : ℕ) (cond : Payment → Bool) (data : GatewayPayment → GatewayPayment) :
    Linking ℕ := sql fun v =>
  match v.rows (.payment id) with
  | some row => if cond row.payment then
      { result := 1, writes := rowWrites id (some row) (data row) }
    else { result := 0 }
  | none => { result := 0 }

def findPayment (id : ℕ) : Linking (Option GatewayPayment) := select fun v => v.rows (.payment id)

def findPaymentOfKey (key : IdempotencyKey) : Linking (Option (ℕ × GatewayPayment)) := select fun v =>
  (v.rows (.paymentOfKey key)).bind fun id => (v.rows (.payment id)).map fun p => (id, p)

/-- The lookup of a provider's callback: `findUnique` by authority. -/
def findPaymentOfAuthority (v : LinkView) (authority : String) : Option (ℕ × GatewayPayment) :=
  (v.rows (.paymentOfAuthority authority)).bind fun id =>
    (v.rows (.payment id)).map fun p => (id, p)

/-! ### The result of a creation -/

structure CreatePaymentResult where
  authority : String
  externalReference : Option String := none
  redirectUrl : Option String := none
  telegramInvoice : Option ℕ := none
  deriving DecidableEq, Repr

def STARS_PAYLOAD_PREFIX : String := "zedbot:pay:"

/-- Integer Stars amount stored on the payment at creation. -/
def storedStarsAmount (p : GatewayPayment) : Option ℕ := p.callbackPayload.stars.filter (0 < ·)

/-- Rebuilds the result of the creation from the row. -/
def resynthesizeCreateResult (p : GatewayPayment) : Option CreatePaymentResult :=
  match p.payment.authority with
  | none => none
  | some authority =>
    if authority = "" then
      none
    else if p.payment.provider = some .TELEGRAM_STARS then
      if STARS_PAYLOAD_PREFIX.toList.isPrefixOf authority.toList then
        (storedStarsAmount p).map fun stars => { authority, telegramInvoice := some stars }
      else none
    else
      (p.callbackPayload.redirectUrl <|> p.callbackPayload.invoiceUrl).map fun url =>
        { authority, externalReference := p.payment.externalReference, redirectUrl := some url }

/-- The provider issues a fresh handle, or fails. -/
def createAtProvider : Linking (Option CreatePaymentResult) := ext fun c issued =>
  if c.created ∧ c.authority ≠ "" ∧ c.authority ∉ issued then
    (some ⟨c.authority, c.externalReference, c.redirectUrl, c.stars⟩, c.authority :: issued)
  else (none, issued)

/-- The columns that a creation stores. -/
def withHandle (gateway : PaymentGatewayType) (create : CreatePaymentResult) (p : GatewayPayment) :
    GatewayPayment where
  payment := { p.payment with
    authority := some create.authority
    externalReference := create.externalReference <|> p.payment.externalReference }
  callbackPayload :=
    { redirectUrl := if gateway = .ZARINPAL then create.redirectUrl else none
      invoiceUrl := if gateway = .NOWPAYMENTS then create.redirectUrl else none
      stars := create.telegramInvoice }

/-- `payment.update` of the handle; `false` when it throws. -/
def storeHandle (id : ℕ) (gateway : PaymentGatewayType) (create : CreatePaymentResult) :
    Linking Bool := sql fun v =>
  match v.rows (.payment id), v.rows (.paymentOfAuthority create.authority) with
  | none, _ => { result := false }
  | some row, none =>
    { result := true, writes := rowWrites id (some row) (withHandle gateway create row) }
  | some row, some other =>
    if other = id then
      { result := true, writes := rowWrites id (some row) (withHandle gateway create row) }
    else { result := false }

/-! ### The call -/

/-- A call for the payment of a checkout through a gateway. -/
structure GatewayCall where
  userId : ℕ
  checkoutId : ℕ
  checkout : CheckoutSession
  gateway : PaymentGateway
  deriving DecidableEq, Repr

def GatewayCall.key (call : GatewayCall) : IdempotencyKey := .gateway call.checkoutId call.gateway.id

/-- The one payment row of the checkout and the gateway. -/
def loadOrCreatePaymentRow (call : GatewayCall) : Linking (Option (ℕ × GatewayPayment)) := do
  let id ← ask (·.id)
  let now ← ask (·.now)
  let row : GatewayPayment :=
    { payment := { gatewayPayment call.userId call.checkoutId call.checkout call.gateway now with
        idempotencyKey := some call.key } }
  let created ← createPayment id call.key row
  if created then
    return some (id, row)
  let found ← findPaymentOfKey call.key
  let some (id, row) := found | return none
  if row.payment.status = .PENDING then
    return some (id, row)
  let revived ← updatePayment id canRevive fun p =>
    { payment := revivedPayment call.checkout.expiresAt p.payment }
  if revived = 0 then
    return none
  let fresh ← findPayment id
  return fresh.map fun p => (id, p)

/-- Returns or creates the gateway payment of a checkout, with what the link needs; `none` is
    unavailable or a throw. -/
def getOrCreateGatewayPayment (call : GatewayCall) : Linking (Option (ℕ × CreatePaymentResult)) := do
  if ¬ call.gateway.isEnabled ∨ ¬ isOnlineProvider (some call.gateway.type) then
    return none
  let available ← ask (·.available)
  if ¬ available then
    return none
  let existing ← findPaymentOfKey call.key
  let now ← ask (·.now)
  match existing.bind fun x => if x.2.payment.status = .PENDING ∧
      x.2.payment.expiresAt.all (now < ·) then
      (resynthesizeCreateResult x.2).map fun create => (x.1, create) else none with
  | some reused => return some reused
  | none =>
    let payment ← loadOrCreatePaymentRow call
    let some (id, row) := payment | return none
    match resynthesizeCreateResult row with
    | some create => return some (id, create)
    | none =>
      let created ← createAtProvider
      match created with
      | none =>
        let _ ← updatePayment id (fun p => p.status = .PENDING) fun p =>
          { p with payment := { p.payment with status := .FAILED } }
        return none
      | some create =>
        let stored ← storeHandle id call.gateway.type create
        return if stored then some (id, create) else none

/-- A process makes one call and hands the link out, or does nothing. -/
def linkProgram : Option GatewayCall → Linking Unit
  | none => return ()
  | some call => do
    let result ← getOrCreateGatewayPayment call
    match result with
    | some (id, create) => append (.link id create.authority)
    | none => return ()

end ZedBot.Links
