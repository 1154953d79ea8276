import ZedBot.JsonValue
import ZedBot.Schema

/-! # Callbacks of NOWPayments

    A callback is signed over its body written with sorted keys, and what happens is read from the
    body as it came.

        body ──parse──▶ value ──sortKeysDeep──▶ canonical ──HMAC──▶ signature
                          └──▶ order, reference, transaction, status -/

namespace ZedBot.Payments

open Json (value get asString isObject toText)

/-- The HMAC of a text under a secret, in hexadecimal. -/
abbrev Hmac := String → String → String

/-- The order of `sort`: the key of `b` is not below that of `a`, by code units. -/
def keyBefore (a b : String × Json) : Prop := ¬ JsText.ofString b.1 < JsText.ofString a.1

instance : DecidableRel keyBefore := fun _ _ => inferInstanceAs (Decidable (¬ _))

/-- The members by their keys; what is assigned to `__proto__` becomes no member. -/
def sortedMembers (entries : List (String × Json)) : List (String × Json) :=
  (entries.filter fun e => e.1 ≠ "__proto__").insertionSort keyBefore

def sortKeysDeep : Json → Json := Json.rebuild .number sortedMembers

/-- What is signed of a body; `none` where it cannot be parsed. -/
def canonical (rawBody : String) : Option String :=
  (Json.parse rawBody).map fun t => toText (sortKeysDeep (value t))

def verifyIpnSignature (hmac : Hmac) (rawBody signature ipnSecret : String) : Bool :=
  if rawBody = "" ∨ signature = "" ∨ ipnSecret = "" then false
  else
    match canonical rawBody with
    | none => false
    | some text => hmac ipnSecret text = signature

/-- The normalized status; `none` is UNKNOWN. -/
def normalizeNowPaymentsStatus (status : String) : Option NormalizedPaymentStatus :=
  if status ∈ ["finished", "confirmed"] then some .SUCCESS
  else if status ∈ ["waiting", "confirming", "sending", "partially_paid"] then some .PROCESSING
  else if status = "expired" then some .EXPIRED
  else if status ∈ ["failed", "refunded"] then some .FAILED
  else none

mutual

/-- `String(x)`; `none` where it throws: a member `toString` hides the function, and `valueOf`
    gives the object itself. -/
def stringOf : Json → Option String
  | .null => some "null"
  | .bool b => some (if b then "true" else "false")
  | .number literal => some literal
  | .string s => some s
  | .array items => (stringOfItems items).map (String.intercalate ",")
  | .object entries =>
    if "toString" ∈ entries.map Prod.fst then none else some "[object Object]"

def stringOfItems : List Json → Option (List String)
  | [] => some []
  | v :: vs => do
    let text ← match v with
      | .null => some ""
      | v => stringOf v
    let texts ← stringOfItems vs
    return text :: texts

end

structure CallbackEvent where
  paymentId : Option String
  externalReference : Option String
  transactionId : Option String
  status : Option NormalizedPaymentStatus
  sanitizedPayload : List (String × Option Json)

inductive HandleCallbackResult
  | failed (reason errorMessage : String)
  | event (e : CallbackEvent)

structure HandleCallbackInput where
  rawBody : Option String
  headers : Option (List (String × String))

/-- `x === undefined || x === null ? undefined : String(x)`; `none` where it throws. -/
def reference : Option Json → Option (Option String)
  | none | some .null => some none
  | some x => (stringOf x).map some

/-- `a ?? b`. -/
def orElse (a b : Option Json) : Option Json :=
  match a with
  | none | some .null => b
  | some x => some x

def signatureOf (headers : List (String × String)) : String :=
  ((headers.find? fun h =>
    h.1.toList.map Char.toLower = "x-nowpayments-ipn-signature".toList).map Prod.snd).getD ""

/-- The event of a body; `none` where it throws. -/
def eventOf (body : Json) : Option CallbackEvent := do
  let paymentStatus := ((get body "payment_status").bind asString).getD ""
  let orderId := (get body "order_id").bind asString
  let paymentId := get body "payment_id"
  let externalReference ← reference (orElse (get body "invoice_id") paymentId)
  let transactionId ← reference paymentId
  return {
    paymentId := orderId
    externalReference
    transactionId
    status := normalizeNowPaymentsStatus paymentStatus
    sanitizedPayload :=
      ["payment_status", "payment_id", "invoice_id", "order_id", "price_amount", "pay_currency",
        "actually_paid"].map fun key => (key, get body key) }

/-- One callback; `none` where it throws. -/
def handleCallback (hmac : Hmac) (ipnSecret : Option String) (input : HandleCallbackInput) :
    Option HandleCallbackResult :=
  let rawBody := input.rawBody.getD ""
  let signature := signatureOf (input.headers.getD [])
  if verifyIpnSignature hmac rawBody signature (ipnSecret.getD "") = false then
    some (.failed "invalid-signature" "NOWPayments IPN signature is missing or invalid.")
  else
    match ((Json.parse rawBody).map value).filter isObject with
    | some body => (eventOf body).map .event
    | none => some (.failed "malformed" "NOWPayments IPN body is not a JSON object.")

end ZedBot.Payments
