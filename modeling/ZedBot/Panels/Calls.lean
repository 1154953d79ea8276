import Mathlib.Data.Rat.Init
import ZedBot.Json
import ZedBot.Schema

/-! What the panel adapters share: the calls to a panel, the input of a create and its result.

    A call is answered by the panel, or it fails: rejected, timed out, broken off, or answered with
    something that is not JSON. A failed call that changes the panel may have been applied. -/

namespace ZedBot.Panels

/-- What the HTTP client reports of a call that failed. -/
structure CallFailure where
  /-- None when no HTTP response arrived. -/
  status : Option ℕ := none
  timedOut : Bool := false
  transportError : Bool := false
  malformedBody : Bool := false
  message : String
  deriving DecidableEq, Repr

/-- The answer of a panel to a request it rejects. -/
def panelResponded (status : ℕ) (detail : Option String) : CallFailure where
  status := some status
  message := s!"Panel responded with HTTP {status}" ++ (detail.elim "" fun d => s!": {d}") ++ "."

/-- How a read ends. -/
inductive ReadCall
  | answered
  | failed (failure : CallFailure)
  deriving DecidableEq, Repr

/-- The answer to a read of `value`. -/
def ReadCall.result {α : Type} (call : ReadCall) (value : Except CallFailure α) :
    Except CallFailure α :=
  match call with
  | .answered => value
  | .failed failure => .error failure

/-- How a call that changes the panel ends: answered, or failed after the panel processed it or
    before. -/
inductive MutationCall
  | answered
  | failed (applied : Bool) (failure : CallFailure)
  deriving DecidableEq, Repr

/-! ### Diagnostics -/

inductive PanelType
  | marzban | xui
  deriving DecidableEq, Repr

inductive PanelDiagnosticCode
  | unreachable | timeout | auth_failed | not_found | template_not_found | template_invalid
  | config_incomplete | config_invalid | unsafe_volume | unsupported_variant
  | unsupported_protocol | unsupported_operation | inbound_missing | inbound_disabled
  | inbound_malformed | malformed_response | conflict | panel_rejected | partial_state
  deriving DecidableEq, Repr

inductive PanelOutcomeCertainty
  | definite | unknown
  deriving DecidableEq, Repr

structure PanelDiagnostic where
  operation : String
  panelType : PanelType
  code : PanelDiagnosticCode
  endpointPath : Option String := none
  httpStatus : Option ℕ := none
  detail : Option String := none
  retryable : Bool := false
  certainty : PanelOutcomeCertainty := .definite
  deriving DecidableEq, Repr

/-! ### Creating a service account -/

structure CreateServiceAccountInput where
  username : String
  note : Option String := none
  /-- Null is unlimited. -/
  volumeBytes : Option ℤ := none
  /-- In milliseconds; null is never. -/
  expiresAt : Option ℤ := none
  templateUsername : Option String := none
  dataLimitResetStrategy : Option String := none
  inboundIds : Option (List ℚ) := none
  protocolSettings : Option (List (String × Json)) := none
  trafficResetCycle : Option String := none

/-- The identifiers of an XUI client. -/
structure XuiMetadata where
  subId : String
  email : String
  inboundIds : List ℤ
  readback : Option Bool := none
  deriving DecidableEq, Repr

structure CreateServiceAccountResult where
  ok : Bool
  uncertain : Bool := false
  username : Option String := none
  subscriptionToken : Option String := none
  configLinks : Option (List String) := none
  remoteClientId : Option String := none
  remoteInboundIds : Option (List ℤ) := none
  remoteMetadata : Option XuiMetadata := none
  errorMessage : Option String := none
  diagnostic : Option PanelDiagnostic := none
  deriving DecidableEq, Repr

def fail (errorMessage : String) (diagnostic : PanelDiagnostic) (uncertain : Bool := false) :
    CreateServiceAccountResult :=
  { ok := false, errorMessage, diagnostic, uncertain }

@[simp] theorem fail_ok (m : String) (d : PanelDiagnostic) (u : Bool) : (fail m d u).ok = false :=
  rfl

/-- A bigint as a number, inside the safe range. -/
def bigintToSafeNumber (value : ℤ) : Option ℤ :=
  if value < 0 ∨ 9007199254740991 < value then none else some value

/-- The limit to send for a volume; 0 is unlimited. -/
def dataLimitOf (volumeBytes : Option ℤ) : Option ℤ :=
  match volumeBytes with
  | none => some 0
  | some volume => bigintToSafeNumber volume

def unsafeVolumeMessage : String :=
  "Volume exceeds the safe integer range; refusing lossy conversion."

/-- The links worth returning. -/
def nonemptyLinks (links : Option (List String)) : Option (List String) :=
  match (links.getD []).filter (· ≠ "") with
  | [] => none
  | urls => some urls

end ZedBot.Panels
