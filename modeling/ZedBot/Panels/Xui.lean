import ZedBot.LowBalance.Settings
import ZedBot.Panels.Calls

/-! Creating a client on a 3X-UI panel.

    The panel keeps one global client for each email and attaches it to inbounds one by one. The
    adapter reads the inventory first, sends one add, and after a failed add deletes the email and
    reads the inventory again. -/

namespace ZedBot.Panels

/-- The traffic record of a client. -/
structure XuiClientStat where
  up : Option ℚ := none
  down : Option ℚ := none
  lastOnline : Option ℚ := none
  deriving DecidableEq, Repr

/-- A client of the inventory, with its attachments and traffic. -/
structure XuiClient where
  email : Option String := none
  subId : Option String := none
  uuid : Option String := none
  password : Option String := none
  auth : Option String := none
  flow : Option String := none
  totalGB : Option ℚ := none
  expiryTime : Option ℚ := none
  enable : Option Bool := none
  comment : Option String := none
  inboundIds : Option (List ℤ) := none
  traffic : Option XuiClientStat := none
  deriving DecidableEq, Repr

structure XuiInbound where
  id : ℤ
  enable : Option Bool := none
  protocol : Option String := none
  deriving DecidableEq, Repr

structure XuiPanel where
  inbounds : List XuiInbound
  clients : List XuiClient
  deriving DecidableEq, Repr

structure XuiClientPayload where
  email : String
  subId : String
  totalGB : ℤ
  expiryTime : ℤ
  enable : Bool
  comment : Option String
  flow : Option String
  deriving DecidableEq, Repr

/-! ### The panel -/

/-- What only the panel's own code decides. -/
structure XuiServer where
  /-- The secrets it generates for a client. -/
  newUuid : XuiClientPayload → String
  newPassword : XuiClientPayload → String
  /-- The links it builds for a client. -/
  links : XuiPanel → XuiClient → List String

/-- An envelope without success. -/
def panelRejected (detail : Option String) : CallFailure where
  status := some 200
  message := "Panel rejected the request" ++ (detail.elim "" fun d => s!": {d}") ++ "."

def findInbound (inbounds : List XuiInbound) (id : ℤ) : Option XuiInbound :=
  inbounds.reverse.find? fun i => i.id == id

def findClient (clients : List XuiClient) (email : String) : Option XuiClient :=
  clients.find? fun c => c.email == some email

/-- One turn of the attach loop: a protocol's secret is generated where the client has none. -/
def XuiServer.attachOne (server : XuiServer) (panel : XuiPanel) (payload : XuiClientPayload)
    (c : XuiClient) (id : ℤ) : XuiClient :=
  let protocol := (findInbound panel.inbounds id).bind (·.protocol)
  let ids := c.inboundIds.getD []
  { c with
    inboundIds := some (if id ∈ ids then ids else ids ++ [id])
    uuid := if protocol = some "vless" ∨ protocol = some "vmess"
      then c.uuid.or (some (server.newUuid payload)) else c.uuid
    password := if protocol = some "trojan"
      then c.password.or (some (server.newPassword payload)) else c.password }

def XuiServer.attach (server : XuiServer) (panel : XuiPanel) (payload : XuiClientPayload)
    (c : XuiClient) (ids : List ℤ) : XuiClient :=
  ids.foldl (server.attachOne panel payload) c

def clientOf (payload : XuiClientPayload) : XuiClient where
  email := some payload.email
  subId := some payload.subId
  flow := payload.flow
  totalGB := some payload.totalGB
  expiryTime := some payload.expiryTime
  enable := some payload.enable
  comment := payload.comment

/-- The first client with an email, replaced. -/
def replaceClient (email : String) (new : XuiClient) : List XuiClient → List XuiClient
  | [] => []
  | c :: rest => if c.email == some email then new :: rest else c :: replaceClient email new rest

/-- `POST /panel/api/clients/add`, as far as the attach loop gets: an email with the same subId is
    used again. -/
def XuiServer.addClient (server : XuiServer) (panel : XuiPanel) (payload : XuiClientPayload)
    (ids : List ℤ) : Except CallFailure Unit × List XuiClient :=
  match findClient panel.clients payload.email with
  | some c =>
    if c.subId ≠ some payload.subId then
      (.error (panelRejected s!"email already in use: {payload.email}"), panel.clients)
    else
      (.ok (), replaceClient payload.email (server.attach panel payload c ids) panel.clients)
  | none =>
    if panel.clients.any (fun c => c.subId == some payload.subId) then
      (.error (panelRejected s!"subId already in use: {payload.subId}"), panel.clients)
    else (.ok (), panel.clients ++ [server.attach panel payload (clientOf payload) ids])

/-- `POST /panel/api/clients/del/{email}`. -/
def deleteClient (clients : List XuiClient) (email : String) : List XuiClient :=
  clients.filter fun c => c.email != some email

/-- How the add ends. A failed one may have been processed, and stopped after some inbounds. -/
inductive AddClientCall
  | answered
  | failed (attached : Option ℕ) (failure : CallFailure)
  deriving DecidableEq, Repr

def XuiServer.processAdd (server : XuiServer) (call : AddClientCall) (panel : XuiPanel)
    (payload : XuiClientPayload) (ids : List ℤ) : Except CallFailure Unit × List XuiClient :=
  match call with
  | .answered => server.addClient panel payload ids
  | .failed none failure => (.error failure, panel.clients)
  | .failed (some n) failure => (.error failure, (server.addClient panel payload (ids.take n)).2)

def processDelete (call : MutationCall) (clients : List XuiClient) (email : String) :
    List XuiClient :=
  match call with
  | .answered | .failed true _ => deleteClient clients email
  | .failed false _ => clients

/-- How the calls of one create end, each at the time it is made. -/
structure XuiCalls where
  login : ReadCall := .answered
  listInbounds : ReadCall := .answered
  preRead : ReadCall := .answered
  addClient : AddClientCall := .answered
  deleteClient : MutationCall := .answered
  /-- The inventory read that verifies the cleanup. -/
  verify : ReadCall := .answered
  getClient : ReadCall := .answered
  getClientLinks : ReadCall := .answered
  deriving DecidableEq, Repr

/-! ### The adapter -/

inductive XuiAuthMode
  | SESSION_COOKIE | API_TOKEN
  deriving DecidableEq, Repr

structure XuiCredentials where
  authMode : XuiAuthMode := .SESSION_COOKIE
  username : String := ""
  password : String := ""
  token : String := ""
  deriving DecidableEq, Repr

/-- Why a session could not be established. -/
inductive AuthFailure
  | configIncomplete (message : String)
  | failed (failure : CallFailure)
  deriving DecidableEq, Repr

def authenticate (credentials : XuiCredentials) (login : ReadCall) : Except AuthFailure Unit :=
  match credentials.authMode with
  | .API_TOKEN =>
    if credentials.token = "" then .error (.configIncomplete "XUI API token is not configured.")
    else .ok ()
  | .SESSION_COOKIE =>
    if credentials.username = "" ∨ credentials.password = "" then
      .error (.configIncomplete "XUI username/password are not configured.")
    else
      match login with
      | .answered => .ok ()
      | .failed failure => .error (.failed failure)

namespace Xui

def diag (code : PanelDiagnosticCode) (endpointPath : Option String := none)
    (httpStatus : Option ℕ := none) (detail : Option String := none) (retryable : Bool := false)
    (certainty : PanelOutcomeCertainty := .definite) : PanelDiagnostic :=
  { operation := "create-service", panelType := .xui, code, endpointPath, httpStatus, detail,
    retryable, certainty }

def authFailureCode : AuthFailure → PanelDiagnosticCode
  | .configIncomplete _ => .config_incomplete
  | .failed failure =>
    if failure.timedOut then .timeout
    else if failure.transportError then .unreachable
    else if failure.malformedBody ∨ failure.status = some 404 then .unsupported_variant
    else .auth_failed

def requestFailureCode (failure : CallFailure) : PanelDiagnosticCode :=
  if failure.timedOut then .timeout
  else if failure.transportError then .unreachable
  else if failure.malformedBody ∨ failure.status = some 404 then .unsupported_variant
  else if failure.status = some 401 ∨ failure.status = some 403 then .auth_failed
  else if failure.status.any fun s => 300 ≤ s && s < 400 then .auth_failed
  else .panel_rejected

def AuthFailure.message : AuthFailure → String
  | .configIncomplete message => message
  | .failed failure => failure.message

def AuthFailure.status : AuthFailure → Option ℕ
  | .configIncomplete _ => none
  | .failed failure => failure.status

def authenticationFailed (credentials : XuiCredentials) (session : AuthFailure) :
    CreateServiceAccountResult :=
  let code := authFailureCode session
  fail s!"XUI authentication failed: {AuthFailure.message session}"
    (diag code (if credentials.authMode = .SESSION_COOKIE then some "/login" else none)
      (AuthFailure.status session) none (code = .timeout ∨ code = .unreachable))

def listFailed (what endpointPath : String) (failure : CallFailure) : CreateServiceAccountResult :=
  fail s!"XUI {what} list failed: {failure.message}"
    (diag (requestFailureCode failure) (some endpointPath) failure.status none
      failure.transportError)

def SUPPORTED_PROTOCOLS : List String := ["vless", "vmess", "trojan"]

/-- Validates one configured inbound; none means it is usable. -/
def validateInbound (inbound : Option XuiInbound) (id : ℤ) :
    Option (PanelDiagnosticCode × String) :=
  match inbound with
  | none => some (.inbound_missing, s!"inbound {id} does not exist on the panel")
  | some i =>
    if i.enable = some false then some (.inbound_disabled, s!"inbound {id} is disabled")
    else
      let protocol := LowBalance.jsToLowerCase (i.protocol.getD "")
      if protocol ∉ SUPPORTED_PROTOCOLS then
        some (.unsupported_protocol,
          s!"inbound {id} protocol \"{protocol}\" is not supported (vless/vmess/trojan only)")
      else none

/-- The configured ids that are integers. -/
def integerIds (ids : Option (List ℚ)) : List ℤ :=
  (ids.getD []).filterMap fun q => if q.den = 1 then some q.num else none

/-- The client belongs to someone else: its subId is set, and not ours. -/
def foreignSubId (subId : String) (c : XuiClient) : Bool :=
  c.subId.any fun s => s ≠ "" && s ≠ subId

def payloadOf (input : CreateServiceAccountInput) (totalBytes : ℤ) : XuiClientPayload where
  email := input.username
  subId := input.username
  totalGB := totalBytes
  expiryTime := input.expiresAt.getD 0
  enable := true
  comment := input.note.filter (· ≠ "")
  flow := (input.protocolSettings.bind (Json.member · "flow")).bind fun
    | .string flow => some flow
    | _ => none

/-- All that comes before the add: the payload and the inbounds to attach. -/
def prepare (credentials : XuiCredentials) (panel : XuiPanel) (input : CreateServiceAccountInput)
    (calls : XuiCalls) : Except CreateServiceAccountResult (XuiClientPayload × List ℤ) := do
  let inboundIds := integerIds input.inboundIds
  if inboundIds = [] then
    throw (fail "XUI inbound ids are not configured." (diag .config_incomplete))
  let totalBytes ← match dataLimitOf input.volumeBytes with
    | none => throw (fail unsafeVolumeMessage (diag .unsafe_volume))
    | some safe => pure safe
  match authenticate credentials calls.login with
  | .error session => throw (authenticationFailed credentials session)
  | .ok () => pure ()
  let inbounds ← match calls.listInbounds.result (.ok panel.inbounds) with
    | .error failure => throw (listFailed "inbound" "/panel/api/inbounds/list" failure)
    | .ok inbounds => pure inbounds
  match inboundIds.findSome? fun id => validateInbound (findInbound inbounds id) id with
  | some (code, detail) => throw (fail s!"XUI {detail}." (diag code none none (some detail)))
  | none => pure ()
  let clients ← match calls.preRead.result (.ok panel.clients) with
    | .error failure => throw (listFailed "client" "/panel/api/clients/list" failure)
    | .ok clients => pure clients
  if (findClient clients input.username).any (foreignSubId input.username) then
    throw (fail
      "XUI email conflict: a client with this email exists but carries a different subscription id."
      (diag .conflict none none (some "existing client has a foreign subId")))
  return (payloadOf input totalBytes, inboundIds)

/-- `includes`, on lists of characters. -/
def includes (text part : List Char) : Bool := text.tails.any part.isPrefixOf

/-- The panel answered that the email or the subId is taken: nothing was mutated. -/
def alreadyInUse (added : CallFailure) : Bool :=
  added.status = some 200 &&
    includes (LowBalance.jsToLowerCase added.message).toList "already in use".toList

/-- The cleanup after a failed add: one delete, then a read of the inventory that must not show the
    email any more. -/
def cleanupGlobalClient (clients : List XuiClient) (email : String) (calls : XuiCalls) :
    Bool × List XuiClient :=
  let clients' := processDelete calls.deleteClient clients email
  (match calls.verify with
    | .failed _ => false
    | .answered => !clients'.any fun c => c.email == some email,
  clients')

def inUse (added : CallFailure) : CreateServiceAccountResult :=
  fail s!"XUI create client conflict: {added.message}"
    (diag .conflict (some "/panel/api/clients/add") added.status)

def afterCleanup (added : CallFailure) (cleanedUp : Bool) : CreateServiceAccountResult :=
  if cleanedUp && !added.transportError then
    fail s!"XUI create client failed: {added.message} (compensating cleanup confirmed)."
      (diag (requestFailureCode added) (some "/panel/api/clients/add") added.status none true)
  else
    fail (s!"XUI create client failed: {added.message}; compensating cleanup could NOT be " ++
        "confirmed - remote state is partial/unknown.")
      (diag .partial_state (some "/panel/api/clients/add") added.status none true .unknown) true

/-- The primary secret of a client. -/
def recordIdentifier (c : XuiClient) : Option String :=
  [c.uuid, c.password, c.auth].findSome? fun value => value.filter (· ≠ "")

/-- The result for an add that was answered with success. -/
def createdResult (server : XuiServer) (panel : XuiPanel) (email : String) (inboundIds : List ℤ)
    (calls : XuiCalls) : CreateServiceAccountResult :=
  let readBack := match calls.getClient with
    | .failed _ => none
    | .answered => findClient panel.clients email
  let identifier := readBack.bind recordIdentifier
  let attachedIds := ((readBack.bind (·.inboundIds)).filter (· ≠ [])).getD inboundIds
  let links := match calls.getClientLinks with
    | .failed _ => none
    | .answered => (findClient panel.clients email).map (server.links panel)
  { ok := true
    username := some email
    subscriptionToken := some email
    configLinks := nonemptyLinks links
    remoteClientId := identifier
    remoteInboundIds := some attachedIds
    remoteMetadata := some
      { subId := email, email, inboundIds := attachedIds,
        readback := if identifier.isNone then some false else none } }

/-- `XuiAdapter.createServiceAccount`: the result, and the clients of the panel after it. -/
def createServiceAccount (server : XuiServer) (credentials : XuiCredentials) (panel : XuiPanel)
    (input : CreateServiceAccountInput) (calls : XuiCalls) :
    CreateServiceAccountResult × List XuiClient :=
  match prepare credentials panel input calls with
  | .error result => (result, panel.clients)
  | .ok (payload, inboundIds) =>
    match server.processAdd calls.addClient panel payload inboundIds with
    | (.ok (), clients) =>
      (createdResult server { panel with clients } payload.email inboundIds calls, clients)
    | (.error added, clients) =>
      if alreadyInUse added then (inUse added, clients)
      else
        let (cleanedUp, clients') := cleanupGlobalClient clients payload.email calls
        (afterCleanup added cleanedUp, clients')

end Xui

end ZedBot.Panels
