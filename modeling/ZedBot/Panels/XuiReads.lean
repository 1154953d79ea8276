import ZedBot.Panels.Xui

/-! The two reads of a 3X-UI inventory.

    The single read takes every client whose email is the username or begins with the username and a
    dash, and adds up their traffic. The bulk read takes each client alone; the worker then looks a
    service up by its username. -/

namespace ZedBot.Panels

/-- A JavaScript date: its time value, none when it is invalid. -/
abbrev JsDate := Option ℤ

/-- `Math.trunc`. -/
def mathTrunc (q : ℚ) : ℤ := q.num.tdiv q.den

/-- `new Date(ms)`. -/
def newDate (ms : ℚ) : JsDate :=
  if -8640000000000000 ≤ ms ∧ ms ≤ 8640000000000000 then some (mathTrunc ms) else none

inductive NormalizedAccountStatus
  | active | disabled | expired | limited | unknown
  deriving DecidableEq, Repr

/-- What a read keeps of each client it was made from. -/
structure XuiReadMetadata where
  subId : Option String
  clients : List (String × List ℤ)
  deriving DecidableEq, Repr

/-- An outer `none` is a field that is not set, an inner one is null. -/
structure GetServiceAccountResult where
  ok : Bool
  notFound : Bool := false
  username : Option String := none
  totalBytes : Option (Option ℤ) := none
  usedBytes : Option ℤ := none
  remainingBytes : Option (Option ℤ) := none
  expiresAt : Option (Option JsDate) := none
  lastConnectedAt : Option JsDate := none
  status : Option NormalizedAccountStatus := none
  subscriptionToken : Option String := none
  configLinks : Option (List String) := none
  remoteMetadata : Option XuiReadMetadata := none
  errorMessage : Option String := none
  diagnostic : Option PanelDiagnostic := none
  deriving DecidableEq, Repr

/-! ### A client's own fields -/

/-- The limit of a client: null is unlimited. -/
def XuiClient.limit (c : XuiClient) : Option (Option ℤ) :=
  c.totalGB.map fun q => if 0 < q then some (mathTrunc q) else none

/-- The expiry of a client: null is never. -/
def XuiClient.expiry (c : XuiClient) : Option (Option JsDate) :=
  c.expiryTime.map fun q => if 0 < q then some (newDate q) else none

/-- The subscription id, when it is set. -/
def XuiClient.token (c : XuiClient) : Option String := c.subId.filter (· ≠ "")

def countedBytes (value : Option ℚ) : ℤ := max 0 (mathTrunc (value.getD 0))

/-- The traffic counted for a client. -/
def XuiClient.used (c : XuiClient) : ℤ :=
  c.traffic.elim 0 fun t => countedBytes t.up + countedBytes t.down

def XuiClient.lastOnline (c : XuiClient) : ℚ := (c.traffic.bind (·.lastOnline)).getD 0

def XuiClient.isDisabled (c : XuiClient) : Bool := c.enable = some false

/-! ### Normalization -/

/-- What is left of a limit. -/
def remainingOf (totalBytes : Option (Option ℤ)) (usedBytes : Option ℤ) : Option (Option ℤ) :=
  totalBytes.map fun total => total.map fun t =>
    if usedBytes.getD 0 < t then t - usedBytes.getD 0 else 0

/-- The status, from what the account shows at time `now`. -/
def statusOf (disabled : Bool) (expiresAt : Option (Option JsDate))
    (totalBytes : Option (Option ℤ)) (usedBytes : Option ℤ) (now : ℤ) : NormalizedAccountStatus :=
  if disabled then .disabled
  else if (expiresAt.join.join).any (· ≤ now) then .expired
  else if totalBytes.join.any (· ≤ usedBytes.getD 0) then .limited
  else .active

/-- `normalizeClientAccount`, for the matches `first :: rest`. -/
def normalizeClientAccount (username : String) (first : XuiClient) (rest : List XuiClient)
    (now : ℤ) : GetServiceAccountResult :=
  let matches' := first :: rest
  let primary := (matches'.find? fun c => c.email == some username).getD first
  let totalBytes := primary.limit
  let usedBytes :=
    if matches'.any (·.traffic.isSome) then some (matches'.map (·.used)).sum else none
  let lastOnline := (matches'.map (·.lastOnline)).foldl max 0
  { ok := true
    username := some username
    totalBytes
    usedBytes
    remainingBytes := remainingOf totalBytes usedBytes
    expiresAt := primary.expiry
    lastConnectedAt := if 0 < lastOnline then some (newDate lastOnline) else none
    status := some
      (statusOf (matches'.any (·.isDisabled)) primary.expiry totalBytes usedBytes now)
    subscriptionToken := primary.token
    remoteMetadata := some
      { subId := primary.token,
        clients := matches'.map fun m => (m.email.getD "", m.inboundIds.getD []) } }

/-! ### The single read -/

/-- `startsWith`. -/
def startsWith (text start : String) : Bool := start.toList.isPrefixOf text.toList

def isOurs (username : String) (c : XuiClient) : Bool :=
  c.email.any fun email => email == username || startsWith email (username ++ "-")

/-- How the calls of a read end. -/
structure XuiReadCalls where
  login : ReadCall := .answered
  listClients : ReadCall := .answered
  /-- The links that the panel answers with; none when that call fails. -/
  links : Option (List String) := none
  deriving DecidableEq, Repr

def readDiag (code : PanelDiagnosticCode) (endpointPath : Option String := none)
    (httpStatus : Option ℕ := none) (retryable : Bool := false) : PanelDiagnostic :=
  { operation := "read-service", panelType := .xui, code, endpointPath, httpStatus, retryable }

def readFailed (errorMessage : String) (diagnostic : PanelDiagnostic) (notFound : Bool := false) :
    GetServiceAccountResult :=
  { ok := false, notFound, errorMessage, diagnostic }

/-- What the inventory holds of a service. -/
def accountOf (username : String) (clients : List XuiClient) (calls : XuiReadCalls) (now : ℤ) :
    GetServiceAccountResult :=
  match clients.filter (isOurs username) with
  | [] => readFailed "Panel client not found." (readDiag .not_found "/panel/api/clients/list") true
  | first :: rest =>
    let result := normalizeClientAccount username first rest now
    if (first :: rest).any (fun c => c.email == some username) then
      { result with configLinks := nonemptyLinks calls.links }
    else result

def getServiceAccount (credentials : XuiCredentials) (username : String) (clients : List XuiClient)
    (calls : XuiReadCalls) (now : ℤ) : GetServiceAccountResult :=
  match authenticate credentials calls.login with
  | .error session =>
    let code := Xui.authFailureCode session
    readFailed s!"XUI authentication failed: {Xui.AuthFailure.message session}"
      (readDiag code (if credentials.authMode = .SESSION_COOKIE then some "/login" else none)
        (Xui.AuthFailure.status session) (code = .timeout ∨ code = .unreachable))
  | .ok () =>
    match calls.listClients with
    | .failed failure =>
      readFailed s!"XUI client list failed: {failure.message}"
        (readDiag (Xui.requestFailureCode failure) "/panel/api/clients/list" failure.status
          failure.transportError)
    | .answered => accountOf username clients calls now

/-! ### The bulk read -/

/-- Each client of the inventory that has an email, alone. -/
def accountsOf (clients : List XuiClient) (now : ℤ) : List GetServiceAccountResult :=
  clients.filterMap fun c => match c.email with
    | none | some "" => none
    | some email => some (normalizeClientAccount email c [] now)

def listServiceAccounts (credentials : XuiCredentials) (clients : List XuiClient)
    (calls : XuiReadCalls) (now : ℤ) : Option (List GetServiceAccountResult) :=
  match authenticate credentials calls.login with
  | .error _ => none
  | .ok () =>
    match calls.listClients with
    | .failed _ => none
    | .answered => some (accountsOf clients now)

/-- The map of `syncViaBulk`: a later account of a username replaces an earlier one. -/
def byUsername (bulk : List GetServiceAccountResult) : String → Option GetServiceAccountResult :=
  bulk.foldl (fun map account => match account.username with
    | none | some "" => map
    | some name => fun key => if key = name then some account else map key) fun _ => none

/-- The account that `syncViaBulk` finds for a service. -/
def bulkMatch (credentials : XuiCredentials) (username : String) (clients : List XuiClient)
    (calls : XuiReadCalls) (now : ℤ) : Option GetServiceAccountResult :=
  (listServiceAccounts credentials clients calls now).bind fun bulk => byUsername bulk username

end ZedBot.Panels
