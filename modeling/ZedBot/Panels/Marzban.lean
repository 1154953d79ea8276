import ZedBot.Panels.Calls

/-! Creating an account on a Marzban panel.

    The panel keeps one user for each username and answers 409 to a second create. The adapter sends
    one create; where that call fails it reads the username back and decides from what it finds. -/

namespace ZedBot.Panels

/-- The settings of each protocol. -/
abbrev Proxies := List (String × List (String × Json))

/-- The inbound tags of each protocol. -/
abbrev InboundTags := List (String × List String)

structure MarzbanUser where
  username : String
  status : Option String := none
  proxies : Option Proxies := none
  inbounds : Option InboundTags := none
  data_limit : Option ℤ := none
  data_limit_reset_strategy : Option String := none
  expire : Option ℤ := none
  note : Option String := none
  links : Option (List String) := none

structure MarzbanCreateUserPayload where
  username : String
  proxies : Proxies
  inbounds : InboundTags
  data_limit : ℤ
  data_limit_reset_strategy : String
  expire : ℤ
  status : String
  note : String

/-! ### The panel -/

/-- What only the panel's own code decides. -/
structure MarzbanServer where
  /-- The user stored for a payload. -/
  store : MarzbanCreateUserPayload → MarzbanUser
  conflictDetail : Option String := none
  notFoundDetail : Option String := none

def findUser (users : List MarzbanUser) (username : String) : Option MarzbanUser :=
  users.find? fun u => u.username == username

/-- `POST /api/user`, as the panel processes it. -/
def MarzbanServer.createUser (server : MarzbanServer) (users : List MarzbanUser)
    (payload : MarzbanCreateUserPayload) : Except CallFailure MarzbanUser × List MarzbanUser :=
  match findUser users payload.username with
  | some _ => (.error (panelResponded 409 server.conflictDetail), users)
  | none => (.ok (server.store payload), users ++ [server.store payload])

/-- `GET /api/user/{username}`. -/
def MarzbanServer.getUser (server : MarzbanServer) (users : List MarzbanUser) (username : String) :
    Except CallFailure MarzbanUser :=
  match findUser users username with
  | some u => .ok u
  | none => .error (panelResponded 404 server.notFoundDetail)

/-- How the calls of one create end, each at the time it is made. -/
structure MarzbanCalls where
  getToken : ReadCall := .answered
  template : ReadCall := .answered
  createUser : MutationCall := .answered
  /-- The read after a 409, or the probe. -/
  readBack : ReadCall := .answered
  deriving DecidableEq, Repr

/-- The result of the create call, and the users after it. -/
def MarzbanServer.processCreate (server : MarzbanServer) (call : MutationCall)
    (users : List MarzbanUser) (payload : MarzbanCreateUserPayload) :
    Except CallFailure MarzbanUser × List MarzbanUser :=
  match call with
  | .answered => server.createUser users payload
  | .failed applied failure =>
    (.error failure, if applied then (server.createUser users payload).2 else users)

/-! ### The adapter -/

def RESET_STRATEGIES : List String := ["no_reset", "day", "week", "month", "year"]

/-- The name of a reset strategy, in lower case. -/
def knownStrategy (name : Option String) : Option String :=
  (name.map String.toLower).filter (· ∈ RESET_STRATEGIES)

def resolveResetStrategy (input : CreateServiceAccountInput) : String :=
  match knownStrategy input.dataLimitResetStrategy with
  | some explicit => explicit
  | none => (knownStrategy input.trafficResetCycle).getD "no_reset"

def PER_USER_PROXY_SECRETS : List String := ["id", "password"]

def sanitizeProxies (proxies : Proxies) : Proxies :=
  proxies.map fun p => (p.1, p.2.filter fun setting => setting.1 ∉ PER_USER_PROXY_SECRETS)

/-- The settings of one protocol. -/
def protocolSettingsOf : String × Json → Except String (String × List (String × Json))
  | (protocol, .object settings) => .ok (protocol, settings)
  | (protocol, _) => .error s!"protocol \"{protocol}\" settings must be an object"

def tagOf : Json → Option String
  | .string tag => some tag
  | _ => none

/-- The inbound tags of one protocol. -/
def inboundTagsOf : String × Json → Except String (String × List String)
  | (protocol, .array tags) =>
    match tags.mapM tagOf with
    | some tags => .ok (protocol, tags)
    | none => .error s!"inbounds for protocol \"{protocol}\" must be an array of tag strings"
  | (protocol, _) => .error s!"inbounds for protocol \"{protocol}\" must be an array of tag strings"

/-- The inbounds of explicit settings; none when they name no inbounds. -/
def parseInbounds : Option Json → Except String InboundTags
  | none => .ok []
  | some (.object entries) => entries.mapM inboundTagsOf
  | some _ => .error "protocolSettings.inbounds must be an object mapping protocol -> tag list"

/-- The operator's configuration without a template; `none` when nothing is configured. -/
def parseExplicitProxyConfig (settings : Option (List (String × Json))) :
    Except String (Option (Proxies × InboundTags)) :=
  match settings with
  | none | some [] => .ok none
  | some settings => do
    let rawProxies := (Json.member settings "proxies").getD (.object settings)
    let rawInbounds :=
      if (Json.member settings "proxies").isSome then Json.member settings "inbounds" else none
    match rawProxies with
    | .object entries =>
      let proxies ← entries.mapM protocolSettingsOf
      if proxies.isEmpty then .error "protocolSettings contains no protocols"
      else
        let inbounds ← parseInbounds rawInbounds
        .ok (some (sanitizeProxies proxies, inbounds))
    | _ => .error "protocolSettings.proxies must be an object mapping protocol -> settings"

namespace Marzban

def diag (code : PanelDiagnosticCode) (endpointPath : Option String := none)
    (httpStatus : Option ℕ := none) (retryable : Bool := false)
    (certainty : PanelOutcomeCertainty := .definite) : PanelDiagnostic :=
  { operation := "create-service", panelType := .marzban, code, endpointPath, httpStatus, retryable,
    certainty }

/-- The code of a failed client call. -/
def failureCode (failure : CallFailure) : PanelDiagnosticCode :=
  if failure.timedOut then .timeout
  else if failure.transportError then .unreachable
  else if failure.malformedBody then .malformed_response
  else if failure.status = some 401 ∨ failure.status = some 403 then .auth_failed
  else .panel_rejected

def tokenFailure (failure : CallFailure) : CreateServiceAccountResult :=
  fail s!"Marzban authentication failed: {failure.message}"
    (diag (if failure.status = some 401 ∨ failure.status = some 403 then .auth_failed
        else if failure.timedOut then .timeout else .unreachable)
      (some "/api/admin/token") failure.status failure.status.isNone)

/-- The proxies and inbounds to provision with: the template's, else the explicit ones. -/
def resolveConfig (server : MarzbanServer) (users : List MarzbanUser)
    (input : CreateServiceAccountInput) (template : ReadCall) :
    Except CreateServiceAccountResult (Proxies × InboundTags) :=
  let templateUsername := jsTrim (input.templateUsername.getD "")
  if templateUsername ≠ "" then
    match template.result (server.getUser users templateUsername) with
    | .error failure =>
      let notFound : Bool := failure.status = some 404
      .error (fail
        s!"Marzban template user \"{templateUsername}\" is not readable: {failure.message}"
        (diag (if notFound then .template_not_found else failureCode failure)
          (some "/api/user/\x7busername\x7d") failure.status (!notFound && failure.status.isNone)))
    | .ok user =>
      let templateProxies := user.proxies.getD []
      if templateProxies.isEmpty then
        .error (fail s!"Marzban template user \"{templateUsername}\" has no proxies configured."
          (diag .template_invalid))
      else .ok (sanitizeProxies templateProxies, user.inbounds.getD [])
  else
    match parseExplicitProxyConfig input.protocolSettings with
    | .ok none =>
      .error (fail
        "Marzban provisioning is not configured: set a template user or explicit protocol settings."
        (diag .config_incomplete))
    | .error explicit =>
      .error (fail s!"Marzban explicit protocol settings are invalid: {explicit}"
        (diag .config_invalid))
    | .ok (some explicit) => .ok explicit

def payloadOf (input : CreateServiceAccountInput) (dataLimit : ℤ) (config : Proxies × InboundTags) :
    MarzbanCreateUserPayload where
  username := input.username
  proxies := config.1
  inbounds := config.2
  data_limit := dataLimit
  data_limit_reset_strategy := resolveResetStrategy input
  expire := input.expiresAt.elim 0 (· / 1000)
  status := "active"
  note := input.note.getD ""

def toResult (user : MarzbanUser) : CreateServiceAccountResult :=
  { ok := true, username := some user.username, configLinks := nonemptyLinks user.links }

@[simp] theorem toResult_ok (user : MarzbanUser) : (toResult user).ok = true := rfl

/-- The account carries the note of another context. -/
def foreignNote (input : CreateServiceAccountInput) (user : MarzbanUser) : Bool :=
  let existingNote := jsTrim (user.note.getD "")
  let expectedNote := jsTrim (input.note.getD "")
  existingNote ≠ "" ∧ expectedNote ≠ "" ∧ existingNote ≠ expectedNote

/-- After a 409: the account is adopted unless its note is another order's. -/
def adoptExisting (input : CreateServiceAccountInput) :
    Except CallFailure MarzbanUser → CreateServiceAccountResult
  | .ok user =>
    if foreignNote input user then
      fail ("Marzban username conflict: an account with this username exists but belongs to a " ++
          "different context.")
        (diag .conflict (some "/api/user") (some 409))
    else toResult user
  | .error existing =>
    fail ("Marzban create returned 409 but the existing account is not readable: " ++
        existing.message)
      (diag (failureCode existing) (some "/api/user/\x7busername\x7d") existing.status true
        .unknown)
      true

/-- The request may have landed. -/
def maybeLanded (created : CallFailure) : Bool :=
  created.transportError || created.status.any (500 ≤ ·)

/-- After a create that may have landed: what the probe finds is taken for the created account. -/
def recoverProbed (created : CallFailure) :
    Except CallFailure MarzbanUser → CreateServiceAccountResult
  | .ok user => toResult user
  | .error probe =>
    if probe.status = some 404 ∧ created.status.isSome then
      fail s!"Marzban create user failed: {created.message}"
        (diag (failureCode created) (some "/api/user") created.status true)
    else
      fail s!"Marzban create user outcome is unknown: {created.message}"
        (diag (if created.timedOut then .timeout else failureCode created) (some "/api/user")
          created.status true .unknown)
        true

/-- The result for a create that ended in `created`, `read` being what a read of the username then
    finds. -/
def settleCreate (input : CreateServiceAccountInput) (created : Except CallFailure MarzbanUser)
    (read : Except CallFailure MarzbanUser) : CreateServiceAccountResult :=
  match created with
  | .ok user => toResult user
  | .error failure =>
    if failure.status = some 409 then adoptExisting input read
    else if maybeLanded failure then recoverProbed failure read
    else
      fail s!"Marzban create user failed: {failure.message}"
        (diag (failureCode failure) (some "/api/user") failure.status)

/-- `MarzbanAdapter.createServiceAccount`: the result, and the users of the panel after it. -/
def createServiceAccount (server : MarzbanServer) (users : List MarzbanUser)
    (input : CreateServiceAccountInput) (calls : MarzbanCalls) :
    CreateServiceAccountResult × List MarzbanUser :=
  match dataLimitOf input.volumeBytes with
  | none => (fail unsafeVolumeMessage (diag .unsafe_volume), users)
  | some dataLimit =>
    match calls.getToken with
    | .failed failure => (tokenFailure failure, users)
    | .answered =>
      match resolveConfig server users input calls.template with
      | .error result => (result, users)
      | .ok config =>
        let (created, users') :=
          server.processCreate calls.createUser users (payloadOf input dataLimit config)
        let read := calls.readBack.result (server.getUser users' input.username)
        (settleCreate input created read, users')

end Marzban

end ZedBot.Panels
