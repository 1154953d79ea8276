import ZedBot.Naming.Normalize
import ZedBot.ReadCommitted.Answers
import ZedBot.ReadCommitted.Solo
import ZedBot.Reservations.Usernames

/-! The naming snapshot of an order.

    The first call on an order resolves its remote identity from the naming configuration, the counters
    of the panel and random bytes, and stores it where none is stored. A call that comes too late reads
    the one that was stored. -/

namespace ZedBot.Naming
open ReadCommitted

/-! ### Rows -/

inductive UsernamePatternType
  | TELEGRAM_USERNAME_SEQUENCE | TELEGRAM_ID_RANDOM | CUSTOM | CUSTOM_RANDOM | CUSTOM_TEXT_RANDOM
  | CUSTOM_TEXT_SEQUENCE | TELEGRAM_ID_SEQUENCE | REPRESENTATIVE_TEXT_SEQUENCE
  deriving DecidableEq, Repr

inductive ServiceUsernameSelectionSource
  | USER_CUSTOM | USER_RANDOM | STRATEGY
  deriving DecidableEq, Repr

/-- Config subset a strategy resolves from. -/
structure NamingConfigSnapshot where
  strategy : UsernamePatternType := .CUSTOM_RANDOM
  customText : Option String := none
  randomLength : Option ℤ := none
  representativePrefix : Option String := none
  userSelectedUsername : Option String := none
  userSelectionSource : Option ServiceUsernameSelectionSource := none
  deriving DecidableEq, Repr

structure IdentitySources where
  telegramId : String
  telegramUsername : Option String
  orderShort : String
  customText : Option String := none
  representativePrefix : Option String := none
  sequence : Option ℤ := none
  random : Option String := none
  deriving DecidableEq, Repr

/-- The immutable identity resolution. -/
structure ResolvedVpnIdentity where
  strategy : UsernamePatternType
  version : ℕ
  resolvedRemoteUsername : String
  resolvedDisplayName : String
  selectionSource : ServiceUsernameSelectionSource
  selectedAt : ℕ
  sources : IdentitySources
  deriving DecidableEq, Repr

/-- What the column of an order holds: an identity, or a value of another shape. -/
inductive NamingJson
  | identity (i : ResolvedVpnIdentity)
  | other
  deriving DecidableEq, Repr

/-- What the naming reads of an order and its user. -/
structure NamingOrder where
  id : String
  telegramId : ℕ := 0
  username : Option String := none
  namingSnapshot : Option NamingJson := none
  deriving DecidableEq, Repr

structure NamingPanel where
  usernamePatternType : UsernamePatternType := .CUSTOM_RANDOM
  usernameCustomText : Option String := none
  usernameRandomLength : Option ℤ := none
  representativeUsernamePrefix : Option String := none
  usernameSequenceLastNumber : ℤ := 0
  representativeSequenceLastNumber : ℤ := 0
  deriving DecidableEq, Repr

inductive NamingKey
  | order (id : String)
  | panel (id : ℕ)
  | service (username : String)
  | activeReservation (username : String)
  deriving DecidableEq

/-- The row type of a key: a service and an active reservation tell whose order they are of. -/
@[reducible] def NamingRow : NamingKey → Type
  | .order _ => Option NamingOrder
  | .panel _ => Option NamingPanel
  | .service _ => Option (Option String)
  | .activeReservation _ => Option (Option String)

/-- What the oracle answers: the clock and the random bytes. -/
structure NamingChoice where
  now : ℕ := 0
  bytes : ℕ → ℕ := fun _ => 0

abbrev Namings := Prog NamingRow Unit Unit NamingChoice
abbrev NamingStore := Store NamingRow Unit Unit
abbrev NamingTx := Tx NamingRow Unit
abbrev NamingView := View NamingRow Unit
abbrev NamingConfig := Config NamingRow Unit Unit NamingChoice

instance : Inhabited NamingChoice := ⟨{}⟩

/-! ### Strategies -/

def NAMING_STRATEGY_VERSION : ℕ := 1

def NAMING_FAILED_USER_TEXT : String :=
  "ساخت نام سرویس ناموفق بود. لطفاً تنظیمات نام‌گذاری را بررسی کنید."

structure UsernameStrategyInfo where
  usesSequence : Bool := false
  usesRandom : Bool := false
  usesRepresentative : Bool := false
  usesCustomText : Bool := false

def USERNAME_STRATEGY_INFO : UsernamePatternType → UsernameStrategyInfo
  | .TELEGRAM_USERNAME_SEQUENCE | .TELEGRAM_ID_SEQUENCE => { usesSequence := true }
  | .TELEGRAM_ID_RANDOM | .CUSTOM_RANDOM => { usesRandom := true }
  | .CUSTOM => { usesCustomText := true }
  | .CUSTOM_TEXT_RANDOM => { usesRandom := true, usesCustomText := true }
  | .CUSTOM_TEXT_SEQUENCE => { usesSequence := true, usesCustomText := true }
  | .REPRESENTATIVE_TEXT_SEQUENCE => { usesSequence := true, usesRepresentative := true }

def UsernamePatternType.text : UsernamePatternType → String
  | .TELEGRAM_USERNAME_SEQUENCE => "TELEGRAM_USERNAME_SEQUENCE"
  | .TELEGRAM_ID_RANDOM => "TELEGRAM_ID_RANDOM"
  | .CUSTOM => "CUSTOM"
  | .CUSTOM_RANDOM => "CUSTOM_RANDOM"
  | .CUSTOM_TEXT_RANDOM => "CUSTOM_TEXT_RANDOM"
  | .CUSTOM_TEXT_SEQUENCE => "CUSTOM_TEXT_SEQUENCE"
  | .TELEGRAM_ID_SEQUENCE => "TELEGRAM_ID_SEQUENCE"
  | .REPRESENTATIVE_TEXT_SEQUENCE => "REPRESENTATIVE_TEXT_SEQUENCE"

def namingConfigFromPanel (panel : NamingPanel) : NamingConfigSnapshot where
  strategy := panel.usernamePatternType
  customText := panel.usernameCustomText
  randomLength := panel.usernameRandomLength
  representativePrefix := panel.representativeUsernamePrefix

/-- The labels of the fields that are missing. -/
def validateNamingConfig (config : NamingConfigSnapshot) : List String :=
  let info := USERNAME_STRATEGY_INFO config.strategy
  let missing : Option String → Bool := fun text => text.all fun s => jsTrim s = ""
  (if info.usesCustomText ∧ missing config.customText then ["متن دلخواه username"] else []) ++
    if info.usesRepresentative ∧ missing config.representativePrefix then
      ["پیشوند username نماینده"]
    else []

def telegramUsernameOrFallback (order : NamingOrder) : String :=
  let username := jsTrim (order.username.getD "")
  if username ≠ "" then username else "u" ++ toString order.telegramId

def orderShortId (orderId : String) : String :=
  String.ofList (toLowerCase ((orderId.toList.filter (· ≠ '-')).take 8))

structure NameParts where
  telegramId : String
  telegramUsernameOrFallback : String
  orderShort : String
  sequence : Option ℤ
  random : Option String

/-- An absent part in a template text. -/
def partText {α : Type} [ToString α] (part : Option α) : String := (part.map toString).getD "undefined"

/-- Raw (pre-normalization) name for a strategy. -/
def buildRawName (config : NamingConfigSnapshot) (parts : NameParts) : String :=
  let custom := config.customText.getD ""
  let representative := config.representativePrefix.getD ""
  match config.strategy with
  | .TELEGRAM_USERNAME_SEQUENCE => s!"{parts.telegramUsernameOrFallback}_{partText parts.sequence}"
  | .TELEGRAM_ID_RANDOM => s!"{parts.telegramId}_{partText parts.random}"
  | .CUSTOM => s!"{custom}_{parts.orderShort}"
  | .CUSTOM_RANDOM => parts.random.getD ""
  | .CUSTOM_TEXT_RANDOM => s!"{custom}_{partText parts.random}"
  | .CUSTOM_TEXT_SEQUENCE => s!"{custom}_{partText parts.sequence}"
  | .TELEGRAM_ID_SEQUENCE => s!"{parts.telegramId}_{partText parts.sequence}"
  | .REPRESENTATIVE_TEXT_SEQUENCE => s!"{representative}_{partText parts.sequence}"

def randomLengthFor (config : NamingConfigSnapshot) : ℕ :=
  let fullRandom : Bool := config.strategy = .CUSTOM_RANDOM
  let requested := config.randomLength.getD (if fullRandom then 8 else 4)
  (min 16 (max (if fullRandom then 8 else 3) requested)).toNat

/-- Lowercase alphanumeric random part. -/
def randomToken (length : ℕ) (bytes : ℕ → ℕ) : String :=
  let alphabet := "abcdefghijklmnopqrstuvwxyz0123456789".toList
  String.ofList ((List.range length).map fun i => alphabet.getD (bytes i % alphabet.length) 'a')

/-! ### Resolution -/

structure NamingError where
  error : String
  safeUserMessage : String := NAMING_FAILED_USER_TEXT
  deriving DecidableEq, Repr

/-- Atomically reserves the next number of a panel; `none` where the panel is gone. -/
def reserveSequence (panelId : ℕ) (representative : Bool) : Namings (Option ℤ) := sql fun v =>
  match v.rows (.panel panelId) with
  | none => { result := none }
  | some panel =>
    if representative then
      let next := panel.representativeSequenceLastNumber + 1
      { result := some next
        writes := [⟨.panel panelId, some { panel with representativeSequenceLastNumber := next }⟩] }
    else
      let next := panel.usernameSequenceLastNumber + 1
      { result := some next
        writes := [⟨.panel panelId, some { panel with usernameSequenceLastNumber := next }⟩] }

/-- A service of another order, or an active reservation that is not of this order. -/
def isTaken (username orderId : String) : Namings Bool := do
  let existing ← select fun v => v.rows (.service username)
  if existing.any (· ≠ some orderId) then
    return true
  let held ← select fun v => v.rows (.activeReservation username)
  return held.any (· ≠ some orderId)

def resolveUserSelected (order : NamingOrder) (config : NamingConfigSnapshot)
    (userSelected : String) : Namings (Except NamingError ResolvedVpnIdentity) := do
  if ¬ Reservations.isValidServiceUsername userSelected then
    return .error { error := "user-selected username failed re-validation" }
  let taken ← isTaken userSelected order.id
  if taken then
    return .error { error := "user-selected username collision" }
  let now ← ask (·.now)
  return .ok
    { strategy := config.strategy
      version := NAMING_STRATEGY_VERSION
      resolvedRemoteUsername := userSelected
      resolvedDisplayName := userSelected
      selectionSource := config.userSelectionSource.getD .USER_CUSTOM
      selectedAt := now
      sources :=
        { telegramId := toString order.telegramId
          telegramUsername := order.username
          orderShort := orderShortId order.id } }

/-- The fallback candidate: the raw name with the short id behind it, normalized again. -/
def fallbackName (raw orderShort : String) : String :=
  normalizeRemoteUsername s!"{raw}_{orderShort}" orderShort

/-- The name, or the fallback where it is taken, or nothing. -/
def chooseName (raw orderShort orderId : String) : Namings (Option String) := do
  let normalized := normalizeRemoteUsername raw orderShort
  let taken ← isTaken normalized orderId
  if ¬ taken then
    return some normalized
  let fallback := fallbackName raw orderShort
  let stillTaken ← isTaken fallback orderId
  return if stillTaken then none else some fallback

/-- The identity of an order whose sequence number is fixed. -/
def resolveNumbered (order : NamingOrder) (config : NamingConfigSnapshot) (sequence : Option ℤ) :
    Namings (Except NamingError ResolvedVpnIdentity) := do
  let info := USERNAME_STRATEGY_INFO config.strategy
  let orderShort := orderShortId order.id
  let bytes ← ask (·.bytes)
  let random := if info.usesRandom then some (randomToken (randomLengthFor config) bytes) else none
  let parts : NameParts :=
    { telegramId := toString order.telegramId
      telegramUsernameOrFallback := telegramUsernameOrFallback order
      orderShort, sequence, random }
  let raw := buildRawName config parts
  let chosen ← chooseName raw orderShort order.id
  match chosen with
  | none => return .error { error := s!"naming collision for strategy {config.strategy.text}" }
  | some normalized =>
    let now ← ask (·.now)
    return .ok
      { strategy := config.strategy
        version := NAMING_STRATEGY_VERSION
        resolvedRemoteUsername := normalized
        resolvedDisplayName := raw
        selectionSource := .STRATEGY
        selectedAt := now
        sources :=
          { telegramId := parts.telegramId
            telegramUsername := order.username
            orderShort
            customText := if info.usesCustomText then config.customText else none
            representativePrefix :=
              if info.usesRepresentative then config.representativePrefix else none
            sequence, random } }

def resolveStrategy (order : NamingOrder) (panelId : ℕ) (config : NamingConfigSnapshot) :
    Namings (Except NamingError ResolvedVpnIdentity) := do
  let missing := validateNamingConfig config
  if missing ≠ [] then
    return .error
      { error := s!"naming config incomplete: {config.strategy.text} missing {missing.length} field(s)" }
  let info := USERNAME_STRATEGY_INFO config.strategy
  if ¬ info.usesSequence then
    resolveNumbered order config none
  else
    let sequence ← reserveSequence panelId info.usesRepresentative
    match sequence with
    | none => return .error { error := "panel not found" }
    | some n => resolveNumbered order config (some n)

/-- Resolves one order's remote identity, consuming its sequence and random parts. -/
def resolveVpnRemoteIdentity (order : NamingOrder) (panelId : ℕ) (config : NamingConfigSnapshot) :
    Namings (Except NamingError ResolvedVpnIdentity) :=
  let userSelected := jsTrim (config.userSelectedUsername.getD "")
  if userSelected ≠ "" then resolveUserSelected order config userSelected
  else resolveStrategy order panelId config

/-- Parses a stored snapshot back into an identity. -/
def parseNamingSnapshot : Option NamingJson → Option ResolvedVpnIdentity
  | some (.identity i) => if i.resolvedRemoteUsername = "" then none else some i
  | some .other | none => none

/-- Stores an identity where none is stored. -/
def freezeSnapshot (orderId : String) (identity : ResolvedVpnIdentity) : Namings ℕ :=
  update (.order orderId) fun
    | some row =>
      if row.namingSnapshot = none then
        some (some { row with namingSnapshot := some (.identity identity) })
      else none
    | none => none

/-- The exactly-once naming snapshot gate. -/
def ensureOrderNamingSnapshot (order : NamingOrder) (panelId : ℕ) (panel : NamingPanel)
    (checkoutCapturedConfig : Option NamingConfigSnapshot) :
    Namings (Except NamingError ResolvedVpnIdentity) := do
  match parseNamingSnapshot order.namingSnapshot with
  | some stored => return .ok stored
  | none =>
    let config := checkoutCapturedConfig.getD (namingConfigFromPanel panel)
    let resolved ← resolveVpnRemoteIdentity order panelId config
    match resolved with
    | .error e => return .error e
    | .ok identity =>
      let written ← freezeSnapshot order.id identity
      if written = 1 then
        return .ok identity
      let fresh ← select fun v => v.rows (.order order.id)
      match parseNamingSnapshot (fresh.bind (·.namingSnapshot)) with
      | some winner => return .ok winner
      | none => return .error { error := "naming snapshot race produced no snapshot" }

/-! ### Processes -/

/-- A call for an order: the order and the panel were read before. -/
structure EnsureCall where
  orderId : String
  panelId : ℕ
  checkoutCapturedConfig : Option NamingConfigSnapshot := none

def EnsureCall.run (call : EnsureCall) : Namings (Except NamingError ResolvedVpnIdentity) := do
  let order ← select fun v => v.rows (.order call.orderId)
  let panel ← select fun v => v.rows (.panel call.panelId)
  match order, panel with
  | some order, some panel =>
    ensureOrderNamingSnapshot { order with id := call.orderId } call.panelId panel
      call.checkoutCapturedConfig
  | _, _ => return .error { error := "order not found" }

/-- What else happens: an admin edits a panel, services and reservations come and go. -/
inductive NamingProcess
  | editPanel (id : ℕ) (row : Option NamingPanel)
  | putService (username : String) (row : Option (Option String))
  | putReservation (username : String) (row : Option (Option String))

def NamingProcess.program : NamingProcess → Namings Unit
  | .editPanel id row => sql fun _ => { result := (), writes := [⟨.panel id, row⟩] }
  | .putService username row => sql fun _ => { result := (), writes := [⟨.service username, row⟩] }
  | .putReservation username row =>
    sql fun _ => { result := (), writes := [⟨.activeReservation username, row⟩] }

end ZedBot.Naming
