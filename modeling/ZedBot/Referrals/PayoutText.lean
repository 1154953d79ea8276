import ZedBot.Json
import ZedBot.Referrals.PayoutHistory
import ZedBot.Schema

/-! The payout windows from their stored text.

    The text is parsed, its entries are checked one by one, and the well-formed ones are merged into
    their union. `Date.parse` and `toISOString` are parameters: they invert each other on the
    instants that a date can represent, and `Date.parse` yields no other instants. -/

namespace ZedBot

/-- The instants of a JavaScript date. -/
def isRepresentable (ms : ℤ) : Bool := -8640000000000000 ≤ ms ∧ ms ≤ 8640000000000000

structure DateText (dateParse : String → Option ℤ) (toISOString : ℤ → String) : Prop where
  round_trip : ∀ ms, isRepresentable ms = true → dateParse (toISOString ms) = some ms
  representable : ∀ s ms, dateParse s = some ms → isRepresentable ms = true

/-- A window as it is stored and returned. -/
structure PayoutWindowText where
  fromIso : String
  toIso : Option String
  deriving DecidableEq, Repr

structure ParsedPayoutText where
  windows : List PayoutWindowText
  valid : Bool
  issues : List String
  deriving DecidableEq, Repr

section
variable (dateParse : String → Option ℤ) (toISOString : ℤ → String)

def readTo : Option Json → StoredTo
  | some .null => .null
  | some (.string s) => .date (dateParse s)
  | _ => .other

def readFrom : Option Json → Option ℤ
  | some (.string s) => dateParse s
  | _ => none

def readEntry : Json → StoredWindow
  | .object o =>
    .object (readFrom dateParse (Json.member o "from")) (readTo dateParse (Json.member o "to"))
  | _ => .nonObject

def readStored (raw : String) : StoredWindows :=
  if jsTrim raw = "" then .blank
  else match Json.parse raw with
    | none => .corruptJson
    | some (.array entries) => .array (entries.map (readEntry dateParse))
    | some _ => .notAnArray

def windowText (w : ReferralPayoutWindow) : PayoutWindowText :=
  ⟨toISOString w.fromMs, w.toMs.map toISOString⟩

/-- `parseReferralPayoutWindowsStrict`, on the stored text. -/
def parsePayoutText (raw : String) : ParsedPayoutText :=
  let parsed := parseReferralPayoutWindowsStrict (readStored dateParse raw)
  ⟨parsed.windows.map (windowText toISOString), parsed.valid, parsed.issues⟩

/-- `isWithinReferralPayoutWindows`, on the returned windows; an instant that is null or not finite
    is `none`. -/
def isWithinPayoutText (completedAt : Option ℤ) (windows : List PayoutWindowText) : Bool :=
  match completedAt with
  | none => false
  | some instant => windows.any fun w => match dateParse w.fromIso with
    | none => false
    | some f => decide (f ≤ instant) && match w.toIso with
      | none => true
      | some iso => (dateParse iso).any fun t => instant ≤ t

/-- `JSON.stringify` of the returned windows. -/
def stringifyPayoutText (windows : List PayoutWindowText) : String :=
  Json.stringify (.array (windows.map fun w =>
    .object [("from", .string w.fromIso), ("to", w.toIso.elim .null .string)]))

end

end ZedBot
