import Mathlib.Data.Int.Notation
import Mathlib.Data.List.Sort
import Mathlib.Tactic.Linarith

/-! The active windows of the referral payouts: how the stored list is parsed, and the two toggles
    that rewrite it.

    Instants are milliseconds. A stored value is given as what `JSON.parse` and `Date.parse` make of
    it, so that `JSON.stringify` of a window list is the array of its windows. -/

namespace ZedBot

/-- One interval during which payouts were switched on; `toMs = none` is still open. -/
structure ReferralPayoutWindow where
  fromMs : ℤ
  toMs : Option ℤ
  deriving DecidableEq, Repr

/-- The `to` of a stored window; a string that is no date is `date none`. -/
inductive StoredTo
  | null
  | date (ms : Option ℤ)
  | other
  deriving DecidableEq, Repr

/-- One element of the stored array. -/
inductive StoredWindow
  | nonObject
  | object (fromMs : Option ℤ) (closing : StoredTo)
  deriving DecidableEq, Repr

/-- The stored value: unset or blank, not JSON, not an array, or an array. -/
inductive StoredWindows
  | blank
  | corruptJson
  | notAnArray
  | array (entries : List StoredWindow)
  deriving DecidableEq, Repr

structure ParsedReferralPayoutWindows where
  windows : List ReferralPayoutWindow
  valid : Bool
  issues : List String
  deriving DecidableEq, Repr

/-! ### The strict parser -/

/-- One stored window, or the code of what is wrong with it. -/
def checkWindow : StoredWindow → Except String ReferralPayoutWindow
  | .nonObject => .error "non-object-window"
  | .object none _ => .error "invalid-from"
  | .object (some f) .null => .ok ⟨f, none⟩
  | .object (some f) (.date (some t)) =>
    if t ≤ f then .error "reversed-interval" else .ok ⟨f, some t⟩
  | .object (some _) _ => .error "malformed-to"

def addIssue (issues : List String) (code : String) : List String :=
  if code ∈ issues then issues else issues ++ [code]

/-- The well-formed windows, in the stored order. -/
def cleanWindows (entries : List StoredWindow) : List ReferralPayoutWindow :=
  entries.filterMap fun e => (checkWindow e).toOption

def entryIssues (entries : List StoredWindow) : List String :=
  entries.foldl (fun issues e => match checkWindow e with
    | .error code => addIssue issues code
    | .ok _ => issues) []

/-- `w` starts before `last` has ended. -/
def overlapsLast (last w : ReferralPayoutWindow) : Bool :=
  match last.toMs with
  | none => true
  | some t => w.fromMs ≤ t

/-- The last window, extended to the end of `w`. -/
def extendLast (last w : ReferralPayoutWindow) : ReferralPayoutWindow :=
  match last.toMs, w.toMs with
  | none, _ => last
  | some _, none => { last with toMs := none }
  | some t, some u => if t < u then { last with toMs := some u } else last

/-- Merge overlaps into their union, `last` being the last window so far. -/
def mergeWindows (last : ReferralPayoutWindow) :
    List ReferralPayoutWindow → List ReferralPayoutWindow
  | [] => [last]
  | w :: ws =>
    if overlapsLast last w then mergeWindows (extendLast last w) ws else last :: mergeWindows w ws

/-- Some window starts before the one merged so far has ended. -/
def overlapping (last : ReferralPayoutWindow) : List ReferralPayoutWindow → Bool
  | [] => false
  | w :: ws => if overlapsLast last w then true else overlapping w ws

/-- The union of windows that are sorted by their start. -/
def mergeSorted : List ReferralPayoutWindow → List ReferralPayoutWindow
  | [] => []
  | w :: ws => mergeWindows w ws

def sortWindows (ws : List ReferralPayoutWindow) : List ReferralPayoutWindow :=
  ws.mergeSort fun a b => a.fromMs ≤ b.fromMs

/-- Parses the stored list, fail-closed. -/
def parseReferralPayoutWindowsStrict : StoredWindows → ParsedReferralPayoutWindows
  | .blank => ⟨[], true, []⟩
  | .corruptJson => ⟨[], false, ["corrupt-json"]⟩
  | .notAnArray => ⟨[], false, ["not-an-array"]⟩
  | .array entries =>
    let clean := cleanWindows entries
    let issues := entryIssues entries
    if 1 < (clean.filter fun w => w.toMs = none).length then
      ⟨[], false, addIssue issues "multiple-open-windows"⟩
    else
      let sorted := sortWindows clean
      let overlap := match sorted with
        | [] => false
        | w :: ws => overlapping w ws
      { windows := mergeSorted sorted
        valid := clean.length = entries.length
        issues := if overlap then addIssue issues "overlapping-windows" else issues }

/-- An order completed inside an active window. -/
def isWithinReferralPayoutWindows (completedAt : ℤ) (windows : List ReferralPayoutWindow) : Bool :=
  windows.any fun w => decide (w.fromMs ≤ completedAt) && match w.toMs with
    | none => true
    | some t => decide (completedAt ≤ t)

/-- Opens a new window unless one is already open. -/
def openReferralPayoutWindow (windows : List ReferralPayoutWindow) (now : ℤ) :
    List ReferralPayoutWindow :=
  if windows.any fun w => w.toMs = none then windows else windows ++ [⟨now, none⟩]

/-- Closes the first open window. -/
def closeReferralPayoutWindow (now : ℤ) : List ReferralPayoutWindow → List ReferralPayoutWindow
  | [] => []
  | w :: ws =>
    if w.toMs = none then ⟨w.fromMs, some now⟩ :: ws else w :: closeReferralPayoutWindow now ws

/-! ### The settings and their toggles -/

/-- The three settings rows; `none` and `blank` are unset. -/
structure ReferralPayoutSettings where
  systemEnabled : Option Bool := none
  windows : StoredWindows := .blank
  commissionsStartedAt : Option ℤ := none
  deriving DecidableEq, Repr

def ReferralPayoutSettings.isEnabled (s : ReferralPayoutSettings) : Bool :=
  s.systemEnabled = some true

def stringifyTo : Option ℤ → StoredTo
  | none => .null
  | some t => .date (some t)

def stringifyWindow (w : ReferralPayoutWindow) : StoredWindow :=
  .object (some w.fromMs) (stringifyTo w.toMs)

/-- `JSON.stringify` of a window list. -/
def stringifyWindows (windows : List ReferralPayoutWindow) : StoredWindows :=
  .array (windows.map stringifyWindow)

/-- The current window list, with a single open window from the horizon where none is stored. -/
def getReferralPayoutWindows (s : ReferralPayoutSettings) : List ReferralPayoutWindow :=
  let parsed := parseReferralPayoutWindowsStrict s.windows
  if ¬ parsed.valid then parsed.windows
  else if parsed.windows ≠ [] then parsed.windows
  else match s.commissionsStartedAt with
    | none => []
    | some h => [⟨h, none⟩]

def enableReferralPayouts (now : ℤ) (s : ReferralPayoutSettings) : ReferralPayoutSettings :=
  let s := { s with commissionsStartedAt := s.commissionsStartedAt.or (some now) }
  { s with
    windows := stringifyWindows (openReferralPayoutWindow (getReferralPayoutWindows s) now)
    systemEnabled := some true }

def disableReferralPayouts (now : ℤ) (s : ReferralPayoutSettings) : ReferralPayoutSettings :=
  if s.isEnabled then
    { s with
      windows := stringifyWindows (closeReferralPayoutWindow now (getReferralPayoutWindows s))
      systemEnabled := some false }
  else s

/-- One committed toggle. -/
structure PayoutToggle where
  on : Bool
  now : ℤ
  deriving DecidableEq, Repr

def PayoutToggle.run (s : ReferralPayoutSettings) (t : PayoutToggle) : ReferralPayoutSettings :=
  if t.on then enableReferralPayouts t.now s else disableReferralPayouts t.now s

/-- The settings after a history of toggles, from an unset store. -/
def afterToggles (ts : List PayoutToggle) : ReferralPayoutSettings := ts.foldl PayoutToggle.run {}

end ZedBot
