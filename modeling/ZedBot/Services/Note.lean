import ZedBot.JsText
import ZedBot.TextLines

/-! The note that a customer may put on a service. -/

namespace ZedBot.Services

open JsText TextLines

/-- Maximum note length counted in Unicode code points. -/
def SERVICE_NOTE_MAX_CODE_POINTS : ℕ := 120

inductive ServiceNoteRejectReason where
  | TOO_LONG
  | CONTROL_OR_BIDI
  deriving DecidableEq, Repr

inductive ServiceNoteValidation where
  | ok (normalized : JsText)
  | rejected (reason : ServiceNoteRejectReason)
  deriving DecidableEq, Repr

/-- Bidi and invisible formatting code points. -/
def REJECTED_FORMAT_CODE_POINTS : List ℕ :=
  [0x200b, 0x200e, 0x200f, 0x202a, 0x202b, 0x202c, 0x202d, 0x202e, 0x2066, 0x2067, 0x2068, 0x2069,
    0x061c, 0xfeff]

/-- A C0 control other than a newline, or a C1 control. -/
def isControlCodePoint (cp : ℕ) : Bool :=
  (cp < 0x20 ∧ cp ≠ 0x0a) ∨ cp = 0x7f ∨ (0x80 ≤ cp ∧ cp ≤ 0x9f)

def lineSeparator : UInt16 := 0x2028

def paragraphSeparator : UInt16 := 0x2029

def tab : UInt16 := 0x9

/-- A carriage return, with the newline behind it if there is one, becomes a newline. -/
def crToLf : JsText → JsText
  | [] => []
  | [u] => if u = cr then [newline] else [u]
  | u :: v :: t =>
    if u = cr then
      if v = newline then newline :: crToLf t else newline :: crToLf (v :: t)
    else u :: crToLf (v :: t)

/-- Line breaks and tabs are unified. -/
def unify (raw : JsText) : JsText :=
  ((crToLf raw).map fun u => if u = lineSeparator ∨ u = paragraphSeparator then newline else u).map
    fun u => if u = tab then space else u

/-- Runs of spaces become one space, and the spaces at the end go. -/
def normalizeLine (line : JsText) : JsText := (capRuns space 1 0 line).rdropWhile (· = space)

def countCodePoints (value : JsText) : ℕ := (codePoints value).length

def normalizeServiceNote (raw : JsText) : ServiceNoteValidation :=
  let unified := unify raw
  if (codePoints unified).any fun cp => isControlCodePoint cp ∨ cp ∈ REJECTED_FORMAT_CODE_POINTS then
    .rejected .CONTROL_OR_BIDI
  else
    let normalized := trim isSpace
      (capRuns newline 2 0 (join newline ((lines newline unified).map normalizeLine)))
    if SERVICE_NOTE_MAX_CODE_POINTS < countCodePoints normalized then .rejected .TOO_LONG
    else .ok normalized

end ZedBot.Services
