import ZedBot.JsText
import ZedBot.TextLines

/-! The parsers of a pasted inventory.

    A paste is split into lines, and the lines into blocks: a line that is an email opens the block
    of an Apple ID, a line `---` separates the blocks of the other products. Each block becomes an
    item; any error rejects the whole paste. -/

namespace ZedBot.Stock.Inventory
open JsText TextLines

def INVENTORY_TOTAL_MAX_CHARS : ℕ := 200000
def INVENTORY_MAX_ITEMS : ℕ := 500
def INVENTORY_BLOCK_MAX_CHARS : ℕ := 4000

def INVENTORY_TOO_LONG_TEXT : JsText := ofString "حجم متن بیش از حد مجاز (200,000 کاراکتر) است."

def INVENTORY_EMPTY_TEXT : JsText := ofString "هیچ محتوایی در متن پیدا نشد."

def INVENTORY_TOO_MANY_TEXT : JsText := ofString "حداکثر 500 آیتم در هر مرحله قابل ثبت است."

structure InventoryItem where
  content : JsText
  boundaryEmail : Option JsText
  deriving DecidableEq

structure AppleIdInventoryItem where
  content : JsText
  boundaryEmail : JsText
  deriving DecidableEq

/-- The result of a parser whose items are of a type. -/
structure Result (Item : Type) where
  ok : Bool
  items : List Item
  invalidLineCount : ℕ
  warnings : List JsText
  errors : List JsText
  deriving DecidableEq

abbrev InventoryParseResult := Result InventoryItem
abbrev AppleIdInventoryResult := Result AppleIdInventoryItem

/-- A paste that is rejected for one reason. -/
def Result.rejected {Item : Type} (error : JsText) : Result Item :=
  { ok := false, items := [], invalidLineCount := 0, warnings := [], errors := [error] }

/-- The end of every parser: no item is kept beside an error. -/
def Result.close {Item : Type} (items : List Item) (invalidLineCount : ℕ)
    (warnings errors : List JsText) : Result Item :=
  if errors ≠ [] then { ok := false, items := [], invalidLineCount, warnings, errors }
  else { ok := true, items, invalidLineCount, warnings, errors }

/-! ### Emails -/

/-- `[A-Za-z0-9._%+-]`. -/
def isLocalUnit (u : UInt16) : Bool :=
  isLetter u || isDigit u || u ∈ [unit '.', unit '_', unit '%', unit '+', unit '-']

/-- `[A-Za-z0-9.-]`. -/
def isDomainUnit (u : UInt16) : Bool := isLetter u || isDigit u || u ∈ [unit '.', unit '-']

/-- `STRICT_EMAIL_PATTERN`: no class holds `@`, and the letters at the end hold no dot. -/
def isStrictEmail (t : JsText) : Bool :=
  match splitLast (unit '@') t with
  | none => false
  | some (account, domain) =>
    match splitLast (unit '.') domain with
    | none => false
    | some (host, tld) =>
      account ≠ [] && account.all isLocalUnit && host ≠ [] && host.all isDomainUnit &&
        2 ≤ tld.length && tld.all isLetter

/-- The rest of a line behind a label, a case-insensitive one. -/
def afterLabel (label line : JsText) : Option JsText :=
  if (line.take label.length).map lower = label then some (line.drop label.length) else none

/-- The group of `LABELED_EMAIL_PATTERN` in a trimmed line: its last unit is no space, so that `\s*`
    gives none back. -/
def labeledGroup (line : JsText) : Option JsText :=
  match (afterLabel (ofChars ['e', 'm', 'a', 'i', 'l']) line).or
      (afterLabel (ofChars ['ا', 'ی', 'م', 'ی', 'ل']) line) with
  | none => none
  | some rest =>
    match rest.dropWhile isSpace with
    | [] => none
    | colon :: rest =>
      let group := rest.dropWhile isSpace
      if colon ∈ [unit ':', unit '：'] ∧ group ≠ [] ∧ group.all (!isLineTerminator ·) then some group
      else none

/-- `\.[A-Za-z]{2,}` somewhere in a domain, behind a first unit. -/
def hasTld (domain : JsText) : Bool :=
  domain.tail.tails.any fun
    | dot :: first :: second :: _ => dot = unit '.' && isLetter first && isLetter second
    | _ => false

/-- `EMBEDDED_EMAIL_PATTERN`. -/
def hasEmbeddedEmail (line : JsText) : Bool :=
  line.tails.any fun
    | first :: at_ :: rest =>
      isLocalUnit first && at_ = unit '@' && hasTld (rest.takeWhile isDomainUnit)
    | _ => false

/-- `a***z@d***.tld`. -/
def maskEmail (email : JsText) : JsText :=
  let stars := ofChars ['*', '*', '*']
  match splitLast (unit '@') email with
  | none | some ([], _) => stars
  | some (account@(first :: _), domain) =>
    let localMasked :=
      if 2 ≤ account.length then first :: stars ++ account.getLast?.toList else account ++ stars
    let domainMasked :=
      match splitLast (unit '.') domain with
      | some (host@(_ :: _), tld) => host.head?.toList ++ stars ++ unit '.' :: tld
      | _ => domain.head?.toList ++ stars
    localMasked ++ unit '@' :: domainMasked

/-- The boundary email of a trimmed line. -/
def detectBoundaryEmail (trimmedLine : JsText) : Option JsText :=
  if isStrictEmail trimmedLine then some trimmedLine
  else
    match labeledGroup trimmedLine with
    | none => none
    | some group =>
      let address := trim isSpace group
      if isStrictEmail address then some address else none

/-! ### Lines -/

/-- `line.trim() === ""`. -/
def isBlank (line : JsText) : Bool := (trim isSpace line).isEmpty

/-- The lines of a paste without the blank ones at its ends. -/
def normalizedLines (raw : JsText) : List JsText :=
  ((lines newline (crlfToLf cr newline raw)).dropWhile isBlank).rdropWhile isBlank

/-- `lines.join("\n").trim()`. -/
def blockContent (ls : List JsText) : JsText := trim isSpace (join newline ls)

/-! ### Apple IDs -/

structure Block where
  boundaryEmail : JsText
  lines : List JsText
  deriving DecidableEq

/-- The loop over the lines; the current block is the last one. -/
structure Scan where
  blocks : List Block := []
  preBoundaryLineCount : ℕ := 0
  invalidLineCount : ℕ := 0
  embeddedEmailLineCount : ℕ := 0
  deriving DecidableEq

/-- `current.lines.push(line)`. -/
def pushLine (line : JsText) (blocks : List Block) : List Block :=
  blocks.modifyLast fun block => { block with lines := block.lines ++ [line] }

def scanLine (scan : Scan) (line : JsText) : Scan :=
  let trimmed := trim isSpace line
  match detectBoundaryEmail trimmed with
  | some boundaryEmail =>
    { scan with blocks := scan.blocks ++ [{ boundaryEmail, lines := [line] }] }
  | none =>
    if scan.blocks = [] then
      if trimmed ≠ [] then
        { scan with
          preBoundaryLineCount := scan.preBoundaryLineCount + 1
          invalidLineCount := scan.invalidLineCount + 1 }
      else scan
    else
      { scan with
        blocks := pushLine line scan.blocks
        embeddedEmailLineCount :=
          if trimmed ≠ [] ∧ hasEmbeddedEmail line then scan.embeddedEmailLineCount + 1
          else scan.embeddedEmailLineCount }

/-- The item of a block, or why it has none. -/
def blockItem (block : Block) : JsText ⊕ AppleIdInventoryItem :=
  let content := blockContent block.lines
  let masked := maskEmail block.boundaryEmail
  let hasBody := (block.lines.drop 1).any (!isBlank ·)
  if !hasBody then
    .inl (ofString "بلاک حساب " ++ masked ++ ofString " بعد از خط ایمیل هیچ محتوایی ندارد.")
  else if INVENTORY_BLOCK_MAX_CHARS < content.length then
    .inl (ofString "بلاک حساب " ++ masked ++ ofString " از حد مجاز " ++
      ofNat INVENTORY_BLOCK_MAX_CHARS ++ ofString " کاراکتر طولانی‌تر است.")
  else .inr { content, boundaryEmail := block.boundaryEmail }

def scanErrors (scan : Scan) : List JsText :=
  (if 0 < scan.preBoundaryLineCount then
    [ofNat scan.preBoundaryLineCount ++ ofString
      " خط قبل از اولین ایمیل قرار دارد؛ هر حساب باید با یک خط ایمیل شروع شود."] else []) ++
  (if scan.blocks = [] then [ofString "هیچ خط ایمیلی به‌عنوان شروع حساب پیدا نشد."] else []) ++
  (if INVENTORY_MAX_ITEMS < scan.blocks.length then [INVENTORY_TOO_MANY_TEXT] else [])

def scanWarnings (scan : Scan) : List JsText :=
  if 0 < scan.embeddedEmailLineCount then
    [ofNat scan.embeddedEmailLineCount ++
      ofString " خط دارای ایمیل در میان متن بود و به‌عنوان شروع حساب در نظر گرفته نشد."]
  else []

def parseAppleIdInventory (raw : JsText) : AppleIdInventoryResult :=
  if INVENTORY_TOTAL_MAX_CHARS < raw.length then .rejected INVENTORY_TOO_LONG_TEXT
  else if normalizedLines raw = [] then .rejected INVENTORY_EMPTY_TEXT
  else
    let scan := (normalizedLines raw).foldl scanLine {}
    let parsed := scan.blocks.map blockItem
    .close (parsed.filterMap Sum.getRight?) scan.invalidLineCount (scanWarnings scan)
      (scanErrors scan ++ parsed.filterMap Sum.getLeft?)

/-! ### Explicit separators -/

/-- `line.trim() === "---"`. -/
def isSeparator (line : JsText) : Bool := trim isSpace line = ofChars ['-', '-', '-']

/-- What a group of lines becomes: nothing, an error or an item. -/
def groupItem (index : ℕ) (blockLines : List JsText) : Option (JsText ⊕ InventoryItem) :=
  let content := blockContent blockLines
  if content = [] then none
  else if INVENTORY_BLOCK_MAX_CHARS < content.length then
    some (.inl (ofString "بلاک شماره " ++ ofNat (index + 1) ++ ofString " از حد مجاز " ++
      ofNat INVENTORY_BLOCK_MAX_CHARS ++ ofString " کاراکتر طولانی‌تر است."))
  else some (.inr { content, boundaryEmail := none })

def parseExplicitSeparatorInventory (raw : JsText) : InventoryParseResult :=
  if INVENTORY_TOTAL_MAX_CHARS < raw.length then .rejected INVENTORY_TOO_LONG_TEXT
  else if normalizedLines raw = [] then .rejected INVENTORY_EMPTY_TEXT
  else
    let blockLineGroups := (normalizedLines raw).splitOnP isSeparator
    let parsed := blockLineGroups.mapIdx groupItem
    let emptyBlockCount := parsed.countP Option.isNone
    let items := parsed.filterMap fun result => result.bind Sum.getRight?
    let tooLong := parsed.filterMap fun result => result.bind Sum.getLeft?
    .close items 0
      (if 0 < emptyBlockCount then
        [ofNat emptyBlockCount ++ ofString " بلاک خالی بین جداکننده‌ها نادیده گرفته شد."] else [])
      (tooLong ++ (if items = [] ∧ tooLong = [] then [INVENTORY_EMPTY_TEXT] else []) ++
        (if INVENTORY_MAX_ITEMS < items.length then [INVENTORY_TOO_MANY_TEXT] else []))

/-! ### Single lines -/

/-- One item a line; a line that is too long is counted and skipped. -/
def parseSingleLineInventory (raw : JsText) : InventoryParseResult :=
  if INVENTORY_TOTAL_MAX_CHARS < raw.length then .rejected INVENTORY_TOO_LONG_TEXT
  else
    -- A split at `\r?\n` is a split at the newlines behind the replacement.
    let trimmed := (trimmedLines isSpace newline (crlfToLf cr newline raw)).filter (· ≠ [])
    let invalidLineCount := trimmed.countP (INVENTORY_BLOCK_MAX_CHARS < ·.length)
    let items := (trimmed.filter (·.length ≤ INVENTORY_BLOCK_MAX_CHARS)).map fun line =>
      { content := line, boundaryEmail := none }
    .close items invalidLineCount
      (if 0 < invalidLineCount then
        [ofNat invalidLineCount ++
          ofString " خط طولانی‌تر از حد مجاز بود و نادیده گرفته شد."] else [])
      ((if items = [] then [INVENTORY_EMPTY_TEXT] else []) ++
        (if INVENTORY_MAX_ITEMS < items.length then [INVENTORY_TOO_MANY_TEXT] else []))

inductive OtherProductStockParser
  | EMAIL_BOUNDARY | EXPLICIT_SEPARATOR | SINGLE_LINE
  deriving DecidableEq

/-- An item of an Apple ID among the items of all products. -/
def AppleIdInventoryItem.toItem (item : AppleIdInventoryItem) : InventoryItem :=
  { content := item.content, boundaryEmail := some item.boundaryEmail }

def parseInventoryByParser (parser : OtherProductStockParser) (raw : JsText) :
    InventoryParseResult :=
  match parser with
  | .EMAIL_BOUNDARY =>
    let result := parseAppleIdInventory raw
    { result with items := result.items.map AppleIdInventoryItem.toItem }
  | .EXPLICIT_SEPARATOR => parseExplicitSeparatorInventory raw
  | .SINGLE_LINE => parseSingleLineInventory raw

end ZedBot.Stock.Inventory
