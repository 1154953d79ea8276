import Mathlib.Data.Nat.Notation

/-! JSON texts: how they are read and how values are printed.

    The reader is an automaton over the characters: a stack of the arrays and objects that are
    open, and a mode that says what is being read. A text is JSON when the automaton ends with one
    complete value and nothing open. A number keeps the text it is written as; a surrogate that is
    escaped without its partner is read as U+FFFD.

        value ──▶ text, literal, number ──▶ complete ──▶ value (after a comma), or the closed
        array or object is complete -/

/-- A JSON value; the entries of an object in the order of the text. -/
inductive Json
  | null
  | bool (b : Bool)
  | number (literal : String)
  | string (s : String)
  | array (items : List Json)
  | object (entries : List (String × Json))

namespace Json

/-- The member of an object: of two entries with one key the later counts. -/
def member (entries : List (String × Json)) (key : String) : Option Json :=
  (entries.reverse.find? fun entry => entry.1 == key).map (·.2)

/-! ### Printing -/

def hexDigit (n : ℕ) : Char := if n < 10 then Char.ofNat (48 + n) else Char.ofNat (87 + n)

/-- A character inside quotes. -/
def escapeChar (c : Char) : List Char :=
  if c = '"' then ['\\', '"']
  else if c = '\\' then ['\\', '\\']
  else if c.toNat = 8 then ['\\', 'b']
  else if c.toNat = 9 then ['\\', 't']
  else if c.toNat = 10 then ['\\', 'n']
  else if c.toNat = 12 then ['\\', 'f']
  else if c.toNat = 13 then ['\\', 'r']
  else if c.toNat < 32 then ['\\', 'u', '0', '0', hexDigit (c.toNat / 16), hexDigit (c.toNat % 16)]
  else [c]

def quote (s : String) : List Char := '"' :: (s.toList.flatMap escapeChar ++ ['"'])

mutual

/-- The characters of `JSON.stringify`. -/
def print : Json → List Char
  | .null => ['n', 'u', 'l', 'l']
  | .bool true => ['t', 'r', 'u', 'e']
  | .bool false => ['f', 'a', 'l', 's', 'e']
  | .number literal => literal.toList
  | .string s => quote s
  | .array items => '[' :: (printItems items ++ [']'])
  | .object entries => '{' :: (printEntries entries ++ ['}'])

def printItems : List Json → List Char
  | [] => []
  | v :: vs => print v ++ printMoreItems vs

def printMoreItems : List Json → List Char
  | [] => []
  | v :: vs => ',' :: (print v ++ printMoreItems vs)

def printEntries : List (String × Json) → List Char
  | [] => []
  | (k, v) :: es => quote k ++ ':' :: (print v ++ printMoreEntries es)

def printMoreEntries : List (String × Json) → List Char
  | [] => []
  | (k, v) :: es => ',' :: (quote k ++ ':' :: (print v ++ printMoreEntries es))

end

/-- `JSON.stringify`. -/
def stringify (v : Json) : String := String.ofList (print v)

/-! ### Reading -/

def isSpace (c : Char) : Bool := c = ' ' ∨ c = '\t' ∨ c = '\n' ∨ c = '\r'

def isDigit (c : Char) : Bool := '0' ≤ c ∧ c ≤ '9'

def hexValue (c : Char) : Option ℕ :=
  if '0' ≤ c ∧ c ≤ '9' then some (c.toNat - 48)
  else if 'a' ≤ c ∧ c ≤ 'f' then some (c.toNat - 87)
  else if 'A' ≤ c ∧ c ≤ 'F' then some (c.toNat - 55)
  else none

/-- Digits, one at least. -/
def isDigits (cs : List Char) : Bool := cs ≠ [] ∧ cs.all isDigit

def dropSign (signs : List Char) : List Char → List Char
  | c :: cs => if c ∈ signs then cs else c :: cs
  | [] => []

/-- The exponent of a number, when there is one. -/
def isExponent : List Char → Bool
  | [] => true
  | c :: cs => (c = 'e' ∨ c = 'E') && isDigits (dropSign ['+', '-'] cs)

/-- The fraction and the exponent. -/
def isFraction : List Char → Bool
  | '.' :: cs => isDigits (cs.takeWhile isDigit) && isExponent (cs.dropWhile isDigit)
  | cs => isExponent cs

def isNumber (cs : List Char) : Bool :=
  let cs := dropSign ['-'] cs
  let whole := cs.takeWhile isDigit
  isDigits whole && (whole = ['0'] || whole.head? ≠ some '0') && isFraction (cs.dropWhile isDigit)

inductive Escape
  | plain
  | backslash
  | unicode (digits : List ℕ)
  deriving DecidableEq

/-- A string on its way; `high` is a high surrogate that was just escaped. -/
structure Text where
  chars : List Char := []
  high : Option ℕ := none
  escape : Escape := .plain
  deriving DecidableEq

/-- What stands for a surrogate without its partner. -/
def lone : Char := Char.ofNat 0xFFFD

/-- The characters, once no low surrogate follows. -/
def Text.flushed (t : Text) : List Char := if t.high.isSome then t.chars ++ [lone] else t.chars

def Text.add (t : Text) (c : Char) : Text := { chars := t.flushed ++ [c] }

/-- A code unit that was escaped. -/
def Text.addUnit (t : Text) (unit : ℕ) : Text :=
  if 0xD800 ≤ unit ∧ unit < 0xDC00 then { chars := t.flushed, high := some unit }
  else if 0xDC00 ≤ unit ∧ unit < 0xE000 then
    match t.high with
    | some high =>
      { chars := t.chars ++
          [Char.ofNat (0x10000 + (high - 0xD800) * 0x400 + (unit - 0xDC00))] }
    | none => t.add lone
  else t.add (Char.ofNat unit)

/-- A character after a backslash. -/
def Text.escaped (t : Text) (c : Char) : Option Text :=
  match c with
  | '"' | '\\' | '/' => some (t.add c)
  | 'b' => some (t.add (Char.ofNat 8))
  | 't' => some (t.add (Char.ofNat 9))
  | 'n' => some (t.add (Char.ofNat 10))
  | 'f' => some (t.add (Char.ofNat 12))
  | 'r' => some (t.add (Char.ofNat 13))
  | 'u' => some { t with escape := .unicode [] }
  | _ => none

/-- A hexadecimal digit of an escape. -/
def Text.digit (t : Text) (digits : List ℕ) (d : ℕ) : Text :=
  match digits with
  | [a, b, c] => t.addUnit (((a * 16 + b) * 16 + c) * 16 + d)
  | _ => { t with escape := .unicode (digits ++ [d]) }

/-- One more character, which is not a closing quote. -/
def Text.step (t : Text) (c : Char) : Option Text :=
  match t.escape with
  | .backslash => t.escaped c
  | .unicode digits => (hexValue c).map (t.digit digits)
  | .plain =>
    if c = '\\' then some { t with escape := .backslash }
    else if c.toNat < 32 then none
    else some (t.add c)

/-- An array or object that is open; of an object, the key whose value is being read. -/
inductive Frame
  | array (done : List Json)
  | object (done : List (String × Json)) (key : String)

inductive Mode
  /-- A value begins; right after a bracket the array may close. -/
  | value (mayClose : Bool)
  /-- A key begins; right after a brace the object may close. -/
  | key (done : List (String × Json)) (mayClose : Bool)
  | colon (done : List (String × Json)) (key : String)
  /-- A string is read; as a key, with the entries before it. -/
  | text (keyAfter : Option (List (String × Json))) (t : Text)
  | literal (rest : List Char) (v : Json)
  | number (chars : List Char)
  | complete (v : Json)

structure State where
  stack : List Frame
  mode : Mode

def start : State := ⟨[], .value false⟩

/-- A character where a value may begin. -/
def valueStep (stack : List Frame) (mayClose : Bool) (c : Char) : Option State :=
  if isSpace c then some ⟨stack, .value mayClose⟩
  else if isDigit c then some ⟨stack, .number [c]⟩
  else
    match c with
    | '-' => some ⟨stack, .number [c]⟩
    | '[' => some ⟨.array [] :: stack, .value true⟩
    | ']' =>
      match mayClose, stack with
      | true, .array done :: stack => some ⟨stack, .complete (.array done)⟩
      | _, _ => none
    | '{' => some ⟨stack, .key [] true⟩
    | '"' => some ⟨stack, .text none {}⟩
    | 'n' => some ⟨stack, .literal ['u', 'l', 'l'] .null⟩
    | 't' => some ⟨stack, .literal ['r', 'u', 'e'] (.bool true)⟩
    | 'f' => some ⟨stack, .literal ['a', 'l', 's', 'e'] (.bool false)⟩
    | _ => none

/-- A character after a value. -/
def completeStep (stack : List Frame) (v : Json) (c : Char) : Option State :=
  if isSpace c then some ⟨stack, .complete v⟩
  else
    match stack, c with
    | .array done :: stack, ',' => some ⟨.array (done ++ [v]) :: stack, .value false⟩
    | .array done :: stack, ']' => some ⟨stack, .complete (.array (done ++ [v]))⟩
    | .object done key :: stack, ',' => some ⟨stack, .key (done ++ [(key, v)]) false⟩
    | .object done key :: stack, '}' => some ⟨stack, .complete (.object (done ++ [(key, v)]))⟩
    | _, _ => none

/-- A character where a key may begin. -/
def keyStep (stack : List Frame) (done : List (String × Json)) (mayClose : Bool) (c : Char) :
    Option State :=
  if isSpace c then some ⟨stack, .key done mayClose⟩
  else if c = '"' then some ⟨stack, .text (some done) {}⟩
  else if c = '}' ∧ mayClose then some ⟨stack, .complete (.object done)⟩
  else none

def isNumberChar (c : Char) : Bool := isDigit c ∨ c ∈ ['+', '-', '.', 'e', 'E']

def step (s : State) (c : Char) : Option State :=
  match s.mode with
  | .value mayClose => valueStep s.stack mayClose c
  | .key done mayClose => keyStep s.stack done mayClose c
  | .colon done key =>
    if isSpace c then some s
    else if c = ':' then some ⟨.object done key :: s.stack, .value false⟩
    else none
  | .text keyAfter t =>
    if t.escape = .plain ∧ c = '"' then
      match keyAfter with
      | some done => some ⟨s.stack, .colon done (String.ofList t.flushed)⟩
      | none => some ⟨s.stack, .complete (.string (String.ofList t.flushed))⟩
    else (t.step c).map fun t => ⟨s.stack, .text keyAfter t⟩
  | .literal rest v =>
    match rest with
    | [] => none
    | [d] => if c = d then some ⟨s.stack, .complete v⟩ else none
    | d :: rest => if c = d then some ⟨s.stack, .literal rest v⟩ else none
  | .number chars =>
    if isNumberChar c then some ⟨s.stack, .number (chars ++ [c])⟩
    else if isNumber chars then completeStep s.stack (.number (String.ofList chars)) c
    else none
  | .complete v => completeStep s.stack v c

/-- The value of a text that has ended. -/
def finish (s : State) : Option Json :=
  match s.stack, s.mode with
  | [], .complete v => some v
  | [], .number chars => if isNumber chars then some (.number (String.ofList chars)) else none
  | _, _ => none

def run (s : State) (cs : List Char) : Option State := cs.foldlM step s

/-- `JSON.parse`; `none` where it throws. -/
def parse (text : String) : Option Json := (run start text.toList).bind finish

/-! ### Reading what was printed -/

theorem run_append (s : State) (a b : List Char) :
    run s (a ++ b) = (run s a).bind fun s => run s b := by
  simp only [run, List.foldlM_append]
  rfl

theorem run_cons (s : State) (c : Char) (cs : List Char) :
    run s (c :: cs) = (step s c).bind fun s => run s cs := by
  simp only [run, List.foldlM_cons]
  rfl

theorem run_nil (s : State) : run s [] = some s := rfl

theorem hexValue_hexDigit : ∀ d < 16, hexValue (hexDigit d) = some d := by decide

theorem hexDigit_ne_quote : ∀ d < 16, hexDigit d ≠ '"' := by decide

variable {stack : List Frame} {keyAfter : Option (List (String × Json))} {cs : List Char}

/-- A short escape is read as the character it stands for. -/
theorem run_short {d c : Char} (hd : ∀ t : Text, t.escaped d = some (t.add c)) :
    run ⟨stack, .text keyAfter { chars := cs }⟩ ['\\', d] =
      some ⟨stack, .text keyAfter { chars := cs ++ [c] }⟩ := by
  simp [run_cons, run_nil, step, Text.step, hd, Text.add, Text.flushed]

/-- An escaped character is read as itself. -/
theorem run_escapeChar (c : Char) :
    run ⟨stack, .text keyAfter { chars := cs }⟩ (escapeChar c) =
      some ⟨stack, .text keyAfter { chars := cs ++ [c] }⟩ := by
  have hchar {n : ℕ} (h : c.toNat = n) : Char.ofNat n = c := by rw [← h, Char.ofNat_toNat]
  unfold escapeChar
  split
  · next h => rw [run_short (c := c) fun t => by simp [Text.escaped, h]]
  split
  · next h => rw [run_short (c := c) fun t => by simp [Text.escaped, h]]
  split
  · next h => rw [run_short (c := c) fun t => by rw [← hchar h]; rfl]
  split
  · next h => rw [run_short (c := c) fun t => by rw [← hchar h]; rfl]
  split
  · next h => rw [run_short (c := c) fun t => by rw [← hchar h]; rfl]
  split
  · next h => rw [run_short (c := c) fun t => by rw [← hchar h]; rfl]
  split
  · next h => rw [run_short (c := c) fun t => by rw [← hchar h]; rfl]
  split
  · next h =>
    have hzero : hexValue '0' = some 0 := by decide
    have hhigh := hexValue_hexDigit (c.toNat / 16) (by omega)
    have hlow := hexValue_hexDigit (c.toNat % 16) (by omega)
    have hadd (t : Text) : t.addUnit c.toNat = t.add c := by
      rw [Text.addUnit, if_neg (by omega), if_neg (by omega), Char.ofNat_toNat]
    have hunit : c.toNat / 16 * 16 + c.toNat % 16 = c.toNat := by omega
    simp only [run_cons, run_nil, step, Text.step, Text.escaped, hzero, hhigh, hlow]
    simp [Text.digit, hunit, hadd, Text.add, Text.flushed]
  · next hquote hback _ _ _ _ _ h =>
    simp [run_cons, run_nil, step, Text.step, hquote, hback, h, Text.add, Text.flushed]

/-- RUN: and so are the characters of a string. -/
theorem run_escaped (text : List Char) :
    run ⟨stack, .text keyAfter { chars := cs }⟩ (text.flatMap escapeChar) =
      some ⟨stack, .text keyAfter { chars := cs ++ text }⟩ := by
  induction text generalizing cs with
  | nil => simp [run_nil]
  | cons c text ih =>
    rw [List.flatMap_cons, run_append, run_escapeChar, Option.bind_some, ih]
    simp

theorem run_quote (mayClose : Bool) (s : String) :
    run ⟨stack, .value mayClose⟩ (quote s) = some ⟨stack, .complete (.string s)⟩ := by
  have hopen : step ⟨stack, .value mayClose⟩ '"' = some ⟨stack, .text none {}⟩ := rfl
  rw [quote, run_cons, hopen, Option.bind_some, run_append, run_escaped]
  simp [run_cons, run_nil, step, Text.flushed]

theorem run_key (done : List (String × Json)) (mayClose : Bool) (key : String) :
    run ⟨stack, .key done mayClose⟩ (quote key ++ [':']) =
      some ⟨.object done key :: stack, .value false⟩ := by
  have hopen : step ⟨stack, .key done mayClose⟩ '"' = some ⟨stack, .text (some done) {}⟩ := rfl
  rw [quote, List.cons_append, run_cons, hopen, Option.bind_some, run_append, run_append,
    run_escaped]
  simp [run_cons, run_nil, step, Text.flushed, isSpace]

mutual

/-- No number occurs in the value. -/
def numberFree : Json → Bool
  | .number _ => false
  | .array items => numberFreeItems items
  | .object entries => numberFreeEntries entries
  | .null | .bool _ | .string _ => true

def numberFreeItems : List Json → Bool
  | [] => true
  | v :: vs => numberFree v && numberFreeItems vs

def numberFreeEntries : List (String × Json) → Bool
  | [] => true
  | (_, v) :: es => numberFree v && numberFreeEntries es

end

mutual

/-- A printed value is read as itself, whatever is open around it. -/
theorem run_print (stack : List Frame) (mayClose : Bool) :
    ∀ v : Json, numberFree v = true →
      run ⟨stack, .value mayClose⟩ (print v) = some ⟨stack, .complete v⟩
  | .null, _ => rfl
  | .bool true, _ => rfl
  | .bool false, _ => rfl
  | .number _, h => by cases h
  | .string s, _ => run_quote mayClose s
  | .array [], _ => rfl
  | .array (v :: vs), h => by
    have hv : numberFree v = true ∧ numberFreeItems vs = true := by
      simpa [numberFree, numberFreeItems] using h
    have hopen : step ⟨stack, .value mayClose⟩ '[' = some ⟨.array [] :: stack, .value true⟩ := rfl
    rw [print, printItems, run_cons, hopen, Option.bind_some, List.append_assoc, run_append,
      run_print _ true v hv.1, Option.bind_some, run_printMoreItems stack [] v vs hv.2]
    rfl
  | .object [], _ => rfl
  | .object ((k, v) :: es), h => by
    have hv : numberFree v = true ∧ numberFreeEntries es = true := by
      simpa [numberFree, numberFreeEntries] using h
    have hopen : step ⟨stack, .value mayClose⟩ '{' = some ⟨stack, .key [] true⟩ := rfl
    have hsplit : (quote k ++ ':' :: (print v ++ printMoreEntries es)) ++ ['}'] =
        (quote k ++ [':']) ++ (print v ++ (printMoreEntries es ++ ['}'])) := by simp
    rw [print, printEntries, run_cons, hopen, Option.bind_some, hsplit, run_append, run_key,
      Option.bind_some, run_append, run_print _ false v hv.1, Option.bind_some,
      run_printMoreEntries stack [] k v es hv.2]
    rfl

/-- The rest of an array, after its value `v`. -/
theorem run_printMoreItems (stack : List Frame) (done : List Json) (v : Json) :
    ∀ vs : List Json, numberFreeItems vs = true →
      run ⟨.array done :: stack, .complete v⟩ (printMoreItems vs ++ [']']) =
        some ⟨stack, .complete (.array (done ++ v :: vs))⟩
  | [], _ => rfl
  | w :: vs, h => by
    have hw : numberFree w = true ∧ numberFreeItems vs = true := by
      simpa [numberFreeItems] using h
    have hcomma : step ⟨.array done :: stack, .complete v⟩ ',' =
        some ⟨.array (done ++ [v]) :: stack, .value false⟩ := rfl
    rw [printMoreItems, List.cons_append, run_cons, hcomma, Option.bind_some, List.append_assoc,
      run_append, run_print _ false w hw.1, Option.bind_some,
      run_printMoreItems stack (done ++ [v]) w vs hw.2]
    simp

/-- The rest of an object, after its entry `(k, v)`. -/
theorem run_printMoreEntries (stack : List Frame) (done : List (String × Json)) (k : String)
    (v : Json) :
    ∀ es : List (String × Json), numberFreeEntries es = true →
      run ⟨.object done k :: stack, .complete v⟩ (printMoreEntries es ++ ['}']) =
        some ⟨stack, .complete (.object (done ++ (k, v) :: es))⟩
  | [], _ => rfl
  | (k', w) :: es, h => by
    have hw : numberFree w = true ∧ numberFreeEntries es = true := by
      simpa [numberFreeEntries] using h
    have hcomma : step ⟨.object done k :: stack, .complete v⟩ ',' =
        some ⟨stack, .key (done ++ [(k, v)]) false⟩ := rfl
    have hsplit : (quote k' ++ ':' :: (print w ++ printMoreEntries es)) ++ ['}'] =
        (quote k' ++ [':']) ++ (print w ++ (printMoreEntries es ++ ['}'])) := by simp
    rw [printMoreEntries, List.cons_append, run_cons, hcomma, Option.bind_some, hsplit, run_append,
      run_key, Option.bind_some, run_append, run_print _ false w hw.1, Option.bind_some,
      run_printMoreEntries stack (done ++ [(k, v)]) k' w es hw.2]
    simp

end

/-- ROUND TRIP: what was printed is parsed back. -/
theorem parse_stringify {v : Json} (h : numberFree v = true) : parse (stringify v) = some v := by
  rw [parse, stringify, String.toList_ofList, start, run_print _ _ v h]
  rfl

end Json
