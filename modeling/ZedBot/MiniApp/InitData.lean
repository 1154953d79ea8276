import ZedBot.JsText
import ZedBot.JsonMembers
import ZedBot.Schema
import ZedBot.TextLines
import Mathlib.Data.List.Sort

/-! # Init data of the Mini App

    A payload of pairs arrives percent-encoded, with a hash. The pairs but the hash, sorted by key
    and joined line by line, are what has been signed; the user is one of the values, a JSON text.

        k₁=v₁&k₂=v₂&…  ──decode──▶  pairs  ──sort, join──▶  check string  ──HMAC──▶  hash
                                      └──▶  auth_date, user  ──▶  id, profile -/

namespace ZedBot.MiniApp

def MINIAPP_INITDATA_MAX_BYTES : ℕ := 8 * 1024
def MINIAPP_INITDATA_DEFAULT_MAX_AGE_SECONDS : ℤ := 300
def MINIAPP_INITDATA_MAX_FUTURE_SKEW_SECONDS : ℤ := 30

abbrev Text := List Char

/-- A `Map` of strings, in the order of insertion. -/
abbrev Pairs := List (Text × Text)

inductive MiniAppInitDataFailure
  | EMPTY
  | TOO_LARGE
  | MALFORMED_ENCODING
  | DUPLICATE_KEY
  | MISSING_HASH
  | MALFORMED_HASH
  | MISSING_AUTH_DATE
  | MALFORMED_AUTH_DATE
  | EXPIRED
  | FUTURE_AUTH_DATE
  | MISSING_USER
  | MALFORMED_USER
  | BAD_SIGNATURE
  deriving DecidableEq

structure MiniAppInitDataUser where
  telegramId : ℤ
  firstName : String
  lastName : String
  username : String
  languageCode : String
  isBot : Bool
  deriving DecidableEq

/-- What is proved: the user, and when the payload was signed. -/
structure MiniAppInitData where
  user : MiniAppInitDataUser
  authDateSeconds : ℕ
  deriving DecidableEq

structure MiniAppInitDataOptions where
  botToken : Text
  maxAgeSeconds : Option ℤ
  nowSeconds : Option ℤ

/-! ### Decoding -/

/-- A character as it stands, or a byte that was percent-encoded. -/
inductive Octet
  | char (c : Char)
  | byte (b : ℕ)

def unescape : Text → Option (List Octet)
  | [] => some []
  | '%' :: a :: b :: rest =>
    match Json.hexValue a, Json.hexValue b with
    | some x, some y => (unescape rest).map (Octet.byte (16 * x + y) :: ·)
    | _, _ => none
  | '%' :: _ => none
  | c :: rest => (unescape rest).map (Octet.char c :: ·)

def isContinuation (b : ℕ) : Bool := 0x80 ≤ b ∧ b < 0xC0

/-- The code point of a lead's bits and of one continuation byte more. -/
def extend (bits b : ℕ) : ℕ := bits * 64 + (b - 0x80)

/-- The character of a code point of at least `least` that is no surrogate. -/
def charOf (least code : ℕ) : Option Char :=
  if least ≤ code ∧ code.isValidChar then some (Char.ofNat code) else none

/-- The bytes must be UTF-8, in its shortest form; `need` of a character are to come, and `bits`
    are those it has. -/
def utf8Decode (need bits least : ℕ) : List Octet → Option Text
  | [] => if need = 0 then some [] else none
  | .char c :: rest =>
    if need = 0 then (utf8Decode 0 0 0 rest).map (c :: ·) else none
  | .byte b :: rest =>
    if need = 0 then
      if b < 0x80 then (utf8Decode 0 0 0 rest).map (Char.ofNat b :: ·)
      else if b < 0xC0 then none
      else if b < 0xE0 then utf8Decode 1 (b - 0xC0) 0x80 rest
      else if b < 0xF0 then utf8Decode 2 (b - 0xE0) 0x800 rest
      else if b < 0xF8 then utf8Decode 3 (b - 0xF0) 0x10000 rest
      else none
    else if !isContinuation b then none
    else if need = 1 then
      match charOf least (extend bits b) with
      | some c => (utf8Decode 0 0 0 rest).map (c :: ·)
      | none => none
    else utf8Decode (need - 1) (extend bits b) least rest

def decodeURIComponent (raw : Text) : Option Text := (unescape raw).bind (utf8Decode 0 0 0)

def decodeComponent (raw : Text) : Option Text :=
  decodeURIComponent (raw.map fun c => if c = '+' then ' ' else c)

/-- A chunk with a key, decoded. -/
def decodePair (chunk : Text) : Option (Text × Text) :=
  match chunk.takeWhile (· ≠ '='), chunk.dropWhile (· ≠ '=') with
  | [], _ | _, [] => none
  | key, _ :: value =>
    match decodeComponent key, decodeComponent value with
    | some key, some value => some (key, value)
    | _, _ => none

def get (key : Text) (pairs : Pairs) : Option Text :=
  (pairs.find? fun pair => pair.1 == key).map Prod.snd

def parseChunks : List Text → Pairs → Except MiniAppInitDataFailure Pairs
  | [], pairs => .ok pairs
  | chunk :: chunks, pairs =>
    if chunk = [] then parseChunks chunks pairs
    else
      match decodePair chunk with
      | none => .error .MALFORMED_ENCODING
      | some pair =>
        if pairs.any fun other => other.1 == pair.1 then .error .DUPLICATE_KEY
        else parseChunks chunks (pairs ++ [pair])

def chunks (initData : Text) : List Text := TextLines.lines '&' initData

def parseStrict (initData : Text) : Except MiniAppInitDataFailure Pairs :=
  parseChunks (chunks initData) []

/-! ### The signed text -/

def hashKey : Text := "hash".toList
def authDateKey : Text := "auth_date".toList
def userKey : Text := "user".toList

/-- The order of `sort`: the key of `b` is not below that of `a`, by code units. -/
def sortedBefore (a b : Text × Text) : Prop := ¬ JsText.ofChars b.1 < JsText.ofChars a.1

instance : DecidableRel sortedBefore := fun _ _ => inferInstanceAs (Decidable (¬ _))

def line (pair : Text × Text) : Text := pair.1 ++ '=' :: pair.2

def buildBotTokenCheckString (pairs : Pairs) : Text :=
  TextLines.join '\n'
    (((pairs.filter fun pair => pair.1 != hashKey).insertionSort sortedBefore).map line)

/-- `HASH_PATTERN`. -/
def isHash (hash : Text) : Bool :=
  hash.length == 64 && hash.all fun c => Json.isDigit c || decide ('a' ≤ c ∧ c ≤ 'f')

/-- `Buffer.from(hash, "hex")`. -/
def fromHex : Text → List ℕ
  | a :: b :: rest =>
    match Json.hexValue a, Json.hexValue b with
    | some x, some y => (16 * x + y) :: fromHex rest
    | _, _ => []
  | _ => []

/-! ### The user -/

def digitsToNat (digits : Text) : ℕ := digits.foldl (fun n c => 10 * n + (c.toNat - 48)) 0

/-- The optional sign and the digits that a text begins with, one digit at least. -/
def signedDigits (text : Text) : Option Text :=
  let digits := (Json.dropSign ['-'] text).takeWhile Json.isDigit
  if digits = [] then none else some ((text.takeWhile (· = '-')).take 1 ++ digits)

/-- A match of `/"id"\s*:\s*(-?\d+)/` where the text begins: its group. -/
def matchId : Text → Option Text
  | '"' :: 'i' :: 'd' :: '"' :: rest =>
    match rest.dropWhile isJsSpace with
    | ':' :: rest => signedDigits (rest.dropWhile isJsSpace)
    | _ => none
  | _ => none

/-- `BigInt` of a sign and digits. -/
def bigInt : Text → ℤ
  | '-' :: digits => -(digitsToNat digits : ℤ)
  | digits => digitsToNat digits

def extractTelegramId (rawUserJson : Text) : Option ℤ :=
  match rawUserJson.tails.findSome? matchId with
  | none => none
  | some group => if 0 < bigInt group then some (bigInt group) else none

def readString (source : List (String × Json)) (key : String) : String :=
  match Json.member source key with
  | some (.string value) => value
  | _ => ""

def readIsBot (source : List (String × Json)) : Bool :=
  match Json.member source "is_bot" with
  | some (.bool value) => value
  | _ => false

def readUser (telegramId : ℤ) (source : List (String × Json)) : MiniAppInitDataUser where
  telegramId := telegramId
  firstName := readString source "first_name"
  lastName := readString source "last_name"
  username := readString source "username"
  languageCode := readString source "language_code"
  isBot := readIsBot source

/-! ### Validation -/

/-- `HMAC_SHA256` of a text under a key of bytes. -/
abbrev Hmac := List ℕ → Text → List ℕ

def secretKey (hmac : Hmac) (botToken : Text) : List ℕ :=
  hmac ("WebAppData".toList.map Char.toNat) botToken

/-- The digest that a payload must come with. -/
def signature (hmac : Hmac) (botToken : Text) (pairs : Pairs) : List ℕ :=
  hmac (secretKey hmac botToken) (buildBotTokenCheckString pairs)

def byteLength (text : Text) : ℕ := (text.map Char.utf8Size).sum

/-- The instant of `auth_date`. -/
def readAuthDate (rawAuthDate : Text) : Option ℕ :=
  if rawAuthDate.all Json.isDigit ∧ 1 ≤ rawAuthDate.length ∧ rawAuthDate.length ≤ 15 ∧
      isSafeInteger (digitsToNat rawAuthDate) ∧ 0 < digitsToNat rawAuthDate then
    some (digitsToNat rawAuthDate)
  else none

/-- The user of a payload whose signature and age are right. -/
def readPayload (rawUser : Text) (authDateSeconds : ℕ) :
    Except MiniAppInitDataFailure MiniAppInitData :=
  match extractTelegramId rawUser with
  | none => .error .MALFORMED_USER
  | some telegramId =>
    match Json.parse (String.ofList rawUser) with
    | some (.object source) =>
      .ok { user := readUser telegramId source, authDateSeconds := authDateSeconds }
    | _ => .error .MALFORMED_USER

/-- The checks on the pairs of a payload, in their order. -/
def validatePairs (hmac : Hmac) (options : MiniAppInitDataOptions) (clock : ℤ) (pairs : Pairs) :
    Except MiniAppInitDataFailure MiniAppInitData :=
  match get hashKey pairs with
  | none | some [] => .error .MISSING_HASH
  | some hash =>
    if !isHash hash then .error .MALFORMED_HASH
    else
      match get authDateKey pairs with
      | none | some [] => .error .MISSING_AUTH_DATE
      | some rawAuthDate =>
        match readAuthDate rawAuthDate with
        | none => .error .MALFORMED_AUTH_DATE
        | some authDateSeconds =>
          match get userKey pairs with
          | none | some [] => .error .MISSING_USER
          | some rawUser =>
            let now := options.nowSeconds.getD clock
            if fromHex hash ≠ signature hmac options.botToken pairs then .error .BAD_SIGNATURE
            else if now + MINIAPP_INITDATA_MAX_FUTURE_SKEW_SECONDS < authDateSeconds then
              .error .FUTURE_AUTH_DATE
            else if options.maxAgeSeconds.getD MINIAPP_INITDATA_DEFAULT_MAX_AGE_SECONDS <
                now - authDateSeconds then
              .error .EXPIRED
            else readPayload rawUser authDateSeconds

def validateMiniAppInitData (hmac : Hmac) (options : MiniAppInitDataOptions) (clock : ℤ)
    (initData : Text) : Except MiniAppInitDataFailure MiniAppInitData :=
  if initData = [] then .error .EMPTY
  else if MINIAPP_INITDATA_MAX_BYTES < byteLength initData then .error .TOO_LARGE
  else
    match parseStrict initData with
    | .error reason => .error reason
    | .ok pairs => validatePairs hmac options clock pairs

end ZedBot.MiniApp
