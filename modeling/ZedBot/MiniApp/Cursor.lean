import ZedBot.MiniApp.Session

/-! # Cursors of the Mini App

    A page ends with the sort key of its last row, sealed for the collection that it is of. What
    comes back is opened under the name of the collection that is asked for.

        c2 . base64url(iv, sealed(createdAtMs . id), tag)        AAD: c2.collection -/

namespace ZedBot.MiniApp

inductive CursorResource where
  | services
  | walletTransactions
  | supportTickets
  | supportMessages
  deriving DecidableEq

def CursorResource.name : CursorResource → Text
  | .services => "services".toList
  | .walletTransactions => "wallet-transactions".toList
  | .supportTickets => "support-tickets".toList
  | .supportMessages => "support-messages".toList

def CURSOR_VERSION : Text := "c2".toList
def IV_BYTES : ℕ := 12
def TAG_BYTES : ℕ := 16

structure KeysetCursor where
  createdAtMs : ℕ
  id : Text
  deriving DecidableEq

/-- `aes-256-gcm` under the cursor key: the sealed text has the length of the plain one, the tag has
    16 bytes, and what was sealed can be opened. -/
structure Gcm where
  encrypt : List UInt8 → List UInt8 → List UInt8 → List UInt8 × List UInt8
  decrypt : List UInt8 → List UInt8 → List UInt8 → List UInt8 → Option (List UInt8)
  encrypt_length : ∀ iv aad plain, (encrypt iv aad plain).1.length = plain.length
  tag_length : ∀ iv aad plain, (encrypt iv aad plain).2.length = TAG_BYTES
  decrypt_encrypt : ∀ iv aad plain,
    decrypt iv aad (encrypt iv aad plain).1 (encrypt iv aad plain).2 = some plain

/-- The additional data: version and collection. -/
def cursorAad (resource : CursorResource) : List UInt8 :=
  Utf8.encode (CURSOR_VERSION ++ '.' :: resource.name)

def KeysetCursor.plaintext (cursor : KeysetCursor) : List UInt8 :=
  Utf8.encode (Nat.toDigits 10 cursor.createdAtMs ++ '.' :: cursor.id)

variable (gcm : Gcm)

/-- The bytes that go out: nonce, sealed text and tag. -/
def cursorBytes (resource : CursorResource) (cursor : KeysetCursor) (iv : List UInt8) :
    List UInt8 :=
  let parts := gcm.encrypt iv (cursorAad resource) cursor.plaintext
  iv ++ (parts.1 ++ parts.2)

/-- `iv` are fresh random bytes. -/
def encodeCursor (resource : CursorResource) (cursor : KeysetCursor) (iv : List UInt8) : Text :=
  CURSOR_VERSION ++ '.' :: Base64.encode .base64url (cursorBytes gcm resource cursor iv)

/-- `/^[A-Za-z0-9_-]{1,512}$/`. -/
def isCursorBody (body : Text) : Bool :=
  body.all Base64.isUrlLetter && 1 ≤ body.length && body.length ≤ 512

/-- `/^[0-9a-fA-F-]{36}$/`. -/
def isCursorId (id : Text) : Bool :=
  id.length = 36 && id.all fun c => (Json.hexValue c).isSome || c = '-'

/-- The text before the first dot and the one behind it. -/
def splitDot (text : Text) : Option (Text × Text) :=
  match text.dropWhile (· ≠ '.') with
  | [] => none
  | _ :: rest => some (text.takeWhile (· ≠ '.'), rest)

/-- The key in an opened text. -/
def readKeyset (plaintext : Text) : Option KeysetCursor :=
  match splitDot plaintext with
  | none => none
  | some (rawMs, id) =>
    if !isExpiry rawMs then none
    else if !isSafeInteger (digitsToNat rawMs) ∨ digitsToNat rawMs = 0 then none
    else if !isCursorId id then none
    else some { createdAtMs := digitsToNat rawMs, id }

/-- The bytes of a string in the form of a cursor, opened for a collection. -/
def openCursor (raw : Text) (resource : CursorResource) : Option (List UInt8) :=
  match splitDot raw with
  | none => none
  | some (version, body) =>
    if Utf8.encode version ≠ Utf8.encode CURSOR_VERSION then none
    else if !isCursorBody body then none
    else
      let bytes := Base64.decode body
      if bytes.length ≤ IV_BYTES + TAG_BYTES then none
      else
        gcm.decrypt (bytes.take IV_BYTES) (cursorAad resource)
          ((bytes.drop IV_BYTES).take (bytes.length - TAG_BYTES - IV_BYTES))
          (bytes.drop (bytes.length - TAG_BYTES))

def decodeCursor (raw : Text) (resource : CursorResource) : Option KeysetCursor :=
  match openCursor gcm raw resource with
  | none => none
  | some plain => readKeyset (Utf8.decode plain)

/-- A cursor that was handed out. -/
structure Minted where
  resource : CursorResource
  cursor : KeysetCursor
  iv : List UInt8

/-- Rows have instants within the range of dates, and uuids. -/
structure KeysetCursor.Valid (cursor : KeysetCursor) : Prop where
  positive : 0 < cursor.createdAtMs
  date : cursor.createdAtMs < 10 ^ 15
  id : isCursorId cursor.id = true

variable {gcm} {raw text left right : Text} {resource resource' : CursorResource}
  {cursor : KeysetCursor} {iv : List UInt8}

/-! ### The plain text -/

theorem splitDot_append (h : '.' ∉ left) :
    splitDot (left ++ '.' :: right) = some (left, right) := by
  have hleft : ∀ c ∈ left, decide (c ≠ '.') = true := fun c hc =>
    decide_eq_true fun heq => h (heq ▸ hc)
  rw [splitDot, List.dropWhile_append_of_pos hleft, List.takeWhile_append_of_pos hleft]
  exact congrArg (fun t => some (t, right)) (List.append_nil _)

theorem of_splitDot (h : splitDot text = some (left, right)) : text = left ++ '.' :: right := by
  rw [splitDot] at h
  cases hdrop : text.dropWhile (· ≠ '.') with
  | nil =>
    rw [hdrop] at h
    cases h
  | cons c rest =>
    rw [hdrop] at h
    cases h
    have hnot := List.head?_dropWhile_not (fun c : Char => decide (c ≠ '.')) text
    rw [hdrop] at hnot
    have hc : c = '.' := by simpa using hnot
    exact List.takeWhile_append_dropWhile.symm.trans
      (congrArg (_ ++ ·) (hdrop.trans (congrArg (· :: right) hc)))

theorem readKeyset_plaintext (h : cursor.Valid) :
    readKeyset (Utf8.decode cursor.plaintext) = some cursor := by
  have hdate := h.date
  have hpos := h.positive
  have hsafe : isSafeInteger (cursor.createdAtMs : ℤ) = true := by
    refine decide_eq_true ⟨by omega, ?_⟩
    have hbound : (10 : ℕ) ^ 15 ≤ 9007199254740991 := by decide
    omega
  rw [KeysetCursor.plaintext, Utf8.decode_encode, readKeyset, splitDot_append (digits_no_dot _)]
  dsimp only
  rw [isExpiry_toDigits hdate, digitsToNat_toDigits, hsafe, h.id, if_neg (by decide),
    if_neg (by simp only [Bool.not_true, Bool.false_eq_true, false_or]; omega),
    if_neg (by decide)]

/-! ### The sealed bytes -/

theorem length_plaintext (h : cursor.Valid) :
    0 < cursor.plaintext.length ∧ cursor.plaintext.length ≤ 208 := by
  have hid : cursor.id.length = 36 := by
    have hid := h.id
    rw [isCursorId, Bool.and_eq_true, decide_eq_true_eq] at hid
    exact hid.1
  have hdigits : (Nat.toDigits 10 cursor.createdAtMs).length ≤ 15 :=
    (Nat.length_toDigits_le_iff (by decide) (by decide)).mpr h.date
  obtain ⟨hlower, hupper⟩ :=
    Utf8.length_encode (Nat.toDigits 10 cursor.createdAtMs ++ '.' :: cursor.id)
  rw [List.length_append, List.length_cons, hid] at hlower hupper
  rw [KeysetCursor.plaintext]
  omega

theorem length_cursorBytes (hiv : iv.length = IV_BYTES) :
    (cursorBytes gcm resource cursor iv).length =
      IV_BYTES + cursor.plaintext.length + TAG_BYTES := by
  rw [cursorBytes, List.length_append, List.length_append, gcm.encrypt_length, gcm.tag_length,
    hiv, Nat.add_assoc]

theorem isCursorBody_encode {bs : List UInt8} (hpos : 0 < bs.length) (hle : bs.length ≤ 300) :
    isCursorBody (Base64.encode .base64url bs) = true := by
  have hlength := Base64.length_encode_url bs
  have hlower : 1 ≤ (Base64.encode .base64url bs).length := by omega
  have hupper : (Base64.encode .base64url bs).length ≤ 512 := by omega
  rw [isCursorBody, List.all_eq_true.mpr fun c hc => Base64.isUrlLetter_of_mem hc,
    decide_eq_true hlower, decide_eq_true hupper]
  rfl

/-- What was sealed for a collection is opened for it. -/
theorem openCursor_encode (h : cursor.Valid) (hiv : iv.length = IV_BYTES) :
    openCursor gcm (encodeCursor gcm resource cursor iv) resource = some cursor.plaintext := by
  obtain ⟨hpos, hle⟩ := length_plaintext h
  have hlength : (cursorBytes gcm resource cursor iv).length =
      IV_BYTES + cursor.plaintext.length + TAG_BYTES := length_cursorBytes hiv
  have hlarge : ¬ (cursorBytes gcm resource cursor iv).length ≤ IV_BYTES + TAG_BYTES := by omega
  have hbody : isCursorBody (Base64.encode .base64url (cursorBytes gcm resource cursor iv)) =
      true := by
    refine isCursorBody_encode (by omega) ?_
    rw [hlength, IV_BYTES, TAG_BYTES]
    omega
  have hnonce : (cursorBytes gcm resource cursor iv).take IV_BYTES = iv := List.take_left' hiv
  have hrest : (cursorBytes gcm resource cursor iv).drop IV_BYTES =
      (gcm.encrypt iv (cursorAad resource) cursor.plaintext).1 ++
        (gcm.encrypt iv (cursorAad resource) cursor.plaintext).2 := List.drop_left' hiv
  have hsealed : (cursorBytes gcm resource cursor iv).length - TAG_BYTES - IV_BYTES =
      (gcm.encrypt iv (cursorAad resource) cursor.plaintext).1.length := by
    rw [gcm.encrypt_length]
    omega
  have htag : (cursorBytes gcm resource cursor iv).drop
      ((cursorBytes gcm resource cursor iv).length - TAG_BYTES) =
        (gcm.encrypt iv (cursorAad resource) cursor.plaintext).2 := by
    have hsplit : (cursorBytes gcm resource cursor iv).length - TAG_BYTES =
        IV_BYTES + (gcm.encrypt iv (cursorAad resource) cursor.plaintext).1.length := by
      rw [gcm.encrypt_length]
      omega
    rw [hsplit, ← List.drop_drop, hrest, List.drop_left]
  rw [openCursor, encodeCursor, splitDot_append (by decide)]
  dsimp only
  rw [if_neg (not_not_intro rfl), hbody, if_neg (by decide), Base64.decode_encode, if_neg hlarge,
    hnonce, htag, hrest, hsealed, List.take_left, gcm.decrypt_encrypt]

theorem name_inj (h : cursorAad resource = cursorAad resource') : resource = resource' := by
  have hnames := List.append_cancel_left (Utf8.encode_inj h)
  injection hnames with _ hnames
  cases resource <;> cases resource' <;> first | rfl | exact absurd hnames (by decide)

/-- Whoever cannot seal has only the cursors that were handed out: each is read back for its own
    collection, and what a collection reads was handed out for it. -/
theorem cursor_of_its_collection {minted : Minted → Prop}
    (hminted : ∀ m, minted m → m.cursor.Valid ∧ m.iv.length = IV_BYTES)
    (hforge : ∀ plain, openCursor gcm raw resource = some plain →
      ∃ m, minted m ∧ cursorAad m.resource = cursorAad resource ∧ m.cursor.plaintext = plain) :
    (∀ c, decodeCursor gcm raw resource = some c →
      ∃ m, minted m ∧ m.resource = resource ∧ m.cursor = c) ∧
    ∀ m, minted m →
      decodeCursor gcm (encodeCursor gcm m.resource m.cursor m.iv) m.resource = some m.cursor := by
  constructor
  · intro c hc
    rw [decodeCursor] at hc
    split at hc
    · cases hc
    · rename_i plain hplain
      obtain ⟨m, hm, haad, rfl⟩ := hforge plain hplain
      rw [readKeyset_plaintext (hminted m hm).1] at hc
      exact ⟨m, hm, name_inj haad, Option.some.inj hc⟩
  · intro m hm
    obtain ⟨hvalid, hiv⟩ := hminted m hm
    rw [decodeCursor, openCursor_encode hvalid hiv]
    exact readKeyset_plaintext hvalid

/-- A cipher that hides nothing, with a tag for the collection. -/
def gcmSample : Gcm where
  encrypt _ aad plain := (plain, List.replicate TAG_BYTES (UInt8.ofNat aad.length))
  decrypt _ aad text tag :=
    if tag = List.replicate TAG_BYTES (UInt8.ofNat aad.length) then some text else none
  encrypt_length _ _ _ := rfl
  tag_length _ _ _ := rfl
  decrypt_encrypt _ _ _ := if_pos rfl

def mintedSample : Minted :=
  ⟨.services, ⟨1700000000000, List.replicate 36 '0'⟩, List.replicate IV_BYTES 7⟩

def rawSample : Text :=
  encodeCursor gcmSample mintedSample.resource mintedSample.cursor mintedSample.iv

theorem cursor_of_its_collection_minted :
    decodeCursor gcmSample rawSample .services = some mintedSample.cursor ∧
      ∀ c, decodeCursor gcmSample rawSample .services = some c → c = mintedSample.cursor := by
  have hvalid : mintedSample.cursor.Valid := ⟨by decide, by decide, by decide +kernel⟩
  have hminted : ∀ m, m = mintedSample → m.cursor.Valid ∧ m.iv.length = IV_BYTES := by
    rintro m rfl
    exact ⟨hvalid, rfl⟩
  have hforge : ∀ plain, openCursor gcmSample rawSample .services = some plain →
      ∃ m, m = mintedSample ∧ cursorAad m.resource = cursorAad .services ∧
        m.cursor.plaintext = plain := by
    intro plain hplain
    have hopen : openCursor gcmSample rawSample .services = some mintedSample.cursor.plaintext :=
      openCursor_encode hvalid rfl
    exact ⟨mintedSample, rfl, rfl, Option.some.inj (hopen.symm.trans hplain)⟩
  have h := cursor_of_its_collection hminted hforge
  refine ⟨h.2 mintedSample rfl, fun c hc => ?_⟩
  obtain ⟨m, rfl, -, rfl⟩ := h.1 c hc
  rfl

end ZedBot.MiniApp
