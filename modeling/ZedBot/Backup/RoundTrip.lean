import ZedBot.Backup.Envelope
import Mathlib.Data.List.Basic

/-! # What is written is read back, and nothing else is read

    Under an authenticated cipher the reader finds in a written file the salt, the nonce, the
    ciphertext and the tag that the writer put there, however either of them cuts what it
    reads. A file whose parts are read as these four is the written file: any other is refused.
    The file of an empty plaintext has no ciphertext, and the reader refuses it as too short. -/

namespace ZedBot.Backup

variable {Key : Type} (crypto : Crypto Key)

def ciphertextOf (key : Key) (nonce plaintext : Bytes) : Bytes :=
  crypto.cipher.output (crypto.createCipheriv key nonce) plaintext

def tagOf (key : Key) (nonce plaintext : Bytes) : Bytes :=
  crypto.getAuthTag (crypto.cipher.update (crypto.createCipheriv key nonce) plaintext).1

/-- A streaming cipher that keeps lengths, with tags of sixteen bytes, and its inverse. -/
structure Crypto.Inverts : Prop where
  cipher_streams : crypto.cipher.Streams
  decipher_streams : crypto.decipher.Streams
  ciphertext_length : ∀ key nonce plaintext,
    (ciphertextOf crypto key nonce plaintext).length = plaintext.length
  tag_length : ∀ key nonce plaintext,
    (tagOf crypto key nonce plaintext).length = BACKUP_ENVELOPE_TAG_BYTES
  decrypts : ∀ key nonce plaintext,
    crypto.decipher.output (crypto.createDecipheriv key nonce)
      (ciphertextOf crypto key nonce plaintext) = plaintext

/-- Exact authentication of one encryption: its key, nonce, ciphertext and tag pass, and no
    others do. -/
def Crypto.Authenticates (key : Key) (nonce plaintext : Bytes) : Prop :=
  ∀ key' nonce' ciphertext tag,
    crypto.accepts (crypto.decipher.update (crypto.createDecipheriv key' nonce') ciphertext).1
        tag = true ↔
      key' = key ∧ nonce' = nonce ∧ ciphertext = ciphertextOf crypto key nonce plaintext ∧
        tag = tagOf crypto key nonce plaintext

/-- scrypt gives this key to no other password and salt. -/
def Crypto.DerivesOnce (password : String) (salt : Bytes) : Prop :=
  ∀ password' salt',
    deriveBackupKey crypto password' salt' = deriveBackupKey crypto password salt →
      password' = password ∧ salt' = salt

/-- The bytes of an envelope. -/
def envelope (salt nonce ciphertext tag : Bytes) : Bytes :=
  headerBytes salt nonce ++ ciphertext ++ tag

/-- The file written for a plaintext. -/
def envelopeOf (password : String) (fresh : Fresh) (plaintext : Bytes) : Bytes :=
  envelope fresh.salt fresh.nonce
    (ciphertextOf crypto (deriveBackupKey crypto password fresh.salt) fresh.nonce plaintext)
    (tagOf crypto (deriveBackupKey crypto password fresh.salt) fresh.nonce plaintext)

/-! ### Writing -/

theorem flatten_filter_length (pieces : List Bytes) :
    (pieces.filter fun piece => decide (0 < piece.length)).flatten = pieces.flatten := by
  induction pieces with
  | nil => rfl
  | cons piece pieces ih =>
    rcases piece with _ | ⟨b, piece⟩
    · simpa using ih
    · simp [ih]

theorem flatten_final (finalChunk : Bytes) :
    (if 0 < finalChunk.length then [finalChunk] else []).flatten = finalChunk := by
  split_ifs with h
  · simp
  · simp [List.length_eq_zero_iff.mp (Nat.eq_zero_of_not_pos h)]

/-- However the source is cut, the stream is header, ciphertext and tag. -/
theorem zbk1Stream_flatten (h : crypto.Inverts) (password : String) (fresh : Fresh)
    (cut : Cutting) (plaintext : Bytes) :
    (zbk1Stream crypto (cut.chunks plaintext)
        (createBackupEncryptor crypto password fresh)).flatten =
      envelopeOf crypto password fresh plaintext := by
  have hstate := h.cipher_streams.feed_state (cut.chunks plaintext)
    (crypto.createCipheriv (deriveBackupKey crypto password fresh.salt) fresh.nonce)
  have houtput := h.cipher_streams.feed_output (cut.chunks plaintext)
    (crypto.createCipheriv (deriveBackupKey crypto password fresh.salt) fresh.nonce)
  rw [cut.whole] at hstate houtput
  rw [zbk1Stream, createBackupEncryptor]
  simp only [List.flatten_append, flatten_filter_length, flatten_final, List.flatten_singleton]
  rw [envelopeOf, envelope, ciphertextOf, tagOf, ← houtput, ← hstate, List.append_assoc
    (headerBytes _ _)]

theorem headerBytes_length {salt nonce : Bytes}
    (hsalt : salt.length = BACKUP_ENVELOPE_SALT_BYTES)
    (hnonce : nonce.length = BACKUP_ENVELOPE_NONCE_BYTES) :
    (headerBytes salt nonce).length = BACKUP_ENVELOPE_HEADER_BYTES := by
  simp [headerBytes, hsalt, hnonce, BACKUP_ENVELOPE_HEADER_BYTES]
  omega

/-! ### The parts of a file -/

theorem take_one_of_getD {l : Bytes} {i : ℕ} (h : i < l.length) :
    (l.drop i).take 1 = [l.getD i 0] := by
  rw [List.drop_eq_getElem_cons h, List.take_succ_cons, List.take_zero,
    List.getD_eq_getElem?_getD, List.getElem?_eq_getElem h, Option.getD_some]

/-- A header that parses is made of its salt and its nonce. -/
theorem head_of_parse {head : Bytes} {header : BackupEnvelopeHeader}
    (hlength : head.length = BACKUP_ENVELOPE_HEADER_BYTES)
    (hparse : parseBackupEnvelopeHeader head = .ok header) :
    head = headerBytes header.salt header.nonce ∧
      header.dataStart = BACKUP_ENVELOPE_HEADER_BYTES := by
  have h33 : head.length = 33 := hlength
  rw [parseBackupEnvelopeHeader] at hparse
  dsimp only at hparse
  split_ifs at hparse with hshort hmagic hversion
  rw [not_not] at hmagic hversion
  obtain rfl := Except.ok.inj hparse
  refine ⟨?_, rfl⟩
  have hfive : head.take 5 = BACKUP_ENVELOPE_MAGIC ++ [BACKUP_ENVELOPE_VERSION] := by
    rw [show 5 = 4 + 1 from rfl, List.take_add, hmagic, take_one_of_getD (by omega), hversion]
  have hsalt : head.take 21 = head.take 5 ++ (head.drop 5).take 16 := by
    rw [show 21 = 5 + 16 from rfl, List.take_add]
  have hnonce : head.take 33 = head.take 21 ++ (head.drop 21).take 12 := by
    rw [show 33 = 21 + 12 from rfl, List.take_add]
  rw [List.take_of_length_le (by omega), hsalt, hfive] at hnonce
  exact hnonce

/-- The parts that a reader finds in a long enough file with a good header put the file
    together again. -/
theorem envelope_of_parse {content : Bytes} {header : BackupEnvelopeHeader}
    (hsize : BACKUP_ENVELOPE_HEADER_BYTES + BACKUP_ENVELOPE_TAG_BYTES + 1 ≤ content.length)
    (hparse : parseBackupEnvelopeHeader (readHead content BACKUP_ENVELOPE_HEADER_BYTES) =
      .ok header) :
    content = envelope header.salt header.nonce
      (readRange content header.dataStart (content.length - BACKUP_ENVELOPE_TAG_BYTES - 1))
      (readAuthTag content content.length) := by
  have h50 : 50 ≤ content.length := hsize
  have hlength : (readHead content BACKUP_ENVELOPE_HEADER_BYTES).length =
      BACKUP_ENVELOPE_HEADER_BYTES := by
    rw [readHead, List.length_take, Nat.min_eq_left (Nat.le_trans (Nat.le_add_right _ 17) hsize)]
  obtain ⟨hhead, hstart⟩ := head_of_parse hlength hparse
  have hrange : readRange content header.dataStart
      (content.length - BACKUP_ENVELOPE_TAG_BYTES - 1) =
        (content.drop 33).take (content.length - 49) := by
    have hcount : content.length - 16 - 1 + 1 - 33 = content.length - 49 := by omega
    rw [readRange, hstart]
    exact congrArg (fun n => (content.drop 33).take n) hcount
  have htag : readAuthTag content content.length = content.drop (content.length - 16) :=
    List.take_of_length_le (by
      rw [List.length_drop]
      exact Nat.le_of_eq (Nat.sub_sub_self (by omega : 16 ≤ content.length)))
  rw [envelope, ← hhead, hrange, htag]
  calc content = content.take (33 + (content.length - 49)) ++
        content.drop (content.length - 16) := by
          rw [show 33 + (content.length - 49) = content.length - 16 by omega,
            List.take_append_drop]
    _ = _ := by
          rw [List.take_add]
          rfl

/-- In a file put together from its parts the reader finds these parts. -/
theorem parse_envelope {salt nonce : Bytes} (ciphertext tag : Bytes)
    (hsalt : salt.length = BACKUP_ENVELOPE_SALT_BYTES)
    (hnonce : nonce.length = BACKUP_ENVELOPE_NONCE_BYTES) :
    parseBackupEnvelopeHeader
        (readHead (envelope salt nonce ciphertext tag) BACKUP_ENVELOPE_HEADER_BYTES) =
      .ok { version := BACKUP_ENVELOPE_VERSION, salt, nonce,
            dataStart := BACKUP_ENVELOPE_HEADER_BYTES } := by
  have hlength := headerBytes_length hsalt hnonce
  have hhead : readHead (envelope salt nonce ciphertext tag) BACKUP_ENVELOPE_HEADER_BYTES =
      headerBytes salt nonce := by
    rw [readHead, envelope, List.append_assoc, ← hlength, List.take_left]
  have hsalted : ((headerBytes salt nonce).drop 5).take BACKUP_ENVELOPE_SALT_BYTES = salt := by
    change (salt ++ nonce).take BACKUP_ENVELOPE_SALT_BYTES = salt
    rw [← hsalt, List.take_left]
  have hnonced : ((headerBytes salt nonce).drop (5 + BACKUP_ENVELOPE_SALT_BYTES)).take
      BACKUP_ENVELOPE_NONCE_BYTES = nonce := by
    rw [← List.drop_drop]
    change ((salt ++ nonce).drop BACKUP_ENVELOPE_SALT_BYTES).take
      BACKUP_ENVELOPE_NONCE_BYTES = nonce
    rw [← hsalt, List.drop_left, ← hnonce, List.take_length]
  rw [hhead, parseBackupEnvelopeHeader, if_neg (by omega), if_neg (by rw [not_not]; rfl)]
  dsimp only
  rw [if_neg (by rw [not_not]; rfl), hsalted, hnonced]
  rfl

theorem range_envelope {salt nonce ciphertext tag : Bytes}
    (hsalt : salt.length = BACKUP_ENVELOPE_SALT_BYTES)
    (hnonce : nonce.length = BACKUP_ENVELOPE_NONCE_BYTES)
    (htag : tag.length = BACKUP_ENVELOPE_TAG_BYTES) (hne : ciphertext ≠ []) :
    readRange (envelope salt nonce ciphertext tag) BACKUP_ENVELOPE_HEADER_BYTES
        ((envelope salt nonce ciphertext tag).length - BACKUP_ENVELOPE_TAG_BYTES - 1) =
      ciphertext := by
  have hlength := headerBytes_length hsalt hnonce
  have hpos : 0 < ciphertext.length := List.length_pos_iff.mpr hne
  have hcount : (envelope salt nonce ciphertext tag).length - BACKUP_ENVELOPE_TAG_BYTES - 1 + 1 -
      BACKUP_ENVELOPE_HEADER_BYTES = ciphertext.length := by
    rw [envelope, List.length_append, List.length_append, hlength, htag]
    omega
  rw [readRange, hcount, envelope, List.append_assoc, ← hlength, List.drop_left, List.take_left]

theorem tag_envelope {salt nonce ciphertext tag : Bytes}
    (htag : tag.length = BACKUP_ENVELOPE_TAG_BYTES) :
    readAuthTag (envelope salt nonce ciphertext tag)
      (envelope salt nonce ciphertext tag).length = tag := by
  have hcount : (envelope salt nonce ciphertext tag).length - BACKUP_ENVELOPE_TAG_BYTES =
      (headerBytes salt nonce ++ ciphertext).length := by
    rw [envelope, List.length_append, htag, Nat.add_sub_cancel]
  rw [readAuthTag, hcount, envelope, List.drop_left, ← htag, List.take_length]

theorem envelope_length {salt nonce ciphertext tag : Bytes}
    (hsalt : salt.length = BACKUP_ENVELOPE_SALT_BYTES)
    (hnonce : nonce.length = BACKUP_ENVELOPE_NONCE_BYTES)
    (htag : tag.length = BACKUP_ENVELOPE_TAG_BYTES) :
    (envelope salt nonce ciphertext tag).length =
      BACKUP_ENVELOPE_HEADER_BYTES + ciphertext.length + BACKUP_ENVELOPE_TAG_BYTES := by
  rw [envelope, List.length_append, List.length_append, headerBytes_length hsalt hnonce, htag]

/-! ### Reading -/

/-- The decipher, whatever the cutting: the plaintext where the tag is accepted. -/
theorem decipherStream_eq (h : crypto.Inverts) (cut : Cutting) (text : Bytes)
    (decipher : crypto.decipher.State) (authTag : Bytes) :
    decipherStream crypto (cut.chunks text) decipher authTag =
      if crypto.accepts (crypto.decipher.update decipher text).1 authTag then
        .ok (crypto.decipher.output decipher text)
      else .error .authenticationFailed := by
  have hstate := h.decipher_streams.feed_state (cut.chunks text) decipher
  have houtput := h.decipher_streams.feed_output (cut.chunks text) decipher
  rw [cut.whole] at hstate houtput
  rw [hstate] at houtput
  simp only [decipherStream, hstate, houtput]

variable {crypto}

/-- What a file must be to be read: long enough, and made of the four parts of the one
    encryption. -/
theorem authentic_of_decrypt {files files' : Files} {path plain password password' : String}
    {fresh : Fresh} {cut : Cutting} {plaintext content : Bytes} (h : crypto.Inverts)
    (hauth : crypto.Authenticates (deriveBackupKey crypto password fresh.salt) fresh.nonce
      plaintext)
    (honce : crypto.DerivesOnce password fresh.salt) (hcontent : files path = some content)
    (hread : decryptBackupToFile crypto files path plain password' cut = .ok files') :
    content = envelopeOf crypto password fresh plaintext ∧ password' = password := by
  rw [decryptBackupToFile, hcontent] at hread
  dsimp only at hread
  split_ifs at hread with hshort
  split at hread
  · cases hread
  · rename_i header hparse
    rw [decipherStream_eq crypto h] at hread
    split_ifs at hread with haccepts
    obtain ⟨hkey, hnonce, hciphertext, htag⟩ := (hauth _ _ _ _).mp haccepts
    obtain ⟨hpassword, hsalt⟩ := honce _ _ hkey
    have hparts := envelope_of_parse (Nat.le_of_not_lt hshort) hparse
    rw [hciphertext, htag, hsalt, hnonce] at hparts
    exact ⟨hparts, hpassword⟩

/-- The written file of a plaintext that is not empty is read back. -/
theorem decrypt_written {files : Files} {path plain password : String} {fresh : Fresh}
    {plaintext : Bytes} (cut : Cutting) (h : crypto.Inverts)
    (hauth : crypto.Authenticates (deriveBackupKey crypto password fresh.salt) fresh.nonce
      plaintext)
    (hcontent : files path = some (envelopeOf crypto password fresh plaintext))
    (hplain : files plain = none) (hne : plaintext ≠ []) :
    decryptBackupToFile crypto files path plain password cut =
      .ok (files.write plain plaintext) := by
  have htag := h.tag_length (deriveBackupKey crypto password fresh.salt) fresh.nonce plaintext
  have hlength := h.ciphertext_length (deriveBackupKey crypto password fresh.salt) fresh.nonce
    plaintext
  have hpos : 0 < plaintext.length := List.length_pos_iff.mpr hne
  have hciphertext : ciphertextOf crypto (deriveBackupKey crypto password fresh.salt) fresh.nonce
      plaintext ≠ [] := List.length_pos_iff.mp (hlength ▸ hpos)
  rw [decryptBackupToFile, hcontent]
  dsimp only
  rw [if_neg (by
    rw [envelopeOf, envelope_length fresh.salt_length fresh.nonce_length htag, hlength]
    omega)]
  rw [envelopeOf, parse_envelope _ _ fresh.salt_length fresh.nonce_length]
  dsimp only
  rw [range_envelope fresh.salt_length fresh.nonce_length htag hciphertext, tag_envelope htag,
    decipherStream_eq crypto h, createBackupDecryptor,
    if_pos ((hauth _ _ _ _).mpr ⟨rfl, rfl, rfl, rfl⟩), h.decrypts]
  dsimp only
  rw [Files.createExclusive, hplain]
  rfl

/-- The written file of the empty plaintext is too short for the reader. -/
theorem decrypt_written_empty {files : Files} {path password : String} {fresh : Fresh}
    (h : crypto.Inverts)
    (hcontent : files path = some (envelopeOf crypto password fresh []))
    (plain password' : String) (cut : Cutting) :
    decryptBackupToFile crypto files path plain password' cut = .error .envelopeTooShort := by
  have htag := h.tag_length (deriveBackupKey crypto password fresh.salt) fresh.nonce []
  have hlength := h.ciphertext_length (deriveBackupKey crypto password fresh.salt) fresh.nonce []
  rw [decryptBackupToFile, hcontent]
  dsimp only
  rw [if_pos]
  rw [envelopeOf, envelope_length fresh.salt_length fresh.nonce_length htag, hlength]
  exact Nat.lt_succ_self _

/-- An encryption writes header, ciphertext and tag. With its password the file is read back as
    the plaintext, unless that is empty; with another password, or in any other content, nothing
    is read. -/
theorem backup_round_trip (crypto : Crypto Key) (files : Files)
    (inputPath outputPath password : String) (fresh : Fresh) (cut : Cutting) (plaintext : Bytes)
    (h : crypto.Inverts)
    (hauth : crypto.Authenticates (deriveBackupKey crypto password fresh.salt) fresh.nonce
      plaintext)
    (honce : crypto.DerivesOnce password fresh.salt)
    (hinput : files inputPath = some plaintext) (houtput : files outputPath = none) :
    ∃ ciphertext tag, ciphertext.length = plaintext.length ∧
      tag.length = BACKUP_ENVELOPE_TAG_BYTES ∧
      (headerBytes fresh.salt fresh.nonce).length = 33 ∧
      encryptFileToZbk1 crypto files inputPath outputPath password fresh cut =
        .ok (files.write outputPath
          (headerBytes fresh.salt fresh.nonce ++ ciphertext ++ tag)) ∧
      ∀ (stored : Files) (path plain : String) (cut' : Cutting),
        (stored path = some (headerBytes fresh.salt fresh.nonce ++ ciphertext ++ tag) →
          (plaintext ≠ [] → stored plain = none →
            decryptBackupToFile crypto stored path plain password cut' =
              .ok (stored.write plain plaintext)) ∧
          (plaintext = [] →
            decryptBackupToFile crypto stored path plain password cut' =
              .error .envelopeTooShort) ∧
          ∀ password', password' ≠ password →
            ∃ e, decryptBackupToFile crypto stored path plain password' cut' = .error e) ∧
        ∀ content, stored path = some content →
          content ≠ headerBytes fresh.salt fresh.nonce ++ ciphertext ++ tag →
          ∀ password', ∃ e,
            decryptBackupToFile crypto stored path plain password' cut' = .error e := by
  have hrefused : ∀ {stored : Files} {path plain password' : String} {cut' : Cutting},
      (∀ stored', decryptBackupToFile crypto stored path plain password' cut' ≠ .ok stored') →
      ∃ e, decryptBackupToFile crypto stored path plain password' cut' = .error e := by
    intro stored path plain password' cut' hnever
    cases hread : decryptBackupToFile crypto stored path plain password' cut' with
    | error e => exact ⟨e, rfl⟩
    | ok stored' => exact absurd hread (hnever stored')
  refine ⟨ciphertextOf crypto (deriveBackupKey crypto password fresh.salt) fresh.nonce plaintext,
    tagOf crypto (deriveBackupKey crypto password fresh.salt) fresh.nonce plaintext,
    h.ciphertext_length _ _ _, h.tag_length _ _ _,
    headerBytes_length fresh.salt_length fresh.nonce_length, ?_, ?_⟩
  · rw [encryptFileToZbk1, hinput]
    dsimp only
    rw [zbk1Stream_flatten crypto h, Files.createExclusive, houtput]
    rfl
  · intro stored path plain cut'
    refine ⟨fun hcontent => ⟨fun hne hplain => ?_, fun hempty => ?_, fun password' hother => ?_⟩,
      fun content hcontent hother password' => ?_⟩
    · exact decrypt_written cut' h hauth hcontent hplain hne
    · subst hempty
      exact decrypt_written_empty h hcontent plain password cut'
    · refine hrefused fun stored' hread => ?_
      exact hother (authentic_of_decrypt h hauth honce hcontent hread).2
    · refine hrefused fun stored' hread => ?_
      exact hother (authentic_of_decrypt h hauth honce hcontent hread).1

/-! ### One encryption -/

def maskByte (b : UInt8) : UInt8 := b ^^^ 0x5A

theorem maskByte_maskByte (b : UInt8) : maskByte (maskByte b) = b := by
  rw [maskByte, maskByte, UInt8.xor_assoc, UInt8.xor_self, UInt8.xor_zero]

/-- The key, the nonce and all that was fed. -/
abbrev MaskState := ((String × Bytes) × Bytes) × Bytes

/-- A mask over each byte. -/
def maskTransform : StreamTransform UInt8 where
  State := MaskState
  update s chunk := ((s.1, s.2 ++ chunk), chunk.map maskByte)
  final _ := []

/-- Password and salt for a key, a mask for the cipher, and a decipher that accepts what one
    encryption gave out. -/
def maskCrypto (password : String) (fresh : Fresh) (plaintext : Bytes) :
    Crypto (String × Bytes) where
  scryptSync password salt _ _ := (password, salt)
  cipher := maskTransform
  createCipheriv key nonce := ((key, nonce), [])
  getAuthTag _ := List.replicate BACKUP_ENVELOPE_TAG_BYTES 0x77
  decipher := maskTransform
  createDecipheriv key nonce := ((key, nonce), [])
  accepts (s : MaskState) tag :=
    decide (s = (((password, fresh.salt), fresh.nonce), plaintext.map maskByte) ∧
      tag = List.replicate BACKUP_ENVELOPE_TAG_BYTES 0x77)

theorem maskTransform_streams : maskTransform.Streams where
  nil := fun _ => Prod.ext (Prod.ext rfl (List.append_nil _)) rfl
  append := fun s a b => by simp [maskTransform, List.append_assoc]

theorem maskTransform_output (s : maskTransform.State) (text : Bytes) :
    maskTransform.output s text = text.map maskByte := by
  simp [StreamTransform.output, maskTransform]

theorem maskCrypto_inverts (password : String) (fresh : Fresh) (plaintext : Bytes) :
    (maskCrypto password fresh plaintext).Inverts where
  cipher_streams := maskTransform_streams
  decipher_streams := maskTransform_streams
  ciphertext_length := fun key nonce text => by
    rw [ciphertextOf]
    exact (congrArg List.length (maskTransform_output _ text)).trans (List.length_map _)
  tag_length := fun _ _ _ => List.length_replicate
  decrypts := fun key nonce text => by
    have hmask : text.map (maskByte ∘ maskByte) = text :=
      (List.map_congr_left fun b _ => maskByte_maskByte b).trans (List.map_id text)
    refine (maskTransform_output _ _).trans ?_
    rw [ciphertextOf]
    exact (congrArg (List.map maskByte) (maskTransform_output _ text)).trans
      (by rw [List.map_map, hmask])

theorem maskCrypto_authenticates (password : String) (fresh : Fresh) (plaintext : Bytes) :
    (maskCrypto password fresh plaintext).Authenticates (password, fresh.salt) fresh.nonce
      plaintext := by
  intro key nonce ciphertext tag
  have hciphertext : ciphertextOf (maskCrypto password fresh plaintext) (password, fresh.salt)
      fresh.nonce plaintext = plaintext.map maskByte := maskTransform_output _ _
  rw [hciphertext]
  change decide (((key, nonce), ([] : Bytes) ++ ciphertext) =
      (((password, fresh.salt), fresh.nonce), plaintext.map maskByte) ∧
    tag = List.replicate BACKUP_ENVELOPE_TAG_BYTES 0x77) = true ↔ _
  rw [decide_eq_true_iff, List.nil_append, Prod.mk.injEq, Prod.mk.injEq, and_assoc, and_assoc]
  rfl

theorem maskCrypto_derivesOnce (password : String) (fresh : Fresh) (plaintext : Bytes) :
    (maskCrypto password fresh plaintext).DerivesOnce password fresh.salt :=
  fun _ _ h => Prod.mk.inj h

def zeroFresh : Fresh where
  salt := List.replicate 16 0
  nonce := List.replicate 12 0
  salt_length := rfl
  nonce_length := rfl

def byteByByte : Cutting where
  chunks content := content.map fun b => [b]
  whole := fun content => by
    induction content with
    | nil => rfl
    | cons b content ih => simp [ih]

/-- A directory with one file. -/
def oneFile (content : Bytes) : Files := fun path => if path = "dump" then some content else none

theorem backup_round_trip_three :
    ∃ ciphertext tag, ciphertext.length = 3 ∧ tag.length = BACKUP_ENVELOPE_TAG_BYTES ∧
      encryptFileToZbk1 (maskCrypto "secret" zeroFresh [1, 2, 3]) (oneFile [1, 2, 3]) "dump"
          "dump.enc" "secret" zeroFresh byteByByte =
        .ok ((oneFile [1, 2, 3]).write "dump.enc"
          (headerBytes zeroFresh.salt zeroFresh.nonce ++ ciphertext ++ tag)) ∧
      decryptBackupToFile (maskCrypto "secret" zeroFresh [1, 2, 3])
          ((oneFile [1, 2, 3]).write "dump.enc"
            (headerBytes zeroFresh.salt zeroFresh.nonce ++ ciphertext ++ tag))
          "dump.enc" "plain" "secret" byteByByte =
        .ok (((oneFile [1, 2, 3]).write "dump.enc"
          (headerBytes zeroFresh.salt zeroFresh.nonce ++ ciphertext ++ tag)).write "plain"
            [1, 2, 3]) := by
  obtain ⟨ciphertext, tag, hciphertext, htag, _, hwritten, hread⟩ :=
    backup_round_trip (maskCrypto "secret" zeroFresh [1, 2, 3]) (oneFile [1, 2, 3]) "dump"
      "dump.enc" "secret" zeroFresh byteByByte [1, 2, 3] (maskCrypto_inverts _ _ _)
      (maskCrypto_authenticates _ _ _) (maskCrypto_derivesOnce _ _ _) rfl rfl
  refine ⟨ciphertext, tag, hciphertext, htag, hwritten, ?_⟩
  exact ((hread _ _ _ _).1 rfl).1 (by decide) rfl

/-- An encrypted empty file has 49 bytes, and its own password does not open it. -/
theorem empty_backup_refused :
    (maskCrypto "secret" zeroFresh []).Inverts ∧
    (maskCrypto "secret" zeroFresh []).Authenticates ("secret", zeroFresh.salt)
      zeroFresh.nonce [] ∧
    (maskCrypto "secret" zeroFresh []).DerivesOnce "secret" zeroFresh.salt ∧
    ∃ file, file.length = 49 ∧
      encryptFileToZbk1 (maskCrypto "secret" zeroFresh []) (oneFile []) "dump" "dump.enc" "secret"
        zeroFresh byteByByte = .ok ((oneFile []).write "dump.enc" file) ∧
      decryptBackupToFile (maskCrypto "secret" zeroFresh []) ((oneFile []).write "dump.enc" file)
        "dump.enc" "plain" "secret" byteByByte = .error .envelopeTooShort :=
  ⟨maskCrypto_inverts _ _ _, maskCrypto_authenticates _ _ _, maskCrypto_derivesOnce _ _ _,
    _, rfl, rfl, rfl⟩

end ZedBot.Backup
