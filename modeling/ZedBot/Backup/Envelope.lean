import Mathlib.Algebra.Group.Nat.Defs
import ZedBot.StreamTransform
import Mathlib.Data.List.Basic
import Mathlib.Logic.Function.Basic

/-! # The backup encryption envelope

    A backup is encrypted in one pass: header, ciphertext chunks, authentication tag.

        offset  0       4         5        21       33            size − 16
                "ZBK1"  version   salt     nonce    ciphertext …  tag

    The reader finds the parts from the two ends of the file. AES-256-GCM and scrypt are the
    runtime's; they stand here as a parameter. -/

namespace ZedBot.Backup

abbrev Bytes := List UInt8

def BACKUP_ENVELOPE_MAGIC : Bytes := [0x5A, 0x42, 0x4B, 0x31]
def BACKUP_ENVELOPE_VERSION : UInt8 := 1
def BACKUP_ENVELOPE_SALT_BYTES : ℕ := 16
def BACKUP_ENVELOPE_NONCE_BYTES : ℕ := 12
def BACKUP_ENVELOPE_TAG_BYTES : ℕ := 16
def BACKUP_ENVELOPE_HEADER_BYTES : ℕ :=
  BACKUP_ENVELOPE_MAGIC.length + 1 + BACKUP_ENVELOPE_SALT_BYTES + BACKUP_ENVELOPE_NONCE_BYTES

/-- The scrypt parameters. -/
structure ScryptCost where
  N : ℕ
  r : ℕ
  p : ℕ
  maxmem : ℕ

def SCRYPT_COST : ScryptCost where
  N := 2 ^ 15
  r := 8
  p := 1
  maxmem := 128 * 1024 * 1024

/-- The runtime's primitives: scrypt, and the `aes-256-gcm` cipher and decipher objects. The
    decipher judges the tag it was given when its input has ended. -/
structure Crypto (Key : Type) where
  scryptSync : String → Bytes → ℕ → ScryptCost → Key
  cipher : StreamTransform UInt8
  createCipheriv : Key → Bytes → cipher.State
  getAuthTag : cipher.State → Bytes
  decipher : StreamTransform UInt8
  createDecipheriv : Key → Bytes → decipher.State
  accepts : decipher.State → Bytes → Bool

/-- The fresh bytes of one encryption. -/
structure Fresh where
  salt : Bytes
  nonce : Bytes
  salt_length : salt.length = BACKUP_ENVELOPE_SALT_BYTES
  nonce_length : nonce.length = BACKUP_ENVELOPE_NONCE_BYTES

/-- How a read stream cuts what it reads. -/
structure Cutting where
  chunks : Bytes → List Bytes
  whole : ∀ content, (chunks content).flatten = content

inductive BackupError
  | inputMissing
  | outputExists
  | envelopeTooShort
  | headerTooShort
  | badMagic
  | unsupportedVersion (version : UInt8)
  | authenticationFailed
  deriving DecidableEq

/-- The texts of the errors the code raises itself; the others carry the runtime's codes. -/
def BackupError.message : BackupError → String
  | .inputMissing => "ENOENT"
  | .outputExists => "EEXIST"
  | .envelopeTooShort => "envelope-too-short"
  | .headerTooShort => "backup envelope: header too short"
  | .badMagic => "backup envelope: bad magic"
  | .unsupportedVersion version =>
    "backup envelope: unsupported version " ++ toString version.toNat
  | .authenticationFailed => "Unsupported state or unable to authenticate data"

/-! ### Files -/

abbrev Files := String → Option Bytes

/-- The files after one is written. -/
def Files.write (files : Files) (path : String) (content : Bytes) : Files :=
  Function.update files path (some content)

/-- A write stream opened with the flag `wx`: the file must not be there. -/
def Files.createExclusive (files : Files) (path : String) (content : Bytes) :
    Except BackupError Files :=
  if (files path).isSome then .error .outputExists else .ok (files.write path content)

/-- The first bytes of a file, fewer where it is shorter. -/
def readHead (content : Bytes) (bytes : ℕ) : Bytes := content.take bytes

/-- The last bytes of a file at least as long as the tag. -/
def readAuthTag (content : Bytes) (fileSize : ℕ) : Bytes :=
  (content.drop (fileSize - BACKUP_ENVELOPE_TAG_BYTES)).take BACKUP_ENVELOPE_TAG_BYTES

/-- A read stream from `start` to `last`, both included. -/
def readRange (content : Bytes) (start last : ℕ) : Bytes :=
  (content.drop start).take (last + 1 - start)

/-! ### Writing -/

variable {Key : Type} (crypto : Crypto Key)

def deriveBackupKey (password : String) (salt : Bytes) : Key :=
  crypto.scryptSync password salt 32 SCRYPT_COST

structure BackupEncryptor where
  header : Bytes
  cipher : crypto.cipher.State

/-- The header of a file: magic, version, salt and nonce. -/
def headerBytes (salt nonce : Bytes) : Bytes :=
  BACKUP_ENVELOPE_MAGIC ++ [BACKUP_ENVELOPE_VERSION] ++ salt ++ nonce

def createBackupEncryptor (password : String) (fresh : Fresh) : BackupEncryptor crypto :=
  let key := deriveBackupKey crypto password fresh.salt
  { header := headerBytes fresh.salt fresh.nonce
    cipher := crypto.createCipheriv key fresh.nonce }

/-- The pieces the writer yields; empty ones are passed over. -/
def zbk1Stream (source : List Bytes) (encryptor : BackupEncryptor crypto) : List Bytes :=
  let fed := crypto.cipher.feed encryptor.cipher source
  let finalChunk := crypto.cipher.final fed.1
  [encryptor.header] ++ fed.2.filter (fun cipherText => decide (0 < cipherText.length)) ++
    (if 0 < finalChunk.length then [finalChunk] else []) ++ [crypto.getAuthTag fed.1]

def encryptFileToZbk1 (files : Files) (inputPath outputPath password : String) (fresh : Fresh)
    (cut : Cutting) : Except BackupError Files :=
  match files inputPath with
  | none => .error .inputMissing
  | some plaintext =>
    let encryptor := createBackupEncryptor crypto password fresh
    files.createExclusive outputPath
      (zbk1Stream crypto (cut.chunks plaintext) encryptor).flatten

/-! ### Reading -/

structure BackupEnvelopeHeader where
  version : UInt8
  salt : Bytes
  nonce : Bytes
  dataStart : ℕ

def parseBackupEnvelopeHeader (head : Bytes) : Except BackupError BackupEnvelopeHeader :=
  if head.length < BACKUP_ENVELOPE_HEADER_BYTES then
    .error .headerTooShort
  else if head.take 4 ≠ BACKUP_ENVELOPE_MAGIC then
    .error .badMagic
  else
    let version := head.getD 4 0
    if version ≠ BACKUP_ENVELOPE_VERSION then
      .error (.unsupportedVersion version)
    else
      .ok
        { version
          salt := (head.drop 5).take BACKUP_ENVELOPE_SALT_BYTES
          nonce :=
            (head.drop (5 + BACKUP_ENVELOPE_SALT_BYTES)).take BACKUP_ENVELOPE_NONCE_BYTES
          dataStart := BACKUP_ENVELOPE_HEADER_BYTES }

def createBackupDecryptor (password : String) (header : BackupEnvelopeHeader) :
    crypto.decipher.State :=
  crypto.createDecipheriv (deriveBackupKey crypto password header.salt) header.nonce

/-- The chunks through the decipher; at the end it throws where the tag is not the one. -/
def decipherStream (source : List Bytes) (decipher : crypto.decipher.State) (authTag : Bytes) :
    Except BackupError Bytes :=
  let fed := crypto.decipher.feed decipher source
  if crypto.accepts fed.1 authTag then
    .ok (fed.2.flatten ++ crypto.decipher.final fed.1)
  else
    .error .authenticationFailed

def decryptBackupToFile (files : Files) (encryptedPath plainPath password : String)
    (cut : Cutting) : Except BackupError Files :=
  match files encryptedPath with
  | none => .error .inputMissing
  | some content =>
    let size := content.length
    if size < BACKUP_ENVELOPE_HEADER_BYTES + BACKUP_ENVELOPE_TAG_BYTES + 1 then
      .error .envelopeTooShort
    else
      match parseBackupEnvelopeHeader (readHead content BACKUP_ENVELOPE_HEADER_BYTES) with
      | .error e => .error e
      | .ok header =>
        let authTag := readAuthTag content size
        let decipher := createBackupDecryptor crypto password header
        let source :=
          cut.chunks (readRange content header.dataStart (size - BACKUP_ENVELOPE_TAG_BYTES - 1))
        -- A failing pipeline may leave part of the plaintext behind; only that it fails is kept.
        match decipherStream crypto source decipher authTag with
        | .error e => .error e
        | .ok plain => files.createExclusive plainPath plain

end ZedBot.Backup
