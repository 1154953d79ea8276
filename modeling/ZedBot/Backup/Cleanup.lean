import Mathlib.Algebra.Order.Field.Rat
import Mathlib.Data.List.Lex
import Mathlib.Data.List.Sort
import Mathlib.Data.Char

/-! # Retention of backups

    One cleanup pass over the backup directory. A file is recognised by its name alone, is newer
    than another by the stamp in its name, and is old by the time the file system gives it.

        readdir ─▶ recognised dumps ─▶ newest first ─▶ kept when its place is below the minimum,
                                                            its name is protected or it is young
                                                     ─▶ otherwise unlinked with its manifest -/

namespace ZedBot.Backup

inductive BackupFileKind
  | dump
  | dumpEncrypted
  | legacySqlGz
  deriving DecidableEq

/-- `\d{8}-\d{6}`. -/
def isStamp (s : List Char) : Bool :=
  s.length == 15 && (s.take 8).all Char.isDigit && (s.drop 8).take 1 == ['-'] &&
    (s.drop 9).all Char.isDigit

def classifyBackupFileName (name : String) : Option (BackupFileKind × List Char) :=
  let text := name.toList
  let shortId := (text.drop 10).take 15
  let ending := text.drop 25
  if text.take 10 = "zedbot-db-".toList ∧ isStamp shortId = true then
    if ending = ".dump".toList then some (.dump, shortId)
    else if ending = ".dump.enc".toList then some (.dumpEncrypted, shortId)
    else if ending = ".sql.gz".toList then some (.legacySqlGz, shortId)
    else none
  else none

def BACKUP_MANIFEST_SUFFIX : String := ".manifest.json"

def manifestPath (backupFilePath : String) : String := backupFilePath ++ BACKUP_MANIFEST_SUFFIX

/-! ### The directory and the table -/

/-- What the file system says of a name; `readable` is whether its `stat` answers. -/
structure DirEntry where
  name : String
  isFile : Bool
  readable : Bool
  size : ℕ
  mtimeMs : ℚ
  deriving DecidableEq

/-- A directory names each of its entries once. -/
structure Directory where
  files : List DirEntry
  nodup : (files.map DirEntry.name).Nodup

inductive BackupOperationStatus
  | QUEUED | RUNNING | COMPLETED | FAILED | VERIFYING | VERIFIED | CORRUPT | CANCELLED
  deriving DecidableEq

structure BackupOperation where
  status : BackupOperationStatus
  filename : Option String
  verifiedAt : Option ℤ
  deriving DecidableEq

/-- The order of `verifiedAt` descending; rows without the instant come first. -/
def verifiedBefore (a b : BackupOperation) : Bool :=
  match a.verifiedAt, b.verifiedAt with
  | none, _ => true
  | some _, none => false
  | some x, some y => decide (y ≤ x)

/-- The newest verified operation that names a file, whether or not the file is there. -/
def newestVerified (rows : List BackupOperation) : Option BackupOperation :=
  ((rows.filter fun row => row.status == .VERIFIED && row.filename.isSome).insertionSort
    fun a b => verifiedBefore a b = true).head?

/-! ### The pass -/

def backupRetentionDays (value : ℤ) : ℤ := if value > 0 then value else 14

def backupMinRetained (value : ℤ) : ℤ := if value ≥ 0 then value else 3

structure CleanupResult where
  scanned : ℕ
  deleted : ℕ
  retained : ℕ
  freedBytes : ℕ
  deriving DecidableEq

structure BackupEntry where
  name : String
  shortId : List Char
  sizeBytes : ℕ
  mtimeMs : ℚ
  deriving DecidableEq

/-- A recognised dump whose `stat` says that it is a file. -/
def backupEntry (e : DirEntry) : Option BackupEntry :=
  match classifyBackupFileName e.name with
  | none => none
  | some (.legacySqlGz, _) => none
  | some (_, shortId) =>
    if e.readable && e.isFile then
      some { name := e.name, shortId, sizeBytes := e.size, mtimeMs := e.mtimeMs }
    else none

/-- Newest first: the stamp descending, then the modification time descending. -/
def newerOrSame (a b : BackupEntry) : Bool :=
  decide (b.shortId < a.shortId ∨ b.shortId = a.shortId ∧ b.mtimeMs ≤ a.mtimeMs)

def backupEntries (files : List DirEntry) : List BackupEntry :=
  (files.filterMap backupEntry).insertionSort fun a b => newerOrSame a b = true

def protectedNames (entries : List BackupEntry) (rows : List BackupOperation) : List String :=
  (entries.head?.map BackupEntry.name).toList ++
    ((newestVerified rows).bind BackupOperation.filename).toList

/-- An unlink whose failure is swallowed: `removable` says of which names it succeeds. -/
def unlinkQuiet (removable : String → Bool) (files : List DirEntry) (name : String) :
    List DirEntry :=
  if removable name then files.filter fun e => e.name != name else files

structure Progress where
  files : List DirEntry
  deleted : ℕ
  freedBytes : ℕ

/-- Whether the pass leaves an entry at its place. -/
def isKept (minRetained : ℤ) (kept : List String) (cutoffMs : ℚ) (i : ℕ) (entry : BackupEntry) :
    Bool :=
  decide ((i : ℤ) < minRetained) || kept.contains entry.name || decide (cutoffMs ≤ entry.mtimeMs)

def deleteEntry (removable : String → Bool) (p : Progress) (entry : BackupEntry) : Progress :=
  { files := unlinkQuiet removable (unlinkQuiet removable p.files entry.name)
      (manifestPath entry.name)
    deleted := p.deleted + 1
    freedBytes := p.freedBytes + entry.sizeBytes }

def deleteLoop (removable : String → Bool) (minRetained : ℤ) (kept : List String) (cutoffMs : ℚ) :
    ℕ → List BackupEntry → Progress → Progress
  | _, [], p => p
  | i, entry :: entries, p =>
    if isKept minRetained kept cutoffMs i entry then
      deleteLoop removable minRetained kept cutoffMs (i + 1) entries p
    else
      deleteLoop removable minRetained kept cutoffMs (i + 1) entries
        (deleteEntry removable p entry)

/-- Everything older than this is a candidate. -/
def cutoffMs (now retentionDays : ℤ) : ℚ := ((now - retentionDays * 24 * 3600 * 1000 : ℤ) : ℚ)

/-- The pass over the directory, and what is left there; `readdir` tells whether it can be
    listed. -/
def runBackupCleanup (readdir : Bool) (removable : String → Bool) (files : List DirEntry)
    (rows : List BackupOperation) (minRetained retentionDays now : ℤ) :
    CleanupResult × List DirEntry :=
  if readdir then
    let entries := backupEntries files
    let p := deleteLoop removable (backupMinRetained minRetained) (protectedNames entries rows)
      (cutoffMs now (backupRetentionDays retentionDays)) 0 entries
      { files, deleted := 0, freedBytes := 0 }
    ({ scanned := entries.length
       deleted := p.deleted
       retained := entries.length - p.deleted
       freedBytes := p.freedBytes }, p.files)
  else
    ({ scanned := 0, deleted := 0, retained := 0, freedBytes := 0 }, files)

end ZedBot.Backup
