import ZedBot.Runs
import ZedBot.Terms.Book

/-! # Acceptances beside the configuration

    An acceptance takes no advisory lock. Its transaction runs statement by statement beside the
    others and beside the configuration: it holds a share lock on the switch, its insert waits for
    one of the same key, and its stamp for one on the same user.

        press ──▶ locked ──read──▶ published ──insert──▶ inserted ──stamp──▶ stamped ──commit──▶
          └─ DISABLED  └─ NOT_FOUND, STALE      └─▶ present ───stamp───┘ -/

namespace ZedBot.Terms

open Rows ForceJoin

structure TermsAcceptance where
  userId : ℕ
  termsDocumentId : ℕ
  termsVersion : ℕ
  acceptedAt : ℕ
  deriving DecidableEq

/-- The unique key of an acceptance. -/
def TermsAcceptance.key (a : TermsAcceptance) : ℕ × ℕ := (a.userId, a.termsDocumentId)

structure User where
  id : ℕ
  termsAcceptedAt : Option ℕ := none
  deriving DecidableEq

structure Db (Digest : Type) where
  documents : List (TermsDocument Digest) := []
  setting : Option String := none
  acceptances : List TermsAcceptance := []
  users : List User := []
  deriving DecidableEq

inductive AcceptResult where
  | ok (version : ℕ) (alreadyAccepted : Bool)
  | STALE
  | NOT_FOUND
  | DISABLED
  deriving DecidableEq

/-- What a transaction has read and written so far. -/
inductive Phase where
  | locked
  | published (version acceptedAt : ℕ)
  | inserted (version acceptedAt : ℕ)
  | present (version acceptedAt : ℕ)
  | stamped (version acceptedAt : ℕ) (new touched : Bool)
  deriving DecidableEq

structure Acceptance where
  id : ℕ
  userId : ℕ
  documentId : ℕ
  phase : Phase := .locked
  deriving DecidableEq

structure Answer where
  userId : ℕ
  documentId : ℕ
  result : AcceptResult
  deriving DecidableEq

structure System (Digest : Type) where
  db : Db Digest := {}
  pending : List Acceptance := []
  answers : List Answer := []
  deriving DecidableEq

variable {Digest : Type} (sha256 : JsText → Digest)

/-- A row that is not committed yet. -/
def Acceptance.holdsRow (x : Acceptance) : Bool :=
  match x.phase with
  | .inserted _ _ => true
  | .stamped _ _ new _ => new
  | _ => false

/-- The row of the user is locked. -/
def Acceptance.holdsUser (x : Acceptance) : Bool :=
  match x.phase with
  | .stamped _ _ _ touched => touched
  | _ => false

/-- `termsAcceptedAt: null`, or also an earlier one for a new acceptance. -/
def stampable (userId acceptedAt : ℕ) (new : Bool) (u : User) : Bool :=
  u.id = userId && match u.termsAcceptedAt with
    | none => true
    | some last => new && last < acceptedAt

inductive Outcome (Digest : Type) where
  | goOn (phase : Phase)
  | finish (db : Db Digest) (result : AcceptResult)
  | rollback

inductive Action where
  | read (now : ℕ)
  | insert
  | stamp
  | commit
  | fail

/-- What a commit makes of the tables. -/
def commitAcceptance (userId documentId version acceptedAt : ℕ) (new touched : Bool)
    (db : Db Digest) : Db Digest :=
  { db with
    acceptances :=
      if new then db.acceptances ++ [⟨userId, documentId, version, acceptedAt⟩] else db.acceptances
    users :=
      if touched then
        updateWhere (fun u => u.id = userId)
          (fun u => { u with termsAcceptedAt := some acceptedAt }) db.users
      else db.users }

/-- The next statement of an acceptance, beside the others. -/
def advance (db : Db Digest) (others : List Acceptance) (x : Acceptance) :
    Phase → Action → Option (Outcome Digest)
  | .locked, .read now =>
    match getPublishedTerms db.documents with
    | none => some (.finish db .NOT_FOUND)
    | some published =>
      if published.id ≠ x.documentId then some (.finish db .STALE)
      else
        match published.version with
        | none => some (.finish db .STALE)
        | some version => some (.goOn (.published version now))
  | .published version acceptedAt, .insert =>
    -- `ON CONFLICT DO NOTHING` waits for a row of the same key that is not committed yet
    if others.any fun y => y.holdsRow && (y.userId == x.userId && y.documentId == x.documentId) then
      none
    else if (x.userId, x.documentId) ∈ db.acceptances.map TermsAcceptance.key then
      some (.goOn (.present version acceptedAt))
    else if x.userId ∈ db.users.map User.id ∧
        x.documentId ∈ db.documents.map TermsDocument.id then
      some (.goOn (.inserted version acceptedAt))
    else some .rollback
  | .inserted version acceptedAt, .stamp =>
    if db.users.any (stampable x.userId acceptedAt true) then
      if others.any fun y => y.holdsUser && y.userId == x.userId then none
      else some (.goOn (.stamped version acceptedAt true true))
    else some (.goOn (.stamped version acceptedAt true false))
  | .present version acceptedAt, .stamp =>
    if db.users.any (stampable x.userId acceptedAt false) then
      if others.any fun y => y.holdsUser && y.userId == x.userId then none
      else some (.goOn (.stamped version acceptedAt false true))
    else some (.goOn (.stamped version acceptedAt false false))
  | .stamped version acceptedAt new touched, .commit =>
    some (.finish (commitAcceptance x.userId x.documentId version acceptedAt new touched db)
      (.ok version (!new)))
  | _, .fail => some .rollback
  | _, _ => none

inductive Event where
  | register (userId : ℕ)
  | createDraft (id : ℕ)
  | editDraft (draftId : ℕ) (rawBody : JsText)
  | deleteDraft (draftId : ℕ)
  | publish (draftId now : ℕ)
  | enable
  | disable
  | press (id userId documentId : ℕ)
  | act (id : ℕ) (a : Action)

/-- A refused change leaves everything. -/
def changeDocuments (s : System Digest)
    (result : Except ConfigError (List (TermsDocument Digest))) : System Digest :=
  match result with
  | .error _ => s
  | .ok documents => { s with db := { s.db with documents } }

/-- The transaction goes on, or is over. -/
def conclude (s : System Digest) (x : Acceptance) : Outcome Digest → System Digest
  | .goOn phase => { s with
      pending := updateWhere (fun y => y.id = x.id) (fun y => { y with phase }) s.pending }
  | .finish db result => {
      db
      pending := s.pending.filter fun y => y.id ≠ x.id
      answers := s.answers ++ [⟨x.userId, x.documentId, result⟩] }
  | .rollback => { s with pending := s.pending.filter fun y => y.id ≠ x.id }

def step (s : System Digest) : Event → Option (System Digest)
  | .register userId =>
    if userId ∈ s.db.users.map User.id then none
    else some { s with db := { s.db with users := s.db.users ++ [{ id := userId }] } }
  | .createDraft id =>
    if id ∈ s.db.documents.map TermsDocument.id then none
    else some (changeDocuments s (createTermsDraft id s.db.documents))
  | .editDraft draftId rawBody =>
    some (changeDocuments s (updateTermsDraftBody draftId rawBody s.db.documents))
  | .deleteDraft draftId => some (changeDocuments s (deleteTermsDraft draftId s.db.documents))
  | .publish draftId now =>
    some (changeDocuments s (publishTermsDraft sha256 draftId now s.db.documents))
  | .enable =>
    match enableTermsRequirement s.db.documents with
    | .error _ => some s
    | .ok value =>
      -- the switch is written when no acceptance shares its row
      if s.pending = [] then some { s with db := { s.db with setting := some value } } else none
  | .disable =>
    if s.pending = [] then
      some { s with db := { s.db with setting := some disableTermsRequirement } }
    else none
  | .press id userId documentId =>
    if id ∈ s.pending.map Acceptance.id then none
    else if isTruthySettingValue s.db.setting then
      some { s with pending := s.pending ++ [{ id, userId, documentId }] }
    else some { s with answers := s.answers ++ [⟨userId, documentId, .DISABLED⟩] }
  | .act id a =>
    match s.pending.find? (·.id = id) with
    | none => none
    | some x =>
      (advance s.db (s.pending.filter fun y => y.id ≠ x.id) x x.phase a).map (conclude s x)

abbrev Reaches : System Digest → System Digest → Prop := Runs.Reaches (step sha256)

def hasAcceptedTermsDocument (db : Db Digest) (userId documentId : ℕ) : Bool :=
  (userId, documentId) ∈ db.acceptances.map TermsAcceptance.key

inductive Gate where
  | pass
  | misconfigured
  | owes (documentId : ℕ)
  deriving DecidableEq

/-- The terms step of `ensureUserAccess`, with the switch as it is stored. -/
def termsGate (db : Db Digest) (userId : ℕ) : Gate :=
  if isTruthySettingValue db.setting then
    match getPublishedTerms db.documents with
    | none => .misconfigured
    | some published =>
      if hasAcceptedTermsDocument db userId published.id then .pass else .owes published.id
  else .pass

end ZedBot.Terms
