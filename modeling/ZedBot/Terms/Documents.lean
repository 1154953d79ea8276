import ZedBot.ForceJoin.Channels
import ZedBot.Rows
import ZedBot.Terms.Body

/-! # Terms documents

    Every change of the configuration is one transaction under one advisory lock.

        create ──▶ DRAFT ⟲ edit ──publish──▶ PUBLISHED n ──next publish──▶ ARCHIVED n
                     └── delete -/

namespace ZedBot.Terms

open Rows

inductive TermsDocumentStatus where | DRAFT | PUBLISHED | ARCHIVED
  deriving DecidableEq

structure TermsDocument (Digest : Type) where
  id : ℕ
  version : Option ℕ := none
  body : JsText
  status : TermsDocumentStatus := .DRAFT
  contentHash : Option Digest := none
  publishedAt : Option ℕ := none
  deriving DecidableEq

inductive ConfigError where
  | DRAFT_EXISTS
  | NOT_FOUND
  | body (code : TermsBodyError)
  | NO_PUBLISHED_DOCUMENT
  deriving DecidableEq

variable {Digest : Type} (sha256 : JsText → Digest)

def getPublishedTerms (docs : List (TermsDocument Digest)) : Option (TermsDocument Digest) :=
  docs.find? (·.status = .PUBLISHED)

/-- The draft with this id, if it is one. -/
def draftById (draftId : ℕ) (docs : List (TermsDocument Digest)) : Option (TermsDocument Digest) :=
  docs.find? fun d => d.id = draftId ∧ d.status = .DRAFT

/-- A new draft, with the text that is in force. -/
def createTermsDraft (id : ℕ) (docs : List (TermsDocument Digest)) :
    Except ConfigError (List (TermsDocument Digest)) :=
  match docs.find? (·.status = .DRAFT) with
  | some _ => .error .DRAFT_EXISTS
  | none => .ok (docs ++ [{ id, body := ((getPublishedTerms docs).map (·.body)).getD [] }])

def updateTermsDraftBody (draftId : ℕ) (rawBody : JsText) (docs : List (TermsDocument Digest)) :
    Except ConfigError (List (TermsDocument Digest)) :=
  match validateTermsBody rawBody with
  | .error code => .error (.body code)
  | .ok body =>
    match draftById draftId docs with
    | none => .error .NOT_FOUND
    | some draft => .ok (updateWhere (fun d => d.id = draft.id) (fun d => { d with body }) docs)

def deleteTermsDraft (draftId : ℕ) (docs : List (TermsDocument Digest)) :
    Except ConfigError (List (TermsDocument Digest)) :=
  match draftById draftId docs with
  | none => .error .NOT_FOUND
  | some draft => .ok (docs.filter fun d => d.id ≠ draft.id)

/-- The document in force steps aside. -/
def archivePrevious (docs : List (TermsDocument Digest)) : List (TermsDocument Digest) :=
  match getPublishedTerms docs with
  | none => docs
  | some previous =>
    updateWhere (fun d => d.id = previous.id) (fun d => { d with status := .ARCHIVED }) docs

def nextVersion (docs : List (TermsDocument Digest)) : ℕ :=
  ((docs.filterMap (·.version)).max?).getD 0 + 1

def publishTermsDraft (draftId now : ℕ) (docs : List (TermsDocument Digest)) :
    Except ConfigError (List (TermsDocument Digest)) :=
  match draftById draftId docs with
  | none => .error .NOT_FOUND
  | some draft =>
    match validateTermsBody draft.body with
    | .error code => .error (.body code)
    | .ok body =>
      let archived := archivePrevious docs
      let version := nextVersion archived
      .ok (updateWhere (fun d => d.id = draft.id)
        (fun d => { d with
          status := .PUBLISHED
          version := some version
          body
          contentHash := some (sha256 body)
          publishedAt := some now }) archived)

/-- The switch goes on only when there is something to show. -/
def enableTermsRequirement (docs : List (TermsDocument Digest)) : Except ConfigError String :=
  match getPublishedTerms docs with
  | none => .error .NO_PUBLISHED_DOCUMENT
  | some published =>
    if isMeaningfulTermsBody published.body then .ok "true" else .error .NO_PUBLISHED_DOCUMENT

def disableTermsRequirement : String := "false"

end ZedBot.Terms
