import Mathlib.Data.String.Basic
import ZedBot.KeysetWalk

/-! The pages of a user's tickets and of a ticket's messages.

    Times are milliseconds. A message and a ticket carry their whole row; of a linked service a ticket
    carries its label. -/

namespace ZedBot.Support

structure SupportMessage where
  id : String
  ticketId : String
  createdAt : ℕ
  text : Option String := none
  fileId : Option String := none
  deriving DecidableEq, Repr

structure ServiceLabel where
  id : String
  username : String
  deriving DecidableEq, Repr

structure SupportTicket where
  id : String
  userId : String
  updatedAt : ℕ
  subject : Option String := none
  service : Option ServiceLabel := none
  deriving DecidableEq, Repr

/-- The tickets and messages of all users. Ids are primary keys. -/
structure Database where
  tickets : List SupportTicket
  messages : List SupportMessage
  ticketIds : (tickets.map SupportTicket.id).Nodup
  messageIds : (messages.map SupportMessage.id).Nodup

/-- A keyset position: when a message was created, or a ticket was last touched, and its id. -/
structure Position where
  time : ℕ
  id : String
  deriving DecidableEq, Repr

structure MessagePage where
  messages : List SupportMessage
  hasMore : Bool
  older : Option Position
  deriving DecidableEq, Repr

structure TicketPage where
  tickets : List SupportTicket
  hasMore : Bool
  next : Option Position
  deriving DecidableEq, Repr

/-! ### Public ids -/

/-- Characters of the uuid taken. -/
def TICKET_SHORT_ID_LENGTH : ℕ := 8

/-- `[0-9a-f]`, in either case. -/
def isHexDigit (c : Char) : Bool :=
  ('0' ≤ c ∧ c ≤ '9') ∨ ('a' ≤ c ∧ c ≤ 'f') ∨ ('A' ≤ c ∧ c ≤ 'F')

/-- The canonical public id of an unknown value; `none` stands for what is not a string. -/
def canonicalTicketPublicId (value : Option String) : Option String :=
  match value with
  | none => none
  | some s =>
    if s.toList.length = TICKET_SHORT_ID_LENGTH ∧ s.toList.all isHexDigit then
      some (String.ofList (s.toList.map Char.toLower))
    else none

/-- The user's ticket with a public id: none if it is malformed, unknown, ambiguous or another's. -/
def resolveOwnedTicket (db : Database) (userId : String) (ticketPublicId : Option String) :
    Option SupportTicket :=
  match canonicalTicketPublicId ticketPublicId with
  | none => none
  | some canonical =>
    match (db.tickets.filter fun t => canonical.toList.isPrefixOf t.id.toList ∧ t.userId = userId).take 2 with
    | [t] => some t
    | _ => none

/-! ### The pages -/

/-- `orderBy: [{ … desc }, { id: desc }]`. -/
def orderByDesc {α : Type} (position : α → Position) (rows : List α) : List α :=
  rows.insertionSort fun x y => (position y).time < (position x).time ∨
    (position y).time = (position x).time ∧ (position y).id ≤ (position x).id

/-- The rows before a position: an earlier time, or the same time and a smaller id. -/
def isBefore (row bound : Position) : Bool :=
  row.time < bound.time ∨ row.time = bound.time ∧ row.id < bound.id

/-- The rows a call asks for: without a position all, else those before it. -/
def isAskedFor (cursor : Option Position) (row : Position) : Bool :=
  match cursor with
  | none => true
  | some bound => isBefore row bound

def SupportMessage.position (m : SupportMessage) : Position := ⟨m.createdAt, m.id⟩

def SupportTicket.position (t : SupportTicket) : Position := ⟨t.updatedAt, t.id⟩

/-- A page of a ticket's conversation, the oldest message of the page first. -/
def listOwnedTicketMessages (db : Database) (userId : String) (ticketPublicId : Option String)
    (limit : ℕ) (olderThan : Option Position) : Option MessagePage :=
  match resolveOwnedTicket db userId ticketPublicId with
  | none => none
  | some ticket =>
    let found := db.messages.filter fun m => m.ticketId = ticket.id ∧ isAskedFor olderThan m.position
    let rows := (orderByDesc SupportMessage.position found).take (limit + 1)
    let hasMore : Bool := limit < rows.length
    let page := if hasMore then rows.take limit else rows
    let oldest := page.getLast?
    some
      { messages := page.reverse
        hasMore
        older := if hasMore then oldest.map SupportMessage.position else none }

/-- A page of a user's tickets, the newest activity first. -/
def listOwnedTickets (db : Database) (userId : String) (limit : ℕ) (after : Option Position) :
    TicketPage :=
  let found := db.tickets.filter fun t => t.userId = userId ∧ isAskedFor after t.position
  let rows := (orderByDesc SupportTicket.position found).take (limit + 1)
  let hasMore : Bool := limit < rows.length
  let page := if hasMore then rows.take limit else rows
  let last := page.getLast?
  { tickets := page
    hasMore
    next := if hasMore then last.map SupportTicket.position else none }

end ZedBot.Support
