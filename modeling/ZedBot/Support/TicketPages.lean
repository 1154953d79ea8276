import Mathlib.Data.Prod.Lex
import ZedBot.Support.Tickets

/-! The pages of a conversation are a partition of it, and a ticket that is not touched is listed
    once.

    A reader follows the pages from the newest one. In the meantime messages are appended, and tickets
    are opened and touched.

        first page:  hasMore, messages n-3 … n      read with cursor null
        next page:   hasMore, messages n-7 … n-4    read with cursor n-3
        …
        last page:            messages 1 … 2        older is null -/

namespace ZedBot.Support

open KeysetWalk

variable {db db' : Database} {userId : String} {publicId : Option String} {limit calls : ℕ}
  {cursor : Option Position} {ticket : SupportTicket}

/-! ### The order of the rows -/

/-- Rows are ordered by time, and by id at one time. -/
def Position.key (p : Position) : ℕ ×ₗ String := toLex (p.time, p.id)

theorem Position.key_injective : Function.Injective Position.key := by
  rintro ⟨t, i⟩ ⟨t', i'⟩ h
  obtain ⟨rfl, rfl⟩ := Prod.mk.inj (toLex.injective h)
  rfl

theorem isBefore_iff {row bound : Position} : isBefore row bound = true ↔ row.key < bound.key := by
  rw [isBefore, decide_eq_true_eq, Position.key, Position.key, Prod.Lex.toLex_lt_toLex]

theorem isAskedFor_eq (cursor : Option Position) (row : Position) :
    isAskedFor cursor row = decide (Behind (cursor.map Position.key) row.key) := by
  cases cursor with
  | none => rfl
  | some bound => exact Bool.eq_iff_iff.mpr (isBefore_iff.trans (decide_eq_true_iff (p := _ < _)).symm)

theorem orderByDesc_eq {α : Type} (position : α → Position) (rows : List α) :
    orderByDesc position rows = newestFirst (fun x => (position x).key) rows := by
  have horder : ∀ x y : α, ((position y).time < (position x).time ∨
      (position y).time = (position x).time ∧ (position y).id ≤ (position x).id) ↔
        (position y).key ≤ (position x).key := fun x y => by
    rw [Position.key, Position.key, Prod.Lex.toLex_le_toLex]
  simp only [orderByDesc, newestFirst, horder]

/-- What both listings compute from the rows they find. -/
theorem page_found {α : Type} (position : α → Position) (limit : ℕ) (rows : List α)
    (cursor : Option Position) :
    let found := (orderByDesc position (rows.filter fun x =>
      Behind (cursor.map Position.key) (position x).key)).take (limit + 1)
    let p := page (fun x => (position x).key) limit rows (cursor.map Position.key)
    (if limit < found.length then found.take limit else found) = p.rows ∧
      decide (limit < found.length) = p.hasMore ∧
      (if limit < found.length then
        (if limit < found.length then found.take limit else found).getLast?.map position
        else none).map Position.key = p.next := by
  intro found p
  have hfound : found = (newestFirst (fun x => (position x).key)
      (rowsBehind (fun x => (position x).key) rows (cursor.map Position.key))).take (limit + 1) := by
    rw [← orderByDesc_eq]
    rfl
  have hp : p = pageOf (fun x => (position x).key) limit found := by
    rw [hfound]
    rfl
  rw [hp, pageOf]
  split_ifs with h
  · exact ⟨rfl, rfl, by rw [Option.map_map]; rfl⟩
  · exact ⟨(List.take_of_length_le (not_lt.mp h)).symm, rfl, rfl⟩

/-! ### A conversation -/

/-- The messages of a ticket. -/
def Database.messagesOf (db : Database) (ticketId : String) : List SupportMessage :=
  db.messages.filter fun m => m.ticketId = ticketId

/-- The key of a message. -/
def SupportMessage.key (m : SupportMessage) : ℕ ×ₗ String := m.position.key

/-- A page of a conversation is a keyset page, turned round. -/
theorem messages_page {p : MessagePage}
    (h : listOwnedTicketMessages db userId publicId limit cursor = some p) :
    ∃ ticket, resolveOwnedTicket db userId publicId = some ticket ∧
      let q := page SupportMessage.key limit (db.messagesOf ticket.id) (cursor.map Position.key)
      p.messages = q.rows.reverse ∧ p.hasMore = q.hasMore ∧ p.older.map Position.key = q.next := by
  rw [listOwnedTicketMessages] at h
  split at h
  · exact absurd h nofun
  · rename_i ticket hticket
    refine ⟨ticket, hticket, ?_⟩
    have hfound : (db.messages.filter fun m =>
          m.ticketId = ticket.id ∧ isAskedFor cursor m.position) =
        (db.messagesOf ticket.id).filter fun m =>
          Behind (cursor.map Position.key) m.position.key := by
      rw [Database.messagesOf, List.filter_filter]
      refine List.filter_congr fun m _ => ?_
      rw [isAskedFor_eq, Bool.decide_and, Bool.decide_eq_true, Bool.and_comm]
    dsimp only at h
    rw [hfound] at h
    obtain ⟨hrows, hmore, hnext⟩ := page_found SupportMessage.position limit
      (db.messagesOf ticket.id) cursor
    cases h
    simp only [decide_eq_true_eq] at hrows hnext ⊢
    exact ⟨congrArg List.reverse hrows, hmore, hnext⟩

/-- The ids of the messages are unique, so their keys are. -/
theorem messages_nodup (db : Database) (ticketId : String) :
    ((db.messagesOf ticketId).map SupportMessage.key).Nodup := by
  have hids : (db.messagesOf ticketId).Pairwise fun m m' => m.id ≠ m'.id :=
    (List.pairwise_map.mp db.messageIds).sublist List.filter_sublist
  refine List.pairwise_map.mpr (hids.imp fun hne heq => hne ?_)
  exact congrArg Position.id (Position.key_injective heq)

/-- What happens between two calls: messages later than those of their ticket are appended, and
    tickets keep their owner. -/
structure Appended (db db' : Database) : Prop where
  messages : ∃ new, db'.messages.Perm (db.messages ++ new) ∧
    ∀ n ∈ new, ∀ m ∈ db.messages, m.ticketId = n.ticketId → m.createdAt < n.createdAt
  tickets : ∀ t ∈ db.tickets, ∃ t' ∈ db'.tickets, t'.id = t.id ∧ t'.userId = t.userId

theorem Appended.refl (db : Database) : Appended db db :=
  ⟨⟨[], by rw [List.append_nil], by simp⟩, fun t ht => ⟨t, ht, rfl, rfl⟩⟩

theorem Appended.trans {db'' : Database} (h : Appended db db') (h' : Appended db' db'') :
    Appended db db'' := by
  obtain ⟨new, hperm, hnew⟩ := h.messages
  obtain ⟨new', hperm', hnew'⟩ := h'.messages
  refine ⟨⟨new ++ new', ?_, ?_⟩, fun t ht => ?_⟩
  · rw [← List.append_assoc]
    exact hperm'.trans (hperm.append_right _)
  · intro n hn m hm
    rcases List.mem_append.mp hn with hn | hn
    · exact hnew n hn m hm
    · exact hnew' n hn m (hperm.symm.subset (List.mem_append_left _ hm))
  · obtain ⟨t', ht', hid, huser⟩ := h.tickets t ht
    obtain ⟨t'', ht'', hid', huser'⟩ := h'.tickets t' ht'
    exact ⟨t'', ht'', hid'.trans hid, huser'.trans huser⟩

/-- A conversation has only grown at its end. -/
theorem Appended.grown (h : Appended db db') (ticketId : String) :
    Grown SupportMessage.key (db.messagesOf ticketId) (db'.messagesOf ticketId) := by
  obtain ⟨new, hperm, hnew⟩ := h.messages
  refine ⟨new.filter fun m => m.ticketId = ticketId, ?_, fun n hn m hm => ?_⟩
  · rw [Database.messagesOf, Database.messagesOf, ← List.filter_append]
    exact hperm.filter _
  · obtain ⟨hn, hticket⟩ := List.mem_filter.mp hn
    obtain ⟨hm, hticket'⟩ := List.mem_filter.mp hm
    have hsame : m.ticketId = n.ticketId :=
      (of_decide_eq_true hticket').trans (of_decide_eq_true hticket).symm
    exact Prod.Lex.toLex_lt_toLex.mpr (.inl (hnew n hn m hm hsame))

/-- A ticket that is resolved is the only match. -/
theorem resolved_iff : resolveOwnedTicket db userId publicId = some ticket ↔
    ∃ canonical, canonicalTicketPublicId publicId = some canonical ∧
      (db.tickets.filter fun t => canonical.toList.isPrefixOf t.id.toList ∧ t.userId = userId) = [ticket] := by
  rw [resolveOwnedTicket]
  cases hcanonical : canonicalTicketPublicId publicId with
  | none => simp
  | some canonical =>
    dsimp only
    simp only [Option.some.injEq, exists_eq_left']
    generalize (db.tickets.filter fun t => canonical.toList.isPrefixOf t.id.toList ∧ t.userId = userId) = found
    rcases found with _ | ⟨t, _ | ⟨t', rest⟩⟩ <;> simp

/-- A public id goes on meaning the same ticket while it means one. -/
theorem Appended.resolved (h : Appended db db') {ticket' : SupportTicket}
    (hticket : resolveOwnedTicket db userId publicId = some ticket)
    (hticket' : resolveOwnedTicket db' userId publicId = some ticket') : ticket'.id = ticket.id := by
  obtain ⟨canonical, hcanonical, hfound⟩ := resolved_iff.mp hticket
  obtain ⟨canonical', hcanonical', hfound'⟩ := resolved_iff.mp hticket'
  obtain rfl : canonical = canonical' := Option.some.inj (hcanonical.symm.trans hcanonical')
  have hmem : ticket ∈ db.tickets.filter fun t => canonical.toList.isPrefixOf t.id.toList ∧ t.userId = userId := by
    rw [hfound]
    exact List.mem_singleton.mpr rfl
  obtain ⟨hin, hmatch⟩ := List.mem_filter.mp hmem
  obtain ⟨t, ht, hid, huser⟩ := h.tickets ticket hin
  have hmem' : t ∈ db'.tickets.filter fun t => canonical.toList.isPrefixOf t.id.toList ∧ t.userId = userId :=
    List.mem_filter.mpr ⟨ht, by rw [hid, huser]; exact hmatch⟩
  rw [hfound', List.mem_singleton] at hmem'
  rw [← hmem', hid]

/-- Calls that follow `older` through a conversation from its newest page. -/
structure MessageWalk (userId : String) (publicId : Option String) (limit : ℕ) (db : ℕ → Database)
    (pages : ℕ → MessagePage) (calls : ℕ) : Prop where
  newest : 0 < calls → listOwnedTicketMessages (db 0) userId publicId limit none = some (pages 0)
  follows : ∀ i, i + 1 < calls → ∃ older, (pages i).older = some older ∧
    listOwnedTicketMessages (db (i + 1)) userId publicId limit (some older) = some (pages (i + 1))
  appended : ∀ i, i + 1 < calls → Appended (db i) (db (i + 1))

variable {dbs : ℕ → Database} {pages : ℕ → MessagePage} {i : ℕ}

/-- The keyset page behind a page of messages. -/
def MessagePage.keysetPage (p : MessagePage) : Page SupportMessage (ℕ ×ₗ String) :=
  ⟨p.messages.reverse, p.hasMore, p.older.map Position.key⟩

theorem MessageWalk.since (w : MessageWalk userId publicId limit dbs pages calls) (hi : i < calls) :
    Appended (dbs 0) (dbs i) := by
  induction i with
  | zero => exact Appended.refl _
  | succ i ih => exact (ih (by omega)).trans (w.appended i hi)

/-- RUN: a walk through a conversation is a keyset walk through the messages of one ticket. -/
theorem MessageWalk.keysetWalk (w : MessageWalk userId publicId limit dbs pages calls)
    (hcalls : 0 < calls) : ∃ ticket, resolveOwnedTicket (dbs 0) userId publicId = some ticket ∧
      Walk SupportMessage.key limit (fun i => (dbs i).messagesOf ticket.id)
        (fun i => (pages i).keysetPage) calls := by
  obtain ⟨ticket, hticket, hfirst⟩ := messages_page (w.newest hcalls)
  refine ⟨ticket, hticket, fun i hi => ?_, fun i hi hnone => ?_⟩
  · cases i with
    | zero =>
      obtain ⟨hrows, hmore, hnext⟩ := hfirst
      rw [MessagePage.keysetPage, hrows, hmore, hnext, List.reverse_reverse, cursorOf, Option.map_none]
    | succ i =>
      obtain ⟨older, holder, hasked⟩ := w.follows i hi
      obtain ⟨ticket', hticket', hrows, hmore, hnext⟩ := messages_page hasked
      rw [(w.since hi).resolved hticket hticket'] at hrows hmore hnext
      rw [MessagePage.keysetPage, hrows, hmore, hnext, List.reverse_reverse, cursorOf,
        MessagePage.keysetPage, holder]
  · obtain ⟨older, holder, -⟩ := w.follows i hi
    rw [MessagePage.keysetPage, holder] at hnone
    exact absurd hnone (by rintro ⟨⟩)

/-- The pages of a walk, the last one first. -/
def conversation (pages : ℕ → MessagePage) (calls : ℕ) : List SupportMessage :=
  (List.range calls).reverse.flatMap fun i => (pages i).messages

/-- Earlier, or at the same time with a smaller id. -/
def SupportMessage.IsBefore (m m' : SupportMessage) : Prop := isBefore m.position m'.position

/-- The pages of a walk partition the messages `start`, in `count` calls. -/
structure Partitioned (start : List SupportMessage) (pages : ℕ → MessagePage) (calls count : ℕ) :
    Prop where
  few : calls ≤ count
  last : ∀ i < calls, (pages i).older = none ↔ i + 1 = count
  hasMore : ∀ i < calls, (pages i).hasMore = true ↔ ∃ m ∈ start, ∀ j ≤ i, m ∉ (pages j).messages
  once : calls = count → (conversation pages calls).Perm start
  inOrder : calls = count → (conversation pages calls).Pairwise SupportMessage.IsBefore

/-- The number of pages of `n` messages: an empty conversation has one page too. -/
def pageCount (limit n : ℕ) : ℕ := max 1 (n ⌈/⌉ limit)

theorem lt_pageCount_iff (hlimit : 0 < limit) (i n : ℕ) :
    i + 1 < pageCount limit n ↔ (i + 1) * limit < n := by
  have hceil : n ⌈/⌉ limit ≤ i + 1 ↔ n ≤ limit * (i + 1) := ceilDiv_le_iff_le_mul hlimit
  rw [pageCount, Nat.mul_comm]
  omega

section Slices

variable {start S : List SupportMessage} (hlimit : 0 < limit) (hperm : S.Perm start)
  (hS : Descending SupportMessage.key S)
  (hslice : ∀ i < calls, (pages i).keysetPage = pageOf SupportMessage.key limit (S.drop (i * limit)))
include hslice

theorem messages_slice (hi : i < calls) :
    (pages i).messages = ((S.drop (i * limit)).take limit).reverse := by
  have hrows := congrArg Page.rows (hslice i hi)
  rw [MessagePage.keysetPage, pageOf] at hrows
  exact List.reverse_eq_iff.mp hrows

theorem hasMore_slice (hi : i < calls) : (pages i).hasMore = true ↔ (i + 1) * limit < S.length := by
  have hmore := congrArg Page.hasMore (hslice i hi)
  rw [MessagePage.keysetPage, pageOf] at hmore
  dsimp only at hmore
  rw [hmore, decide_eq_true_iff, List.length_drop, Nat.succ_mul]
  omega

include hlimit in
theorem older_slice (hi : i < calls) : (pages i).older = none ↔ S.length ≤ (i + 1) * limit := by
  have hnext := congrArg Page.next (hslice i hi)
  have hlength : (S.drop (i * limit)).length = S.length - i * limit := List.length_drop
  rw [Nat.succ_mul]
  constructor
  · intro hnone
    by_contra hlt
    rw [pageOf_next hlimit (by omega), MessagePage.keysetPage, hnone] at hnext
    exact absurd hnext nofun
  · intro hle
    have hlast : ¬ limit < (S.drop (i * limit)).length := by omega
    rw [MessagePage.keysetPage, pageOf] at hnext
    dsimp only at hnext
    rw [if_neg hlast] at hnext
    exact Option.map_eq_none_iff.mp hnext

/-- The pages up to `i` have the newest messages. -/
theorem mem_pages_iff (hi : i < calls) (m : SupportMessage) :
    (∃ j ≤ i, m ∈ (pages j).messages) ↔ m ∈ S.take ((i + 1) * limit) := by
  rw [← flatMap_slices, List.mem_flatMap]
  constructor
  · rintro ⟨j, hj, hm⟩
    rw [messages_slice hslice (by omega), List.mem_reverse] at hm
    exact ⟨j, List.mem_range.mpr (by omega), hm⟩
  · rintro ⟨j, hj, hm⟩
    have hj : j < i + 1 := List.mem_range.mp hj
    refine ⟨j, by omega, ?_⟩
    rw [messages_slice hslice (by omega), List.mem_reverse]
    exact hm

theorem conversation_slices : conversation pages calls = (S.take (calls * limit)).reverse := by
  rw [conversation, ← flatMap_slices, List.reverse_flatMap, List.flatMap_def, List.flatMap_def]
  congr 1
  refine List.map_congr_left fun i hi => ?_
  exact messages_slice hslice (List.mem_range.mp (List.mem_reverse.mp hi))

include hlimit hperm hS in
/-- Consecutive slices are a partition. -/
theorem partitioned (hgoes : ∀ i, i + 1 < calls → (pages i).older ≠ none) :
    Partitioned start pages calls (pageCount limit start.length) := by
  have hcount := fun i => lt_pageCount_iff hlimit i start.length
  have hpositive : 1 ≤ pageCount limit start.length := le_max_left _ _
  have hlength := hperm.length_eq
  have hwhole : calls = pageCount limit start.length → S.take (calls * limit) = S := by
    intro heq
    have hlast := hcount (calls - 1)
    rw [Nat.sub_add_cancel (heq ▸ hpositive)] at hlast
    exact List.take_of_length_le (by omega)
  have hfew : calls ≤ pageCount limit start.length := by
    by_contra hmany
    obtain ⟨n, hn⟩ := Nat.exists_eq_add_of_le' hpositive
    have hmore := (older_slice hlimit hslice (by omega)).not.mp (hgoes n (by omega))
    have hlast := hcount n
    omega
  refine ⟨hfew, fun i hi => ?_, fun i hi => ?_, fun heq => ?_, fun heq => ?_⟩
  · have hlast := hcount i
    rw [older_slice hlimit hslice hi]
    omega
  · have hread : ∀ m, (∀ j ≤ i, m ∉ (pages j).messages) ↔ m ∉ S.take ((i + 1) * limit) := fun m => by
      rw [← mem_pages_iff hslice hi]
      simp
    rw [hasMore_slice hslice hi]
    constructor
    · intro hlt
      refine ⟨S[(i + 1) * limit], hperm.subset (List.getElem_mem _), (hread _).mpr fun hm => ?_⟩
      have hnodup : S.Nodup := hS.nodup.of_map
      obtain ⟨j, hj, heq⟩ := List.mem_take_iff_getElem.mp hm
      have hsame := (List.Nodup.getElem_inj_iff hnodup).mp heq
      omega
    · rintro ⟨m, hm, hnot⟩
      by_contra hle
      rw [hread, List.take_of_length_le (not_lt.mp hle)] at hnot
      exact hnot (hperm.symm.subset hm)
  · rw [conversation_slices hslice, hwhole heq]
    exact S.reverse_perm.trans hperm
  · rw [conversation_slices hslice, hwhole heq, List.pairwise_reverse]
    exact hS.imp fun hlt => isBefore_iff.mpr hlt

end Slices

/-! ### The list of tickets -/

/-- The tickets of a user. -/
def Database.ticketsOf (db : Database) (userId : String) : List SupportTicket :=
  db.tickets.filter fun t => t.userId = userId

/-- The key of a ticket. -/
def SupportTicket.key (t : SupportTicket) : ℕ ×ₗ String := t.position.key

/-- The keyset page behind a page of tickets. -/
def TicketPage.keysetPage (p : TicketPage) : Page SupportTicket (ℕ ×ₗ String) :=
  ⟨p.tickets, p.hasMore, p.next.map Position.key⟩

theorem tickets_page (db : Database) (userId : String) (limit : ℕ) (cursor : Option Position) :
    (listOwnedTickets db userId limit cursor).keysetPage =
      page SupportTicket.key limit (db.ticketsOf userId) (cursor.map Position.key) := by
  have hfound : (db.tickets.filter fun t => t.userId = userId ∧ isAskedFor cursor t.position) =
      (db.ticketsOf userId).filter fun t => Behind (cursor.map Position.key) t.position.key := by
    rw [Database.ticketsOf, List.filter_filter]
    refine List.filter_congr fun t _ => ?_
    rw [isAskedFor_eq, Bool.decide_and, Bool.decide_eq_true, Bool.and_comm]
  obtain ⟨hrows, hmore, hnext⟩ := page_found SupportTicket.position limit (db.ticketsOf userId) cursor
  rw [listOwnedTickets, hfound, TicketPage.keysetPage]
  simp only [decide_eq_true_eq]
  rw [hrows] at hnext ⊢
  rw [hmore]
  exact congrArg (Page.mk _ _) hnext

/-- Calls that follow `next` through the list of a user's tickets. Anything may happen between them. -/
structure TicketWalk (userId : String) (limit : ℕ) (db : ℕ → Database) (pages : ℕ → TicketPage)
    (calls : ℕ) : Prop where
  first : 0 < calls → pages 0 = listOwnedTickets (db 0) userId limit none
  follows : ∀ i, i + 1 < calls → ∃ next, (pages i).next = some next ∧
    pages (i + 1) = listOwnedTickets (db (i + 1)) userId limit (some next)

/-- The tickets of a walk. -/
def ticketsListed (pages : ℕ → TicketPage) (calls : ℕ) : List SupportTicket :=
  (List.range calls).flatMap fun i => (pages i).tickets

/-- In the tables of a walk: a ticket that nobody touches. -/
def Untouched (db : ℕ → Database) (calls : ℕ) (x : SupportTicket) : Prop :=
  ∀ i < calls, ∃ t ∈ (db i).tickets, t.id = x.id ∧ t.userId = x.userId ∧ t.updatedAt = x.updatedAt

section Tickets

variable {listed : ℕ → TicketPage} {x : SupportTicket}

theorem TicketWalk.page_eq (w : TicketWalk userId limit dbs listed calls) (hi : i < calls) :
    ∃ after, listed i = listOwnedTickets (dbs i) userId limit after ∧
      after.map Position.key = cursorOf (fun i => (listed i).keysetPage) i := by
  cases i with
  | zero => exact ⟨none, w.first hi, rfl⟩
  | succ i =>
    obtain ⟨next, hnext, hpage⟩ := w.follows i hi
    refine ⟨some next, hpage, ?_⟩
    rw [cursorOf, TicketPage.keysetPage, hnext]

theorem TicketWalk.keysetWalk (w : TicketWalk userId limit dbs listed calls) :
    Walk SupportTicket.key limit (fun i => (dbs i).ticketsOf userId)
      (fun i => (listed i).keysetPage) calls := by
  refine ⟨fun i hi => ?_, fun i hi hnone => ?_⟩
  · obtain ⟨after, hpage, hafter⟩ := w.page_eq hi
    rw [hpage, tickets_page, hafter]
  · obtain ⟨next, hnext, -⟩ := w.follows i hi
    rw [TicketPage.keysetPage, hnext] at hnone
    exact absurd hnone nofun

/-- The ids of the tickets are unique, so their keys are. -/
theorem tickets_nodup (db : Database) (userId : String) :
    ((db.ticketsOf userId).map SupportTicket.key).Nodup := by
  have hids : (db.ticketsOf userId).Pairwise fun t t' => t.id ≠ t'.id :=
    (List.pairwise_map.mp db.ticketIds).sublist List.filter_sublist
  refine List.pairwise_map.mpr (hids.imp fun hne heq => hne ?_)
  exact congrArg Position.id (Position.key_injective heq)

/-- Ownership is in the query. -/
theorem mem_ticketsOf (w : TicketWalk userId limit dbs listed calls) (hi : i < calls)
    {t : SupportTicket} (ht : t ∈ (listed i).tickets) : t ∈ (dbs i).ticketsOf userId := by
  obtain ⟨after, hpage, -⟩ := w.page_eq hi
  have hrows : (listed i).tickets = (page SupportTicket.key limit ((dbs i).ticketsOf userId)
      (after.map Position.key)).rows := by
    rw [← tickets_page, hpage]
    rfl
  rw [hrows, page_rows] at ht
  exact (List.mem_filter.mp (newestFirst_perm.subset (List.mem_of_mem_take ht))).1

theorem ticket_listed (w : TicketWalk userId limit dbs listed calls) (hlimit : 0 < limit)
    (hcalls : 0 < calls) (hend : (listed (calls - 1)).next = none) (hx : Untouched dbs calls x)
    (huser : x.userId = userId) : ((ticketsListed listed calls).countP fun t => t.id = x.id) = 1 := by
  have hmem : ∀ i < calls, x.key ∈ ((dbs i).ticketsOf userId).map SupportTicket.key := by
    intro i hi
    obtain ⟨t, ht, hid, howner, htime⟩ := hx i hi
    refine List.mem_map.mpr ⟨t, List.mem_filter.mpr ⟨ht, ?_⟩, ?_⟩
    · exact decide_eq_true (howner.trans huser)
    · rw [SupportTicket.key, SupportTicket.position, hid, htime]
      rfl
  have honce := w.keysetWalk.once hlimit (fun i _ => tickets_nodup (dbs i) userId) hmem hcalls (by
    rw [TicketPage.keysetPage, hend]
    rfl)
  rw [← honce]
  refine List.countP_congr fun t ht => ?_
  obtain ⟨i, hi, ht⟩ := List.mem_flatMap.mp ht
  have hi : i < calls := List.mem_range.mp hi
  -- a row of that id is the row of that key
  have hrow : t.id = x.id ↔ t.key = x.key := by
    obtain ⟨t', ht', hid, -, htime⟩ := hx i hi
    refine ⟨fun heq => ?_, fun heq => congrArg Position.id (Position.key_injective heq)⟩
    have hin : t ∈ (dbs i).tickets := (List.mem_filter.mp (mem_ticketsOf w hi ht)).1
    obtain rfl : t = t' := List.inj_on_of_nodup_map (dbs i).ticketIds hin ht' (heq.trans hid.symm)
    rw [SupportTicket.key, SupportTicket.position, hid, htime]
    rfl
  rw [decide_eq_true_iff, decide_eq_true_iff]
  exact hrow

end Tickets

/-! ### The pages -/

/-- The tickets of a complete walk: of the user only, and once each that nobody touched. -/
structure Listed (userId : String) (db : ℕ → Database) (pages : ℕ → TicketPage) (calls : ℕ) : Prop
    where
  own : ∀ i < calls, ∀ t ∈ (pages i).tickets, t.userId = userId
  once : (pages (calls - 1)).next = none → ∀ x : SupportTicket, x.userId = userId →
    Untouched db calls x → ((ticketsListed pages calls).countP fun t => t.id = x.id) = 1

/-- The pages of a conversation partition it, and a list of tickets has each that is not touched. -/
theorem support_pages (userId : String) {limit calls : ℕ} {db : ℕ → Database} (hlimit : 0 < limit)
    (hcalls : 0 < calls) :
    (∀ publicId pages, MessageWalk userId publicId limit db pages calls →
      ∃ ticket, resolveOwnedTicket (db 0) userId publicId = some ticket ∧
        Partitioned ((db 0).messagesOf ticket.id) pages calls
          (pageCount limit ((db 0).messagesOf ticket.id).length)) ∧
      ∀ pages, TicketWalk userId limit db pages calls → Listed userId db pages calls := by
  refine ⟨fun publicId pages w => ?_, fun pages w => ⟨fun i hi t ht => ?_, fun hend x huser hx => ?_⟩⟩
  · obtain ⟨ticket, hticket, hwalk⟩ := w.keysetWalk hcalls
    have hnodup := messages_nodup (db 0) ticket.id
    refine ⟨ticket, hticket, partitioned hlimit newestFirst_perm (newestFirst_descending hnodup) ?_ ?_⟩
    · intro i hi
      refine hwalk.slice hlimit newestFirst_perm.symm (newestFirst_descending hnodup) ?_ hi
      intro j hj
      obtain ⟨newer, hperm, hnewer⟩ := (w.since hj).grown ticket.id
      refine ⟨newer, hperm.trans (newestFirst_perm.symm.append_right _), fun n hn m hm => ?_⟩
      exact hnewer n hn m (newestFirst_perm.subset hm)
    · intro i hi
      obtain ⟨older, holder, -⟩ := w.follows i hi
      rw [holder]
      exact nofun
  · exact of_decide_eq_true (List.mem_filter.mp (mem_ticketsOf w hi ht)).2
  · exact ticket_listed w hlimit hcalls hend hx huser

/-! ### Two runs -/

/-- A ticket's conversation of three messages, two of them at one time, and then one more. -/
def conversationOf (late : Bool) : Database where
  tickets := [⟨"0a1b2c3d-1", "u", 9, none, none⟩, ⟨"0a1b2c3d-2", "v", 9, none, none⟩]
  messages := [⟨"m2", "0a1b2c3d-1", 5, none, none⟩, ⟨"m1", "0a1b2c3d-1", 5, none, none⟩,
    ⟨"m0", "0a1b2c3d-1", 4, none, none⟩] ++
      if late then [⟨"m3", "0a1b2c3d-1", 6, none, none⟩] else []
  ticketIds := by decide
  messageIds := by cases late <;> decide

/-- Two pages; the fourth message comes between them. -/
def twoPages : ℕ → MessagePage
  | 0 => ⟨[⟨"m1", "0a1b2c3d-1", 5, none, none⟩, ⟨"m2", "0a1b2c3d-1", 5, none, none⟩], true,
    some ⟨5, "m1"⟩⟩
  | _ => ⟨[⟨"m0", "0a1b2c3d-1", 4, none, none⟩], false, none⟩

theorem twoPages_walk :
    MessageWalk "u" (some "0A1B2C3D") 2 (fun i => conversationOf (i = 1)) twoPages 2 := by
  refine ⟨fun _ => by decide +kernel, fun i hi => ?_, fun i hi => ?_⟩
  · obtain rfl : i = 0 := by omega
    exact ⟨⟨5, "m1"⟩, by decide +kernel, by decide +kernel⟩
  · obtain rfl : i = 0 := by omega
    refine ⟨⟨[⟨"m3", "0a1b2c3d-1", 6, none, none⟩], List.Perm.refl _, ?_⟩, fun t ht => ⟨t, ht, rfl, rfl⟩⟩
    decide +kernel

theorem support_pages_two : (conversation twoPages 2).map SupportMessage.id = ["m0", "m1", "m2"] ∧
    Partitioned ((conversationOf false).messagesOf "0a1b2c3d-1") twoPages 2
      (pageCount 2 ((conversationOf false).messagesOf "0a1b2c3d-1").length) := by
  obtain ⟨ticket, hticket, hpartitioned⟩ := (support_pages "u" (by decide) (by decide)).1
    (some "0A1B2C3D") twoPages twoPages_walk
  have hresolved : resolveOwnedTicket (conversationOf false) "u" (some "0A1B2C3D") =
      some ⟨"0a1b2c3d-1", "u", 9, none, none⟩ := by decide +kernel
  obtain rfl := Option.some.inj (hresolved.symm.trans hticket)
  exact ⟨by decide +kernel, hpartitioned⟩

/-- A ticket without messages. -/
def silentTicket : Database where
  tickets := [⟨"0a1b2c3d-1", "u", 9, none, none⟩]
  messages := []
  ticketIds := by decide
  messageIds := by decide

/-- The walk through an empty conversation has one page too. -/
theorem support_pages_empty : ¬ ∀ (userId : String) (publicId : Option String) (limit calls : ℕ)
    (db : ℕ → Database) (pages : ℕ → MessagePage), 0 < limit →
      MessageWalk userId publicId limit db pages calls → 0 < calls → (pages (calls - 1)).older = none →
        ∃ ticket, resolveOwnedTicket (db 0) userId publicId = some ticket ∧
          calls = ((db 0).messagesOf ticket.id).length ⌈/⌉ limit := by
  intro h
  obtain ⟨ticket, -, hcalls⟩ := h "u" (some "0a1b2c3d") 1 1 (fun _ => silentTicket)
    (fun _ => ⟨[], false, none⟩) (by decide)
    ⟨fun _ => by decide +kernel, fun i hi => by omega, fun i hi => by omega⟩ (by decide) rfl
  rw [Database.messagesOf, silentTicket, List.filter_nil, List.length_nil, zero_ceilDiv] at hcalls
  exact absurd hcalls (by decide)

end ZedBot.Support
