import ZedBot.Support.Outbox

/-! # Workers on the outbox

    Any number of workers, statement by statement: sweeps and immediate deliveries, workers that
    die, and claims that are recovered.

        claiming ──▶ rendering ──▶ freezing ──▶ expanded ──▶ picking ──▶ sending ⇄ answered
            ▲                                                               │
            └──────────────────────────── counted ◀─────────────────────────┘ -/

namespace ZedBot.Support.Outbox

open Rows

inductive Phase
  | rendering
  | freezing (adminIds : List ℕ)
  | expanded
  | picking (candidates : List Candidate) (claimed : List DeliverableRecipient)
  | sending (todo : List DeliverableRecipient)
  | answered (r : DeliverableRecipient) (code : Option String) (todo : List DeliverableRecipient)
  | counted (counts : Counts)
  deriving DecidableEq

/-- What a worker is at: claiming the intents it has seen, or delivering one of those it owns. -/
inductive Task
  | claiming (seen owned : List DeliverableIntent)
  | working (intent : DeliverableIntent) (owned : List DeliverableIntent) (phase : Phase)
  deriving DecidableEq

/-- A message that was sent under a claim and how it was answered, a claim that was recovered, and
    a success whose mark threw. -/
inductive Entry
  | sent (intentId adminId claim : ℕ) (ok : Bool)
  | recovered (intentId adminId : ℕ)
  | unmarked (intentId adminId : ℕ)
  deriving DecidableEq

structure System where
  db : Db := {}
  tasks : ℕ → Option Task := fun _ => none
  log : List Entry := []

/-- What a worker does next. A failing statement rejects the intent, and the process may die. -/
inductive Action
  | sweep (limit : ℕ) (now : Instant)
  | look (ticketId : ℕ) (kind : String)
  | claim (now : Instant)
  | next
  | abandon (now : Instant)
  | snapshot
  | retryFreeze
  | freeze (now : Instant)
  | readDue (now : Instant)
  | pick (now : Instant)
  | picked
  | send (code : Option String)
  | mark (now : Instant)
  | markThrows (code : String) (applied : Bool) (now : Instant)
  | count
  | settle (now : Instant)
  | reject
  | die

inductive Event
  | record (id ticketId messageId : ℕ) (kind : String)
  | setActive (adminId : ℕ) (isActive : Bool)
  | act (w : ℕ) (a : Action)
  | recoverRecipients (ticketIds : Option (List ℕ)) (now : Instant)
  | recoverIntents (ticketIds : Option (List ℕ)) (now : Instant)

/-- The claims that `pick` wins: at most one, the key is unique. -/
def wonClaim (intentId : ℕ) (c : Candidate) (db : Db) : List DeliverableRecipient :=
  match db.recipients.filter (isRecipient intentId c.adminId .PENDING) with
  | [r] => [{ intentId, adminId := c.adminId, attempts := c.attempts + 1, claim := r.attempts + 1 }]
  | _ => []

/-- One step of a worker in a phase of an intent's delivery. -/
def deliver (db : Db) (i : DeliverableIntent) : Phase → Action → Option (Db × Phase × List Entry)
  | .rendering, .snapshot =>
    if i.kind ∈ SUPPORT_NOTIFICATION_KINDS then some (db, .freezing (eligibleAdminIds db), [])
    else none
  | .freezing _, .retryFreeze => some (db, .freezing (eligibleAdminIds db), [])
  | .freezing adminIds, .freeze now => some (freeze i.id adminIds now db, .expanded, [])
  | .expanded, .readDue now => some (db, .picking (dueRecipients i.id now db) [], [])
  | .picking (c :: candidates) claimed, .pick now =>
    if c.isActive then
      some (claimRecipient i.id c.adminId now db,
        .picking candidates (claimed ++ wonClaim i.id c db), [])
    else some (skipRecipient i.id c.adminId db, .picking candidates claimed, [])
  | .picking [] claimed, .picked => some (db, .sending claimed, [])
  | .sending (r :: todo), .send code =>
    some (db, .answered r code todo, [.sent r.intentId r.adminId r.claim code.isNone])
  | .answered r none todo, .mark now =>
    some (markRecipientSent r.intentId r.adminId now db, .sending todo, [])
  | .answered r (some code) todo, .mark now =>
    some (markRecipientFailed r.intentId r.adminId r.attempts code now db, .sending todo, [])
  | .answered r none todo, .markThrows code applied now =>
    some (if applied then markRecipientSent r.intentId r.adminId now db else db,
      .answered r (some code) todo, [.unmarked r.intentId r.adminId])
  | .sending [], .count => some (db, .counted (countRecipients i.id db), [])
  | _, _ => none

/-- One step of a worker. -/
def act (db : Db) : Option Task → Action → Option (Db × Option Task × List Entry)
  | none, .sweep limit now => some (db, some (.claiming (dueIntents limit now db) []), [])
  | none, .look ticketId kind =>
    some (db, some (.claiming (intentForTicket ticketId kind db) []), [])
  | some (.claiming (i :: seen) owned), .claim now =>
    let won :=
      if db.intents.countP (claimable i.id) = 1 then [{ i with attempts := i.attempts + 1 }] else []
    some (claimIntent i.id now db, some (.claiming seen (owned ++ won)), [])
  | some (.claiming [] []), .next => some (db, none, [])
  | some (.claiming [] (i :: owned)), .next => some (db, some (.working i owned .rendering), [])
  | some (.working i owned .rendering), .abandon now =>
    let code := if i.kind ∈ SUPPORT_NOTIFICATION_KINDS then "ticket-missing" else "unknown-kind"
    some (abandonIntent i.id code now db, some (.claiming [] owned), [])
  | some (.working i owned (.counted counts)), .settle now =>
    some (settleIntent i.id i.attempts counts now db, some (.claiming [] owned), [])
  | some (.working _ owned _), .reject => some (db, some (.claiming [] owned), [])
  | some _, .die => some (db, none, [])
  | some (.working i owned phase), a =>
    (deliver db i phase a).map fun (db, phase, entries) =>
      (db, some (.working i owned phase), entries)
  | _, _ => none

def step (s : System) : Event → Option System
  | .record id ticketId messageId kind =>
    if id ∈ s.db.intents.map SupportNotificationIntent.id then none
    else some { s with db := { s.db with
      intents := s.db.intents ++ [{ id, ticketId, messageId, kind }] } }
  | .setActive adminId isActive =>
    some { s with db := { s.db with
      admins := s.db.admins.filter (fun a => a.id ≠ adminId) ++ [⟨adminId, isActive⟩] } }
  | .act w a =>
    (act s.db (s.tasks w) a).map fun (db, task, entries) =>
      { db, tasks := Function.update s.tasks w task, log := s.log ++ entries }
  | .recoverRecipients ticketIds now =>
    some { s with
      db := recoverRecipients ticketIds now s.db
      log := s.log ++ (s.db.recipients.filter (staleRecipient ticketIds now s.db)).map
        fun r => .recovered r.intentId r.adminId }
  | .recoverIntents ticketIds now => some { s with db := recoverIntents ticketIds now s.db }

abbrev Reaches : System → System → Prop := Runs.Reaches step

/-- No event yet. -/
structure Start (s : System) : Prop where
  intents : s.db.intents = []
  recipients : s.db.recipients = []
  adminIds : (s.db.admins.map Admin.id).Nodup
  tasks : ∀ w, s.tasks w = none
  log : s.log = []

/-! ### One constructor for each step -/

inductive Delivers (db : Db) (i : DeliverableIntent) : Phase → Db → Phase → List Entry → Prop
  | snapshot : Delivers db i .rendering db (.freezing (eligibleAdminIds db)) []
  | retryFreeze (adminIds : List ℕ) :
    Delivers db i (.freezing adminIds) db (.freezing (eligibleAdminIds db)) []
  | freeze (adminIds : List ℕ) (now : Instant) :
    Delivers db i (.freezing adminIds) (freeze i.id adminIds now db) .expanded []
  | readDue (now : Instant) :
    Delivers db i .expanded db (.picking (dueRecipients i.id now db) []) []
  | pick (c : Candidate) (candidates : List Candidate) (claimed : List DeliverableRecipient)
    (now : Instant) :
    Delivers db i (.picking (c :: candidates) claimed) (claimRecipient i.id c.adminId now db)
      (.picking candidates (claimed ++ wonClaim i.id c db)) []
  | skip (c : Candidate) (candidates : List Candidate) (claimed : List DeliverableRecipient) :
    Delivers db i (.picking (c :: candidates) claimed) (skipRecipient i.id c.adminId db)
      (.picking candidates claimed) []
  | picked (claimed : List DeliverableRecipient) :
    Delivers db i (.picking [] claimed) db (.sending claimed) []
  | send (r : DeliverableRecipient) (todo : List DeliverableRecipient) (code : Option String) :
    Delivers db i (.sending (r :: todo)) db (.answered r code todo)
      [.sent r.intentId r.adminId r.claim code.isNone]
  | markSent (r : DeliverableRecipient) (todo : List DeliverableRecipient) (now : Instant) :
    Delivers db i (.answered r none todo) (markRecipientSent r.intentId r.adminId now db)
      (.sending todo) []
  | markFailed (r : DeliverableRecipient) (todo : List DeliverableRecipient) (code : String)
    (now : Instant) :
    Delivers db i (.answered r (some code) todo)
      (markRecipientFailed r.intentId r.adminId r.attempts code now db) (.sending todo) []
  | markThrows (r : DeliverableRecipient) (todo : List DeliverableRecipient) (code : String) :
    Delivers db i (.answered r none todo) db (.answered r (some code) todo)
      [.unmarked r.intentId r.adminId]
  | markApplied (r : DeliverableRecipient) (todo : List DeliverableRecipient) (code : String)
    (now : Instant) :
    Delivers db i (.answered r none todo) (markRecipientSent r.intentId r.adminId now db)
      (.answered r (some code) todo) [.unmarked r.intentId r.adminId]
  | count : Delivers db i (.sending []) db (.counted (countRecipients i.id db)) []

inductive Acts (db : Db) : Option Task → Db → Option Task → List Entry → Prop
  | sweep (limit : ℕ) (now : Instant) :
    Acts db none db (some (.claiming (dueIntents limit now db) [])) []
  | look (ticketId : ℕ) (kind : String) :
    Acts db none db (some (.claiming (intentForTicket ticketId kind db) [])) []
  | claim (i : DeliverableIntent) (seen owned owned' : List DeliverableIntent) (now : Instant)
    (howned : ∀ j ∈ owned', j ∈ owned ∨ j.id = i.id) :
    Acts db (some (.claiming (i :: seen) owned)) (claimIntent i.id now db)
      (some (.claiming seen owned')) []
  | finish : Acts db (some (.claiming [] [])) db none []
  | next (i : DeliverableIntent) (owned : List DeliverableIntent) :
    Acts db (some (.claiming [] (i :: owned))) db (some (.working i owned .rendering)) []
  | abandon (i : DeliverableIntent) (owned : List DeliverableIntent) (code : String)
    (now : Instant) (hcode : code = "unknown-kind" ∨ code = "ticket-missing") :
    Acts db (some (.working i owned .rendering)) (abandonIntent i.id code now db)
      (some (.claiming [] owned)) []
  | settle (i : DeliverableIntent) (owned : List DeliverableIntent) (counts : Counts)
    (now : Instant) :
    Acts db (some (.working i owned (.counted counts)))
      (settleIntent i.id i.attempts counts now db) (some (.claiming [] owned)) []
  | reject (i : DeliverableIntent) (owned : List DeliverableIntent) (phase : Phase) :
    Acts db (some (.working i owned phase)) db (some (.claiming [] owned)) []
  | die (task : Task) : Acts db (some task) db none []
  | deliver (i : DeliverableIntent) (owned : List DeliverableIntent) {phase phase' : Phase}
    {db' : Db} {entries : List Entry} (h : Delivers db i phase db' phase' entries) :
    Acts db (some (.working i owned phase)) db' (some (.working i owned phase')) entries

theorem delivers_of_deliver {db db' : Db} {i : DeliverableIntent} {phase phase' : Phase}
    {a : Action} {entries : List Entry} (h : deliver db i phase a = some (db', phase', entries)) :
    Delivers db i phase db' phase' entries := by
  unfold deliver at h
  split at h
  · split_ifs at h
    cases h
    exact .snapshot
  · cases h
    exact .retryFreeze _
  · cases h
    exact .freeze _ _
  · cases h
    exact .readDue _
  · split_ifs at h <;> cases h
    · exact .pick _ _ _ _
    · exact .skip _ _ _
  · cases h
    exact .picked _
  · cases h
    exact .send _ _ _
  · cases h
    exact .markSent _ _ _
  · cases h
    exact .markFailed _ _ _ _
  · cases h
    split_ifs
    · exact .markApplied _ _ _ _
    · exact .markThrows _ _ _
  · cases h
    exact .count
  · cases h

theorem acts_of_act {db db' : Db} {task task' : Option Task} {a : Action} {entries : List Entry}
    (h : act db task a = some (db', task', entries)) : Acts db task db' task' entries := by
  unfold act at h
  split at h
  · cases h
    exact .sweep _ _
  · cases h
    exact .look _ _
  · cases h
    refine .claim _ _ _ _ _ fun j hj => (List.mem_append.mp hj).imp_right fun hwon => ?_
    split_ifs at hwon
    · rw [List.mem_singleton.mp hwon]
    · cases hwon
  · cases h
    exact .finish
  · cases h
    exact .next _ _
  · cases h
    refine .abandon _ _ _ _ ?_
    split_ifs
    · exact .inr rfl
    · exact .inl rfl
  · cases h
    exact .settle _ _ _ _
  · cases h
    exact .reject _ _ _
  · cases h
    exact .die _
  · obtain ⟨⟨db₁, phase₁, entries₁⟩, hdeliver, heq⟩ := Option.map_eq_some_iff.mp h
    cases heq
    exact .deliver _ _ (delivers_of_deliver hdeliver)
  · cases h

end ZedBot.Support.Outbox
