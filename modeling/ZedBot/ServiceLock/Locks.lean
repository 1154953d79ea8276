import Mathlib.Logic.Function.Basic
import ZedBot.LeaseHistory

/-! The service lock.

    Redis maps a key to a token and the instant at which the entry expires. A call of
    `acquireServiceLock` sets its own token where the key is free, and waits and tries again where it is
    not; who was told ok renews its entry on a timer and deletes it at the end. A command that was sent
    waits for its answer: Redis may run it while it waits, and the wait ends with what Redis replied, or
    with an error or a time-out. The commands of a connection are answered in the order in which they
    were sent, and have one time limit. -/

namespace ZedBot.ServiceLock
open LeaseHistory

def SERVICE_LOCK_TTL_MS : ℕ := 90000
def HEARTBEAT_INTERVAL_MS : ℕ := 30000
def RETRY_BASE_DELAY_MS : ℕ := 150
def RETRY_JITTER_MS : ℕ := 100

/-! ### Redis -/

structure Entry where
  token : String
  expiresAt : ℕ
  deriving DecidableEq, Repr

abbrev Redis := String → Option Entry

namespace Redis

variable (redis : Redis) (now : ℕ) (key token : String)

/-- `GET`: an entry that has expired has no value. -/
def get : Option String :=
  (redis key).bind fun entry => if now < entry.expiresAt then some entry.token else none

/-- `SET key token PX ttl NX`. -/
def setNx : Bool × Redis :=
  if redis.get now key = none then
    (true, Function.update redis key (some ⟨token, now + SERVICE_LOCK_TTL_MS⟩))
  else (false, redis)

/-- `RENEW_LUA`. -/
def renew : Bool × Redis :=
  if redis.get now key = some token then
    (true, Function.update redis key (some ⟨token, now + SERVICE_LOCK_TTL_MS⟩))
  else (false, redis)

/-- `RELEASE_LUA`. -/
def release : Bool × Redis :=
  if redis.get now key = some token then (true, Function.update redis key none) else (false, redis)

def run : Command → Bool × Redis
  | .set => redis.setNx now key token
  | .renew => redis.renew now key token
  | .release => redis.release now key token

end Redis

/-! ### Acquirers -/

/-- A command that waits for its answer: when Redis has run it, and what it replied. -/
structure Pending where
  command : Command
  reply : Option (ℕ × Bool) := none
  deriving DecidableEq, Repr

/-- The state behind a lock object; the heartbeat is the instant at which its timer fires next. -/
structure Lock where
  lost : Bool := false
  released : Bool := false
  heartbeat : Option ℕ
  deriving DecidableEq, Repr

inductive Refusal
  | contended | unavailable
  deriving DecidableEq, Repr

inductive Phase
  | idle
  | trying (deadline : ℕ)
  | sleeping (deadline wakeAt : ℕ)
  | refused (reason : Refusal)
  | ok (lock : Lock)
  | crashed
  deriving DecidableEq, Repr

/-- An answer that an acquirer got: its command, when Redis ran it and what it replied. -/
structure Answer where
  command : Command
  time : ℕ
  ok : Bool
  deriving DecidableEq, Repr

/-- An acquirer, with the commands that wait, oldest first, and the answers it has had. -/
structure Acquirer where
  phase : Phase := .idle
  pending : List Pending := []
  answered : List Answer := []
  deriving DecidableEq, Repr

/-- A call of `acquireServiceLock`, with the random token that it draws. -/
structure Call where
  key : String
  token : String
  waitMs : ℕ := 5000
  deriving DecidableEq, Repr

namespace Acquirer

def isLost (x : Acquirer) : Bool :=
  match x.phase with
  | .ok lock => lock.lost
  | _ => false

/-- Was told ok, and has neither released the lock nor crashed. -/
def Owns (x : Acquirer) : Prop := ∃ lock, x.phase = .ok lock ∧ lock.released = false

def send (x : Acquirer) (phase : Phase) (command : Command) : Acquirer :=
  { x with phase := phase, pending := x.pending ++ [{ command := command }] }

/-- What the acquirer does with a reply. -/
def onReply (now jitter : ℕ) (command : Command) (ok : Bool) (phase : Phase) : Phase :=
  match command, phase with
  | .set, .trying deadline =>
    if ok then .ok { heartbeat := some (now + HEARTBEAT_INTERVAL_MS) }
    else if deadline ≤ now then .refused .contended
    else
      let delay := RETRY_BASE_DELAY_MS + jitter % RETRY_JITTER_MS
      .sleeping deadline (now + min delay (deadline - now))
  | .renew, .ok lock =>
    if ¬ ok ∧ ¬ lock.released then .ok { lock with lost := true, heartbeat := none } else .ok lock
  | _, phase => phase

/-- What the acquirer does with an error or a time-out. -/
def onError (command : Command) (phase : Phase) : Phase :=
  match command, phase with
  | .set, .trying _ => .refused .unavailable
  | _, phase => phase

end Acquirer

/-! ### The system -/

structure System where
  now : ℕ := 0
  redis : Redis := fun _ => none
  acquirers : ℕ → Acquirer := fun _ => {}
  /-- The commands that succeeded on Redis, newest first. -/
  log : List (Ran ℕ) := []

/-- What may happen next; `p` is the acquirer. -/
inductive Event
  /-- Time passes. -/
  | pass (ms : ℕ)
  /-- `acquireServiceLock` is called, with a client or without one. -/
  | call (p : ℕ) (client : Bool)
  /-- Redis runs the waiting command at this place. -/
  | run (p place : ℕ)
  /-- The oldest command is answered. -/
  | settle (p jitter : ℕ)
  /-- The oldest command ends with an error or a time-out, whether Redis has run it or not. -/
  | fail (p : ℕ)
  | wake (p : ℕ)
  | beat (p : ℕ)
  | release (p : ℕ)
  | crash (p : ℕ)
  deriving DecidableEq, Repr

namespace System

variable (calls : ℕ → Call)

def setAcquirer (s : System) (p : ℕ) (x : Acquirer) : System :=
  { s with acquirers := Function.update s.acquirers p x }

@[simp] theorem setAcquirer_self (s : System) (p : ℕ) (x : Acquirer) :
    (s.setAcquirer p x).acquirers p = x := Function.update_self ..

@[simp] theorem setAcquirer_of_ne (s : System) {p q : ℕ} (x : Acquirer) (h : q ≠ p) :
    (s.setAcquirer p x).acquirers q = s.acquirers q := Function.update_of_ne h ..

/-- Redis runs a command of an acquirer. -/
def runCommand (s : System) (p place : ℕ) (command : Command) : System :=
  let result := s.redis.run s.now (calls p).key (calls p).token command
  let x := s.acquirers p
  { s.setAcquirer p { x with pending := x.pending.set place ⟨command, some (s.now, result.1)⟩ } with
    redis := result.2
    log := if result.1 then ⟨s.now, p, command⟩ :: s.log else s.log }

def step (s : System) : Event → Option System
  | .pass ms => some { s with now := s.now + ms }
  | .call p client =>
    let x := s.acquirers p
    if x.phase = .idle then
      if client then some (s.setAcquirer p (x.send (.trying (s.now + (calls p).waitMs)) .set))
      else some (s.setAcquirer p { x with phase := .refused .unavailable })
    else none
  | .run p place =>
    match (s.acquirers p).pending[place]? with
    | some ⟨command, none⟩ => some (s.runCommand calls p place command)
    | _ => none
  | .settle p jitter =>
    let x := s.acquirers p
    match x.pending with
    | ⟨command, some (time, ok)⟩ :: rest =>
      some (s.setAcquirer p
        { phase := Acquirer.onReply s.now jitter command ok x.phase
          pending := rest
          answered := ⟨command, time, ok⟩ :: x.answered })
    | _ => none
  | .fail p =>
    let x := s.acquirers p
    match x.pending with
    | ⟨command, _⟩ :: rest =>
      some (s.setAcquirer p
        { x with phase := Acquirer.onError command x.phase, pending := rest })
    | [] => none
  | .wake p =>
    let x := s.acquirers p
    match x.phase with
    | .sleeping deadline wakeAt =>
      if wakeAt ≤ s.now then some (s.setAcquirer p (x.send (.trying deadline) .set)) else none
    | _ => none
  | .beat p =>
    let x := s.acquirers p
    match x.phase with
    | .ok lock =>
      if lock.heartbeat.any (· ≤ s.now) then
        let lock := { lock with heartbeat := some (s.now + HEARTBEAT_INTERVAL_MS) }
        some (s.setAcquirer p (x.send (.ok lock) .renew))
      else none
    | _ => none
  | .release p =>
    let x := s.acquirers p
    match x.phase with
    | .ok lock =>
      let lock := { lock with released := true, heartbeat := none }
      some (s.setAcquirer p (x.send (.ok lock) .release))
    | _ => none
  | .crash p => some (s.setAcquirer p { s.acquirers p with phase := .crashed, pending := [] })

/-- The system after a list of events. -/
def exec (s : System) : List Event → Option System
  | [] => some s
  | e :: es => (s.step calls e).bind fun s' => s'.exec es

/-- A state that is reached by some events. -/
inductive Reaches (s : System) : System → Prop
  | refl : Reaches s s
  | tail {s' s'' : System} (e : Event) (h : Reaches s s') (hs : s'.step calls e = some s'') :
    Reaches s s''

end System

end ZedBot.ServiceLock
