import ZedBot.ForceJoin.Channels
import Mathlib.Data.Rat.Defs
import Mathlib.Algebra.Order.Ring.Unbundled.Rat

/-! # Membership checks and the health of a channel

    A call checks all active channels of its snapshot. Telegram answers each check when it likes;
    an answer that the bot may not see the channel is counted once all checks of the call are in,
    and a call that succeeds clears the failures, if its snapshot showed any.

        waiting ──answer──▶ clearing ──clear──▶ done JOINED / NOT_JOINED
                     └────▶ done UNVERIFIABLE ──alert──▶ alerted ──record──▶ recorded -/

namespace ZedBot.ForceJoin

inductive ChannelCheck
  | JOINED
  | NOT_JOINED
  | TEMP
  | UNVERIFIABLE
  deriving DecidableEq

/-! ### Answers -/

/-- What a call throws; the code is `none` where it is not a number. -/
structure ApiError where
  error_code : Option ℚ
  description : String
  deriving DecidableEq

inductive Response
  | member (status : String) (isMember : Option Bool)
  | error (err : ApiError)
  deriving DecidableEq

def isForceJoinMembershipActive (status : String) (isMember : Option Bool) : Bool :=
  if status = "creator" ∨ status = "administrator" ∨ status = "member" then true
  else if status = "restricted" then isMember == some true
  else false

def botAccessMarkers : List String :=
  ["chat not found", "chat_not_found", "bot is not a member", "bot is not a participant",
    "member list is inaccessible", "not enough rights", "chat_admin_required", "channel_private",
    "channel_invalid", "peer_id_invalid", "chat_id_invalid", "bot was kicked", "bot was blocked",
    "the group chat was deleted", "have no rights", "forbidden"]

def userNotParticipantMarkers : List String :=
  ["user_not_participant", "user not participant", "user is not a participant",
    "participant_id_invalid"]

def descriptionHas (markers : List String) (description : String) : Bool :=
  let desc := description.toList.map Char.toLower
  markers.any fun marker => desc.tails.any marker.toList.isPrefixOf

/-- Transient first, then the bot's own access, then the user's absence. -/
def classifyMemberCheckError (err : ApiError) : ChannelCheck :=
  if err.error_code.any fun code => code = 429 ∨ 500 ≤ code then .TEMP
  else if descriptionHas botAccessMarkers err.description then .UNVERIFIABLE
  else if descriptionHas userNotParticipantMarkers err.description then .NOT_JOINED
  else if err.error_code.any fun code => 400 ≤ code ∧ code < 500 then .UNVERIFIABLE
  else .TEMP

def verdict (joined : Bool) : ChannelCheck := if joined then .JOINED else .NOT_JOINED

/-! ### Checks -/

inductive Progress
  | waiting
  /-- The call succeeded; the reset of the failure window is under way. -/
  | clearing (joined : Bool)
  | done (check : ChannelCheck)
  | alerted
  | recorded
  deriving DecidableEq

/-- Whether the check has found the channel unverifiable. -/
def Progress.isPermanent : Progress → Bool
  | .done check => check == .UNVERIFIABLE
  | .alerted | .recorded => true
  | _ => false

def Progress.isSettled : Progress → Bool
  | .waiting | .clearing _ => false
  | _ => true

/-- One channel of one call, as its snapshot has it. -/
structure Check where
  call : ℕ
  channel : ForceJoinChannel
  progress : Progress

/-- What has happened: answers, counted failures, committed and lost resets. -/
inductive Fact
  | answered (k : ℕ) (channelId : String) (response : Response)
  | counted (k : ℕ) (channelId : String) (now : ℤ)
  | cleared (k : ℕ) (channelId : String)
  | lost (k : ℕ)
  deriving DecidableEq

/-- The tables, the checks begun so far, and the history, newest first. -/
structure World where
  db : Db
  calls : ℕ
  checks : List Check
  facts : List Fact

def listActiveChannels (db : Db) : List ForceJoinChannel :=
  (db.channels.filter fun row => row.isActive).insertionSort fun a b =>
    listedBefore a.toChannelConfig b.toChannelConfig

def answerProgress (channel : ForceJoinChannel) : Response → Progress
  | .error err => .done (classifyMemberCheckError err)
  | .member status isMember =>
    if 0 < channel.healthFailureCount then
      .clearing (isForceJoinMembershipActive status isMember)
    else .done (verdict (isForceJoinMembershipActive status isMember))

def setProgress (k : ℕ) (progress : Progress) (checks : List Check) : List Check :=
  checks.modify k fun check => { check with progress := progress }

def World.advance (s : World) (k : ℕ) (progress : Progress) : World :=
  { s with checks := setProgress k progress s.checks }

/-- Whether all checks of a call are in. -/
def World.settled (s : World) (call : ℕ) : Bool :=
  s.checks.all fun check => check.call != call || check.progress.isSettled

def failureOf (id : String) (now : ℤ) : Operation :=
  .recordChannelHealthFailure id "UNVERIFIABLE" now

inductive CheckEvent
  | call
  | cached (k : ℕ) (joined : Bool)
  | answer (k : ℕ) (response : Response)
  | clear (k : ℕ)
  | clearLost (k : ℕ)
  | alert (k : ℕ) (stamp : Option ℤ)
  | record (k : ℕ) (now : ℤ)

/-- The check an event is about. -/
def CheckEvent.check : CheckEvent → Option ℕ
  | .call => none
  | .cached k _ | .answer k _ | .clear k | .clearLost k | .alert k _ | .record k _ => some k

/-- What an event does to the check it is about. -/
def World.react (s : World) (k : ℕ) (check : Check) : CheckEvent → Option World
  | .call => none
  | .cached _ joined =>
    if check.progress = .waiting then some (s.advance k (.done (verdict joined))) else none
  | .answer _ response =>
    if check.progress = .waiting then
      some { s.advance k (answerProgress check.channel response) with
        facts := .answered k check.channel.id response :: s.facts }
    else none
  | .clear _ =>
    match check.progress with
    | .clearing joined =>
      some { s.advance k (.done (verdict joined)) with
        db := (finish (.recordChannelHealthSuccess check.channel.id) s.db s.db).2
        facts := .cleared k check.channel.id :: s.facts }
    | _ => none
  | .clearLost _ =>
    match check.progress with
    | .clearing joined =>
      some { s.advance k (.done (verdict joined)) with facts := .lost k :: s.facts }
    | _ => none
  | .alert _ stamp =>
    if check.progress = .done .UNVERIFIABLE ∧ s.settled check.call then
      some { s.advance k .alerted with
        db := (stamp.map fun now =>
          (recordValidationError check.channel.id "UNVERIFIABLE" now).apply s.db).getD s.db }
    else none
  | .record _ now =>
    if check.progress = .alerted then
      some { s.advance k .recorded with
        db := (finish (failureOf check.channel.id now) s.db s.db).2
        facts := (if (plan s.db (failureOf check.channel.id now)).writes.isEmpty then []
          else [.counted k check.channel.id now]) ++ s.facts }
    else none

def World.step (s : World) (e : CheckEvent) : Option World :=
  match e.check with
  | none =>
    some { s with
      calls := s.calls + 1
      checks := s.checks ++ (listActiveChannels s.db).map fun channel =>
        { call := s.calls, channel := channel, progress := .waiting } }
  | some k => (s.checks[k]?).bind fun check => s.react k check e

inductive World.Reaches (s₀ : World) : World → Prop
  | start : World.Reaches s₀ s₀
  | step {s s' : World} {e : CheckEvent} :
      World.Reaches s₀ s → s.step e = some s' → World.Reaches s₀ s'

def World.exec (s : World) : List CheckEvent → Option World
  | [] => some s
  | e :: es => (s.step e).bind fun s' => s'.exec es

theorem World.reaches_of_exec {s₀ s s' : World} {es : List CheckEvent} (h : World.Reaches s₀ s)
    (hexec : s.exec es = some s') : World.Reaches s₀ s' := by
  induction es generalizing s with
  | nil => exact Option.some.inj hexec ▸ h
  | cons e es ih =>
    obtain ⟨t, ht, hrest⟩ := Option.bind_eq_some_iff.mp hexec
    exact ih (h.step ht) hrest

/-! ### History -/

def clearedFor (id : String) : Fact → Bool
  | .cleared _ channelId => channelId == id
  | _ => false

/-- The history of a channel back to the last committed reset. -/
def sinceCleared (id : String) (facts : List Fact) : List Fact :=
  facts.takeWhile fun fact => !clearedFor id fact

/-- The check and the instant of a counted failure of a channel. -/
def countedFor (id : String) : Fact → Option (ℕ × ℤ)
  | .counted k channelId now => if channelId = id then some (k, now) else none
  | _ => none

def countedSince (id : String) (facts : List Fact) : List (ℕ × ℤ) :=
  (sinceCleared id facts).filterMap (countedFor id)

/-- No failure recorded yet, no check begun. -/
structure World.Start (s : World) : Prop where
  keys : UniqueKeys s.db.configs
  healthy : ∀ row ∈ s.db.channels, row.healthFailureCount = 0 ∧
    row.healthFailureFirstAt = none ∧ row.healthFailureLastAt = none
  checks : s.checks = []
  facts : s.facts = []

end ZedBot.ForceJoin
