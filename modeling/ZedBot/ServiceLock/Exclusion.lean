import ZedBot.ServiceLock.Locks

/-! Who holds a service lock.

    The log of Redis is a lawful history of leases, and it says which token is stored. An acquirer
    takes its key once; until it releases the lock its commands are the heartbeats. So whoever takes
    the key over does so when the term of the last heartbeat that ran has passed. -/

namespace ZedBot.ServiceLock
open LeaseHistory

/-! ### Redis runs a command -/

/-- What a command has done: nothing, or what it is for, where the key was as it needs it. -/
inductive Redis.Did (redis : Redis) (now : ℕ) (key token : String) : Command → Bool × Redis → Prop
  | nothing (command : Command) : Did redis now key token command (false, redis)
  | set (h : redis.get now key = none) : Did redis now key token .set
      (true, Function.update redis key (some ⟨token, now + SERVICE_LOCK_TTL_MS⟩))
  | renew (h : redis.get now key = some token) : Did redis now key token .renew
      (true, Function.update redis key (some ⟨token, now + SERVICE_LOCK_TTL_MS⟩))
  | release (h : redis.get now key = some token) : Did redis now key token .release
      (true, Function.update redis key none)

theorem Redis.run_did (redis : Redis) (now : ℕ) (key token : String) (command : Command) :
    Did redis now key token command (redis.run now key token command) := by
  cases command with
  | set =>
    rw [run, setNx]
    split_ifs with h
    · exact .set h
    · exact .nothing _
  | renew =>
    rw [run, renew]
    split_ifs with h
    · exact .renew h
    · exact .nothing _
  | release =>
    rw [run, release]
    split_ifs with h
    · exact .release h
    · exact .nothing _

variable {redis : Redis} {now : ℕ} {key token : String}

theorem Redis.entry_of_get (h : redis.get now key = some token) :
    ∃ e, redis key = some ⟨token, e⟩ ∧ now < e := by
  rw [get] at h
  cases hentry : redis key with
  | none =>
    rw [hentry] at h
    cases h
  | some entry =>
    rw [hentry, Option.bind_some] at h
    split_ifs at h with hlive
    cases h
    exact ⟨entry.expiresAt, rfl, hlive⟩

theorem Redis.expired_of_get {e : ℕ} (h : redis.get now key = none)
    (hentry : redis key = some ⟨token, e⟩) : e ≤ now := by
  rw [get, hentry, Option.bind_some] at h
  split_ifs at h with hlive
  exact Nat.not_lt.mp hlive

/-! ### The invariant -/

/-- No command of the acquirer has succeeded. -/
def Fresh (p : ℕ) (log : List (Ran ℕ)) : Prop := ∀ r ∈ log, r.owner ≠ p

/-- The acquirer has not deleted its entry. -/
def Kept (p : ℕ) (log : List (Ran ℕ)) : Prop := ∀ r ∈ log, r.owner = p → r.command ≠ .release

/-- What an owner has been answered: that it has the lock, and no heartbeat has failed unless the lock
    is lost. -/
structure Told (lost : Bool) (answered : List Answer) : Prop where
  ok : ∃ a ∈ answered, a.command = .set ∧ a.ok = true
  renewed : lost = false → ∀ a ∈ answered, a.command = .renew → a.ok = true

/-- The commands that wait, and the log, as they fit the phase of an acquirer. -/
def PhaseFits (p : ℕ) (x : Acquirer) (log : List (Ran ℕ)) : Prop :=
  match x.phase with
  | .idle | .sleeping _ _ =>
    x.pending = [] ∧ Fresh p log ∧ ∀ a ∈ x.answered, a.command = .set
  | .trying _ => (∀ a ∈ x.answered, a.command = .set) ∧ ∃ reply, x.pending = [⟨.set, reply⟩] ∧
    Kept p log ∧ ((∀ t, reply ≠ some (t, true)) → Fresh p log)
  | .refused _ | .crashed => x.pending = []
  | .ok lock => (∀ c ∈ x.pending, c.command ≠ .set) ∧ (lock.released = false →
    (∀ c ∈ x.pending, c.command = .renew) ∧ Kept p log ∧ Told lock.lost x.answered)

structure Fits (p : ℕ) (x : Acquirer) (log : List (Ran ℕ)) : Prop where
  phase : PhaseFits p x log
  replied : ∀ c ∈ x.pending, ∀ t, c.reply = some (t, true) → ⟨t, p, c.command⟩ ∈ log
  answered : ∀ a ∈ x.answered, a.ok = true → ⟨a.time, p, a.command⟩ ∈ log
  cleared : ∀ lock, x.phase = .ok lock → lock.released = true → lock.heartbeat = none

variable {calls : ℕ → Call}

abbrev Call.keys (calls : ℕ → Call) (p : ℕ) : String := (calls p).key

structure Sound (calls : ℕ → Call) (s : System) : Prop where
  lawful : Lawful (Call.keys calls) SERVICE_LOCK_TTL_MS s.log
  past : ∀ r ∈ s.log, r.time ≤ s.now
  stored : ∀ k p e, s.redis k = some ⟨(calls p).token, e⟩ ↔
    current (Call.keys calls) SERVICE_LOCK_TTL_MS k s.log = some (p, e)
  fits : ∀ p, Fits p (s.acquirers p) s.log

section Fits

variable {p q : ℕ} {x : Acquirer} {log : List (Ran ℕ)} {r : Ran ℕ}

theorem Fresh.kept (h : Fresh p log) : Kept p log := fun r hr hown => (h r hr hown).elim

theorem Fresh.cons (h : Fresh p log) (hr : r.owner ≠ p) : Fresh p (r :: log) :=
  List.forall_mem_cons.mpr ⟨hr, h⟩

theorem Kept.cons (h : Kept p log) (hr : r.owner = p → r.command ≠ .release) : Kept p (r :: log) :=
  List.forall_mem_cons.mpr ⟨hr, h⟩

/-- A command of another acquirer. -/
theorem Fits.other (h : Fits p x log) (hr : r.owner ≠ p) : Fits p x (r :: log) := by
  refine ⟨?_, fun c hc t ht => .tail _ (h.replied c hc t ht), fun a ha hok => .tail _
    (h.answered a ha hok), h.cleared⟩
  have hphase := h.phase
  rw [PhaseFits] at hphase ⊢
  cases hp : x.phase <;> rw [hp] at hphase
  case idle | sleeping => exact ⟨hphase.1, hphase.2.1.cons hr, hphase.2.2⟩
  case trying =>
    obtain ⟨hanswered, reply, hpending, hkept, hfresh⟩ := hphase
    exact ⟨hanswered, reply, hpending, hkept.cons fun hown => (hr hown).elim,
      fun hreply => (hfresh hreply).cons hr⟩
  case refused | crashed => exact hphase
  case ok =>
    refine ⟨hphase.1, fun hreleased => ?_⟩
    obtain ⟨hpending, hkept, htold⟩ := hphase.2 hreleased
    exact ⟨hpending, hkept.cons fun hown => (hr hown).elim, htold⟩

end Fits

/-! ### Steps -/

section Steps

variable {s s' : System} {p q : ℕ} {x : Acquirer}

theorem Sound.setAcquirer (h : Sound calls s) (hx : Fits p x s.log) :
    Sound calls (s.setAcquirer p x) := by
  refine ⟨h.lawful, h.past, h.stored, fun q => ?_⟩
  by_cases hq : q = p
  · subst hq
    rwa [System.setAcquirer_self]
  · rw [System.setAcquirer_of_ne _ _ hq]
    exact h.fits q

/-- A command that is sent has no reply. -/
theorem replied_send (h : Fits p x s.log) {command : Command} {phase : Phase} :
    ∀ c ∈ (x.send phase command).pending, ∀ t, c.reply = some (t, true) →
      ⟨t, p, c.command⟩ ∈ s.log := by
  intro c hc t ht
  rcases List.mem_append.mp hc with hc | hc
  · exact h.replied c hc t ht
  · rw [List.mem_singleton.mp hc] at ht
    cases ht

/-- What succeeded is a command that Redis may run after the log. -/
theorem allowed_of_did (h : Sound calls s) {command : Command} {result : Redis}
    (hset : command = .set → Fresh p s.log)
    (hdid : Redis.Did s.redis s.now (calls p).key (calls p).token command (true, result)) :
    Allowed (Call.keys calls) SERVICE_LOCK_TTL_MS s.log ⟨s.now, p, command⟩ := by
  refine ⟨h.past, fun hcommand x hx => ?_, fun hcommand x hx hown => ?_, fun hcommand => ?_⟩
  · cases hdid with
    | set hfree => exact Redis.expired_of_get hfree ((h.stored _ _ _).mpr hx)
    | renew _ | release _ => cases hcommand
  · exact (hset hcommand x hx hown).elim
  · cases hdid with
    | set _ => exact (hcommand rfl).elim
    | renew hown | release hown =>
      obtain ⟨e, he, -⟩ := Redis.entry_of_get hown
      exact ⟨e, (h.stored _ _ _).mp he⟩

/-- The log says what is stored after a command. -/
theorem stored_of_did (h : Sound calls s) (htoken : Function.Injective fun p => (calls p).token)
    {command : Command} {result : Redis}
    (hdid : Redis.Did s.redis s.now (calls p).key (calls p).token command (true, result))
    (k : String) (q e : ℕ) : result k = some ⟨(calls q).token, e⟩ ↔
      current (Call.keys calls) SERVICE_LOCK_TTL_MS k (⟨s.now, p, command⟩ :: s.log) =
        some (q, e) := by
  by_cases hk : (calls p).key = k
  · have hwrite : some (⟨(calls p).token, s.now + SERVICE_LOCK_TTL_MS⟩ : Entry) =
        some ⟨(calls q).token, e⟩ ↔ some (p, s.now + SERVICE_LOCK_TTL_MS) = some (q, e) := by
      rw [Option.some.injEq, Option.some.injEq, Entry.mk.injEq, Prod.mk.injEq, htoken.eq_iff]
    cases hdid with
    | set _ | renew _ =>
      rw [current_own hk (by simp), ← hwrite, ← hk, Function.update_self]
    | release _ => rw [current_released hk rfl, ← hk, Function.update_self]; simp
  · have hsame : result k = s.redis k := by
      cases hdid <;> exact Function.update_of_ne (Ne.symm hk) _ _
    rw [current_other hk, hsame, h.stored]

/-- An acquirer that is about to take its key has not taken it. -/
theorem Fits.fresh (h : Fits p x s.log) (hmem : ⟨.set, none⟩ ∈ x.pending) : Fresh p s.log := by
  have hphase := h.phase
  rw [PhaseFits] at hphase
  cases hp : x.phase <;> rw [hp] at hphase
  case idle | sleeping => exact hphase.2.1
  case refused | crashed =>
    rw [hphase] at hmem
    cases hmem
  case trying =>
    obtain ⟨-, reply, hpending, -, hfresh⟩ := hphase
    rw [hpending] at hmem
    cases List.mem_singleton.mp hmem
    exact hfresh nofun
  case ok => exact (hphase.1 _ hmem rfl).elim

/-- The acquirer whose command has run. -/
theorem Fits.run {command : Command} {place : ℕ} {ok : Bool} (h : Fits p x s.log)
    (hplace : x.pending[place]? = some ⟨command, none⟩) :
    Fits p { x with pending := x.pending.set place ⟨command, some (s.now, ok)⟩ }
      (if ok then ⟨s.now, p, command⟩ :: s.log else s.log) := by
  have hmem : ⟨command, none⟩ ∈ x.pending := List.mem_of_getElem? hplace
  have hlog : ∀ r ∈ s.log, r ∈ if ok then ⟨s.now, p, command⟩ :: s.log else s.log := by
    intro r hr
    split
    · exact .tail _ hr
    · exact hr
  refine ⟨?_, fun c hc t ht => ?_, fun a ha hok => hlog _ (h.answered a ha hok), h.cleared⟩
  · have hphase := h.phase
    rw [PhaseFits] at hphase ⊢
    dsimp only
    cases hp : x.phase <;> rw [hp] at hphase
    case idle | sleeping =>
      rw [hphase.1] at hmem
      cases hmem
    case refused | crashed =>
      rw [hphase] at hmem
      cases hmem
    case trying =>
      obtain ⟨hanswered, reply, hpending, hkept, hfresh⟩ := hphase
      rw [hpending] at hplace ⊢
      obtain rfl : place = 0 := by
        have hlt := (List.getElem?_eq_some_iff.mp hplace).1
        exact Nat.lt_one_iff.mp hlt
      cases hplace
      refine ⟨hanswered, _, rfl, ?_, fun hreply => ?_⟩
      · split
        · exact hkept.cons fun _ => nofun
        · exact hkept
      · cases ok with
        | true => exact (hreply _ rfl).elim
        | false => exact hfresh nofun
    case ok lock =>
      refine ⟨fun c hc => ?_, fun hreleased => ?_⟩
      · rcases List.mem_or_eq_of_mem_set hc with hc | rfl
        · exact hphase.1 c hc
        · exact hphase.1 ⟨command, none⟩ hmem
      · obtain ⟨hrenew, hkept, htold⟩ := hphase.2 hreleased
        have hcommand : command = .renew := hrenew _ hmem
        refine ⟨fun c hc => ?_, ?_, htold⟩
        · rcases List.mem_or_eq_of_mem_set hc with hc | rfl
          · exact hrenew c hc
          · exact hcommand
        · split
          · exact hkept.cons fun _ => by rw [hcommand]; nofun
          · exact hkept
  · rcases List.mem_or_eq_of_mem_set hc with hc | rfl
    · exact hlog _ (h.replied c hc t ht)
    · obtain ⟨rfl, rfl⟩ := Prod.mk.inj (Option.some.inj ht)
      exact .head _

/-- A lock that is released after an answer was released before, and its timer is as it was. -/
theorem onReply_released {now jitter : ℕ} {command : Command} {ok : Bool} {phase : Phase}
    {lock : Lock} (h : Acquirer.onReply now jitter command ok phase = .ok lock)
    (hreleased : lock.released = true) : phase = .ok lock := by
  rw [Acquirer.onReply.eq_def] at h
  split at h
  · split_ifs at h
    cases h
    cases hreleased
  · split_ifs at h with hlost
    · cases h
      exact (hlost.2 hreleased).elim
    · exact h
  · exact h

theorem onError_ok {command : Command} {phase : Phase} {lock : Lock}
    (h : Acquirer.onError command phase = .ok lock) : phase = .ok lock := by
  rw [Acquirer.onError.eq_def] at h
  split at h
  · cases h
  · exact h

/-- The oldest command is answered. -/
theorem Fits.settle {command : Command} {time jitter : ℕ} {ok : Bool} {rest : List Pending}
    (h : Fits p x s.log) (hpending : x.pending = ⟨command, some (time, ok)⟩ :: rest) :
    Fits p { phase := Acquirer.onReply s.now jitter command ok x.phase
             pending := rest
             answered := ⟨command, time, ok⟩ :: x.answered } s.log := by
  refine ⟨?_, fun c hc => h.replied c (by rw [hpending]; exact .tail _ hc), ?_,
    fun lock hlock hreleased => ?_⟩
  · have hphase := h.phase
    rw [PhaseFits] at hphase
    cases hp : x.phase <;> rw [hp] at hphase
    case idle | sleeping =>
      rw [hphase.1] at hpending
      cases hpending
    case refused | crashed =>
      rw [hphase] at hpending
      cases hpending
    case trying deadline =>
      obtain ⟨hanswered, reply, hset, hkept, hfresh⟩ := hphase
      rw [hset] at hpending
      cases hpending
      cases ok with
      | true =>
        refine ⟨nofun, fun _ => ⟨nofun, hkept, ⟨_, .head _, rfl, rfl⟩, fun _ a ha hrenew => ?_⟩⟩
        rcases List.mem_cons.mp ha with rfl | ha
        · cases hrenew
        · rw [hanswered a ha] at hrenew
          cases hrenew
      | false =>
        rw [Acquirer.onReply, if_neg Bool.false_ne_true]
        split_ifs
        · exact rfl
        · exact ⟨rfl, hfresh (fun t ht => nomatch ht), List.forall_mem_cons.mpr ⟨rfl, hanswered⟩⟩
    case ok lock =>
      obtain ⟨hnotset, hopen⟩ := hphase
      rw [hpending] at hnotset hopen
      have hrest : ∀ c ∈ rest, c.command ≠ .set := fun c hc => hnotset c (.tail _ hc)
      -- an answer that fits an owner who has not lost the lock stays one
      have hkeep : ∀ lost, (lost = false → command = .renew → ok = true) →
          (lost = false → lock.lost = false) → lock.released = false →
          (∀ c ∈ rest, c.command = .renew) ∧ Kept p s.log ∧
            Told lost (⟨command, time, ok⟩ :: x.answered) := by
        intro lost hnew hold hreleased
        obtain ⟨hrenew, hkept, ⟨a, ha, hok⟩, hrenewed⟩ := hopen hreleased
        refine ⟨fun c hc => hrenew c (.tail _ hc), hkept, ⟨a, .tail _ ha, hok⟩, fun hlost => ?_⟩
        exact List.forall_mem_cons.mpr ⟨hnew hlost, hrenewed (hold hlost)⟩
      cases command with
      | set => exact (hnotset _ (.head _) rfl).elim
      | release => exact ⟨hrest, fun hreleased => hkeep _ (fun _ => nofun) id hreleased⟩
      | renew =>
        rw [Acquirer.onReply]
        split_ifs with hlost
        · exact ⟨hrest, fun hreleased => hkeep true nofun nofun hreleased⟩
        · refine ⟨hrest, fun hreleased => hkeep _ (fun _ _ => ?_) id hreleased⟩
          by_contra hok
          exact hlost ⟨hok, by rw [hreleased]; exact Bool.false_ne_true⟩
  · refine List.forall_mem_cons.mpr ⟨fun hok => ?_, h.answered⟩
    dsimp only at hok
    refine h.replied ⟨command, some (time, ok)⟩ (by rw [hpending]; exact .head _) time ?_
    rw [hok]
  · exact h.cleared lock (onReply_released hlock hreleased) hreleased

/-- The oldest command ends without an answer. -/
theorem Fits.fail {command : Command} {reply : Option (ℕ × Bool)} {rest : List Pending}
    (h : Fits p x s.log) (hpending : x.pending = ⟨command, reply⟩ :: rest) :
    Fits p { x with phase := Acquirer.onError command x.phase, pending := rest } s.log := by
  refine ⟨?_, fun c hc => h.replied c (by rw [hpending]; exact .tail _ hc), h.answered,
    fun lock hlock => h.cleared lock (onError_ok hlock)⟩
  have hphase := h.phase
  rw [PhaseFits] at hphase
  cases hp : x.phase <;> rw [hp] at hphase
  case idle | sleeping =>
    rw [hphase.1] at hpending
    cases hpending
  case refused | crashed =>
    rw [hphase] at hpending
    cases hpending
  case trying deadline =>
    obtain ⟨-, reply', hset, -⟩ := hphase
    rw [hset] at hpending
    cases hpending
    exact rfl
  case ok lock =>
    rw [hpending] at hphase
    have herror : Acquirer.onError command (.ok lock) = .ok lock := by cases command <;> rfl
    rw [herror]
    refine ⟨fun c hc => hphase.1 c (.tail _ hc), fun hreleased => ?_⟩
    obtain ⟨hrenew, hrest⟩ := hphase.2 hreleased
    exact ⟨fun c hc => hrenew c (.tail _ hc), hrest⟩

/-- RUN: Redis runs a command. -/
theorem Sound.run (htoken : Function.Injective fun p => (calls p).token) (h : Sound calls s)
    {place : ℕ} {command : Command}
    (hplace : (s.acquirers p).pending[place]? = some ⟨command, none⟩) :
    Sound calls (s.runCommand calls p place command) := by
  have hdid := s.redis.run_did s.now (calls p).key (calls p).token command
  have hrun : ∀ ok, Fits p { s.acquirers p with
      pending := (s.acquirers p).pending.set place ⟨command, some (s.now, ok)⟩ }
      (if ok then ⟨s.now, p, command⟩ :: s.log else s.log) := fun ok => (h.fits p).run hplace
  have hset : command = .set → Fresh p s.log := by
    rintro rfl
    exact (h.fits p).fresh (List.mem_of_getElem? hplace)
  rw [System.runCommand]
  generalize s.redis.run s.now (calls p).key (calls p).token command = result at hdid ⊢
  obtain ⟨ok, redis'⟩ := result
  cases ok with
  | false =>
    obtain rfl : redis' = s.redis := by cases hdid; rfl
    exact h.setAcquirer (hrun false)
  | true =>
    refine ⟨⟨allowed_of_did h hset hdid, h.lawful⟩, ?_, stored_of_did h htoken hdid, fun q => ?_⟩
    · exact List.forall_mem_cons.mpr ⟨Nat.le_refl _, h.past⟩
    · by_cases hq : q = p
      · subst hq
        simpa only [System.setAcquirer, Function.update_self] using hrun true
      · simpa only [System.setAcquirer, Function.update_of_ne hq, if_true] using
          (h.fits q).other (Ne.symm hq)

/-- STEP: every event keeps the invariant. -/
theorem Sound.step (htoken : Function.Injective fun p => (calls p).token) (h : Sound calls s)
    {e : Event} (hs : s.step calls e = some s') : Sound calls s' := by
  cases e with
  | pass ms =>
    cases hs
    exact ⟨h.lawful, fun r hr => Nat.le_add_right_of_le (h.past r hr), h.stored, h.fits⟩
  | call p client =>
    rw [System.step] at hs
    split_ifs at hs with hidle hclient
    · cases hs
      have hphase := (h.fits p).phase
      rw [PhaseFits, hidle] at hphase
      refine h.setAcquirer ⟨?_, replied_send (h.fits p), (h.fits p).answered, nofun⟩
      exact ⟨hphase.2.2, none, congrArg (· ++ _) hphase.1, hphase.2.1.kept, fun _ => hphase.2.1⟩
    · cases hs
      have hphase := (h.fits p).phase
      rw [PhaseFits, hidle] at hphase
      exact h.setAcquirer ⟨hphase.1, (h.fits p).replied, (h.fits p).answered, nofun⟩
  | run p place =>
    rw [System.step] at hs
    split at hs
    · cases hs
      exact h.run htoken ‹_›
    · cases hs
  | settle p jitter =>
    rw [System.step] at hs
    split at hs
    · cases hs
      exact h.setAcquirer ((h.fits p).settle ‹_›)
    · cases hs
  | fail p =>
    rw [System.step] at hs
    split at hs
    · cases hs
      exact h.setAcquirer ((h.fits p).fail ‹_›)
    · cases hs
  | wake p =>
    rw [System.step] at hs
    split at hs
    · rename_i deadline wakeAt hsleeping
      split_ifs at hs
      cases hs
      have hphase := (h.fits p).phase
      rw [PhaseFits, hsleeping] at hphase
      refine h.setAcquirer ⟨?_, replied_send (h.fits p), (h.fits p).answered, nofun⟩
      exact ⟨hphase.2.2, none, congrArg (· ++ _) hphase.1, hphase.2.1.kept, fun _ => hphase.2.1⟩
    · cases hs
  | beat p =>
    rw [System.step] at hs
    split at hs
    · rename_i lock hlock
      split_ifs at hs with hdue
      cases hs
      have hphase := (h.fits p).phase
      rw [PhaseFits, hlock] at hphase
      refine h.setAcquirer ⟨⟨fun c hc => ?_, fun hreleased => ?_⟩, replied_send (h.fits p),
        (h.fits p).answered, fun lock' hlock' hreleased => ?_⟩
      · rcases List.mem_append.mp hc with hc | hc
        · exact hphase.1 c hc
        · rw [List.mem_singleton.mp hc]
          nofun
      · obtain ⟨hrenew, hkept, htold⟩ := hphase.2 hreleased
        refine ⟨fun c hc => ?_, hkept, htold⟩
        rcases List.mem_append.mp hc with hc | hc
        · exact hrenew c hc
        · rw [List.mem_singleton.mp hc]
      · cases hlock'
        rw [(h.fits p).cleared lock hlock hreleased] at hdue
        cases hdue
    · cases hs
  | release p =>
    rw [System.step] at hs
    split at hs
    · rename_i lock hlock
      cases hs
      have hphase := (h.fits p).phase
      rw [PhaseFits, hlock] at hphase
      refine h.setAcquirer ⟨⟨fun c hc => ?_, nofun⟩, replied_send (h.fits p), (h.fits p).answered,
        fun lock' hlock' _ => Phase.ok.inj hlock' ▸ rfl⟩
      rcases List.mem_append.mp hc with hc | hc
      · exact hphase.1 c hc
      · rw [List.mem_singleton.mp hc]
        nofun
    · cases hs
  | crash p =>
    cases hs
    exact h.setAcquirer ⟨rfl, nofun, (h.fits p).answered, nofun⟩

end Steps

/-! ### An acquirer that has come to its end -/

section Over

variable {s s' : System} {p q : ℕ} {x : Acquirer}

/-- The acquirer was refused, has crashed, or has released the lock and the call has returned. -/
def Ended (x : Acquirer) : Prop :=
  x.pending = [] ∧ match x.phase with
    | .refused _ | .crashed => True
    | .ok lock => lock.released = true
    | _ => False

/-- All that it may still do is to delete its entry. -/
def Over (x : Acquirer) : Prop :=
  (∀ c ∈ x.pending, c.command = .release) ∧ match x.phase with
    | .refused _ | .crashed => True
    | .ok lock => lock.released = true ∧ lock.heartbeat = none
    | _ => False

theorem Ended.over (h : Ended x) {log : List (Ran ℕ)} (hfits : Fits p x log) : Over x := by
  obtain ⟨hpending, hphase⟩ := h
  rw [Over, hpending]
  refine ⟨nofun, ?_⟩
  cases hp : x.phase <;> rw [hp] at hphase
  case refused | crashed => trivial
  case ok lock => exact ⟨hphase, hfits.cleared lock hp hphase⟩
  all_goals exact hphase.elim

theorem over_setAcquirer (h : Over (s.acquirers p)) (hx : q = p → Over x) :
    Over ((s.setAcquirer q x).acquirers p) := by
  by_cases hq : p = q
  · subst hq
    rw [System.setAcquirer_self]
    exact hx rfl
  · rw [System.setAcquirer_of_ne _ _ hq]
    exact h

/-- A command of an acquirer writes its token nowhere, unless it takes or renews the key. -/
theorem did_written {redis : Redis} {now : ℕ} {key token token' : String} {command : Command}
    {result : Bool × Redis} (hdid : Redis.Did redis now key token command result)
    (hcommand : token = token' → command = .release) {k : String} {x : ℕ}
    (hx : result.2 k = some ⟨token', x⟩) : redis k = some ⟨token', x⟩ := by
  cases hdid <;> dsimp only at hx
  case nothing => exact hx
  case set | renew =>
    by_cases hk : k = key
    · rw [hk, Function.update_self] at hx
      cases hcommand (Entry.mk.inj (Option.some.inj hx)).1
    · rwa [Function.update_of_ne hk] at hx
  case release =>
    by_cases hk : k = key
    · rw [hk, Function.update_self] at hx
      cases hx
    · rwa [Function.update_of_ne hk] at hx

/-- STEP: what is over stays over, and its entry is not written again. -/
theorem Over.step (htoken : Function.Injective fun p => (calls p).token)
    (h : Over (s.acquirers p)) {e : Event} (hs : s.step calls e = some s') :
    Over (s'.acquirers p) ∧ ∀ k x, s'.redis k = some ⟨(calls p).token, x⟩ →
      s.redis k = some ⟨(calls p).token, x⟩ := by
  have hphase := h.2
  cases e with
  | pass ms =>
    cases hs
    exact ⟨h, fun _ _ hx => hx⟩
  | call q client =>
    rw [System.step] at hs
    split_ifs at hs with hidle
    all_goals
      cases hs
      refine ⟨over_setAcquirer h ?_, fun _ _ hx => hx⟩
      rintro rfl
      rw [hidle] at hphase
      exact hphase.elim
  | run q place =>
    rw [System.step] at hs
    split at hs
    · rename_i command hplace
      cases hs
      have hmem : q = p → command = .release := by
        rintro rfl
        exact h.1 _ (List.mem_of_getElem? hplace)
      refine ⟨over_setAcquirer h ?_, fun k x hx => ?_⟩
      · rintro rfl
        refine ⟨fun c hc => ?_, hphase⟩
        rcases List.mem_or_eq_of_mem_set hc with hc | rfl
        · exact h.1 c hc
        · exact hmem rfl
      · exact did_written (s.redis.run_did s.now (calls q).key (calls q).token command)
          (fun ht => hmem (htoken ht)) hx
    · cases hs
  | settle q jitter =>
    rw [System.step] at hs
    split at hs
    · rename_i command time ok rest hpending
      cases hs
      refine ⟨over_setAcquirer h ?_, fun _ _ hx => hx⟩
      rintro rfl
      have hrelease := h.1
      rw [hpending] at hrelease
      obtain rfl : command = .release := hrelease _ (.head _)
      exact ⟨fun c hc => hrelease c (.tail _ hc), hphase⟩
    · cases hs
  | fail q =>
    rw [System.step] at hs
    split at hs
    · rename_i command reply rest hpending
      cases hs
      refine ⟨over_setAcquirer h ?_, fun _ _ hx => hx⟩
      rintro rfl
      have hrelease := h.1
      rw [hpending] at hrelease
      obtain rfl : command = .release := hrelease _ (.head _)
      exact ⟨fun c hc => hrelease c (.tail _ hc), hphase⟩
    · cases hs
  | wake q =>
    rw [System.step] at hs
    split at hs
    · rename_i hsleeping
      split_ifs at hs
      cases hs
      refine ⟨over_setAcquirer h ?_, fun _ _ hx => hx⟩
      rintro rfl
      rw [hsleeping] at hphase
      exact hphase.elim
    · cases hs
  | beat q =>
    rw [System.step] at hs
    split at hs
    · rename_i lock hlock
      split_ifs at hs with hdue
      cases hs
      refine ⟨over_setAcquirer h ?_, fun _ _ hx => hx⟩
      rintro rfl
      rw [hlock] at hphase
      rw [hphase.2] at hdue
      cases hdue
    · cases hs
  | release q =>
    rw [System.step] at hs
    split at hs
    · cases hs
      refine ⟨over_setAcquirer h ?_, fun _ _ hx => hx⟩
      rintro rfl
      refine ⟨fun c hc => ?_, rfl, rfl⟩
      rcases List.mem_append.mp hc with hc | hc
      · exact h.1 c hc
      · rw [List.mem_singleton.mp hc]
    · cases hs
  | crash q =>
    cases hs
    exact ⟨over_setAcquirer h fun _ => ⟨nofun, trivial⟩, fun _ _ hx => hx⟩

end Over

/-! ### Runs -/

/-- Before the first call: Redis holds what others have stored. -/
def System.start (redis : Redis) : System := { redis := redis }

/-- Redis holds no token that a call will draw. -/
def Foreign (calls : ℕ → Call) (redis : Redis) : Prop :=
  ∀ k entry p, redis k = some entry → entry.token ≠ (calls p).token

variable {s s' : System} {p : ℕ}

theorem sound_start (h : Foreign calls redis) : Sound calls (.start redis) := by
  refine ⟨trivial, nofun, fun k p e => ⟨fun he => (h _ _ p he rfl).elim, nofun⟩, fun p => ?_⟩
  exact ⟨⟨rfl, nofun, nofun⟩, nofun, nofun, nofun⟩

theorem Sound.reaches (htoken : Function.Injective fun p => (calls p).token) (h : Sound calls s)
    (hrun : s.Reaches calls s') : Sound calls s' := by
  induction hrun with
  | refl => exact h
  | tail e _ hs ih => exact ih.step htoken hs

/-- RUN: what is over stays over, and its entry is not written again. -/
theorem Over.reaches (htoken : Function.Injective fun p => (calls p).token)
    (h : Over (s.acquirers p)) (hrun : s.Reaches calls s') :
    Over (s'.acquirers p) ∧ ∀ k x, s'.redis k = some ⟨(calls p).token, x⟩ →
      s.redis k = some ⟨(calls p).token, x⟩ := by
  induction hrun with
  | refl => exact ⟨h, fun _ _ hx => hx⟩
  | tail e _ hs ih =>
    obtain ⟨hover, hwritten⟩ := ih.1.step htoken hs
    exact ⟨hover, fun k x hx => ih.2 k x (hwritten k x hx)⟩

/-- A stored token of an acquirer expires within the term. -/
theorem Sound.expires (h : Sound calls s) {k : String} {e : ℕ}
    (he : s.redis k = some ⟨(calls p).token, e⟩) : e ≤ s.now + SERVICE_LOCK_TTL_MS := by
  obtain ⟨x, hx, -, -, -, rfl⟩ := mem_of_current ((h.stored k p e).mp he)
  exact Nat.add_le_add_right (h.past x hx) _

/-- What the lock promises of the runs that start with `redis`, an owner's sight of them apart. -/
structure Excludes (calls : ℕ → Call) (redis : Redis) : Prop where
  /-- At any instant at most one acquirer has its unexpired token stored for a key. -/
  one : ∀ s, System.Reaches calls (.start redis) s → ∀ p q k,
    s.redis.get s.now k = some (calls p).token → s.redis.get s.now k = some (calls q).token → p = q
  /-- A heartbeat or a release leaves the entries of others. -/
  own : ∀ s s', System.Reaches calls (.start redis) s → ∀ p place c,
    (s.acquirers p).pending[place]? = some c → c.command ≠ .set →
    s.step calls (.run p place) = some s' → ∀ k entry, s.redis k = some entry →
    entry.token ≠ (calls p).token → s'.redis k = some entry
  /-- After a release, a refusal or a crash the key is free of the acquirer within the term. -/
  freed : ∀ s s', System.Reaches calls (.start redis) s → ∀ p, Ended (s.acquirers p) →
    s.Reaches calls s' → s.now + SERVICE_LOCK_TTL_MS ≤ s'.now → ∀ k,
    s'.redis.get s'.now k ≠ some (calls p).token

/-- An owner that has not lost its lock was not overlapped since it took the key. -/
def NeverOverlapped (calls : ℕ → Call) (redis : Redis) : Prop :=
  ∀ s, System.Reaches calls (.start redis) s → ∀ p, (s.acquirers p).Owns →
    (s.acquirers p).isLost = false → ∀ y, TookOver (Call.keys calls) s.log p y →
    ∀ lock, (s.acquirers y.owner).phase ≠ .ok lock

/-- An owner that has not lost its lock was not overlapped before the term had passed since Redis ran
    the last of its commands that it was answered, the one that took the key or a heartbeat. -/
def OverlappedLate (calls : ℕ → Call) (redis : Redis) : Prop :=
  ∀ s, System.Reaches calls (.start redis) s → ∀ p, (s.acquirers p).Owns →
    (s.acquirers p).isLost = false →
    (∃ a ∈ (s.acquirers p).answered, a.command = .set ∧ a.ok = true) ∧
    (∀ a ∈ (s.acquirers p).answered, a.command = .renew → a.ok = true) ∧
    ∀ y, TookOver (Call.keys calls) s.log p y → ∀ a ∈ (s.acquirers p).answered, a.ok = true →
      a.time + SERVICE_LOCK_TTL_MS ≤ y.time

/-- EXCLUSION: whatever calls, heartbeats, releases, errors and crashes, the lock excludes, and an owner
    that has not lost it was not overlapped within the term of its last answer. -/
theorem service_lock_excludes (calls : ℕ → Call) (redis : Redis)
    (htoken : Function.Injective fun p => (calls p).token) (hforeign : Foreign calls redis) :
    Excludes calls redis ∧ OverlappedLate calls redis := by
  have hsound : ∀ s, System.Reaches calls (.start redis) s → Sound calls s :=
    fun s hrun => (sound_start hforeign).reaches htoken hrun
  refine ⟨⟨fun s _ p q k hp hq => ?_, ?_, ?_⟩, ?_⟩
  · exact htoken (Option.some.inj (hp.symm.trans hq))
  · intro s s' _ p place c hplace hcommand hs k entry hentry hother
    rw [System.step, hplace] at hs
    obtain ⟨command, _ | reply⟩ := c
    · cases hs
      have hdid := s.redis.run_did s.now (calls p).key (calls p).token command
      rw [System.runCommand]
      generalize s.redis.run s.now (calls p).key (calls p).token command = result at hdid ⊢
      have hkey : s.redis.get s.now (calls p).key = some (calls p).token → k ≠ (calls p).key := by
        rintro hget rfl
        obtain ⟨e, he, -⟩ := Redis.entry_of_get hget
        rw [hentry] at he
        exact hother (congrArg Entry.token (Option.some.inj he))
      cases hdid with
      | nothing => exact hentry
      | set _ => exact (hcommand rfl).elim
      | renew hget | release hget => exact (Function.update_of_ne (hkey hget) _ _).trans hentry
    · cases hs
  · intro s s' hrun p hended hrun' hnow k hget
    obtain ⟨e, he, hlive⟩ := Redis.entry_of_get hget
    have hbefore := ((hended.over ((hsound s hrun).fits p)).reaches htoken hrun').2 k e he
    have hle := (hsound s hrun).expires hbefore
    omega
  · intro s hrun p howns hlost
    obtain ⟨lock, hlock, hreleased⟩ := howns
    have hfits := (hsound s hrun).fits p
    have hphase := hfits.phase
    rw [PhaseFits, hlock] at hphase
    obtain ⟨-, hkept, htold⟩ := hphase.2 hreleased
    rw [Acquirer.isLost, hlock] at hlost
    refine ⟨htold.ok, htold.renewed hlost, fun y hover a ha hok => ?_⟩
    exact (hsound s hrun).lawful.late hover (hfits.answered a ha hok) rfl hkept

/-! Two calls for a key: the heartbeats of the first owner are not answered, its entry runs out, and the
    second one takes the key. -/

theorem reaches_exec : ∀ (es : List Event) {s' s'' : System}, s.Reaches calls s' →
    s'.exec calls es = some s'' → s.Reaches calls s''
  | [], _, _, h, hs => Option.some.inj hs ▸ h
  | e :: es, _, _, h, hs => by
    obtain ⟨s₁, hs₁, hs⟩ := Option.bind_eq_some_iff.mp hs
    exact reaches_exec es (h.tail e hs₁) hs

def twoCalls (p : ℕ) : Call := { key := "k", token := String.ofList (List.replicate p 'a') }

theorem twoCalls_tokens : Function.Injective fun p => (twoCalls p).token := by
  intro p q h
  have hlength := congrArg (fun token => token.toList.length) h
  simpa [twoCalls] using hlength

/-- Heartbeats every thirty seconds, and none of them reaches Redis. -/
def unansweredBeats : List Event :=
  [.call 0 true, .run 0 0, .settle 0 0, .pass 30000, .beat 0, .fail 0, .pass 30000, .beat 0, .fail 0,
    .pass 30000, .call 1 true, .run 1 0, .settle 1 0]

def overlapped : System := ((System.start fun _ => none).exec twoCalls unansweredBeats).getD {}

theorem overlapped_reached : System.Reaches twoCalls (.start fun _ => none) overlapped := by
  have hsome : ((System.start fun _ => none).exec twoCalls unansweredBeats).isSome := by
    decide +kernel
  obtain ⟨s, hs⟩ := Option.isSome_iff_exists.mp hsome
  refine reaches_exec unansweredBeats .refl ?_
  rw [overlapped, hs, Option.getD_some]

theorem overlapped_took : TookOver (Call.keys twoCalls) overlapped.log 0 ⟨90000, 1, .set⟩ where
  taken := rfl
  other := by decide
  same := rfl
  since := ⟨[], [⟨0, 0, .set⟩], by decide +kernel, _, .head _, rfl, rfl⟩

theorem overlapped_owner : (overlapped.acquirers 0).phase = .ok { heartbeat := some 90000 } := by
  decide +kernel

/-- The key was taken over when the term had passed. -/
theorem service_lock_excludes_two : Excludes twoCalls (fun _ => none) ∧
    ∃ a ∈ (overlapped.acquirers 0).answered, a.command = .set ∧
      a.time + SERVICE_LOCK_TTL_MS ≤ 90000 := by
  obtain ⟨hexcludes, hlate⟩ :=
    service_lock_excludes twoCalls (fun _ => none) twoCalls_tokens (fun _ _ _ => nofun)
  obtain ⟨⟨a, ha, hset, hok⟩, -, hterm⟩ := hlate overlapped overlapped_reached 0
    ⟨_, overlapped_owner, rfl⟩ (by rw [Acquirer.isLost, overlapped_owner])
  exact ⟨hexcludes, a, ha, hset, hterm _ overlapped_took a ha hok⟩

/-- OVERLAPPED: an owner that has not lost its lock, and another one. -/
theorem lock_overlapped : ¬ ∀ (calls : ℕ → Call) (redis : Redis),
    Function.Injective (fun p => (calls p).token) → Foreign calls redis →
    Excludes calls redis ∧ NeverOverlapped calls redis := by
  intro h
  have hnever := (h twoCalls (fun _ => none) twoCalls_tokens (fun _ _ _ => nofun)).2
  refine hnever overlapped overlapped_reached 0 ⟨_, overlapped_owner, rfl⟩ ?_ _ overlapped_took
    { heartbeat := some 120000 } ?_
  · rw [Acquirer.isLost, overlapped_owner]
  · decide +kernel

end ZedBot.ServiceLock
