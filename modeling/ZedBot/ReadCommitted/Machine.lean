import ZedBot.ReadCommitted.Program

/-! Interleavings of programs over a row store under READ COMMITTED.

    A configuration is the committed state, the row locks and one thread per process. One step runs
    one statement of one process or kills the process. A statement sees the rows committed when it
    runs; it waits while another transaction has written one of its rows, and what it writes inside
    a transaction stays locked and unseen by the others until that transaction ends. -/

namespace ReadCommitted

variable {Key : Type} [DecidableEq Key] {Row : Key → Type} {J W Ch : Type}

/-- What a thread carries between statements: its open transaction and the committed states its
    reads were answered from (newest first). -/
structure Local (Row : Key → Type) (J W : Type) where
  tx : Option (Tx Row J) := none
  reads : List (Store Row J W) := []

namespace Local

/-- The changes not yet committed. -/
def pending (l : Local Row J W) : Tx Row J := l.tx.getD {}

/-- The rows held locked. -/
def Holds (l : Local Row J W) : Key → Prop := l.pending.Holds

/-- Remember the state a read was answered from. -/
def read (l : Local Row J W) (s : Store Row J W) : Local Row J W := { l with reads := s :: l.reads }

end Local

/-- A process: what it still has to do and what it carries. -/
structure Thread (Row : Key → Type) (J W Ch : Type) where
  prog : Prog Row J W Ch Unit
  loc : Local Row J W := {}

/-- A configuration of the system. -/
structure Config (Row : Key → Type) (J W Ch : Type) where
  store : Store Row J W
  locks : Key → Option ℕ
  threads : ℕ → Thread Row J W Ch

/-- What the scheduler does next: run one statement of a process, with an answer of the oracle, or
    kill the process. -/
inductive Event (Ch : Type)
  | run (p : ℕ) (c : Ch)
  | crash (p : ℕ)

/-- The process an event is about. -/
def Event.pid : Event Ch → ℕ
  | .run p _ => p
  | .crash p => p

/-- Grant the keys of `ws` to `p`. -/
def grant (locks : Key → Option ℕ) (p : ℕ) (ks : List Key) : Key → Option ℕ :=
  fun k => if k ∈ ks then some p else locks k

/-- Release every lock of `p`. -/
def release (locks : Key → Option ℕ) (p : ℕ) : Key → Option ℕ :=
  fun k => if locks k = some p then none else locks k

/-- No key of `ks` is locked by a process other than `p`. -/
def Free (locks : Key → Option ℕ) (p : ℕ) (ks : List Key) : Prop :=
  ∀ k ∈ ks, locks k = none ∨ locks k = some p

instance (locks : Key → Option ℕ) (p : ℕ) (ks : List Key) : Decidable (Free locks p ks) :=
  inferInstanceAs (Decidable (∀ k ∈ ks, _))

namespace Config

/-- Every process at the start of its program. -/
def start (s : Store Row J W) (progs : ℕ → Prog Row J W Ch Unit) : Config Row J W Ch where
  store := s
  locks _ := none
  threads p := { prog := progs p }

/-- Replace the thread of `p`. -/
def setThread (c : Config Row J W Ch) (p : ℕ) (t : Thread Row J W Ch) : Config Row J W Ch :=
  { c with threads := Function.update c.threads p t }

/-- One statement of process `p`; `none` while it waits for a lock or has returned. -/
def runStep (c : Config Row J W Ch) (p : ℕ) (ch : Ch) : Option (Config Row J W Ch) :=
  let l := (c.threads p).loc
  match (c.threads p).prog with
  | .ret _ => none
  | .select f k =>
    some (c.setThread p ⟨k (f (c.store.view l.pending)), l.read c.store⟩)
  | .sql f k =>
    let e := f (c.store.view l.pending)
    let ks := e.writes.map (·.1)
    if Free c.locks p ks then
      match l.tx with
      | some t =>
        some { c.setThread p ⟨k e.result, { l with tx := some (t.add c.store.rows e) }⟩ with
          locks := grant c.locks p ks }
      | none =>
        some { c.setThread p ⟨k e.result, l⟩ with
          store := c.store.commit p (Tx.add {} c.store.rows e) }
    else none
  | .ask f k => some (c.setThread p ⟨k (f ch), l⟩)
  | .ext f k =>
    let r := f ch c.store.world
    some { c.setThread p ⟨k r.1, l⟩ with store := { c.store with world := r.2 } }
  | .begin k => some (c.setThread p ⟨k, { l with tx := some {} }⟩)
  | .commit k =>
    some { c.setThread p ⟨k, { l with tx := none }⟩ with
      store := c.store.commit p l.pending
      locks := release c.locks p }
  | .rollback k =>
    some { c.setThread p ⟨k, { l with tx := none }⟩ with locks := release c.locks p }

/-- A killed process does nothing more; its open transaction is rolled back. -/
def crash (c : Config Row J W Ch) (p : ℕ) : Config Row J W Ch :=
  { c.setThread p ⟨.ret (), { (c.threads p).loc with tx := none }⟩ with
    locks := release c.locks p }

/-- One event. -/
def step (c : Config Row J W Ch) : Event Ch → Option (Config Row J W Ch)
  | .run p ch => c.runStep p ch
  | .crash p => some (c.crash p)

/-- A schedule; `none` when an event of it is not enabled. -/
def exec (c : Config Row J W Ch) : List (Event Ch) → Option (Config Row J W Ch)
  | [] => some c
  | e :: es => (c.step e).bind fun c' => c'.exec es

/-- A schedule each of whose steps `P` accepts: who makes it, what the process has read, and what it
    does to the committed state. -/
def execWhile (P : ℕ → List (Store Row J W) → Store Row J W → Store Row J W → Bool)
    (c : Config Row J W Ch) : List (Event Ch) → Option (Config Row J W Ch)
  | [] => some c
  | e :: es => (c.step e).bind fun c' =>
    if P e.pid (c.threads e.pid).loc.reads c.store c'.store then c'.execWhile P es else none

/-- Inside an open transaction every step but its commit leaves the committed rows and the log: a
    transaction that is rolled back, or whose process dies, leaves no trace. -/
theorem step_in_transaction {c c' : Config Row J W Ch} {e : Event Ch} (h : c.step e = some c')
    (ht : (c.threads e.pid).loc.tx ≠ none)
    (hc : ∀ ch k, ¬ (e = .run e.pid ch ∧ (c.threads e.pid).prog = .commit k)) :
    c'.store.rows = c.store.rows ∧ c'.store.log = c.store.log := by
  cases e with
  | crash p => cases h; exact ⟨rfl, rfl⟩
  | run p ch =>
    simp only [step, runStep, Event.pid] at h ht hc
    split at h
    case h_1 => cases h
    case h_2 | h_4 | h_5 | h_6 | h_8 => cases h; exact ⟨rfl, rfl⟩
    case h_7 k hk => exact absurd ⟨rfl, hk⟩ (hc ch k)
    case h_3 =>
      split at h
      · split at h
        · cases h; exact ⟨rfl, rfl⟩
        · rename_i hnone; exact absurd hnone ht
      · cases h

/-- An event leaves the threads of the other processes. -/
theorem step_other {c c' : Config Row J W Ch} {e : Event Ch} {q : ℕ} (h : c.step e = some c')
    (hq : q ≠ e.pid) : c'.threads q = c.threads q := by
  cases e with
  | crash p =>
    cases h
    exact Function.update_of_ne hq _ _
  | run p ch =>
    simp only [step, runStep, Event.pid] at h hq
    split at h
    case h_1 => cases h
    case h_3 =>
      split at h
      · split at h <;> cases h <;> simp [setThread, hq]
      · cases h
    all_goals cases h; simp [setThread, hq]

/-- A thread remembers what it read before and the committed state, if it reads now. -/
theorem step_reads {c c' : Config Row J W Ch} {e : Event Ch} (h : c.step e = some c') (q : ℕ) :
    (c'.threads q).loc.reads = (c.threads q).loc.reads ∨
      (c'.threads q).loc.reads = c.store :: (c.threads q).loc.reads := by
  rcases eq_or_ne q e.pid with rfl | hq
  · cases e with
    | crash p => cases h; exact .inl (by simp [crash, setThread, Event.pid])
    | run p ch =>
      simp only [step, runStep, Event.pid] at h ⊢
      split at h
      case h_1 => cases h
      case h_2 => cases h; exact .inr (by simp [setThread, Local.read])
      case h_3 =>
        split at h
        · split at h <;> cases h <;> exact .inl (by simp [setThread])
        · cases h
      all_goals cases h; exact .inl (by simp [setThread])
  · exact .inl (by rw [step_other h hq])

end Config

/-- A condition on the steps of a run: what process `p`, having read `reads`, does to the committed
    state. -/
abbrev StepCond (Row : Key → Type) (J W : Type) :=
  ℕ → List (Store Row J W) → Store Row J W → Store Row J W → Prop

/-- `Run C c c'`: some schedule leads from `c` to `c'`, each of its steps meeting `C`. -/
inductive Run (C : StepCond Row J W) (c : Config Row J W Ch) : Config Row J W Ch → Prop
  | refl : Run C c c
  | tail {c₁ c₂ : Config Row J W Ch} (e : Event Ch) (h : Run C c c₁)
      (hs : c₁.step e = some c₂)
      (hC : C e.pid (c₁.threads e.pid).loc.reads c₁.store c₂.store) : Run C c c₂

/-- No condition. -/
def anyStep : StepCond Row J W := fun _ _ _ _ => True

/-- The program has come to its end. -/
def Prog.isReturned {α : Type} : Prog Row J W Ch α → Bool
  | .ret _ => true
  | _ => false

namespace Run

variable {C : StepCond Row J W} {c c₁ c₂ : Config Row J W Ch}

theorem trans (h₁ : Run C c c₁) (h₂ : Run C c₁ c₂) : Run C c c₂ := by
  induction h₂ with
  | refl => exact h₁
  | tail e _ hs hC ih => exact .tail e ih hs hC

/-- An executed schedule is a run. -/
theorem of_exec {es : List (Event Ch)} (h : c.exec es = some c₁) : Run anyStep c c₁ := by
  induction es generalizing c with
  | nil => cases h; exact .refl
  | cons e es ih =>
    obtain ⟨c', hc', h'⟩ := Option.bind_eq_some_iff.mp h
    exact (Run.tail e .refl hc' trivial).trans (ih h')

/-- A schedule that can be executed, with what its last configuration is checked for. -/
theorem of_exec_any {es : List (Event Ch)} {P : Config Row J W Ch → Bool}
    (h : (c.exec es).any P = true) : ∃ c', Run anyStep c c' ∧ P c' = true := by
  cases hc : c.exec es with
  | none => rw [hc] at h; cases h
  | some c' => rw [hc] at h; exact ⟨c', of_exec hc, h⟩

theorem of_execWhile {P : ℕ → List (Store Row J W) → Store Row J W → Store Row J W → Bool}
    {es : List (Event Ch)} (h : c.execWhile P es = some c₁) :
    Run (fun p r s s' => P p r s s' = true) c c₁ := by
  induction es generalizing c with
  | nil => cases h; exact .refl
  | cons e es ih =>
    obtain ⟨c', hc', h'⟩ := Option.bind_eq_some_iff.mp h
    split at h'
    · rename_i hP
      exact (Run.tail (C := fun p r s s' => P p r s s' = true) e .refl hc' hP).trans (ih h')
    · cases h'

/-- The same with what its last configuration is checked for. -/
theorem of_execWhile_any {P : ℕ → List (Store Row J W) → Store Row J W → Store Row J W → Bool}
    {es : List (Event Ch)} {Q : Config Row J W Ch → Bool} (h : (c.execWhile P es).any Q = true) :
    ∃ c', Run (fun p r s s' => P p r s s' = true) c c' ∧ Q c' = true := by
  cases hc : c.execWhile P es with
  | none => rw [hc] at h; cases h
  | some c' => rw [hc] at h; exact ⟨c', of_execWhile hc, h⟩

/-- A thread that has returned does nothing more. -/
theorem returned {p : ℕ} (h : Run C c c₁) (hp : (c.threads p).prog.isReturned = true) :
    (c₁.threads p).prog.isReturned = true := by
  induction h with
  | refl => exact hp
  | tail e _ hs _ ih =>
    rcases eq_or_ne p e.pid with rfl | hne
    · cases e with
      | crash q =>
        cases hs
        simp [Config.crash, Config.setThread, Event.pid, Prog.isReturned]
      | run q ch =>
        simp only [Config.step, Config.runStep, Event.pid] at hs ih
        split at hs
        · cases hs
        all_goals
          rename_i hprog
          rw [hprog] at ih
          cases ih
    · rw [Config.step_other hs hne]
      exact ih

/-- A condition may be weakened. -/
theorem mono {C' : StepCond Row J W} (h : Run C c c₁) (hC : ∀ p r s s', C p r s s' → C' p r s s') :
    Run C' c c₁ := by
  induction h with
  | refl => exact .refl
  | tail e _ hs h ih => exact .tail e ih hs (hC _ _ _ _ h)

end Run

end ReadCommitted
