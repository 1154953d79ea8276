import ZedBot.ReadCommitted.Statements

/-! A program that runs alone.

    Where no other process takes a step, a program with a stream of oracle answers is a function of
    the state. The function also tells in which states the program acted on the outside world. -/

namespace ReadCommitted

variable {Key : Type} {Row : Key → Type} {J W Ch : Type} {α β : Type}

/-- The state of a lone run; `reads` are the states that it read and `acts` those in which it acted,
    newest first. -/
structure Solo (Row : Key → Type) (J W : Type) where
  store : Store Row J W
  time : ℕ := 0
  tx : Option (Tx Row J) := none
  reads : List (Store Row J W) := []
  acts : List (Store Row J W) := []

namespace Solo

/-- What a statement sees. -/
def view (σ : Solo Row J W) : View Row J := σ.store.view (σ.tx.getD {})

/-- What a process carries. -/
def loc (σ : Solo Row J W) : Local Row J W := ⟨σ.tx, σ.reads⟩

/-- Remember the state that a read is answered from. -/
def read (σ : Solo Row J W) : Solo Row J W := { σ with reads := σ.store :: σ.reads }

/-- One more step. -/
def tick (σ : Solo Row J W) : Solo Row J W := { σ with time := σ.time + 1 }

@[simp] theorem tick_store (σ : Solo Row J W) : σ.tick.store = σ.store := rfl

@[simp] theorem tick_tx (σ : Solo Row J W) : σ.tick.tx = σ.tx := rfl

@[simp] theorem tick_acts (σ : Solo Row J W) : σ.tick.acts = σ.acts := rfl

@[simp] theorem read_store (σ : Solo Row J W) : σ.read.store = σ.store := rfl

@[simp] theorem read_tx (σ : Solo Row J W) : σ.read.tx = σ.tx := rfl

@[simp] theorem read_acts (σ : Solo Row J W) : σ.read.acts = σ.acts := rfl

variable [DecidableEq Key]

/-- The state after a statement with effect `e`. -/
def apply (p : ℕ) (σ : Solo Row J W) (e : Effect Row J β) : Solo Row J W :=
  match σ.tx with
  | some t => { σ with tx := some (t.add σ.store.rows e) }
  | none => { σ with store := σ.store.commit p (Tx.add {} σ.store.rows e) }

/-- Outside a transaction the committed rows are seen. -/
theorem view_rows {σ : Solo Row J W} (h : σ.tx = none) : σ.view.rows = σ.store.rows := by
  rw [view, h]
  rfl

@[simp] theorem apply_acts (p : ℕ) (σ : Solo Row J W) (e : Effect Row J β) :
    (σ.apply p e).acts = σ.acts := by
  unfold apply
  split <;> rfl

theorem apply_tx {σ : Solo Row J W} (h : σ.tx = none) (p : ℕ) (e : Effect Row J β) :
    (σ.apply p e).tx = none := by
  unfold apply
  rw [h]

theorem apply_of_tx {σ : Solo Row J W} {t : Tx Row J} (h : σ.tx = some t) (p : ℕ) (e : Effect Row J β) :
    σ.apply p e = { σ with tx := some (t.add σ.store.rows e) } := by
  simp only [apply, h]

theorem apply_store {σ : Solo Row J W} (h : σ.tx = none) (p : ℕ) (e : Effect Row J β) :
    (σ.apply p e).store = σ.store.commit p (Tx.add {} σ.store.rows e) := by
  unfold apply
  rw [h]

end Solo

variable [DecidableEq Key]

/-- The result of a program that process `p` runs alone, and the state it leaves. -/
def Prog.solo (p : ℕ) (ch : ℕ → Ch) : Prog Row J W Ch α → Solo Row J W → α × Solo Row J W
  | .ret x, σ => (x, σ)
  | .select f k, σ => (k (f σ.view)).solo p ch σ.read.tick
  | .sql f k, σ => (k (f σ.view).result).solo p ch (σ.apply p (f σ.view)).tick
  | .ask f k, σ => (k (f (ch σ.time))).solo p ch σ.tick
  | .ext f k, σ =>
    let r := f (ch σ.time) σ.store.world
    (k r.1).solo p ch
      { σ with store := { σ.store with world := r.2 }, acts := σ.store :: σ.acts }.tick
  | .begin k, σ => k.solo p ch { σ with tx := some {} }.tick
  | .commit k, σ =>
    k.solo p ch { σ with store := σ.store.commit p (σ.tx.getD {}), tx := none }.tick
  | .rollback k, σ => k.solo p ch { σ with tx := none }.tick

theorem Prog.solo_bind {p : ℕ} {ch : ℕ → Ch} (m : Prog Row J W Ch α) (g : α → Prog Row J W Ch β)
    (σ : Solo Row J W) :
    (m >>= g).solo p ch σ = (g (m.solo p ch σ).1).solo p ch (m.solo p ch σ).2 := by
  change (m.bind g).solo p ch σ = _
  induction m generalizing σ with
  | ret x => rfl
  | select f k ih | sql f k ih | ask f k ih | ext f k ih => exact ih _ _
  | begin k ih | commit k ih | rollback k ih => exact ih _

/-- A lone run from `σ` returns and leaves its state as `Q` says. -/
def soloWp (p : ℕ) (ch : ℕ → Ch) (m : Prog Row J W Ch α) (Q : α → Solo Row J W → Prop)
    (σ : Solo Row J W) : Prop := Q (m.solo p ch σ).1 (m.solo p ch σ).2

section SoloWp

variable {p : ℕ} {ch : ℕ → Ch} {σ : Solo Row J W} {Q Q' : α → Solo Row J W → Prop}

theorem soloWp_pure (x : α) (h : Q x σ) : soloWp p ch (pure x : Prog Row J W Ch α) Q σ := h

theorem soloWp_seq (m : Prog Row J W Ch β) (g : β → Prog Row J W Ch α) :
    soloWp p ch (m >>= g) Q σ ↔ soloWp p ch m (fun x => soloWp p ch (g x) Q) σ := by
  rw [soloWp, Prog.solo_bind]
  rfl

theorem soloWp_mono (m : Prog Row J W Ch α) (hQ : ∀ x σ, Q x σ → Q' x σ)
    (h : soloWp p ch m Q σ) : soloWp p ch m Q' σ := hQ _ _ h

theorem soloWp_select (f : View Row J → α) (h : Q (f σ.view) σ.read.tick) :
    soloWp p ch (select f : Prog Row J W Ch α) Q σ := h

theorem soloWp_sql (f : View Row J → Effect Row J α)
    (h : Q (f σ.view).result (σ.apply p (f σ.view)).tick) :
    soloWp p ch (sql f : Prog Row J W Ch α) Q σ := h

/-- An `UPDATE` that matches. -/
theorem soloWp_update {Q : ℕ → Solo Row J W → Prop} {k : Key} {f : Row k → Option (Row k)} {n : Row k}
    (hf : f (σ.view.rows k) = some n)
    (h : Q 1 (σ.apply p ({ result := 1, writes := [⟨k, n⟩] } : Effect Row J ℕ)).tick) :
    soloWp p ch (update k f : Prog Row J W Ch ℕ) Q σ := by
  refine soloWp_sql _ ?_
  rw [hf]
  exact h

theorem soloWp_ask (f : Ch → α) (h : Q (f (ch σ.time)) σ.tick) :
    soloWp p ch (ask f : Prog Row J W Ch α) Q σ := h

theorem soloWp_ext (f : Ch → W → α × W)
    (h : Q (f (ch σ.time) σ.store.world).1 (Solo.tick { σ with
      store := { σ.store with world := (f (ch σ.time) σ.store.world).2 }
      acts := σ.store :: σ.acts })) :
    soloWp p ch (ext f : Prog Row J W Ch α) Q σ := h

/-- A transaction commits what its body leaves, or forgets it. -/
theorem soloWp_transaction {ε : Type} (body : Prog Row J W Ch (Except ε α))
    {Q : Except ε α → Solo Row J W → Prop}
    (h : soloWp p ch body (fun x σ' => match x with
      | .ok x => Q (.ok x) (Solo.tick { σ' with
          store := σ'.store.commit p (σ'.tx.getD {})
          tx := none })
      | .error e => Q (.error e) (Solo.tick { σ' with tx := none }))
      (Solo.tick { σ with tx := some {} })) : soloWp p ch (transaction body) Q σ := by
  change soloWp p ch (body >>= _) Q (Solo.tick { σ with tx := some {} })
  refine (soloWp_seq _ _).mpr (soloWp_mono _ (fun x σ' hx => ?_) h)
  cases x with
  | ok x => exact hx
  | error e => exact hx

/-- Questions to the oracle take time only. -/
theorem soloWp_asks (m : Prog Row J W Ch α) (h : m.Asks)
    (hQ : ∀ x n, σ.time ≤ n → (m.solo p ch σ).1 = x → Q x { σ with time := n }) :
    soloWp p ch m Q σ := by
  suffices hsolo : ∃ n, σ.time ≤ n ∧ (m.solo p ch σ).2 = { σ with time := n } by
    obtain ⟨n, hn, hσ⟩ := hsolo
    rw [soloWp, hσ]
    exact hQ _ n hn rfl
  clear hQ
  induction m generalizing σ with
  | ret y => exact ⟨σ.time, Nat.le_refl _, rfl⟩
  | ask f k ih =>
    obtain ⟨n, hn, hσ⟩ := ih (f (ch σ.time)) (σ := σ.tick) (h _)
    exact ⟨n, Nat.le_of_succ_le hn, hσ⟩
  | select f k _ | sql f k _ | ext f k _ => exact h.elim
  | begin k _ | commit k _ | rollback k _ => exact h.elim

/-- Acts are remembered. -/
theorem soloWp_acts (m : Prog Row J W Ch α) {x : Store Row J W} (hx : x ∈ σ.acts) :
    soloWp p ch m (fun _ σ' => x ∈ σ'.acts) σ := by
  induction m generalizing σ with
  | ret y => exact hx
  | select f k ih | ask f k ih => exact ih _ hx
  | sql f k ih => exact ih _ (by simpa using hx)
  | ext f k ih => exact ih _ (List.mem_cons_of_mem _ hx)
  | begin k ih | commit k ih | rollback k ih => exact ih hx

end SoloWp

/-! ### Lone runs and disciplines -/

/-- Whoever is not process `p` does nothing. -/
def lone (p : ℕ) : Discipline Row J W where
  Inv _ := True
  Commits q _ _ t := q = p ∨ t = {}
  Acts q _ s w := q = p ∨ w = s.world
  commits_empty _ := .inr rfl
  inv_commit _ _ _ := trivial
  inv_act _ _ := trivial

/-- Nothing has happened around a lone process. -/
theorem lone_later {p : ℕ} {ks : Key → Prop} {s s' : Store Row J W}
    (h : (lone p).Later p ks s s') : s'.rows = s.rows ∧ s'.journal = s.journal := by
  induction h with
  | refl => exact ⟨rfl, rfl⟩
  | tail _ he ih =>
    obtain ⟨q, r, hq, hst, -⟩ := he
    cases hst with
    | act w _ => exact ih
    | commit t _ ht =>
      obtain rfl : t = {} := ht.resolve_left hq
      exact ⟨ih.1, (Store.journal_commit ..).trans ((List.append_nil _).trans ih.2)⟩

/-- A lone run meets what holds whatever the others do. -/
theorem soloWp_of_wp {D : Discipline Row J W} {p : ℕ} {ch : ℕ → Ch} {σ : Solo Row J W}
    {Q : α → Local Row J W → Store Row J W → Prop} (m : Prog Row J W Ch α) (hi : D.Inv σ.store)
    (hh : σ.loc.pending.Held σ.store.rows) (h : wp D p m Q σ.loc σ.store) :
    soloWp p ch m (fun x σ' => Q x σ'.loc σ'.store) σ := by
  induction m generalizing σ with
  | ret x => exact h
  | select f k ih => exact ih _ hi hh (h σ.store .refl hi)
  | ask f k ih => exact ih _ hi hh (h _)
  | ext f k ih =>
    obtain ⟨ha, h⟩ := h σ.store .refl hi (ch σ.time)
    exact ih _ (D.inv_act hi ha) hh h
  | sql f k ih =>
    have hstep := h σ.store .refl hi hh
    rw [Solo.loc, Local.pending] at hh
    cases htx : σ.tx with
    | some t =>
      have hview : σ.view = σ.store.view t := by rw [Solo.view, htx, Option.getD_some]
      have hafter : σ.apply p (f σ.view) =
          { σ with tx := some (t.add σ.store.rows (f σ.view)) } := by simp only [Solo.apply, htx]
      simp only [Solo.loc, htx] at hstep
      rw [htx] at hh
      refine ih _ ?_ ?_ ?_
      all_goals rw [hafter]
      · exact hi
      · exact hh.add _
      · rw [hview]
        exact hstep
    | none =>
      have hview : σ.view = σ.store.view {} := by rw [Solo.view, htx, Option.getD_none]
      have hafter : σ.apply p (f σ.view) =
          { σ with store := σ.store.commit p (Tx.add {} σ.store.rows (f σ.view)) } := by
        simp only [Solo.apply, htx]
      simp only [Solo.loc, htx] at hstep
      obtain ⟨hc, h⟩ := hstep
      refine ih _ ?_ ?_ ?_
      all_goals rw [hafter, hview]
      · exact D.inv_commit hi ((Tx.Held.empty _).add _) hc
      · simp only [Solo.loc, Local.pending, htx]
        exact Tx.Held.empty _
      · simp only [Solo.loc, htx]
        exact h
  | begin k ih => exact ih hi (Tx.Held.empty _) h
  | rollback k ih => exact ih hi (Tx.Held.empty _) h
  | commit k ih =>
    obtain ⟨hc, h⟩ := h σ.store .refl hi hh
    exact ih (D.inv_commit hi hh hc) (Tx.Held.empty _) h

/-- A configuration in which only process `p` holds locks, and is where a lone run is. -/
structure Config.Alone (p : ℕ) (m : Prog Row J W Ch Unit) (σ : Solo Row J W)
    (c : Config Row J W Ch) : Prop where
  prog : (c.threads p).prog = m
  loc : (c.threads p).loc = σ.loc
  store : c.store = σ.store
  locks : ∀ k, c.locks k = none ∨ c.locks k = some p

namespace Config.Alone

variable {p : ℕ} {m : Prog Row J W Ch Unit} {σ : Solo Row J W} {c : Config Row J W Ch}
  {locks : Key → Option ℕ}

/-- A step to the next statement leads on, if the lone run goes on from there. -/
theorem next {P : Config Row J W Ch → Prop} (m' : Prog Row J W Ch Unit) (σ' : Solo Row J W)
    (locks' : Key → Option ℕ) {x : Ch}
    (hstep : c.step (.run p x) =
      some { c.setThread p ⟨m', σ'.loc⟩ with store := σ'.store, locks := locks' })
    (ih : ∀ {locks threads}, (threads p).prog = m' → (threads p).loc = σ'.loc →
      (∀ k, locks k = none ∨ locks k = some p) →
      ∃ c' : Config Row J W Ch, Run anyStep ⟨σ'.store, locks, threads⟩ c' ∧ P c')
    (hlocks : ∀ k, locks' k = none ∨ locks' k = some p) :
    ∃ c', Run anyStep c c' ∧ P c' := by
  obtain ⟨c', hrun, hc'⟩ := @ih locks' (c.setThread p ⟨m', σ'.loc⟩).threads
    (by simp [setThread]) (by simp [setThread]) hlocks
  exact ⟨c', (Run.tail _ .refl hstep trivial).trans hrun, hc'⟩

omit [DecidableEq Key] in
theorem release (h : ∀ k, locks k = none ∨ locks k = some p) (k : Key) :
    ReadCommitted.release locks p k = none ∨ ReadCommitted.release locks p k = some p := by
  unfold ReadCommitted.release
  split
  · exact .inl rfl
  · exact h k

theorem grant (h : ∀ k, locks k = none ∨ locks k = some p) (ks : List Key) (k : Key) :
    ReadCommitted.grant locks p ks k = none ∨ ReadCommitted.grant locks p ks k = some p := by
  unfold ReadCommitted.grant
  split
  · exact .inr rfl
  · exact h k

end Config.Alone

/-- ALONE: a lone run of a program is a run of the machine, in which only that process steps; what
    follows is where the lone run ended. -/
theorem Run.of_solo {p : ℕ} (ch : ℕ → Ch) (m : Prog Row J W Ch α) (g : α → Prog Row J W Ch Unit)
    {σ : Solo Row J W} {c : Config Row J W Ch} (h : c.Alone p (m.bind g) σ) :
    ∃ c', Run anyStep c c' ∧ c'.Alone p (g (m.solo p ch σ).1) (m.solo p ch σ).2 := by
  obtain ⟨store, locks, threads⟩ := c
  obtain ⟨hprog, hloc, rfl, hlocks⟩ := h
  dsimp only at hprog hloc hlocks
  induction m generalizing locks threads σ with
  | ret x => exact ⟨_, .refl, hprog, hloc, rfl, hlocks⟩
  | select f k ih =>
    refine Config.Alone.next ((k (f σ.view)).bind g) σ.read.tick locks (x := ch σ.time) ?_ (ih _ _ _)
      hlocks
    simp only [Config.step, Config.runStep, hprog, Prog.bind, hloc]
    rfl
  | sql f k ih =>
    have hview : σ.store.view σ.loc.pending = σ.view := rfl
    have hfree : Free locks p ((f σ.view).writes.map (·.1)) := fun k _ => hlocks k
    cases htx : σ.tx with
    | none =>
      refine Config.Alone.next ((k (f σ.view).result).bind g) (σ.apply p (f σ.view)).tick locks
        (x := ch σ.time) ?_ (ih _ _ _) hlocks
      simp only [Config.step, Config.runStep, hprog, Prog.bind, hloc, hview, if_pos hfree]
      simp only [Solo.loc, htx, Solo.apply]
      rfl
    | some t =>
      refine Config.Alone.next ((k (f σ.view).result).bind g) (σ.apply p (f σ.view)).tick
        (ReadCommitted.grant locks p ((f σ.view).writes.map (·.1))) (x := ch σ.time) ?_ (ih _ _ _)
        (Config.Alone.grant hlocks _)
      simp only [Config.step, Config.runStep, hprog, Prog.bind, hloc, hview, if_pos hfree]
      simp only [Solo.loc, htx, Solo.apply]
      rfl
  | ask f k ih =>
    refine Config.Alone.next ((k (f (ch σ.time))).bind g) σ.tick locks (x := ch σ.time) ?_
      (ih _ _ _) hlocks
    simp only [Config.step, Config.runStep, hprog, Prog.bind, hloc]
    rfl
  | ext f k ih =>
    refine Config.Alone.next ((k (f (ch σ.time) σ.store.world).1).bind g) (Solo.tick { σ with
      store := { σ.store with world := (f (ch σ.time) σ.store.world).2 }
      acts := σ.store :: σ.acts }) locks (x := ch σ.time) ?_ (ih _ _ _) hlocks
    simp only [Config.step, Config.runStep, hprog, Prog.bind, hloc]
    rfl
  | begin k ih =>
    refine Config.Alone.next (k.bind g) (Solo.tick { σ with tx := some {} }) locks
      (x := ch σ.time) ?_ (ih _ _) hlocks
    simp only [Config.step, Config.runStep, hprog, Prog.bind, hloc]
    rfl
  | commit k ih =>
    refine Config.Alone.next (k.bind g)
      (Solo.tick { σ with store := σ.store.commit p (σ.tx.getD {}), tx := none })
      (ReadCommitted.release locks p) (x := ch σ.time) ?_ (ih _ _) (Config.Alone.release hlocks)
    simp only [Config.step, Config.runStep, hprog, Prog.bind, hloc]
    rfl
  | rollback k ih =>
    refine Config.Alone.next (k.bind g) (Solo.tick { σ with tx := none })
      (ReadCommitted.release locks p) (x := ch σ.time) ?_ (ih _ _) (Config.Alone.release hlocks)
    simp only [Config.step, Config.runStep, hprog, Prog.bind, hloc]
    rfl

end ReadCommitted
