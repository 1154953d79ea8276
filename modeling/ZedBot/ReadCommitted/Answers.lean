import ZedBot.ReadCommitted.Statements

/-! What a program returns in a run.

    A process that hands the result of a program to the outside world shows in a run what the program
    has returned. A postcondition of the program then holds of the result and of the state that its
    last statement left, and what was committed since was committed by others. -/

namespace ReadCommitted

variable {Key : Type} {Row : Key → Type} {J W Ch : Type} {α : Type}

/-- What is left of a process that has the result `x` to hand out. -/
def answered (x : α) : Prog Row J W Ch Unit := .ext (fun _ w => (x, w)) fun _ => .ret ()

/-- A process that hands its result out. -/
def answering (m : Prog Row J W Ch α) : Prog Row J W Ch Unit := m.bind answered

theorem answered_inj [Inhabited W] [Inhabited Ch] {x y : α}
    (h : (answered x : Prog Row J W Ch Unit) = answered y) : x = y := by
  simp only [answered, Prog.ext.injEq] at h
  exact (Prod.mk.inj (congrFun (congrFun (eq_of_heq h.2.1) default) default)).1

/-- A quiet program that has come to hand out its result has returned. -/
theorem ret_of_bind_answered [Inhabited W] [Inhabited Ch] {m : Prog Row J W Ch α} {x : α}
    (hm : m.Quiet) (h : m.bind answered = answered x) : m = .ret x := by
  cases m with
  | ret y => rw [answered_inj h]
  | select f k | sql f k | ask f k | begin k | commit k | rollback k => cases h
  | ext f k => exact hm.elim

variable {D : Discipline Row J W} {p : ℕ} {s s' : Store Row J W}

/-- Where the newest commit is its own, a process sees the rows it left. -/
theorem Discipline.Later.own_commit {ks : Key → Prop} (h : D.Later p ks s s')
    (hown : s'.log.head?.map (·.pid) = some p) : s'.rows = s.rows ∧ s'.log = s.log := by
  induction h with
  | refl => exact ⟨rfl, rfl⟩
  | tail _ he ih =>
    obtain ⟨q, r, hq, hst, -⟩ := he
    cases hst with
    | act w _ => exact ih hown
    | commit t _ _ =>
      simp only [Store.commit, List.head?_cons, Option.map_some, Option.some.injEq] at hown
      exact absurd hown hq

variable [DecidableEq Key] {c c' : Config Row J W Ch} {Q : α → Local Row J W → Store Row J W → Prop}

/-- Process `p` is inside a program; `s` is the state that its last statement left. -/
structure Config.Inside (D : Discipline Row J W) (p : ℕ)
    (Q : α → Local Row J W → Store Row J W → Prop) (c : Config Row J W Ch)
    (m : Prog Row J W Ch α) (s : Store Row J W) : Prop where
  prog : (c.threads p).prog = m.bind answered
  quiet : m.Quiet
  later : D.Later p (c.threads p).loc.Holds s c.store
  accepted : wp D p m Q (c.threads p).loc s

/-- A step of another process spares the rows that `p` holds. -/
theorem Good.spares (hg : Good D c) {e : Event Ch} (hs : c.step e = some c') (hp : p ≠ e.pid)
    (k : Key) (hk : (c.threads p).loc.Holds k) : c'.store.rows k = c.store.rows k := by
  have hheld := (hg.step hs).1.held p
  rw [Config.step_other hs hp] at hheld
  cases hchg : (c.threads p).loc.pending.chg k with
  | none => exact absurd hchg hk
  | some x => exact (hheld k x.1 x.2 hchg).symm.trans (hg.held p k x.1 x.2 hchg)

namespace Config.Inside

variable {m : Prog Row J W Ch α}

theorem other (h : c.Inside D p Q m s) (hg : Good D c) {e : Event Ch} (hs : c.step e = some c')
    (hp : p ≠ e.pid) : c'.Inside D p Q m s := by
  have hthread : c'.threads p = c.threads p := step_other hs hp
  refine ⟨hthread ▸ h.prog, h.quiet, ?_, hthread ▸ h.accepted⟩
  rw [hthread]
  rcases (hg.step hs).2 with he | hst
  · rw [he]
    exact h.later
  · exact h.later.tail ⟨_, _, hp.symm, hst, hg.spares hs hp⟩

/-- A statement that is answered on the committed state. -/
theorem stay (hq : m.Quiet) {th : Thread Row J W Ch} {store : Store Row J W} {locks : Key → Option ℕ}
    (hprog : th.prog = m.bind answered) (hl : D.Later p th.loc.Holds s store)
    (hwp : wp D p m Q th.loc s) :
    ({ c.setThread p th with store := store, locks := locks } : Config Row J W Ch).Inside D p Q m s := by
  have hthread : (c.setThread p th).threads p = th := by simp [setThread]
  exact ⟨by rw [← hprog]; exact congrArg _ hthread, hq, by simpa [hthread] using hl,
    by simpa [hthread] using hwp⟩

theorem own (h : c.Inside D p Q m s) (hg : Good D c) {ch : Ch}
    (hs : c.step (.run p ch) = some c') :
    (∃ m' s', c'.Inside D p Q m' s') ∨ (c'.threads p).prog = .ret () := by
  have hprog := h.prog
  have hq := h.quiet
  have hl := h.later
  have hwp := h.accepted
  have hheld := hg.held p
  simp only [step, runStep] at hs
  cases m with
  | ret x =>
    simp only [hprog, Prog.bind, answered] at hs
    cases hs
    exact .inr (by simp [setThread])
  | select f k =>
    simp only [hprog, Prog.bind] at hs
    cases hs
    exact .inl ⟨_, _, stay (hq _) rfl .refl (hwp _ hl hg.inv)⟩
  | ask f k =>
    simp only [hprog, Prog.bind] at hs
    cases hs
    exact .inl ⟨_, _, stay (hq _) rfl hl (hwp ch)⟩
  | ext f k => exact hq.elim
  | begin k =>
    simp only [hprog, Prog.bind] at hs
    cases hs
    exact .inl ⟨_, _, stay (m := k) hq rfl (hl.mono fun _ hk => (hk rfl).elim) hwp⟩
  | rollback k =>
    simp only [hprog, Prog.bind] at hs
    cases hs
    exact .inl ⟨_, _, stay (m := k) hq rfl (hl.mono fun _ hk => (hk rfl).elim) hwp⟩
  | commit k =>
    simp only [hprog, Prog.bind] at hs
    cases hs
    exact .inl ⟨_, _, stay (m := k) hq rfl .refl (hwp _ hl hg.inv hheld).2⟩
  | sql f k =>
    simp only [hprog, Prog.bind] at hs
    have hwp' := hwp _ hl hg.inv hheld
    split at hs
    · cases htx : (c.threads p).loc.tx with
      | some t =>
        simp only [htx] at hs hwp'
        cases hs
        exact .inl ⟨_, _, stay (hq _) rfl .refl hwp'⟩
      | none =>
        simp only [htx] at hs hwp'
        cases hs
        exact .inl ⟨_, _, stay (hq _) rfl .refl hwp'.2⟩
    · cases hs

end Config.Inside

/-- A process stays inside its program until it has handed out the result, or is killed. -/
theorem Run.inside {C : StepCond Row J W} {m : Prog Row J W Ch α} (hrun : Run C c c')
    (hg : Good D c) (h : c.Inside D p Q m s) :
    (∃ m' s', c'.Inside D p Q m' s') ∨ (c'.threads p).prog = .ret () := by
  induction hrun with
  | refl => exact .inl ⟨m, s, h⟩
  | @tail c₁ c₂ e hrun hs _ ih =>
    have hg₁ := (hrun.sound hg).1
    by_cases hp : p = e.pid
    · cases e with
      | crash q =>
        cases hs
        exact .inr (by simp [Config.crash, Config.setThread, hp, Event.pid])
      | run q ch =>
        have hq : p = q := hp
        subst hq
        rcases ih with ⟨m', s', h'⟩ | hret
        · exact h'.own hg₁ hs
        · simp only [Config.step, Config.runStep, hret] at hs
          cases hs
    · rcases ih with ⟨m', s', h'⟩ | hret
      · exact .inl ⟨m', s', h'.other hg₁ hs hp⟩
      · exact .inr ((congrArg Thread.prog (Config.step_other hs hp)).trans hret)

/-- ANSWERS: what a process has to hand out meets the postcondition of its program, on the state that the
    program's last statement left. -/
theorem Run.answers [Inhabited W] [Inhabited Ch] {C : StepCond Row J W} {m : Prog Row J W Ch α}
    (hrun : Run C c c') (hg : Good D c) (hprog : (c.threads p).prog = answering m) (hm : m.Quiet)
    (hwp : wp D p m Q (c.threads p).loc c.store) {x : α}
    (hx : (c'.threads p).prog = answered x) :
    ∃ s, D.Later p (c'.threads p).loc.Holds s c'.store ∧ Q x (c'.threads p).loc s := by
  rcases hrun.inside hg (Q := Q) (s := c.store) ⟨hprog, hm, .refl, hwp⟩ with ⟨m', s', h⟩ | hret
  · have hm' := ret_of_bind_answered h.quiet (h.prog.symm.trans hx)
    rw [hm'] at h
    exact ⟨s', h.later, h.accepted⟩
  · rw [hret] at hx
    cases hx

end ReadCommitted
