import ZedBot.ReadCommitted.RelyGuarantee

/-! Conditions on single statements.

    Some rules can be seen on each statement of a program alone, whatever it has read before: an
    update that asks for the old status, an insert that lists what it inserts. `Prog.Each` says it of
    a whole program; a discipline that follows from such a condition accepts the program. -/

namespace ReadCommitted

variable {Key : Type} {Row : Key → Type} {J W Ch : Type} {α β ε : Type}

/-- A condition on what a statement writes and appends, where it sees a view. -/
abbrev StmtCond (Row : Key → Type) (J : Type) := View Row J → List (Write Row) → List J → Prop

/-- Every statement of the program meets `Φ`, and every act on the world `Ψ`, wherever it runs. -/
def Prog.Each (Φ : StmtCond Row J) (Ψ : W → W → Prop := fun _ _ => True) :
    Prog Row J W Ch α → Prop
  | .ret _ => True
  | .select _ k => ∀ b, (k b).Each Φ Ψ
  | .sql f k => (∀ v, Φ v (f v).writes (f v).entries) ∧ ∀ b, (k b).Each Φ Ψ
  | .ask _ k => ∀ b, (k b).Each Φ Ψ
  | .ext f k => (∀ c w, Ψ w (f c w).2) ∧ ∀ b, (k b).Each Φ Ψ
  | .begin k | .commit k | .rollback k => k.Each Φ Ψ

namespace Prog.Each

variable {Φ : StmtCond Row J} {Ψ : W → W → Prop}

theorem pure (x : α) : (Pure.pure x : Prog Row J W Ch α).Each Φ Ψ := trivial

theorem bind {m : Prog Row J W Ch α} {g : α → Prog Row J W Ch β} (h : m.Each Φ Ψ)
    (hg : ∀ x, (g x).Each Φ Ψ) : (m >>= g).Each Φ Ψ := by
  change (m.bind g).Each Φ Ψ
  induction m with
  | ret x => exact hg x
  | select f k ih | ask f k ih => exact fun b => ih b (h b)
  | sql f k ih | ext f k ih => exact ⟨h.1, fun b => ih b (h.2 b)⟩
  | begin k ih | commit k ih | rollback k ih => exact ih h

theorem ite {c : Prop} [Decidable c] {m m' : Prog Row J W Ch α} (h : c → m.Each Φ Ψ)
    (h' : ¬ c → m'.Each Φ Ψ) : (if c then m else m').Each Φ Ψ := by
  split
  · exact h ‹_›
  · exact h' ‹_›

theorem select (f : View Row J → α) : (ReadCommitted.select f : Prog Row J W Ch α).Each Φ Ψ :=
  fun _ => trivial

theorem ask (f : Ch → α) : (ReadCommitted.ask f : Prog Row J W Ch α).Each Φ Ψ := fun _ => trivial

theorem ext {f : Ch → W → α × W} (h : ∀ c w, Ψ w (f c w).2) :
    (ReadCommitted.ext f : Prog Row J W Ch α).Each Φ Ψ := ⟨h, fun _ => trivial⟩

theorem sql {f : View Row J → Effect Row J α} (h : ∀ v, Φ v (f v).writes (f v).entries) :
    (ReadCommitted.sql f : Prog Row J W Ch α).Each Φ Ψ := ⟨h, fun _ => trivial⟩

/-- An `UPDATE` writes nothing, or the row it matches. -/
theorem update {k : Key} {f : Row k → Option (Row k)} (h0 : ∀ v, Φ v [] [])
    (h : ∀ v n, f (v.rows k) = some n → Φ v [⟨k, n⟩] []) :
    (ReadCommitted.update k f : Prog Row J W Ch ℕ).Each Φ Ψ := by
  refine sql fun v => ?_
  cases hf : f (v.rows k) with
  | none => exact h0 v
  | some n => exact h v n hf

theorem transaction {body : Prog Row J W Ch (Except ε α)} (h : body.Each Φ Ψ) :
    (ReadCommitted.transaction body).Each Φ Ψ := by
  change (body.bind _).Each Φ Ψ
  refine bind h fun x => ?_
  cases x <;> trivial

theorem forEach {f : α → Prog Row J W Ch Unit} (h : ∀ x, (f x).Each Φ Ψ) :
    ∀ xs, (ReadCommitted.forEach f xs).Each Φ Ψ
  | [] => trivial
  | x :: xs => bind (h x) fun _ => forEach h xs

end Prog.Each

/-- A program that does not act on the world. -/
def Prog.Quiet : Prog Row J W Ch α → Prop
  | .ret _ => True
  | .select _ k => ∀ b, (k b).Quiet
  | .sql _ k => ∀ b, (k b).Quiet
  | .ask _ k => ∀ b, (k b).Quiet
  | .ext _ _ => False
  | .begin k | .commit k | .rollback k => k.Quiet

/-- Where no act is allowed there is none. -/
theorem Prog.Each.quiet [Inhabited W] [Inhabited Ch] {Φ : StmtCond Row J} {m : Prog Row J W Ch α}
    (h : m.Each Φ fun _ _ => False) : m.Quiet := by
  induction m with
  | ret x => trivial
  | select f k ih | ask f k ih => exact fun b => ih b (h b)
  | sql f k ih => exact fun b => ih b (h.2 b)
  | ext f k _ => exact h.1 default default
  | begin k ih | commit k ih | rollback k ih => exact ih h

/-- A program that only asks the oracle. -/
def Prog.Asks : Prog Row J W Ch α → Prop
  | .ret _ => True
  | .ask _ k => ∀ b, (k b).Asks
  | .select _ _ | .sql _ _ | .ext _ _ | .begin _ | .commit _ | .rollback _ => False

namespace Prog.Asks

theorem pure (x : α) : (Pure.pure x : Prog Row J W Ch α).Asks := trivial

theorem ask (f : Ch → α) : (ReadCommitted.ask f : Prog Row J W Ch α).Asks := fun _ => trivial

theorem bind {m : Prog Row J W Ch α} {g : α → Prog Row J W Ch β} (h : m.Asks)
    (hg : ∀ x, (g x).Asks) : (m >>= g).Asks := by
  change (m.bind g).Asks
  induction m with
  | ret x => exact hg x
  | ask f k ih => exact fun b => ih b (h b)
  | select f k _ | sql f k _ | ext f k _ => exact h.elim
  | begin k _ | commit k _ | rollback k _ => exact h.elim

end Prog.Asks

variable [DecidableEq Key]

/-- Questions to the oracle leave the state as it is. -/
theorem wp_asks {D : Discipline Row J W} {p : ℕ} {l : Local Row J W} {s : Store Row J W}
    {Q : α → Local Row J W → Store Row J W → Prop} (m : Prog Row J W Ch α) (h : m.Asks)
    (hQ : ∀ x, Q x l s) : wp D p m Q l s := by
  induction m with
  | ret x => exact hQ x
  | ask f k ih => exact fun c => ih _ (h _)
  | select f k _ | sql f k _ | ext f k _ => exact h.elim
  | begin k _ | commit k _ | rollback k _ => exact h.elim

/-- How conditions on statements and acts lead to a discipline: they keep a fact `P` about the state and
    the changes of a transaction that no step destroys and that allows the transaction to commit. -/
structure StmtRules (D : Discipline Row J W) (p : ℕ) (Φ : StmtCond Row J) (Ψ : W → W → Prop)
    (P : Store Row J W → Tx Row J → Prop) : Prop where
  start : ∀ {s}, D.Inv s → P s {}
  env : ∀ {q r s s' t}, D.Inv s → D.Step q r s s' → P s t → P s' t
  add : ∀ {s t} {β : Type} {e : Effect Row J β}, D.Inv s → P s t →
    Φ (s.view t) e.writes e.entries → P s (t.add s.rows e)
  commits : ∀ {r s t}, D.Inv s → t.Held s.rows → P s t → D.Commits p r s t
  acts : ∀ {r s w}, D.Inv s → Ψ s.world w → D.Acts p r s w

namespace StmtRules

variable {D : Discipline Row J W} {p : ℕ} {Φ : StmtCond Row J} {Ψ : W → W → Prop}
  {P : Store Row J W → Tx Row J → Prop}

theorem later (R : StmtRules D p Φ Ψ P) {ks : Key → Prop} {s s' : Store Row J W} {t : Tx Row J}
    (hl : D.Later p ks s s') (hi : D.Inv s) (h : P s t) : P s' t :=
  hl.stable (P := fun s => P s t) (fun _ hi hst h => R.env hi hst h) hi h

/-- A program whose statements meet `Φ` and whose acts meet `Ψ` is accepted wherever it runs. -/
theorem wp_each (R : StmtRules D p Φ Ψ P) {m : Prog Row J W Ch α} :
    ∀ {l : Local Row J W} {s : Store Row J W}, m.Each Φ Ψ → D.Inv s → P s l.pending →
      wp D p m (fun _ l s => D.Inv s ∧ P s l.pending) l s := by
  induction m with
  | ret x => exact fun _ hi hp => ⟨hi, hp⟩
  | select f k ih => exact fun h hi hp s' hl hi' => ih _ (h _) hi' (R.later hl hi hp)
  | ask f k ih => exact fun h hi hp c => ih _ (h _) hi hp
  | ext f k ih =>
    intro l s h hi hp s' hl hi' c
    have ha : D.Acts p l.reads s' (f c s'.world).2 := R.acts hi' (h.1 c _)
    exact ⟨ha, ih _ (h.2 _) (D.inv_act hi' ha) (R.env hi' (.act _ ha) (R.later hl hi hp))⟩
  | sql f k ih =>
    intro l s h hi hp s' hl hi' hh
    have hp' := R.add (e := f (s'.view l.pending)) hi' (R.later hl hi hp) (h.1 _)
    cases ht : l.tx with
    | some t =>
      simp only [Local.pending, ht, Option.getD_some] at hp' ⊢
      exact ih _ (h.2 _) hi' hp'
    | none =>
      simp only [Local.pending, ht, Option.getD_none] at hp' ⊢
      have hheld := (Tx.Held.empty (J := J) s'.rows).add (f (s'.view {}))
      have hc := R.commits (r := l.reads) hi' hheld hp'
      have hnew := D.inv_commit hi' hheld hc
      refine ⟨hc, ih _ (h.2 _) hnew ?_⟩
      rw [Local.pending, ht]
      exact R.start hnew
  | begin k ih | rollback k ih => exact fun h hi _ => ih h hi (R.start hi)
  | commit k ih =>
    intro l s h hi hp s' hl hi' hh
    have hc := R.commits (r := l.reads) hi' hh (R.later hl hi hp)
    have hnew := D.inv_commit hi' hh hc
    exact ⟨hc, ih h hnew (R.start hnew)⟩

/-! Outside a transaction a statement is a transaction of its own. -/

theorem accepts_stmt (R : StmtRules D p Φ Ψ P) {f : View Row J → Effect Row J α}
    (h : (ReadCommitted.sql f : Prog Row J W Ch α).Each Φ Ψ) :
    Accepts D p (ReadCommitted.sql f : Prog Row J W Ch α) :=
  .sql fun _ _ hi => R.commits hi ((Tx.Held.empty _).add _) (R.add hi (R.start hi) (h.1 _))

theorem accepts_ext (R : StmtRules D p Φ Ψ P) {f : Ch → W → α × W}
    (h : (ReadCommitted.ext f : Prog Row J W Ch α).Each Φ Ψ) :
    Accepts D p (ReadCommitted.ext f : Prog Row J W Ch α) :=
  ⟨fun r _ _ => wp_ext _ fun _ _ hi' c =>
    ⟨R.acts hi' (h.1 c _), rfl, D.inv_act hi' (R.acts (r := r) hi' (h.1 c _))⟩⟩

theorem accepts_transaction (R : StmtRules D p Φ Ψ P) {body : Prog Row J W Ch (Except ε α)}
    (h : body.Each Φ Ψ) : Accepts D p (ReadCommitted.transaction body) := by
  refine ⟨fun r s hi => wp_transaction (wp_mono body (fun x l s hx => ?_)
    (R.wp_each (l := ⟨some {}, r⟩) h hi (R.start hi)))⟩
  obtain ⟨hi, hp⟩ := hx
  cases x with
  | error e => exact ⟨rfl, hi⟩
  | ok x =>
    intro s' hl hi' hh
    have hc := R.commits (r := l.reads) hi' hh (R.later hl hi hp)
    exact ⟨hc, rfl, D.inv_commit hi' hh hc⟩

end StmtRules

attribute [irreducible] Prog.Each

end ReadCommitted
