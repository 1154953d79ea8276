import Mathlib.Logic.Relation
import ZedBot.ReadCommitted.Machine

/-! Rely-guarantee reasoning over interleaved programs.

    A discipline says which commits and which acts on the world a process may make, and names an
    invariant they keep. `wp` reads a program against it: before each statement the other processes
    may have made any steps of theirs that spare the rows locked here, and each own commit or act
    has to be one the discipline allows. If every program of a pool is accepted, every run of the
    pool is a sequence of allowed steps, so a law of the system is proved on those steps alone. -/

namespace ReadCommitted

variable {Key : Type} {Row : Key → Type} {J W Ch : Type} {α β ε : Type}

/-- What the processes of a system may do to the committed state. -/
structure Discipline (Row : Key → Type) (J W : Type) where
  /-- The invariant of the committed state. -/
  Inv : Store Row J W → Prop
  /-- Process `p`, having read `reads`, may commit `t` on this state. -/
  Commits : ℕ → List (Store Row J W) → Store Row J W → Tx Row J → Prop
  /-- Process `p`, having read `reads`, may move the world to this one. -/
  Acts : ℕ → List (Store Row J W) → Store Row J W → W → Prop
  commits_empty : ∀ {p r s}, Inv s → Commits p r s {}
  inv_commit : ∀ {p r s t}, Inv s → t.Held s.rows → Commits p r s t → Inv (s.commit p t)
  inv_act : ∀ {p r s w}, Inv s → Acts p r s w → Inv { s with world := w }

namespace Discipline

/-- A step of process `p` on the committed state that the discipline allows. -/
inductive Step (D : Discipline Row J W) (p : ℕ) (r : List (Store Row J W)) :
    Store Row J W → Store Row J W → Prop
  | commit {s : Store Row J W} (t : Tx Row J) (hh : t.Held s.rows) (h : D.Commits p r s t) :
      Step D p r s (s.commit p t)
  | act {s : Store Row J W} (w : W) (h : D.Acts p r s w) : Step D p r s { s with world := w }

theorem Step.inv {D : Discipline Row J W} {p : ℕ} {r : List (Store Row J W)}
    {s s' : Store Row J W} (h : D.Step p r s s') (hi : D.Inv s) : D.Inv s' := by
  cases h with
  | commit t hh h => exact D.inv_commit hi hh h
  | act w h => exact D.inv_act hi h

/-- A step of a process other than `p` that spares the rows `ks`. -/
def Env (D : Discipline Row J W) (p : ℕ) (ks : Key → Prop) (s s' : Store Row J W) : Prop :=
  ∃ q r, q ≠ p ∧ D.Step q r s s' ∧ ∀ k, ks k → s'.rows k = s.rows k

/-- What the other processes may have made of a state while `p` held `ks` locked. -/
def Later (D : Discipline Row J W) (p : ℕ) (ks : Key → Prop) :
    Store Row J W → Store Row J W → Prop :=
  Relation.ReflTransGen (D.Env p ks)

variable {D : Discipline Row J W} {p : ℕ} {ks : Key → Prop} {s s' s'' : Store Row J W}

theorem Later.refl : D.Later p ks s s := Relation.ReflTransGen.refl

theorem Later.trans (h₁ : D.Later p ks s s') (h₂ : D.Later p ks s' s'') : D.Later p ks s s'' :=
  Relation.ReflTransGen.trans h₁ h₂

theorem Later.mono {ks' : Key → Prop} (h : D.Later p ks s s') (hk : ∀ k, ks' k → ks k) :
    D.Later p ks' s s' :=
  Relation.ReflTransGen.mono
    (fun _ _ ⟨q, r, hq, hs, he⟩ => ⟨q, r, hq, hs, fun k h => he k (hk k h)⟩) s s' h

/-- A locked row is as it was. -/
theorem Later.rows_eq (h : D.Later p ks s s') {k : Key} (hk : ks k) : s'.rows k = s.rows k := by
  induction h with
  | refl => rfl
  | tail _ he ih => obtain ⟨q, r, _, _, hs⟩ := he; rw [hs k hk, ih]

theorem Later.inv (h : D.Later p ks s s') (hi : D.Inv s) : D.Inv s' := by
  induction h with
  | refl => exact hi
  | tail _ he ih => obtain ⟨q, r, _, hs, _⟩ := he; exact hs.inv ih

/-- A fact that no step of another process destroys, if it spares the locked rows, still holds. -/
theorem Later.stable_spared {P : Store Row J W → Prop}
    (hP : ∀ {q r s s'}, q ≠ p → D.Inv s → D.Step q r s s' → (∀ k, ks k → s'.rows k = s.rows k) →
      P s → P s')
    (h : D.Later p ks s s') (hi : D.Inv s) (hs : P s) : P s' := by
  suffices D.Inv s' ∧ P s' from this.2
  induction h with
  | refl => exact ⟨hi, hs⟩
  | tail _ he ih =>
    obtain ⟨q, r, hq, hst, hk⟩ := he
    exact ⟨hst.inv ih.1, hP hq ih.1 hst hk ih.2⟩

/-- A fact that no step of another process destroys still holds. -/
theorem Later.stable {P : Store Row J W → Prop}
    (hP : ∀ {q r s s'}, q ≠ p → D.Inv s → D.Step q r s s' → P s → P s')
    (h : D.Later p ks s s') (hi : D.Inv s) (hs : P s) : P s' :=
  h.stable_spared (fun hq hi hst _ => hP hq hi hst) hi hs

theorem Step.length_le {q : ℕ} {r : List (Store Row J W)} (h : D.Step q r s s') :
    s.log.length ≤ s'.log.length := by
  cases h with
  | commit t _ _ => exact Nat.le_succ _
  | act w _ => exact Nat.le_refl _

/-- What was committed since an earlier state stays so. -/
theorem Later.since_suffix {x : Store Row J W} (h : D.Later p ks s s')
    (hx : x.log.length ≤ s.log.length) :
    x.log.length ≤ s'.log.length ∧ s.since x <:+ s'.since x := by
  induction h with
  | refl => exact ⟨hx, List.suffix_rfl⟩
  | tail _ he ih =>
    obtain ⟨q, r, -, hst, -⟩ := he
    refine ⟨Nat.le_trans ih.1 hst.length_le, ih.2.trans ?_⟩
    cases hst with
    | commit t _ _ =>
      rw [Store.since_commit ih.1]
      exact List.suffix_cons ..
    | act w _ => exact List.suffix_rfl

end Discipline

open Discipline

variable [DecidableEq Key]

/-- `wp D p m Q l s`: run from `s` by process `p` carrying `l`, whatever the others do in between,
    `m` makes only allowed steps and returns only when `Q` holds. -/
def wp (D : Discipline Row J W) (p : ℕ) :
    Prog Row J W Ch α → (α → Local Row J W → Store Row J W → Prop) →
      Local Row J W → Store Row J W → Prop
  | .ret x, Q, l, s => Q x l s
  | .select f k, Q, l, s =>
    ∀ s', D.Later p l.Holds s s' → D.Inv s' →
      wp D p (k (f (s'.view l.pending))) Q (l.read s') s'
  | .sql f k, Q, l, s =>
    ∀ s', D.Later p l.Holds s s' → D.Inv s' → l.pending.Held s'.rows →
      let e := f (s'.view l.pending)
      match l.tx with
      | some t => wp D p (k e.result) Q { l with tx := some (t.add s'.rows e) } s'
      | none =>
        let t : Tx Row J := Tx.add {} s'.rows e
        D.Commits p l.reads s' t ∧ wp D p (k e.result) Q l (s'.commit p t)
  | .ask f k, Q, l, s => ∀ c, wp D p (k (f c)) Q l s
  | .ext f k, Q, l, s =>
    ∀ s', D.Later p l.Holds s s' → D.Inv s' → ∀ c,
      let r := f c s'.world
      D.Acts p l.reads s' r.2 ∧ wp D p (k r.1) Q l { s' with world := r.2 }
  | .begin k, Q, l, s => wp D p k Q { l with tx := some {} } s
  | .commit k, Q, l, s =>
    ∀ s', D.Later p l.Holds s s' → D.Inv s' → l.pending.Held s'.rows →
      D.Commits p l.reads s' l.pending ∧
        wp D p k Q { l with tx := none } (s'.commit p l.pending)
  | .rollback k, Q, l, s => wp D p k Q { l with tx := none } s

/-! ### Rules -/

section Rules

variable {D : Discipline Row J W} {p : ℕ} {l : Local Row J W} {s s' : Store Row J W}
  {Q Q' : α → Local Row J W → Store Row J W → Prop}

theorem wp_bind (m : Prog Row J W Ch α) (g : α → Prog Row J W Ch β)
    {Q : β → Local Row J W → Store Row J W → Prop} :
    wp D p (m.bind g) Q l s ↔ wp D p m (fun x => wp D p (g x) Q) l s := by
  induction m generalizing l s with
  | ret x => rfl
  | select f k ih | ask f k ih | ext f k ih => simp only [Prog.bind, wp, ih]
  | sql f k ih =>
    simp only [Prog.bind, wp]
    cases l.tx <;> simp only [ih]
  | begin k ih | commit k ih | rollback k ih => simp only [Prog.bind, wp, ih]

theorem wp_mono (m : Prog Row J W Ch α) (hQ : ∀ x l s, Q x l s → Q' x l s)
    (h : wp D p m Q l s) : wp D p m Q' l s := by
  induction m generalizing l s with
  | ret x => exact hQ x l s h
  | select f k ih => exact fun s' hl hi => ih _ (h s' hl hi)
  | ask f k ih => exact fun c => ih _ (h c)
  | ext f k ih => exact fun s' hl hi c => ⟨(h s' hl hi c).1, ih _ (h s' hl hi c).2⟩
  | sql f k ih =>
    intro s' hl hi hh
    have h' := h s' hl hi hh
    cases ht : l.tx with
    | none => simp only [ht] at h' ⊢; exact ⟨h'.1, ih _ h'.2⟩
    | some t => simp only [ht] at h' ⊢; exact ih _ h'
  | begin k ih | rollback k ih => exact ih h
  | commit k ih => exact fun s' hl hi hh => ⟨(h s' hl hi hh).1, ih (h s' hl hi hh).2⟩

/-- A program that was accepted is still accepted after the others moved. -/
theorem wp_later (m : Prog Row J W Ch α) (h : wp D p m (fun _ _ _ => True) l s)
    (hl : D.Later p l.Holds s s') : wp D p m (fun _ _ _ => True) l s' := by
  induction m generalizing l s s' with
  | ret x => trivial
  | select f k _ | sql f k _ | ext f k _ | commit k _ => exact fun s'' hl' => h s'' (hl.trans hl')
  | ask f k ih => exact fun c => ih _ (h c) hl
  | begin k ih | rollback k ih => exact ih h (hl.mono fun _ hk => (hk rfl).elim)

theorem wp_pure (x : α) : wp D p (pure x : Prog Row J W Ch α) Q l s ↔ Q x l s := Iff.rfl

theorem wp_seq (m : Prog Row J W Ch α) (g : α → Prog Row J W Ch β)
    {Q : β → Local Row J W → Store Row J W → Prop} :
    wp D p (m >>= g) Q l s ↔ wp D p m (fun x => wp D p (g x) Q) l s := wp_bind m g

theorem wp_select (f : View Row J → α)
    (h : ∀ s', D.Later p l.Holds s s' → D.Inv s' → Q (f (s'.view l.pending)) (l.read s') s') :
    wp D p (select f : Prog Row J W Ch α) Q l s := h

theorem wp_ask (f : Ch → α) (h : ∀ c, Q (f c) l s) :
    wp D p (ask f : Prog Row J W Ch α) Q l s := h

theorem wp_ext (f : Ch → W → α × W)
    (h : ∀ s', D.Later p l.Holds s s' → D.Inv s' → ∀ c,
      D.Acts p l.reads s' (f c s'.world).2 ∧
        Q (f c s'.world).1 l { s' with world := (f c s'.world).2 }) :
    wp D p (ext f : Prog Row J W Ch α) Q l s := h

/-- A statement inside a transaction. -/
theorem wp_sql_tx {t : Tx Row J} {r : List (Store Row J W)} {f : View Row J → Effect Row J α}
    (h : ∀ s', D.Later p t.Holds s s' → D.Inv s' → t.Held s'.rows →
      Q (f (s'.view t)).result ⟨some (t.add s'.rows (f (s'.view t))), r⟩ s') :
    wp D p (sql f : Prog Row J W Ch α) Q ⟨some t, r⟩ s := h

/-- A statement outside a transaction is a transaction of its own. -/
theorem wp_sql {r : List (Store Row J W)} {f : View Row J → Effect Row J α}
    (h : ∀ s', D.Later p (Tx.Holds ({} : Tx Row J)) s s' → D.Inv s' →
      D.Commits p r s' (Tx.add {} s'.rows (f (s'.view {}))) ∧
        Q (f (s'.view {})).result ⟨none, r⟩ (s'.commit p (Tx.add {} s'.rows (f (s'.view {}))))) :
    wp D p (sql f : Prog Row J W Ch α) Q ⟨none, r⟩ s := fun s' hl hi _ => h s' hl hi

/-- An `UPDATE` inside a transaction: either its row does not match and nothing happens, or the row
    is locked and changed in the transaction. -/
theorem wp_update_tx {t : Tx Row J} {r : List (Store Row J W)} {k : Key}
    {f : Row k → Option (Row k)} {Q : ℕ → Local Row J W → Store Row J W → Prop}
    (h : ∀ s', D.Later p t.Holds s s' → D.Inv s' → t.Held s'.rows →
      (f (t.row s'.rows k) = none → Q 0 ⟨some t, r⟩ s') ∧
      ∀ n, f (t.row s'.rows k) = some n → Q 1 ⟨some (t.write s'.rows ⟨k, n⟩), r⟩ s') :
    wp D p (update k f : Prog Row J W Ch ℕ) Q ⟨some t, r⟩ s := by
  intro s' hl hi hh
  obtain ⟨h0, h1⟩ := h s' hl hi hh
  simp only [Store.view, Local.pending, Option.getD_some]
  cases hf : f (t.row s'.rows k) with
  | none => simpa [wp, Tx.add] using h0 hf
  | some n => simpa [wp, Tx.add] using h1 n hf

/-- An `UPDATE` outside a transaction is a transaction of its own. -/
theorem wp_update {r : List (Store Row J W)} {k : Key} {f : Row k → Option (Row k)}
    {Q : ℕ → Local Row J W → Store Row J W → Prop}
    (h : ∀ s', D.Later p (Tx.Holds ({} : Tx Row J)) s s' → D.Inv s' →
      (f (s'.rows k) = none → Q 0 ⟨none, r⟩ (s'.commit p {})) ∧
      ∀ n, f (s'.rows k) = some n →
        D.Commits p r s' (Tx.write {} s'.rows ⟨k, n⟩) ∧
          Q 1 ⟨none, r⟩ (s'.commit p (Tx.write {} s'.rows ⟨k, n⟩))) :
    wp D p (update k f : Prog Row J W Ch ℕ) Q ⟨none, r⟩ s := by
  intro s' hl hi _
  obtain ⟨h0, h1⟩ := h s' hl hi
  simp only [Store.view, Local.pending, Option.getD_none, Tx.row_empty]
  cases hf : f (s'.rows k) with
  | none => simpa [wp, Tx.add] using ⟨D.commits_empty hi, h0 hf⟩
  | some n => simpa [wp, Tx.add] using h1 n hf

/-- Appending to a table inside a transaction. -/
theorem wp_append_tx {t : Tx Row J} {r : List (Store Row J W)} {j : J}
    {Q : Unit → Local Row J W → Store Row J W → Prop}
    (h : ∀ s', D.Later p t.Holds s s' → D.Inv s' → Q () ⟨some (t.append [j]), r⟩ s') :
    wp D p (append j : Prog Row J W Ch Unit) Q ⟨some t, r⟩ s :=
  fun s' hl hi _ => h s' hl hi

/-- A transaction is accepted if its body is, the body's changes may be committed when it returns,
    and the rest is accepted after the commit or, when it throws, after the rollback. -/
theorem wp_transaction {body : Prog Row J W Ch (Except ε α)} {r : List (Store Row J W)}
    {Q : Except ε α → Local Row J W → Store Row J W → Prop}
    (h : wp D p body (fun x l s => match x with
      | .ok _ => ∀ s', D.Later p l.Holds s s' → D.Inv s' → l.pending.Held s'.rows →
        D.Commits p l.reads s' l.pending ∧ Q x ⟨none, l.reads⟩ (s'.commit p l.pending)
      | .error _ => Q x ⟨none, l.reads⟩ s) ⟨some {}, r⟩ s) :
    wp D p (transaction body) Q ⟨none, r⟩ s := by
  change wp D p (body.bind _) Q ⟨some {}, r⟩ s
  refine (wp_bind body _).mpr (wp_mono body (fun x l s hx => ?_) h)
  cases x with
  | ok x => exact hx
  | error e => exact hx

/-- FRAME: a fact that no allowed step destroys, not even an own one, holds again at the end. -/
theorem wp_frame {K : Store Row J W → Prop}
    (hK : ∀ {q r s s'}, D.Inv s → D.Step q r s s' → K s → K s') (m : Prog Row J W Ch α)
    (hi : D.Inv s) (hk : K s) (h : wp D p m Q l s) :
    wp D p m (fun x l s => Q x l s ∧ D.Inv s ∧ K s) l s := by
  have later : ∀ {l : Local Row J W} {s s'}, D.Inv s → K s → D.Later p l.Holds s s' → K s' :=
    fun hi hk hl => hl.stable (fun _ => hK) hi hk
  induction m generalizing l s with
  | ret x => exact ⟨h, hi, hk⟩
  | select f k ih => exact fun s' hl hi' => ih _ hi' (later hi hk hl) (h s' hl hi')
  | ask f k ih => exact fun c => ih _ hi hk (h c)
  | ext f k ih =>
    intro s' hl hi' c
    obtain ⟨ha, h⟩ := h s' hl hi' c
    have hst := Step.act (D := D) _ ha
    exact ⟨ha, ih _ (hst.inv hi') (hK hi' hst (later hi hk hl)) h⟩
  | sql f k ih =>
    intro s' hl hi' hh
    have h' := h s' hl hi' hh
    cases ht : l.tx with
    | none =>
      simp only [ht] at h' ⊢
      have hst := Step.commit _ ((Tx.Held.empty s'.rows).add _) h'.1
      exact ⟨h'.1, ih _ (hst.inv hi') (hK hi' hst (later hi hk hl)) h'.2⟩
    | some t =>
      simp only [ht] at h' ⊢
      exact ih _ hi' (later hi hk hl) h'
  | begin k ih | rollback k ih => exact ih hi hk h
  | commit k ih =>
    intro s' hl hi' hh
    obtain ⟨hc, h⟩ := h s' hl hi' hh
    have hst := Step.commit _ hh hc
    exact ⟨hc, ih (hst.inv hi') (hK hi' hst (later hi hk hl)) h⟩

/-- What was read is remembered. -/
theorem wp_reads {x : Store Row J W} (m : Prog Row J W Ch α) (hx : x ∈ l.reads)
    (h : wp D p m Q l s) : wp D p m (fun y l s => Q y l s ∧ x ∈ l.reads) l s := by
  induction m generalizing l s with
  | ret y => exact ⟨h, hx⟩
  | select f k ih => exact fun s' hl hi => ih _ (List.mem_cons_of_mem _ hx) (h s' hl hi)
  | ask f k ih => exact fun c => ih _ hx (h c)
  | ext f k ih => exact fun s' hl hi c => ⟨(h s' hl hi c).1, ih _ hx (h s' hl hi c).2⟩
  | sql f k ih =>
    intro s' hl hi hh
    have h' := h s' hl hi hh
    cases ht : l.tx with
    | none => simp only [ht] at h' ⊢; exact ⟨h'.1, ih _ hx h'.2⟩
    | some t => simp only [ht] at h' ⊢; exact ih _ hx h'
  | begin k ih | rollback k ih => exact ih hx h
  | commit k ih => exact fun s' hl hi hh => ⟨(h s' hl hi hh).1, ih hx (h s' hl hi hh).2⟩

/-- What was read stays at the end of what is read. -/
theorem wp_suffix (m : Prog Row J W Ch α) (h : wp D p m Q l s) :
    wp D p m (fun x l' s' => Q x l' s' ∧ l.reads <:+ l'.reads) l s := by
  have grow : ∀ {β : Type} {m : Prog Row J W Ch β} {l₁ l₂ : Local Row J W} {s : Store Row J W}
      {Q : β → Local Row J W → Store Row J W → Prop}, l₁.reads <:+ l₂.reads →
      wp D p m (fun x l' s' => Q x l' s' ∧ l₂.reads <:+ l'.reads) l₂ s →
      wp D p m (fun x l' s' => Q x l' s' ∧ l₁.reads <:+ l'.reads) l₂ s :=
    fun hl h => wp_mono _ (fun _ _ _ hx => ⟨hx.1, hl.trans hx.2⟩) h
  induction m generalizing l s with
  | ret x => exact ⟨h, List.suffix_rfl⟩
  | select f k ih => exact fun s' hl hi => grow (List.suffix_cons ..) (ih _ (h s' hl hi))
  | ask f k ih => exact fun c => ih _ (h c)
  | ext f k ih => exact fun s' hl hi c => ⟨(h s' hl hi c).1, ih _ (h s' hl hi c).2⟩
  | sql f k ih =>
    intro s' hl hi hh
    have h' := h s' hl hi hh
    cases ht : l.tx with
    | none => simp only [ht] at h' ⊢; exact ⟨h'.1, ih _ h'.2⟩
    | some t => simp only [ht] at h' ⊢; exact grow List.suffix_rfl (ih _ h')
  | begin k ih | rollback k ih => exact grow List.suffix_rfl (ih h)
  | commit k ih =>
    exact fun s' hl hi hh => ⟨(h s' hl hi hh).1, grow List.suffix_rfl (ih (h s' hl hi hh).2)⟩

/-- The end of a program may use that its reads came after those at its start. -/
theorem wp_grown (m : Prog Row J W Ch α)
    (h : wp D p m (fun x l' s' => l.reads <:+ l'.reads → Q x l' s') l s) : wp D p m Q l s :=
  wp_mono m (fun _ _ _ hx => hx.1 hx.2) (wp_suffix m h)

/-- A process that may do anything is accepted. -/
theorem wp_free (hcommits : ∀ r s t, D.Commits p r s t) (hacts : ∀ r s w, D.Acts p r s w)
    (m : Prog Row J W Ch α) : wp D p m (fun _ _ _ => True) l s := by
  induction m generalizing l s with
  | ret x => trivial
  | select f k ih => exact fun s' _ _ => ih _
  | ask f k ih => exact fun c => ih _
  | ext f k ih => exact fun s' _ _ c => ⟨hacts _ _ _, ih _⟩
  | sql f k ih =>
    intro s' _ _ _
    cases ht : l.tx with
    | none => simp only [ht]; exact ⟨hcommits _ _ _, ih _⟩
    | some t => simp only [ht]; exact ih _
  | begin k ih | rollback k ih => exact ih
  | commit k ih => exact fun s' _ _ _ => ⟨hcommits _ _ _, ih⟩

/-- A transaction whose body returns with changes of a kind that may be committed: what it returns
    describes the commit it ends with. -/
theorem wp_transaction_of {body : Prog Row J W Ch (Except ε α)} {P : α → Tx Row J → Prop}
    {K : Store Row J W → Prop} {r : List (Store Row J W)}
    (hK : ∀ {q r s s'}, D.Inv s → D.Step q r s s' → K s → K s') (hi : D.Inv s) (hk : K s)
    (h : wp D p body (fun x l _ => match x with
      | .ok y => ∃ t, l.tx = some t ∧ P y t
      | .error _ => True) ⟨some {}, r⟩ s)
    (hcommit : ∀ y t r s', P y t → D.Inv s' → K s' → t.Held s'.rows → D.Commits p r s' t) :
    wp D p (transaction body) (fun x l s' => l.tx = none ∧ D.Inv s' ∧ K s' ∧
      ∀ y, x = .ok y → ∃ t s₁, P y t ∧ t.Held s₁.rows ∧ D.Inv s₁ ∧ K s₁ ∧ s' = s₁.commit p t)
      ⟨none, r⟩ s := by
  refine wp_transaction (wp_mono body (fun x l s hx => ?_) (wp_frame hK body hi hk h))
  obtain ⟨hx, hi, hk⟩ := hx
  cases x with
  | error e => exact ⟨rfl, hi, hk, fun y hy => by cases hy⟩
  | ok y =>
    obtain ⟨tx, reads⟩ := l
    obtain ⟨t, rfl, hP⟩ := hx
    intro s' hl hi' hh
    have hk' := hl.stable (fun _ => hK) hi hk
    have hc := hcommit y t reads s' hP hi' hk' hh
    have hst := Step.commit (D := D) (r := reads) t hh hc
    refine ⟨hc, rfl, hst.inv hi', hK hi' hst hk', fun y' hy' => ?_⟩
    cases hy'
    exact ⟨t, s', hP, hh, hi', hk', rfl⟩

end Rules

/-! ### Programs outside a transaction -/

/-- `m` is accepted from every state when it starts outside a transaction, and ends outside one. -/
structure Accepts (D : Discipline Row J W) (p : ℕ) (m : Prog Row J W Ch α) : Prop where
  run : ∀ r s, D.Inv s → wp D p m (fun _ l s => l.tx = none ∧ D.Inv s) ⟨none, r⟩ s

namespace Accepts

variable {D : Discipline Row J W} {p : ℕ}

theorem pure (x : α) : Accepts D p (Pure.pure x : Prog Row J W Ch α) := ⟨fun _ _ hi => ⟨rfl, hi⟩⟩

theorem bind {m : Prog Row J W Ch α} {g : α → Prog Row J W Ch β} (h : Accepts D p m)
    (hg : ∀ x, Accepts D p (g x)) : Accepts D p (m >>= g) := by
  refine ⟨fun r s hi => (wp_seq m g).mpr (wp_mono m (fun x l s hl => ?_) (h.run r s hi))⟩
  obtain ⟨tx, reads⟩ := l
  obtain ⟨rfl, hi⟩ := hl
  exact (hg x).run reads s hi

theorem select (f : View Row J → α) :
    Accepts D p (ReadCommitted.select f : Prog Row J W Ch α) := ⟨fun _ _ _ _ _ hi => ⟨rfl, hi⟩⟩

theorem ask (f : Ch → α) :
    Accepts D p (ReadCommitted.ask f : Prog Row J W Ch α) := ⟨fun _ _ hi _ => ⟨rfl, hi⟩⟩

/-- An act is accepted if it may be made. -/
theorem ext (f : Ch → W → α × W) (h : ∀ r s c, D.Acts p r s (f c s.world).2) :
    Accepts D p (ReadCommitted.ext f : Prog Row J W Ch α) :=
  ⟨fun r _ _ _ _ hi c => ⟨h r _ c, rfl, D.inv_act hi (h r _ c)⟩⟩

theorem forEach {f : α → Prog Row J W Ch Unit} (h : ∀ x, Accepts D p (f x)) :
    ∀ xs, Accepts D p (ReadCommitted.forEach f xs)
  | [] => pure ()
  | x :: xs => bind (h x) fun _ => forEach h xs

/-- An accepted program is run where a stable fact holds: the fact still holds for what follows. -/
theorem wp_seq {m : Prog Row J W Ch α} {g : α → Prog Row J W Ch β} {K : Store Row J W → Prop}
    {Q : β → Local Row J W → Store Row J W → Prop} {r : List (Store Row J W)} {s : Store Row J W}
    (h : Accepts D p m) (hK : ∀ {q r s s'}, D.Inv s → D.Step q r s s' → K s → K s')
    (hi : D.Inv s) (hk : K s) (hg : ∀ x r s, D.Inv s → K s → wp D p (g x) Q ⟨none, r⟩ s) :
    wp D p (m >>= g) Q ⟨none, r⟩ s := by
  refine (ReadCommitted.wp_seq m g).mpr (wp_mono m (fun x l s hx => ?_)
    (wp_frame hK m hi hk (h.run r s hi)))
  obtain ⟨tx, reads⟩ := l
  obtain ⟨⟨rfl, hi⟩, _, hk⟩ := hx
  exact hg x reads s hi hk

/-- An `UPDATE` is accepted if what it writes may be committed. -/
theorem update {k : Key} {f : Row k → Option (Row k)}
    (h : ∀ r s n, D.Inv s → f (s.rows k) = some n →
      D.Commits p r s (Tx.write {} s.rows ⟨k, n⟩)) :
    Accepts D p (ReadCommitted.update k f : Prog Row J W Ch ℕ) := by
  refine ⟨fun r s _ => wp_update fun s' _ hi => ⟨fun _ => ⟨rfl, ?_⟩, fun n hn => ?_⟩⟩
  · exact D.inv_commit hi (Tx.Held.empty _) (D.commits_empty (p := p) (r := r) hi)
  · have hc := h r s' n hi hn
    exact ⟨hc, rfl, D.inv_commit hi ((Tx.Held.empty _).write _) hc⟩

/-- A statement is accepted if its effect may be committed. -/
theorem sql {f : View Row J → Effect Row J α}
    (h : ∀ r s, D.Inv s → D.Commits p r s (Tx.add {} s.rows (f (s.view {})))) :
    Accepts D p (ReadCommitted.sql f : Prog Row J W Ch α) := by
  refine ⟨fun r s _ s' _ hi _ => ?_⟩
  have hc := h r s' hi
  exact ⟨hc, rfl, D.inv_commit hi ((Tx.Held.empty _).add _) hc⟩

/-- A transaction is accepted if its body leaves changes that may be committed after whatever the
    others do while it holds its rows. -/
theorem transaction_pending {body : Prog Row J W Ch (Except ε α)}
    (h : ∀ r s, D.Inv s → wp D p body (fun x l s => match x with
      | .ok _ => ∀ s', D.Later p l.Holds s s' → D.Inv s' → l.pending.Held s'.rows →
        D.Commits p l.reads s' l.pending
      | .error _ => True) ⟨some {}, r⟩ s) : Accepts D p (ReadCommitted.transaction body) := by
  refine ⟨fun r s hi => ?_⟩
  have hbody := wp_frame (K := fun _ => True) (fun _ _ _ => trivial) body hi trivial (h r s hi)
  refine wp_transaction (wp_mono body (fun x l s hx => ?_) hbody)
  obtain ⟨hx, hi, _⟩ := hx
  cases x with
  | error e => exact ⟨rfl, hi⟩
  | ok x =>
    intro s' hl hi' hh
    have hc := hx s' hl hi' hh
    exact ⟨hc, rfl, D.inv_commit hi' hh hc⟩

/-- The same where the body names its changes. -/
theorem transaction {body : Prog Row J W Ch (Except ε α)}
    (h : ∀ r s, D.Inv s → wp D p body (fun x l s => match x with
      | .ok _ => ∃ t, l.tx = some t ∧ ∀ s', D.Later p t.Holds s s' → D.Inv s' → t.Held s'.rows →
        D.Commits p l.reads s' t
      | .error _ => True) ⟨some {}, r⟩ s) : Accepts D p (ReadCommitted.transaction body) := by
  refine transaction_pending fun r s hi => wp_mono body (fun x l s hx => ?_) (h r s hi)
  cases x with
  | error e => trivial
  | ok x =>
    obtain ⟨tx, reads⟩ := l
    obtain ⟨t, rfl, hx⟩ := hx
    exact hx

/-- A transaction is accepted if its body leaves changes that may be committed whenever it
    returns. -/
theorem transaction_from {body : Prog Row J W Ch (Except ε α)} {r : List (Store Row J W)}
    {s : Store Row J W} (hi : D.Inv s)
    (h : wp D p body (fun x l _ => match x with
      | .ok _ => ∃ t, l.tx = some t ∧ ∀ s', D.Inv s' → t.Held s'.rows → D.Commits p l.reads s' t
      | .error _ => True) ⟨some {}, r⟩ s) :
    wp D p (ReadCommitted.transaction body) (fun _ l s => l.tx = none ∧ D.Inv s) ⟨none, r⟩ s := by
  have hbody := wp_frame (K := fun _ => True) (fun _ _ _ => trivial) body hi trivial h
  refine wp_transaction (wp_mono body (fun x l s hx => ?_) hbody)
  obtain ⟨hx, hi, _⟩ := hx
  cases x with
  | error e => exact ⟨rfl, hi⟩
  | ok x =>
    obtain ⟨tx, reads⟩ := l
    obtain ⟨t, rfl, hx⟩ := hx
    intro s' _ hi hh
    have hc := hx s' hi hh
    exact ⟨hc, rfl, D.inv_commit hi hh hc⟩

end Accepts

/-! ### What a process knows -/

/-- A fact about what a process has read and the committed state that further reads and steps keep. -/
structure Knowledge (D : Discipline Row J W) (H : List (Store Row J W) → Store Row J W → Prop) :
    Prop where
  read : ∀ {x r s}, H r s → H (x :: r) s
  step : ∀ {q r' r s s'}, D.Inv s → D.Step q r' s s' → H r s → H r s'

/-- `m` is accepted from every state where `H` is known, when it starts outside a transaction. -/
structure AcceptsKnowing (D : Discipline Row J W) (p : ℕ)
    (H : List (Store Row J W) → Store Row J W → Prop) (m : Prog Row J W Ch α) : Prop where
  run : ∀ r s, D.Inv s → H r s → wp D p m (fun _ l s => l.tx = none ∧ D.Inv s) ⟨none, r⟩ s

section Knowledge

variable {D : Discipline Row J W} {p : ℕ} {H H' : List (Store Row J W) → Store Row J W → Prop}

omit [DecidableEq Key] in
theorem Knowledge.later (hK : Knowledge D H) {ks : Key → Prop} {r : List (Store Row J W)}
    {s s' : Store Row J W} (hl : D.Later p ks s s') (hi : D.Inv s) (h : H r s) : H r s' :=
  hl.stable (P := H r) (fun _ => hK.step) hi h

omit [DecidableEq Key] in
theorem Knowledge.and (hK : Knowledge D H) (hK' : Knowledge D H') :
    Knowledge D fun r s => H r s ∧ H' r s where
  read h := ⟨hK.read h.1, hK'.read h.2⟩
  step hi hst h := ⟨hK.step hi hst h.1, hK'.step hi hst h.2⟩

omit [DecidableEq Key] in
/-- What was read is remembered. -/
theorem Knowledge.of_read (P : Store Row J W → Prop) : Knowledge D fun r _ => ∃ x ∈ r, P x where
  read := fun ⟨x, hx, h⟩ => ⟨x, .tail _ hx, h⟩
  step _ _ h := h

/-- What is known stays known to the end. -/
theorem wp_known (hK : Knowledge D H) {l : Local Row J W} {s : Store Row J W}
    {Q : α → Local Row J W → Store Row J W → Prop} (m : Prog Row J W Ch α) (hi : D.Inv s)
    (hk : H l.reads s) (h : wp D p m Q l s) :
    wp D p m (fun x l s => Q x l s ∧ D.Inv s ∧ H l.reads s) l s := by
  induction m generalizing l s with
  | ret x => exact ⟨h, hi, hk⟩
  | select f k ih =>
    exact fun s' hl hi' => ih _ hi' (hK.read (hK.later hl hi hk)) (h s' hl hi')
  | ask f k ih => exact fun c => ih _ hi hk (h c)
  | ext f k ih =>
    intro s' hl hi' c
    obtain ⟨ha, h⟩ := h s' hl hi' c
    have hst := Step.act (D := D) _ ha
    exact ⟨ha, ih _ (hst.inv hi') (hK.step hi' hst (hK.later hl hi hk)) h⟩
  | sql f k ih =>
    intro s' hl hi' hh
    have h' := h s' hl hi' hh
    have hk' := hK.later hl hi hk
    cases ht : l.tx with
    | none =>
      simp only [ht] at h' ⊢
      have hst := Step.commit _ ((Tx.Held.empty s'.rows).add _) h'.1
      exact ⟨h'.1, ih _ (hst.inv hi') (hK.step hi' hst hk') h'.2⟩
    | some t =>
      simp only [ht] at h' ⊢
      exact ih _ hi' hk' h'
  | begin k ih | rollback k ih => exact ih hi hk h
  | commit k ih =>
    intro s' hl hi' hh
    obtain ⟨hc, h⟩ := h s' hl hi' hh
    have hst := Step.commit _ hh hc
    exact ⟨hc, ih (hst.inv hi') (hK.step hi' hst (hK.later hl hi hk)) h⟩

namespace AcceptsKnowing

theorem of_accepts {m : Prog Row J W Ch α} (h : Accepts D p m) : AcceptsKnowing D p H m :=
  ⟨fun r s hi _ => h.run r s hi⟩

theorem pure (x : α) : AcceptsKnowing D p H (Pure.pure x : Prog Row J W Ch α) :=
  .of_accepts (.pure x)

/-- More may be known. -/
theorem mono {m : Prog Row J W Ch α} (h : AcceptsKnowing D p H m) (hH : ∀ r s, H' r s → H r s) :
    AcceptsKnowing D p H' m := ⟨fun r s hi hk => h.run r s hi (hH r s hk)⟩

theorem bind (hK : Knowledge D H) {m : Prog Row J W Ch α} {g : α → Prog Row J W Ch β}
    (h : AcceptsKnowing D p H m) (hg : ∀ x, AcceptsKnowing D p H (g x)) :
    AcceptsKnowing D p H (m >>= g) := by
  refine ⟨fun r s hi hk => (ReadCommitted.wp_seq m g).mpr (wp_mono m (fun x l s hx => ?_)
    (wp_known hK m hi hk (h.run r s hi hk)))⟩
  obtain ⟨tx, reads⟩ := l
  obtain ⟨⟨rfl, -⟩, hi, hk⟩ := hx
  exact (hg x).run reads s hi hk

theorem forEach (hK : Knowledge D H) {f : α → Prog Row J W Ch Unit} :
    ∀ {xs : List α}, (∀ x ∈ xs, AcceptsKnowing D p H (f x)) →
      AcceptsKnowing D p H (ReadCommitted.forEach f xs)
  | [], _ => pure ()
  | x :: _, h => bind hK (h x (.head _)) fun _ => forEach hK fun y hy => h y (.tail _ hy)

/-- An `UPDATE` is accepted if what it writes may be committed where `H` is known. -/
theorem update (hK : Knowledge D H) {k : Key} {f : Row k → Option (Row k)}
    (h : ∀ r s n, D.Inv s → H r s → f (s.rows k) = some n →
      D.Commits p r s (Tx.write {} s.rows ⟨k, n⟩)) :
    AcceptsKnowing D p H (ReadCommitted.update k f : Prog Row J W Ch ℕ) := by
  refine ⟨fun r s hi hk => wp_update fun s' hl hi' => ⟨fun _ => ⟨rfl, ?_⟩, fun n hn => ?_⟩⟩
  · exact D.inv_commit hi' (Tx.Held.empty _) (D.commits_empty (p := p) (r := r) hi')
  · have hc := h r s' n hi' (hK.later hl hi hk) hn
    exact ⟨hc, rfl, D.inv_commit hi' ((Tx.Held.empty _).write _) hc⟩

end AcceptsKnowing

end Knowledge

/-! ### Soundness -/

/-- Every thread is accepted from where it is, and the locks guard what it has written. -/
structure Good (D : Discipline Row J W) (c : Config Row J W Ch) : Prop where
  inv : D.Inv c.store
  locked : ∀ p, ∀ k, (c.threads p).loc.Holds k → c.locks k = some p
  held : ∀ p, (c.threads p).loc.pending.Held c.store.rows
  accepted : ∀ p, wp D p (c.threads p).prog (fun _ _ _ => True) (c.threads p).loc c.store

/-- A pool of accepted programs starts well. -/
theorem good_start {D : Discipline Row J W} {s : Store Row J W}
    {progs : ℕ → Prog Row J W Ch Unit} (hi : D.Inv s)
    (h : ∀ p, wp D p (progs p) (fun _ _ _ => True) {} s) : Good D (Config.start s progs) where
  inv := hi
  locked _ _ hk := (hk rfl).elim
  held _ := Tx.Held.empty _
  accepted := h

variable {D : Discipline Row J W} {c c' : Config Row J W Ch} {p : ℕ}

/-- The configuration after process `p` moved on: `p` itself by its rule, the others because their
    rows were spared. -/
theorem Good.move (hg : Good D c) {th : Thread Row J W Ch} {store : Store Row J W}
    {locks : Key → Option ℕ}
    (hs : store = c.store ∨ ∃ r, D.Step p r c.store store)
    (hspare : ∀ q ≠ p, ∀ k, (c.threads q).loc.Holds k → store.rows k = c.store.rows k)
    (hothers : ∀ q ≠ p, ∀ k, c.locks k = some q → locks k = some q)
    (hown : ∀ k, th.loc.Holds k → locks k = some p)
    (hheld : th.loc.pending.Held store.rows)
    (hwp : wp D p th.prog (fun _ _ _ => True) th.loc store) :
    Good D { c.setThread p th with store := store, locks := locks } where
  inv := by
    rcases hs with rfl | ⟨r, hs⟩
    · exact hg.inv
    · exact hs.inv hg.inv
  locked q k hk := by
    rcases eq_or_ne q p with rfl | hq
    · exact hown k (by simpa [Config.setThread] using hk)
    · exact hothers q hq k (hg.locked q k (by simpa [Config.setThread, hq] using hk))
  held q := by
    rcases eq_or_ne q p with rfl | hq
    · simpa [Config.setThread] using hheld
    · simpa [Config.setThread, hq] using (hg.held q).of_eq (hspare q hq)
  accepted q := by
    rcases eq_or_ne q p with rfl | hq
    · simpa [Config.setThread] using hwp
    · have hl : D.Later q (c.threads q).loc.Holds c.store store := by
        rcases hs with rfl | ⟨r, hs⟩
        · exact .refl
        · exact .single ⟨p, r, hq.symm, hs, hspare q hq⟩
      simpa [Config.setThread, hq] using wp_later _ (hg.accepted q) hl

omit [DecidableEq Key] in
theorem release_other (locks : Key → Option ℕ) (q : ℕ) (hq : q ≠ p) (k : Key)
    (h : locks k = some q) : release locks p k = some q := by
  simp [release, h, hq]

/-- A commit to rows that are free or the process's own spares the rows the others have locked. -/
theorem Good.commit_spares (hg : Good D c) {q : ℕ} (hq : q ≠ p) {k : Key}
    (hk : (c.threads q).loc.Holds k) {t : Tx Row J}
    (ht : t.Holds k → c.locks k = none ∨ c.locks k = some p) :
    (c.store.commit p t).rows k = c.store.rows k := by
  refine c.store.commit_rows_of_free p fun hk' => ?_
  have hl := hg.locked q k hk
  rcases ht hk' with h | h <;> rw [h] at hl <;> cases hl
  exact hq rfl

/-- One statement of an accepted process is accepted, and what it does to the committed state is
    allowed. -/
theorem Good.runStep (hg : Good D c) {ch : Ch} (h : c.runStep p ch = some c') :
    Good D c' ∧ (c'.store = c.store ∨ D.Step p (c.threads p).loc.reads c.store c'.store) := by
  have hwp := hg.accepted p
  have hheld := hg.held p
  have hlock := hg.locked p
  unfold Config.runStep at h
  cases hprog : (c.threads p).prog with
  | ret x => simp only [hprog] at h; cases h
  | select f k =>
    simp only [hprog] at h hwp
    cases h
    exact ⟨hg.move (.inl rfl) (fun _ _ _ _ => rfl) (fun _ _ _ h => h) hlock hheld
      (hwp _ .refl hg.inv), .inl rfl⟩
  | ask f k =>
    simp only [hprog] at h hwp
    cases h
    exact ⟨hg.move (.inl rfl) (fun _ _ _ _ => rfl) (fun _ _ _ h => h) hlock hheld (hwp ch), .inl rfl⟩
  | ext f k =>
    simp only [hprog] at h hwp
    cases h
    obtain ⟨hact, hk⟩ := hwp _ .refl hg.inv ch
    exact ⟨hg.move (.inr ⟨_, .act _ hact⟩) (fun _ _ _ _ => rfl) (fun _ _ _ h => h) hlock hheld hk,
      .inr (.act _ hact)⟩
  | begin k =>
    simp only [hprog] at h hwp
    cases h
    exact ⟨hg.move (.inl rfl) (fun _ _ _ _ => rfl) (fun _ _ _ h => h) (fun _ hk => (hk rfl).elim)
      (Tx.Held.empty _) hwp, .inl rfl⟩
  | rollback k =>
    simp only [hprog] at h hwp
    cases h
    exact ⟨hg.move (.inl rfl) (fun _ _ _ _ => rfl) (release_other _) (fun _ hk => (hk rfl).elim)
      (Tx.Held.empty _) hwp, .inl rfl⟩
  | commit k =>
    simp only [hprog] at h hwp
    cases h
    obtain ⟨hcom, hk⟩ := hwp _ .refl hg.inv hheld
    refine ⟨hg.move (.inr ⟨_, .commit _ hheld hcom⟩) ?_ (release_other _) (fun _ hk => (hk rfl).elim)
      (Tx.Held.empty _) hk, .inr (.commit _ hheld hcom)⟩
    exact fun q hq k hk => hg.commit_spares hq hk fun hk' => .inr (hlock k hk')
  | sql f k =>
    simp only [hprog] at h hwp
    have hwp' := hwp _ .refl hg.inv hheld
    generalize he : f (c.store.view (c.threads p).loc.pending) = e at h hwp'
    split at h
    · rename_i hfree
      cases htx : (c.threads p).loc.tx with
      | some t =>
        -- inside a transaction: the rows are locked, nothing is committed
        have hpend : (c.threads p).loc.pending = t := by simp [Local.pending, htx]
        simp only [htx] at h hwp'
        cases h
        rw [hpend] at hheld
        refine ⟨hg.move (.inl rfl) (fun _ _ _ _ => rfl) ?_ ?_ (hheld.add e) hwp', .inl rfl⟩
        · intro q hq k hk
          refine (if_neg fun hmem => ?_).trans hk
          rcases hfree k hmem with h | h <;> rw [h] at hk <;> cases hk
          exact hq rfl
        · intro k hk
          by_cases hmem : k ∈ e.writes.map (·.1)
          · exact if_pos hmem
          · refine (if_neg hmem).trans (hlock k ?_)
            rw [Local.Holds, hpend]
            exact (Tx.holds_add.mp hk).resolve_left hmem
      | none =>
        simp only [htx] at h hwp'
        cases h
        obtain ⟨hcom, hk⟩ := hwp'
        have hnew := (Tx.Held.empty (J := J) c.store.rows).add e
        refine ⟨hg.move (.inr ⟨_, .commit _ hnew hcom⟩) ?_ (fun _ _ _ h => h) hlock ?_ hk,
          .inr (.commit _ hnew hcom)⟩
        · exact fun q hq k hk => hg.commit_spares hq hk fun hk' =>
            hfree k ((Tx.holds_add.mp hk').resolve_right (by simp [Tx.Holds]))
        · simp only [Local.pending, htx, Option.getD_none]; exact Tx.Held.empty _
    · cases h

theorem Good.crash (hg : Good D c) (p : ℕ) : Good D (c.crash p) :=
  hg.move (.inl rfl) (fun _ _ _ _ => rfl) (release_other _) (fun _ hk => (hk rfl).elim)
    (Tx.Held.empty _) trivial

/-- One event keeps a good configuration good and takes an allowed step, if it changes the committed
    state at all. -/
theorem Good.step (hg : Good D c) {e : Event Ch} (h : c.step e = some c') :
    Good D c' ∧ (c'.store = c.store ∨
      D.Step e.pid (c.threads e.pid).loc.reads c.store c'.store) := by
  cases e with
  | run p ch => exact hg.runStep h
  | crash p =>
    cases h
    exact ⟨hg.crash p, .inl rfl⟩

/-- A step of the discipline that meets a condition on the runs. -/
def Discipline.Next (D : Discipline Row J W) (C : StepCond Row J W) (s s' : Store Row J W) : Prop :=
  ∃ p r, D.Step p r s s' ∧ C p r s s'

/-- SOUND: what a run of accepted programs does to the committed state is a sequence of allowed
    steps. -/
theorem Run.sound {C : StepCond Row J W} (h : Run C c c') (hg : Good D c) :
    Good D c' ∧ Relation.ReflTransGen (D.Next C) c.store c'.store := by
  induction h with
  | refl => exact ⟨hg, .refl⟩
  | tail e _ hs hC ih =>
    obtain ⟨hg', hr⟩ := ih
    obtain ⟨hg'', hst⟩ := hg'.step hs
    refine ⟨hg'', ?_⟩
    rcases hst with hst | hst
    · rw [hst]; exact hr
    · exact hr.tail ⟨_, _, hst, hC⟩

/-- ALLOWED: every step of a run of accepted programs that changes the committed state is one that
    the discipline allows, and meets its invariant before. -/
theorem Run.allowed {C : StepCond Row J W} (h : Run C c c') (hg : Good D c) :
    Run (fun p r s s' => C p r s s' ∧ (s' = s ∨ D.Inv s ∧ D.Step p r s s')) c c' := by
  suffices Good D c' ∧
      Run (fun p r s s' => C p r s s' ∧ (s' = s ∨ D.Inv s ∧ D.Step p r s s')) c c' from this.2
  induction h with
  | refl => exact ⟨hg, .refl⟩
  | tail e _ hs hC ih =>
    obtain ⟨hg₁, hrun⟩ := ih
    obtain ⟨hg₂, hst⟩ := hg₁.step hs
    exact ⟨hg₂, hrun.tail e hs ⟨hC, hst.imp_right fun h => ⟨hg₁.inv, h⟩⟩⟩

/-- INVARIANT: a property that the allowed steps keep (while the invariant of the discipline holds)
    is kept by the runs of accepted programs. -/
theorem Run.keeps {C : StepCond Row J W} {P : Store Row J W → Prop} (h : Run C c c')
    (hg : Good D c) (hP : ∀ {s s' p r}, D.Inv s → D.Step p r s s' → C p r s s' → P s → P s')
    (h0 : P c.store) : P c'.store := by
  suffices ∀ {s s'}, Relation.ReflTransGen (D.Next C) s s' → D.Inv s → P s → D.Inv s' ∧ P s' from
    (this (h.sound hg).2 hg.inv h0).2
  intro s s' hr hi hs
  induction hr with
  | refl => exact ⟨hi, hs⟩
  | tail _ hn ih =>
    obtain ⟨p, r, hst, hC⟩ := hn
    exact ⟨hst.inv ih.1, hP ih.1 hst hC ih.2⟩

/-- LOG: what holds of every allowed commit holds of all that a run has committed. -/
theorem Run.commits_since {C : StepCond Row J W} {P : Tx Row J → Prop} (h : Run C c c')
    (hg : Good D c)
    (hP : ∀ {p r s t}, D.Inv s → t.Held s.rows → D.Commits p r s t → P t) :
    ∀ k ∈ c'.store.since c.store, P k.tx := by
  suffices c.store.log.length ≤ c'.store.log.length ∧ ∀ k ∈ c'.store.since c.store, P k.tx from
    this.2
  refine h.keeps hg (P := fun s => c.store.log.length ≤ s.log.length ∧
    ∀ k ∈ s.since c.store, P k.tx) (fun hi hst _ hs => ?_) ⟨Nat.le_refl _, by simp⟩
  cases hst with
  | act w _ => exact hs
  | commit t hh ht =>
    refine ⟨Nat.le_succ_of_le hs.1, fun k hk => ?_⟩
    rw [Store.since_commit hs.1] at hk
    rcases List.mem_cons.mp hk with rfl | hk
    · exact hP hi hh ht
    · exact hs.2 k hk

/-- READS: what process `q` has read stands in a relation `R` to the committed state, if the allowed
    steps keep it; they may use it where `q` is the one that steps. -/
theorem Run.keeps_reads {C : StepCond Row J W} {P : Store Row J W → Prop}
    {R : Store Row J W → Store Row J W → Prop} {q : ℕ} (h : Run C c c') (hg : Good D c)
    (hP : ∀ {s s' p r}, D.Inv s → D.Step p r s s' → (p = q → ∀ x ∈ r, R x s) → P s → P s')
    (hrefl : ∀ {s}, D.Inv s → P s → R s s)
    (hR : ∀ {x s s' p r}, D.Inv s → D.Step p r s s' → R x s → R x s')
    (h0 : P c.store) (hr : ∀ x ∈ (c.threads q).loc.reads, R x c.store) :
    P c'.store ∧ ∀ x ∈ (c'.threads q).loc.reads, R x c'.store := by
  suffices Good D c' ∧ P c'.store ∧ ∀ x ∈ (c'.threads q).loc.reads, R x c'.store from this.2
  induction h with
  | refl => exact ⟨hg, h0, hr⟩
  | @tail c₁ c₂ e _ hs _ ih =>
    obtain ⟨hg₁, hp, hr⟩ := ih
    obtain ⟨hg₂, hst⟩ := hg₁.step hs
    have hread : ∀ x ∈ (c₂.threads q).loc.reads, R x c₁.store := by
      intro x hx
      rcases Config.step_reads hs q with he | he <;> rw [he] at hx
      · exact hr x hx
      · rcases List.mem_cons.mp hx with rfl | hx
        · exact hrefl hg₁.inv hp
        · exact hr x hx
    rcases hst with hst | hst
    · rw [hst]
      exact ⟨hg₂, hp, hread⟩
    · refine ⟨hg₂, hP hg₁.inv hst (fun he => he ▸ hr) hp, fun x hx => ?_⟩
      exact hR hg₁.inv hst (hread x hx)

/-- SEEN: the same for what every process has read, where the steps meet the condition of the run. -/
theorem Run.keeps_seen {C : StepCond Row J W} {P : Store Row J W → Prop}
    {R : Store Row J W → Store Row J W → Prop} (h : Run C c c') (hg : Good D c)
    (hP : ∀ {s s' p r}, D.Inv s → D.Step p r s s' → C p r s s' → (∀ x ∈ r, R x s) → P s → P s')
    (hrefl : ∀ {s}, D.Inv s → P s → R s s)
    (hR : ∀ {x s s' p r}, D.Inv s → D.Step p r s s' → C p r s s' → P s → R x s → R x s')
    (h0 : P c.store) (hr : ∀ q, ∀ x ∈ (c.threads q).loc.reads, R x c.store) :
    P c'.store ∧ ∀ q, ∀ x ∈ (c'.threads q).loc.reads, R x c'.store := by
  suffices Good D c' ∧ P c'.store ∧ ∀ q, ∀ x ∈ (c'.threads q).loc.reads, R x c'.store from this.2
  induction h with
  | refl => exact ⟨hg, h0, hr⟩
  | @tail c₁ c₂ e _ hs hC ih =>
    obtain ⟨hg₁, hp, hr⟩ := ih
    obtain ⟨hg₂, hst⟩ := hg₁.step hs
    have hread : ∀ q, ∀ x ∈ (c₂.threads q).loc.reads, R x c₁.store := by
      intro q x hx
      rcases Config.step_reads hs q with he | he <;> rw [he] at hx
      · exact hr q x hx
      · rcases List.mem_cons.mp hx with rfl | hx
        · exact hrefl hg₁.inv hp
        · exact hr q x hx
    rcases hst with hst | hst
    · rw [hst]
      exact ⟨hg₂, hp, hread⟩
    · refine ⟨hg₂, hP hg₁.inv hst hC (hr e.pid) hp, fun q x hx => ?_⟩
      exact hR hg₁.inv hst hC hp (hread q x hx)

end ReadCommitted
