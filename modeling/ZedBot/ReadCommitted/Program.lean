import Mathlib.Data.Nat.Notation
import Mathlib.Logic.Function.Basic
import Mathlib.Tactic.Tauto

/-! Programs over a row store under READ COMMITTED.

    A program is a tree of statements: plain reads, atomic statements that read and write, reads of
    an oracle (clock, fresh ids, code outside the model), acts on an outside world and the
    bracketing of transactions. The tree is a free monad, so a client writes its programs in
    `do`-notation and both the machine and the program logic are recursions over it. -/

namespace ReadCommitted

variable {Key : Type} {Row : Key → Type} {J W Ch : Type} {α β ε : Type}

/-- A row to be written. -/
abbrev Write (Row : Key → Type) := Σ k, Row k

/-- What an open transaction has done: for each row it wrote, the committed row it replaces and the
    row it installs; and the rows appended to append-only tables, oldest first. -/
structure Tx (Row : Key → Type) (J : Type) where
  chg : ∀ k, Option (Row k × Row k) := fun _ => none
  entries : List J := []

/-- One committed transaction. -/
structure Commit (Row : Key → Type) (J : Type) where
  pid : ℕ
  tx : Tx Row J

/-- The committed state: the rows, the log of commits (newest first) and the outside world. -/
structure Store (Row : Key → Type) (J W : Type) where
  rows : ∀ k, Row k
  log : List (Commit Row J) := []
  world : W

/-- The append-only rows of a log in commit order. -/
def journalOf : List (Commit Row J) → List J
  | [] => []
  | c :: cs => journalOf cs ++ c.tx.entries

/-- What a statement sees: the committed rows under the changes of its own transaction. -/
structure View (Row : Key → Type) (J : Type) where
  rows : ∀ k, Row k
  journal : List J

/-- The outcome of one atomic statement. -/
structure Effect (Row : Key → Type) (J β : Type) where
  result : β
  writes : List (Write Row) := []
  entries : List J := []

/-- `Prog Row J W Ch α`: a process returning `α`. -/
inductive Prog (Row : Key → Type) (J W Ch α : Type) : Type 1
  | ret (x : α)
  | select {β : Type} (f : View Row J → β) (k : β → Prog Row J W Ch α)
  | sql {β : Type} (f : View Row J → Effect Row J β) (k : β → Prog Row J W Ch α)
  | ask {β : Type} (f : Ch → β) (k : β → Prog Row J W Ch α)
  | ext {β : Type} (f : Ch → W → β × W) (k : β → Prog Row J W Ch α)
  | begin (k : Prog Row J W Ch α)
  | commit (k : Prog Row J W Ch α)
  | rollback (k : Prog Row J W Ch α)

namespace Prog

/-- Sequential composition. -/
def bind : Prog Row J W Ch α → (α → Prog Row J W Ch β) → Prog Row J W Ch β
  | .ret x, g => g x
  | .select f k, g => .select f fun b => (k b).bind g
  | .sql f k, g => .sql f fun b => (k b).bind g
  | .ask f k, g => .ask f fun b => (k b).bind g
  | .ext f k, g => .ext f fun b => (k b).bind g
  | .begin k, g => .begin (k.bind g)
  | .commit k, g => .commit (k.bind g)
  | .rollback k, g => .rollback (k.bind g)

instance : Monad (Prog Row J W Ch) where
  pure := .ret
  bind := bind

theorem pure_def (x : α) : (pure x : Prog Row J W Ch α) = .ret x := rfl

theorem bind_def (m : Prog Row J W Ch α) (g : α → Prog Row J W Ch β) : m >>= g = m.bind g := rfl

theorem bind_ret (m : Prog Row J W Ch α) : m.bind .ret = m := by
  induction m with
  | ret x => rfl
  | select f k ih | sql f k ih | ask f k ih | ext f k ih => simp only [bind, ih]
  | begin k ih | commit k ih | rollback k ih => simp only [bind, ih]

theorem bind_assoc {γ : Type} (m : Prog Row J W Ch α) (g : α → Prog Row J W Ch β)
    (h : β → Prog Row J W Ch γ) : (m.bind g).bind h = m.bind fun x => (g x).bind h := by
  induction m with
  | ret x => rfl
  | select f k ih | sql f k ih | ask f k ih | ext f k ih => simp only [bind, ih]
  | begin k ih | commit k ih | rollback k ih => simp only [bind, ih]

instance : LawfulMonad (Prog Row J W Ch) :=
  LawfulMonad.mk' _ bind_ret (fun _ _ => rfl) bind_assoc

end Prog

/-- A read of committed rows (and of the own uncommitted ones). -/
def select (f : View Row J → β) : Prog Row J W Ch β := .select f .ret

/-- One atomic statement. -/
def sql (f : View Row J → Effect Row J β) : Prog Row J W Ch β := .sql f .ret

/-- An answer of the oracle. -/
def ask (f : Ch → β) : Prog Row J W Ch β := .ask f .ret

/-- An act on the outside world. -/
def ext (f : Ch → W → β × W) : Prog Row J W Ch β := .ext f .ret

/-- A transaction: it commits when its body returns and rolls back when its body throws. -/
def transaction (body : Prog Row J W Ch (Except ε α)) : Prog Row J W Ch (Except ε α) :=
  .begin <| body.bind fun
    | .ok x => .commit (.ret (.ok x))
    | .error e => .rollback (.ret (.error e))

/-- `UPDATE … WHERE` on one row: `f` gives the new row when the row matches. The result is the
    number of rows changed. -/
def update (k : Key) (f : Row k → Option (Row k)) : Prog Row J W Ch ℕ :=
  sql fun v => match f (v.rows k) with
    | some r => { result := 1, writes := [⟨k, r⟩] }
    | none => { result := 0 }

/-- Append one row to an append-only table. -/
def append (j : J) : Prog Row J W Ch Unit := sql fun _ => { result := (), entries := [j] }

/-- Run `f` on every element, in order. -/
def forEach (f : α → Prog Row J W Ch Unit) : List α → Prog Row J W Ch Unit
  | [] => .ret ()
  | x :: xs => (f x).bind fun _ => forEach f xs

/-! ### Rows under pending changes -/

namespace Tx

/-- The transaction has written row `k`, so it holds it locked. -/
def Holds (t : Tx Row J) (k : Key) : Prop := t.chg k ≠ none

/-- Every change replaces the row that is committed now. -/
def Held (t : Tx Row J) (rows : ∀ k, Row k) : Prop :=
  ∀ k o n, t.chg k = some (o, n) → o = rows k

theorem Held.empty (rows : ∀ k, Row k) : Tx.Held ({} : Tx Row J) rows := by
  intro k o n h; cases h

/-- Changes go on replacing the committed rows as long as their own rows stay. -/
theorem Held.of_eq {t : Tx Row J} {rows rows' : ∀ k, Row k} (h : t.Held rows)
    (he : ∀ k, t.Holds k → rows' k = rows k) : t.Held rows' := by
  intro k o n hk
  rw [he k (by simp [Holds, hk])]; exact h k o n hk

/-- The row that is visible at `k` inside the transaction. -/
def row (t : Tx Row J) (rows : ∀ k, Row k) (k : Key) : Row k :=
  match t.chg k with
  | some (_, n) => n
  | none => rows k

/-- The committed row under a change, or the committed row itself. -/
def base (t : Tx Row J) (rows : ∀ k, Row k) (k : Key) : Row k :=
  match t.chg k with
  | some (o, _) => o
  | none => rows k

theorem Held.base_eq {t : Tx Row J} {rows : ∀ k, Row k} (h : t.Held rows) (k : Key) :
    t.base rows k = rows k := by
  unfold base; split
  · exact h k _ _ ‹_›
  · rfl

@[simp] theorem row_empty (rows : ∀ k, Row k) (k : Key) : ({} : Tx Row J).row rows k = rows k := rfl

@[simp] theorem base_empty (rows : ∀ k, Row k) (k : Key) :
    ({} : Tx Row J).base rows k = rows k := rfl

variable [DecidableEq Key]

/-- Write one row over the committed `rows`: the old row of a key written before is kept. -/
def write (t : Tx Row J) (rows : ∀ k, Row k) (w : Write Row) : Tx Row J :=
  { t with chg := Function.update t.chg w.1 (some (t.base rows w.1, w.2)) }

/-- Append to append-only tables. -/
def append (t : Tx Row J) (js : List J) : Tx Row J := { t with entries := t.entries ++ js }

/-- Apply the effect of one statement. -/
def add (t : Tx Row J) (rows : ∀ k, Row k) (e : Effect Row J β) : Tx Row J :=
  (e.writes.foldl (fun t w => t.write rows w) t).append e.entries

variable {t : Tx Row J} {rows : ∀ k, Row k}

@[simp] theorem write_chg_self (w : Write Row) :
    (t.write rows w).chg w.1 = some (t.base rows w.1, w.2) := Function.update_self ..

theorem write_chg_ne {w : Write Row} {k : Key} (h : k ≠ w.1) :
    (t.write rows w).chg k = t.chg k := Function.update_of_ne h ..

@[simp] theorem chg_write_self (k : Key) (r : Row k) :
    (t.write rows ⟨k, r⟩).chg k = some (t.base rows k, r) := Function.update_self ..

@[simp] theorem chg_write_ne {k k' : Key} (r : Row k') (h : k ≠ k') :
    (t.write rows ⟨k', r⟩).chg k = t.chg k := Function.update_of_ne h ..

@[simp] theorem row_write_self (rows' : ∀ k, Row k) (k : Key) (r : Row k) :
    (t.write rows ⟨k, r⟩).row rows' k = r := by simp [row]

@[simp] theorem row_write_ne (rows' : ∀ k, Row k) {k k' : Key} (r : Row k') (h : k ≠ k') :
    (t.write rows ⟨k', r⟩).row rows' k = t.row rows' k := by simp [row, h]

@[simp] theorem entries_write (w : Write Row) : (t.write rows w).entries = t.entries := rfl

omit [DecidableEq Key] in
@[simp] theorem chg_append (js : List J) (k : Key) : (t.append js).chg k = t.chg k := rfl

omit [DecidableEq Key] in
@[simp] theorem entries_append (js : List J) : (t.append js).entries = t.entries ++ js := rfl

omit [DecidableEq Key] in
@[simp] theorem append_nil (t : Tx Row J) : t.append [] = t := by
  simp [append]

omit [DecidableEq Key] in
/-- A visible row is the committed one, or a change installs it over the base row. -/
theorem chg_of_row {k : Key} {x : Row k} (h : t.row rows k = x) :
    t.chg k = none ∧ t.base rows k = x ∨ t.chg k = some (t.base rows k, x) := by
  subst h
  cases hk : t.chg k with
  | none => exact .inl ⟨rfl, by simp [row, base, hk]⟩
  | some c => exact .inr (by simp [row, base, hk])

omit [DecidableEq Key] in
/-- An unchanged row is seen as committed. -/
theorem row_of_chg {k : Key} (h : t.chg k = none) : t.row rows k = rows k := by simp [row, h]

omit [DecidableEq Key] in
theorem base_of_chg {k : Key} (h : t.chg k = none) : t.base rows k = rows k := by simp [base, h]

theorem holds_write {w : Write Row} {k : Key} :
    (t.write rows w).Holds k ↔ k = w.1 ∨ t.Holds k := by
  rcases eq_or_ne k w.1 with rfl | h
  · simp [Holds]
  · simp [Holds, write_chg_ne h, h]

theorem holds_add {e : Effect Row J β} {k : Key} :
    (t.add rows e).Holds k ↔ k ∈ e.writes.map (·.1) ∨ t.Holds k := by
  change (e.writes.foldl (fun t w => t.write rows w) t).Holds k ↔ _
  induction e.writes generalizing t with
  | nil => simp
  | cons w ws ih =>
    rw [List.foldl_cons, ih, holds_write, List.map_cons, List.mem_cons]; tauto

theorem Held.write (h : t.Held rows) (w : Write Row) : (t.write rows w).Held rows := by
  intro k o n hk
  rcases eq_or_ne k w.1 with rfl | hne
  · rw [write_chg_self] at hk; cases hk; exact h.base_eq _
  · rw [write_chg_ne hne] at hk; exact h k o n hk

theorem Held.add (h : t.Held rows) (e : Effect Row J β) : (t.add rows e).Held rows := by
  change (e.writes.foldl (fun t w => t.write rows w) t).Held rows
  induction e.writes generalizing t with
  | nil => exact h
  | cons w ws ih => exact ih (h.write w)

@[simp] theorem base_write (w : Write Row) (k : Key) :
    (t.write rows w).base rows k = t.base rows k := by
  rcases eq_or_ne k w.1 with rfl | h
  · simp [base]
  · simp [base, write_chg_ne h]

/-- A change after a statement stood before it, or is one of its writes over the base row. -/
theorem chg_add {e : Effect Row J β} {k : Key} {o n : Row k}
    (h : (t.add rows e).chg k = some (o, n)) :
    t.chg k = some (o, n) ∨ o = t.base rows k ∧ ⟨k, n⟩ ∈ e.writes := by
  change (e.writes.foldl (fun t w => t.write rows w) t).chg k = _ at h
  revert h
  induction e.writes generalizing t with
  | nil => exact .inl
  | cons w ws ih =>
    intro h
    rcases ih h with h | ⟨ho, h⟩
    · rcases eq_or_ne k w.1 with rfl | hne
      · rw [write_chg_self] at h
        cases h
        exact .inr ⟨rfl, .head _⟩
      · exact .inl (by rwa [write_chg_ne hne] at h)
    · exact .inr ⟨by rw [ho, base_write], .tail _ h⟩

/-- A change made by one statement alone is one of its writes, over the committed row. -/
theorem chg_add_empty {e : Effect Row J β} {k : Key} {o n : Row k}
    (h : (Tx.add ({} : Tx Row J) rows e).chg k = some (o, n)) : o = rows k ∧ ⟨k, n⟩ ∈ e.writes := by
  rcases chg_add h with h | h
  · cases h
  · exact h

/-- A statement leaves the rows it does not write. -/
theorem chg_add_of_notMem {e : Effect Row J β} {k : Key} (h : k ∉ e.writes.map (·.1)) :
    (t.add rows e).chg k = t.chg k := by
  change (e.writes.foldl (fun t w => t.write rows w) t).chg k = _
  revert h
  induction e.writes generalizing t with
  | nil => exact fun _ => rfl
  | cons w ws ih =>
    intro h
    rw [List.map_cons, List.mem_cons, not_or] at h
    rw [List.foldl_cons, ih h.2, write_chg_ne h.1]

/-- The rows that a statement does not write are seen as before. -/
theorem row_add_of_notMem {e : Effect Row J β} {k : Key} (h : k ∉ e.writes.map (·.1))
    (rows' : ∀ k, Row k) : (t.add rows e).row rows' k = t.row rows' k := by
  simp only [row, chg_add_of_notMem h]

/-- The writes of a statement leave the rows they replace. -/
theorem base_foldl (ws : List (Write Row)) (t : Tx Row J) (k : Key) :
    (ws.foldl (fun t w => t.write rows w) t).base rows k = t.base rows k := by
  induction ws generalizing t with
  | nil => rfl
  | cons w ws ih => rw [List.foldl_cons, ih, base_write]

/-- The last write of a statement to a row is the change that it leaves. -/
theorem chg_add_of_last {e : Effect Row J β} {ws ws' : List (Write Row)} {k : Key} {n : Row k}
    (h : e.writes = ws ++ ⟨k, n⟩ :: ws') (hk : k ∉ ws'.map (·.1)) :
    (t.add rows e).chg k = some (t.base rows k, n) := by
  have hsplit : t.add rows e = ((ws.foldl (fun t w => t.write rows w) t).write rows ⟨k, n⟩).add rows
      ({ result := e.result, writes := ws', entries := e.entries } : Effect Row J β) := by
    simp only [add, h, List.foldl_append, List.foldl_cons]
  rw [hsplit, chg_add_of_notMem hk, chg_write_self, base_foldl]

/-- The last write of a statement to a row is what is seen of it. -/
theorem row_add_of_last {e : Effect Row J β} {ws ws' : List (Write Row)} {k : Key} {n : Row k}
    (h : e.writes = ws ++ ⟨k, n⟩ :: ws') (hk : k ∉ ws'.map (·.1)) (rows' : ∀ k, Row k) :
    (t.add rows e).row rows' k = n := by
  simp only [row, chg_add_of_last h hk]

@[simp] theorem entries_add (e : Effect Row J β) :
    (t.add rows e).entries = t.entries ++ e.entries := by
  suffices ∀ (ws : List (Write Row)) (t : Tx Row J),
      (ws.foldl (fun t w => t.write rows w) t).entries = t.entries by
    simp [add, this]
  intro ws
  induction ws with
  | nil => exact fun _ => rfl
  | cons w ws ih => exact fun t => ih (t.write rows w)

end Tx

namespace Store

/-- What a statement of an open transaction `t` sees. -/
def view (s : Store Row J W) (t : Tx Row J) : View Row J where
  rows := t.row s.rows
  journal := journalOf s.log ++ t.entries

/-- Commit `t` for process `p`. -/
def commit (s : Store Row J W) (p : ℕ) (t : Tx Row J) : Store Row J W where
  rows := t.row s.rows
  log := ⟨p, t⟩ :: s.log
  world := s.world

/-- The committed append-only rows. -/
def journal (s : Store Row J W) : List J := journalOf s.log

@[simp] theorem journal_commit (s : Store Row J W) (p : ℕ) (t : Tx Row J) :
    (s.commit p t).journal = s.journal ++ t.entries := rfl

/-- What a transaction sees is what is seen once it has committed. -/
theorem view_commit (s : Store Row J W) (p : ℕ) (t : Tx Row J) : (s.commit p t).view {} = s.view t := by
  simp [view, commit, journalOf]
  rfl

/-- The commits made since an earlier state `x`, newest first. -/
def since (s x : Store Row J W) : List (Commit Row J) := s.log.take (s.log.length - x.log.length)

@[simp] theorem since_self (s : Store Row J W) : s.since s = [] := by simp [since]

theorem since_commit {s x : Store Row J W} (h : x.log.length ≤ s.log.length) (p : ℕ) (t : Tx Row J) :
    (s.commit p t).since x = ⟨p, t⟩ :: s.since x := by
  have hlength : s.log.length + 1 - x.log.length = s.log.length - x.log.length + 1 := by omega
  simp only [since, commit, List.length_cons, hlength, List.take_succ_cons]

/-- A commit leaves the rows it did not write. -/
theorem commit_rows_of_free (s : Store Row J W) (p : ℕ) {t : Tx Row J} {k : Key}
    (h : ¬ t.Holds k) : (s.commit p t).rows k = s.rows k := by
  simp only [commit, Tx.row, not_not.mp h]

/-- A commit leaves a row or installs the change that replaces it. -/
theorem commit_rows (s : Store Row J W) (p : ℕ) {t : Tx Row J} (hh : t.Held s.rows) (k : Key) :
    (s.commit p t).rows k = s.rows k ∧ t.chg k = none ∨
      t.chg k = some (s.rows k, (s.commit p t).rows k) := by
  cases hk : t.chg k with
  | none => exact .inl ⟨by simp only [commit, Tx.row, hk], rfl⟩
  | some c =>
    refine .inr ?_
    rw [← hh k c.1 c.2 hk]; simp only [commit, Tx.row, hk]

end Store

end ReadCommitted
