import ZedBot.ReadCommitted.RelyGuarantee

/-! `SELECT … FOR UPDATE`: a transaction reads a row and keeps it locked until it ends.

    In the machine a row is locked by writing it, so the lock writes back the row it has read. A row
    that does not exist is not locked. -/

namespace ReadCommitted

variable {Key : Type} {Row : Key → Type} {J W Ch : Type} {α : Type}

/-- Read row `k` and lock it, where it exists. -/
def selectForUpdate (k : Key) (found : Row k → Bool) : Prog Row J W Ch (Row k) := sql fun v =>
  { result := v.rows k
    writes := if found (v.rows k) then [⟨k, v.rows k⟩] else [] }

variable [DecidableEq Key] {D : Discipline Row J W} {p : ℕ} {s : Store Row J W}
  {r : List (Store Row J W)} {t : Tx Row J}

/-- Inside a transaction a lock either finds no row and does nothing, or holds the row it read. -/
theorem wp_selectForUpdate_tx {k : Key} {found : Row k → Bool}
    {Q : Row k → Local Row J W → Store Row J W → Prop}
    (h : ∀ s', D.Later p t.Holds s s' → D.Inv s' → t.Held s'.rows →
      (found (t.row s'.rows k) = false → Q (t.row s'.rows k) ⟨some t, r⟩ s') ∧
      (found (t.row s'.rows k) = true →
        Q (t.row s'.rows k) ⟨some (t.write s'.rows ⟨k, t.row s'.rows k⟩), r⟩ s')) :
    wp D p (selectForUpdate k found : Prog Row J W Ch (Row k)) Q ⟨some t, r⟩ s := by
  refine wp_sql_tx fun s' hl hi hh => ?_
  obtain ⟨h0, h1⟩ := h s' hl hi hh
  simp only [Store.view]
  rcases Bool.eq_false_or_eq_true (found (t.row s'.rows k)) with hf | hf
  · simpa [Tx.add, hf] using h1 hf
  · simpa [Tx.add, hf] using h0 hf

end ReadCommitted
