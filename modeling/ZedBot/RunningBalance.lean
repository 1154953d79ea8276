import Mathlib.Data.Int.Notation
import Mathlib.Data.List.Chain

/-! Ledgers with a running balance.

    Each row records the balance before it, the balance after it and a signed amount. A ledger is a
    chain from `b` to `e` when every row starts where the previous one ended and adds its amount. -/

namespace RunningBalance

/-- How a row type records its movement. -/
structure Account (ρ : Type) where
  before : ρ → ℤ
  after : ρ → ℤ
  delta : ρ → ℤ

variable {ρ : Type} (A : Account ρ)

/-- The rows lead from balance `b` to balance `e`. -/
def Chain : ℤ → List ρ → ℤ → Prop
  | b, [], e => b = e
  | b, r :: rs, e => A.before r = b ∧ A.after r = b + A.delta r ∧ Chain (A.after r) rs e

variable {A} {b e f : ℤ} {rs ss : List ρ}

theorem Chain.append : ∀ {b rs}, Chain A b rs e → Chain A e ss f → Chain A b (rs ++ ss) f
  | _, [], rfl, h₂ => h₂
  | _, _ :: _, ⟨hb, ha, h₁⟩, h₂ => ⟨hb, ha, h₁.append h₂⟩

/-- Every row of a chain adds its amount to the balance before it. -/
theorem Chain.row_sound : ∀ {b rs}, Chain A b rs e → ∀ r ∈ rs, A.after r = A.before r + A.delta r
  | _, [], _, r, hr => by cases hr
  | _, x :: xs, ⟨hb, ha, h⟩, r, hr => by
    rcases List.mem_cons.mp hr with rfl | hr
    · rw [ha, hb]
    · exact h.row_sound r hr

/-- Each row starts at the balance where the previous one ended. -/
theorem Chain.consecutive : ∀ {b rs}, Chain A b rs e →
    rs.IsChain fun r r' => A.before r' = A.after r
  | _, [], _ => .nil
  | _, [_], _ => .singleton _
  | _, _ :: _ :: _, ⟨_, _, h⟩ => .cons_cons h.1 (Chain.consecutive h)

/-- A nonempty chain ends at the balance after its last row. -/
theorem Chain.last : ∀ {b rs}, Chain A b rs e → ∀ r ∈ rs.getLast?, A.after r = e
  | _, [], _, _, hr => by cases hr
  | _, [x], ⟨_, _, h⟩, _, hr => by cases hr; exact h
  | _, x :: y :: rs, ⟨_, _, h⟩, r, hr => h.last r (by simpa [List.getLast?_cons_cons] using hr)

/-- Rows that are sound one by one, follow each other and end at `e` are a chain to `e`. -/
theorem chain_of_rows (e : ℤ) : ∀ {rs : List ρ}, (∀ r ∈ rs, A.after r = A.before r + A.delta r) →
    (rs.IsChain fun r r' => A.before r' = A.after r) → (∀ r ∈ rs.getLast?, A.after r = e) →
    ∃ b, Chain A b rs e
  | [], _, _, _ => ⟨e, rfl⟩
  | [r], hs, _, hl => ⟨A.before r, rfl, hs r (.head _), hl r rfl⟩
  | r :: r' :: rs, hs, hc, hl => by
    obtain ⟨h, hc⟩ := List.isChain_cons_cons.mp hc
    obtain ⟨b, hb, hch⟩ := chain_of_rows e (fun x hx => hs x (.tail _ hx)) hc
      fun x hx => hl x (by simpa [List.getLast?_cons_cons] using hx)
    exact ⟨A.before r, rfl, hs r (.head _), by rw [← h]; exact ⟨rfl, hb ▸ hch⟩⟩

end RunningBalance
