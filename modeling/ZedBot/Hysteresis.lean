import Mathlib.Data.List.Range
import Mathlib.Order.Lattice
import Mathlib.Logic.Function.Basic

/-! Alerts with hysteresis on a quantity that is read from time to time.

    A machine is armed above a low mark and alerts when a reading falls to it; it is armed again only by
    a reading above a high mark. Every alert opens a cycle, and a cycle carries a message where the
    reader was eligible. A forced reading may open a cycle again, but not one that follows a cycle
    with a message. -/

namespace Hysteresis

variable {α : Type} [LinearOrder α]

/-- The two marks. -/
structure Band (α : Type) [LinearOrder α] where
  low : α
  high : α
  low_le_high : low ≤ high

inductive Side
  | armed | alerted
  deriving DecidableEq, Repr

/-- The side of the machine, the number of cycles it has opened and the cycles with a message. -/
structure Machine where
  side : Side
  cycle : ℕ := 0
  message : ℕ → Bool := fun _ => false

/-- A value that was read, with the value before it where the reader witnessed the change. -/
structure Reading (α : Type) where
  before : Option α
  value : α
  eligible : Bool
  force : Bool
  deriving DecidableEq, Repr

/-- A reading and the cycle it opened. -/
structure Event (α : Type) extends Reading α where
  opened : Option ℕ
  deriving DecidableEq, Repr

/-- The event sent a message. -/
def Event.notified (e : Event α) : Bool := e.opened.isSome && e.eligible

namespace Machine

/-- The machine a first reading starts from: it is on the side of the value before. -/
def seed (b : Band α) (x : Reading α) : Machine where
  side := if x.before.getD x.value ≤ b.low then .alerted else .armed

/-- Whether a reading opens a cycle. -/
def opens (b : Band α) (m : Machine) (x : Reading α) : Bool :=
  match m.side with
  | .armed => x.value ≤ b.low
  | .alerted => x.value ≤ b.low ∧ x.force ∧ (m.cycle = 0 ∨ m.message m.cycle = false)

def next (b : Band α) (m : Machine) (x : Reading α) : Machine :=
  if m.opens b x then
    { side := .alerted
      cycle := m.cycle + 1
      message := if x.eligible then Function.update m.message (m.cycle + 1) true else m.message }
  else if b.high < x.value then
    { m with side := .armed }
  else
    m

end Machine

namespace Band

variable (b : Band α)

/-- The machine a reading finds. -/
def found (m : Option Machine) (x : Reading α) : Machine := m.getD (.seed b x)

def read (m : Option Machine) (x : Reading α) : Machine := (b.found m x).next b x

/-- The event of a reading. -/
def event (m : Option Machine) (x : Reading α) : Event α where
  toReading := x
  opened := if (b.found m x).opens b x then some ((b.found m x).cycle + 1) else none

end Band

/-- The events of a sequence of readings, oldest first, and the machine they leave. -/
inductive History (b : Band α) : List (Event α) → Option Machine → Prop
  | nil : History b [] none
  | snoc {es : List (Event α)} {m : Option Machine} (x : Reading α) (h : History b es m) :
      History b (es ++ [b.event m x]) (some (b.read m x))

variable {b : Band α} {m : Machine} {x : Reading α}

/-! ### One reading -/

theorem Machine.opens_iff : m.opens b x = true ↔ x.value ≤ b.low ∧
    (m.side = .alerted → x.force = true ∧ (m.cycle = 0 ∨ m.message m.cycle = false)) := by
  cases hs : m.side <;> simp [opens, hs]

theorem Machine.next_of_opens (h : m.opens b x = true) : (m.next b x).side = .alerted ∧
    (m.next b x).cycle = m.cycle + 1 ∧ (m.next b x).message =
      if x.eligible then Function.update m.message (m.cycle + 1) true else m.message := by
  simp [next, h]

theorem Machine.next_of_not_opens (h : m.opens b x = false) :
    (m.next b x).cycle = m.cycle ∧ (m.next b x).message = m.message := by
  simp only [next, h, Bool.false_eq_true, if_false]
  split <;> exact ⟨rfl, rfl⟩

/-- A reading at or below the low mark leaves the machine alerted. -/
theorem Machine.next_low (h : x.value ≤ b.low) : (m.next b x).side = .alerted := by
  have hhigh : ¬ b.high < x.value := not_lt.mpr (h.trans b.low_le_high)
  cases hs : m.side with
  | armed => exact (next_of_opens (by simp [opens, hs, h])).1
  | alerted =>
    simp only [next, hhigh, if_false]
    split
    · rfl
    · exact hs

/-- A reading above the high mark leaves it armed. -/
theorem Machine.next_high (h : b.high < x.value) : (m.next b x).side = .armed := by
  have hlow : ¬ x.value ≤ b.low := not_le.mpr (b.low_le_high.trans_lt h)
  have hopens : m.opens b x = false := by
    cases hs : m.side <;> simp [opens, hs, hlow]
  simp [next, hopens, h]

/-- A machine alerted in a cycle with a message opens nothing and stays, up to a reading above the high
    mark. -/
theorem Machine.next_messaged (hs : m.side = .alerted) (hc : m.cycle ≠ 0)
    (hm : m.message m.cycle = true) : m.opens b x = false ∧ (b.high < x.value ∨ m.next b x = m) := by
  have hopens : m.opens b x = false := by simp [opens, hs, hc, hm]
  refine ⟨hopens, ?_⟩
  by_cases h : b.high < x.value
  · exact .inl h
  · exact .inr (by simp [next, hopens, h])

/-! ### Histories -/

variable {es : List (Event α)} {om : Option Machine}

/-- The number of cycles opened. -/
def cycles (om : Option Machine) : ℕ := (om.map (·.cycle)).getD 0

theorem cycle_found (om : Option Machine) (x : Reading α) : (b.found om x).cycle = cycles om := by
  cases om <;> rfl

/-- OPENINGS: cycles are opened one by one. -/
theorem History.openings (h : History b es om) :
    es.filterMap (·.opened) = List.range' 1 (cycles om) := by
  induction h with
  | nil => rfl
  | @snoc es m x h ih =>
    rw [List.filterMap_append, ih]
    simp only [Band.event, cycle_found]
    rcases Bool.eq_false_or_eq_true ((b.found m x).opens b x) with ho | ho
    · have hcycle : cycles (some (b.read m x)) = cycles m + 1 := by
        rw [← cycle_found (b := b) m x]
        exact (Machine.next_of_opens ho).2.1
      rw [hcycle, List.range'_concat]
      simp [ho, Nat.add_comm]
    · have hcycle : cycles (some (b.read m x)) = cycles m := by
        rw [← cycle_found (b := b) m x]
        exact (Machine.next_of_not_opens ho).1
      rw [hcycle]
      simp [ho]

/-- The cycles with a message. -/
def messages (om : Option Machine) (c : ℕ) : Bool := om.any (·.message c)

/-- MESSAGES: a cycle carries a message exactly if an eligible reading opened it. -/
theorem History.message_iff (h : History b es om) (c : ℕ) :
    messages om c = true ↔ ∃ e ∈ es, e.opened = some c ∧ e.eligible = true := by
  induction h with
  | nil => simp [messages]
  | @snoc es m x h ih =>
    have hfound : messages m c = (b.found m x).message c := by
      cases m <;> rfl
    have hevent : (∃ e ∈ es ++ [b.event m x], e.opened = some c ∧ e.eligible = true) ↔
        messages m c = true ∨ (b.event m x).opened = some c ∧ x.eligible = true := by
      rw [ih]
      simp [List.mem_append, or_and_right, exists_or, Band.event]
    rw [hevent, hfound]
    change (b.read m x).message c = true ↔ _
    rcases Bool.eq_false_or_eq_true ((b.found m x).opens b x) with ho | ho
    · rw [Band.read, (Machine.next_of_opens ho).2.2]
      rcases Bool.eq_false_or_eq_true x.eligible with he | he
      · simp only [he, if_true, Band.event, ho, Option.some.injEq, and_true]
        rcases eq_or_ne c ((b.found m x).cycle + 1) with rfl | hne
        · simp
        · simp [Function.update_of_ne hne, hne.symm]
      · simp [he]
    · rw [Band.read, (Machine.next_of_not_opens ho).2]
      simp [Band.event, ho]

/-- The last message is still pending: nothing rose above the high mark, and the machine is alerted in
    the cycle of the message. -/
structure Pending (om : Option Machine) (e : Event α) : Prop where
  side : ∃ m, om = some m ∧ m.side = .alerted ∧ m.cycle ≠ 0 ∧ m.message m.cycle = true ∧
    e.opened = some m.cycle

/-- After a message, either a reading rose above the high mark or the message is pending. -/
theorem History.pending_or_rearmed (h : History b es om) :
    ∀ l₁ e l₂, es = l₁ ++ e :: l₂ → e.notified = true →
      (∃ e' ∈ l₂, b.high < e'.value) ∨ Pending om e := by
  induction h with
  | nil => intro l₁ e l₂ hes; simp at hes
  | @snoc es m x h ih =>
    intro l₁ e l₂ hes hn
    rcases List.eq_nil_or_concat l₂ with rfl | ⟨l₂, y, rfl⟩
    · -- the new event is the message
      obtain ⟨-, he⟩ := List.append_inj' hes rfl
      obtain rfl : b.event m x = e := by simpa using he
      refine .inr ⟨b.read m x, rfl, ?_⟩
      rw [Event.notified, Bool.and_eq_true, Band.event] at hn
      obtain ⟨ho, he⟩ := hn
      have ho : (b.found m x).opens b x = true := by
        by_contra hno
        simp [hno] at ho
      obtain ⟨hside, hcycle, hmessage⟩ := Machine.next_of_opens ho
      refine ⟨hside, ?_, ?_, ?_⟩
      · rw [Band.read, hcycle]
        omega
      · rw [Band.read, hmessage, hcycle]
        simp only at he
        simp [he]
      · rw [Band.read, hcycle, Band.event]
        simp [ho]
    · rw [List.concat_eq_append, ← List.cons_append, ← List.append_assoc] at hes
      obtain ⟨hes', hy⟩ := List.append_inj' hes rfl
      obtain rfl : b.event m x = y := by simpa using hy
      rw [List.concat_eq_append]
      rcases ih l₁ e l₂ hes' hn with ⟨e', he', hhigh⟩ | ⟨m', rfl, hs, hc, hm, ho⟩
      · exact .inl ⟨e', List.mem_append_left _ he', hhigh⟩
      · obtain ⟨-, hhigh | hsame⟩ := Machine.next_messaged (b := b) (x := x) hs hc hm
        · exact .inl ⟨b.event (some m') x, by simp, hhigh⟩
        · refine .inr ⟨_, rfl, ?_⟩
          rw [Band.read, show b.found (some m') x = m' from rfl, hsame]
          exact ⟨hs, hc, hm, ho⟩

/-- What comes before an event is a history, and the event is that of the next reading. -/
theorem History.upto (h : History b es om) : ∀ l₁ e l₂, es = l₁ ++ e :: l₂ →
    ∃ m, History b l₁ m ∧ e = b.event m e.toReading := by
  induction h with
  | nil => intro l₁ e l₂ hes; simp at hes
  | @snoc es m x h ih =>
    intro l₁ e l₂ hes
    rcases List.eq_nil_or_concat l₂ with rfl | ⟨l₂, y, rfl⟩
    · obtain ⟨rfl, he⟩ := List.append_inj' hes rfl
      obtain rfl : b.event m x = e := by simpa using he
      exact ⟨m, h, rfl⟩
    · rw [List.concat_eq_append, ← List.cons_append, ← List.append_assoc] at hes
      exact ih l₁ e l₂ (List.append_inj' hes rfl).1

/-- HYSTERESIS: between two messages a reading rose above the high mark. -/
theorem History.rearmed_between (h : History b es om) {l₁ l₂ l₃ : List (Event α)} {e₁ e₂ : Event α}
    (hes : es = l₁ ++ e₁ :: (l₂ ++ e₂ :: l₃)) (h₁ : e₁.notified = true) (h₂ : e₂.notified = true) :
    ∃ e ∈ l₂, b.high < e.value := by
  rw [← List.cons_append, ← List.append_assoc] at hes
  obtain ⟨m, hm, he₂⟩ := h.upto _ _ _ hes
  rcases hm.pending_or_rearmed l₁ e₁ l₂ rfl h₁ with hrose | ⟨m', rfl, hs, hc, hmsg, -⟩
  · exact hrose
  · -- a pending message lets nothing open
    obtain ⟨hopens, -⟩ := Machine.next_messaged (b := b) (x := e₂.toReading) hs hc hmsg
    rw [he₂, Event.notified, Band.event] at h₂
    rw [show b.found (some m') e₂.toReading = m' from rfl, hopens] at h₂
    simp at h₂

/-- SETTLED: the last reading decides the side, where it is outside the band. -/
theorem History.settled (h : History b es om) {e : Event α} (he : es.getLast? = some e) :
    ∃ m, om = some m ∧ (e.value ≤ b.low → m.side = .alerted) ∧
      (b.high < e.value → m.side = .armed) := by
  cases h with
  | nil => cases he
  | snoc x h =>
    rw [List.getLast?_concat] at he
    cases he
    exact ⟨_, rfl, Machine.next_low, Machine.next_high⟩

/-- FIRST: a first reading sends a message exactly if the reader is eligible and it was seen to cross the
    low mark downwards, or is forced at or below it. -/
theorem History.first (h : History b es om) {e : Event α} (he : es.head? = some e) :
    e.notified = true ↔ e.eligible = true ∧ e.value ≤ b.low ∧
      ((∃ v, e.before = some v ∧ b.low < v) ∨ e.force = true) := by
  obtain ⟨l, rfl⟩ : ∃ l, es = [] ++ e :: l := by
    cases es with
    | nil => cases he
    | cons y l => cases he; exact ⟨l, rfl⟩
  obtain ⟨m, hm, hev⟩ := h.upto [] e l rfl
  obtain rfl : m = none := by
    generalize hnil : ([] : List (Event α)) = l' at hm
    cases hm with
    | nil => rfl
    | snoc => simp at hnil
  rw [hev, Event.notified, Band.event, Bool.and_eq_true, and_comm]
  refine and_congr_right fun _ => ?_
  change (if (Machine.seed b e.toReading).opens b e.toReading then _ else none).isSome = true ↔ _
  cases hbefore : e.before with
  | none =>
    by_cases hlow : e.value ≤ b.low <;>
      simp [Machine.seed, Machine.opens, hbefore, hlow]
  | some v =>
    by_cases hv : v ≤ b.low
    · simp [Machine.seed, Machine.opens, hbefore, hv]
    · simp [Machine.seed, Machine.opens, hbefore, hv, lt_of_not_ge hv]

end Hysteresis
