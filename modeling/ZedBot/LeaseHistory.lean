import Mathlib.Data.Nat.Notation
import Mathlib.Tactic.ByContra
import Mathlib.Tactic.SplitIfs

/-! Histories of a store of leases.

    An owner takes its key where the key is free, for a term; it extends or deletes the entry only
    while the entry is its own. The commands that succeeded, newest first, say who is stored.

        take ──▶ stored for the term ──▶ run out: another owner may take it, and the first one is silent
                  │ extend ↺
                  └ delete ──▶ free -/

namespace LeaseHistory

/-- What a command does with the key of its owner. -/
inductive Command
  | set | renew | release
  deriving DecidableEq, Repr

/-- A command that succeeded. -/
structure Ran (Owner : Type) where
  time : ℕ
  owner : Owner
  command : Command
  deriving DecidableEq, Repr

variable {Owner Key : Type} [DecidableEq Key] (key : Owner → Key) (term : ℕ)

/-- The owner that is stored for a key, and the instant at which its entry runs out. -/
def current (k : Key) : List (Ran Owner) → Option (Owner × ℕ)
  | [] => none
  | r :: log =>
    if key r.owner = k then
      if r.command = .release then none else some (r.owner, r.time + term)
    else current k log

/-- A command may succeed after a history: one that takes a key finds it free, and the others find
    their own entry. -/
structure Allowed (log : List (Ran Owner)) (r : Ran Owner) : Prop where
  after : ∀ x ∈ log, x.time ≤ r.time
  free : r.command = .set → ∀ x ∈ current key term (key r.owner) log, x.2 ≤ r.time
  once : r.command = .set → ∀ x ∈ log, x.owner = r.owner → x.command ≠ .set
  own : r.command ≠ .set → ∃ e, current key term (key r.owner) log = some (r.owner, e)

def Lawful : List (Ran Owner) → Prop
  | [] => True
  | r :: log => Allowed key term log r ∧ Lawful log

/-- `y` took the key of `a` after `a` had taken it. -/
structure TookOver (log : List (Ran Owner)) (a : Owner) (y : Ran Owner) : Prop where
  taken : y.command = .set
  other : y.owner ≠ a
  same : key y.owner = key a
  since : ∃ later earlier, log = later ++ y :: earlier ∧
    ∃ x ∈ earlier, x.owner = a ∧ x.command = .set

variable {key term} {log later earlier : List (Ran Owner)} {a : Owner} {k : Key} {r x y : Ran Owner}

theorem current_other (h : key r.owner ≠ k) : current key term k (r :: log) = current key term k log :=
  if_neg h

theorem current_own (h : key r.owner = k) (hr : r.command ≠ .release) :
    current key term k (r :: log) = some (r.owner, r.time + term) := by
  rw [current, if_pos h, if_neg hr]

theorem current_released (h : key r.owner = k) (hr : r.command = .release) :
    current key term k (r :: log) = none := by
  rw [current, if_pos h, if_pos hr]

/-- Who is stored has run a command. -/
theorem mem_of_current {e : ℕ} (h : current key term k log = some (a, e)) :
    ∃ x ∈ log, x.owner = a ∧ x.command ≠ .release ∧ key a = k ∧ e = x.time + term := by
  induction log with
  | nil => cases h
  | cons r log ih =>
    rw [current] at h
    split_ifs at h with hk hr
    · cases h
      exact ⟨r, .head _, rfl, hr, hk, rfl⟩
    · obtain ⟨x, hx, hrest⟩ := ih h
      exact ⟨x, .tail _ hx, hrest⟩

theorem Lawful.of_append (h : Lawful key term (later ++ log)) : Lawful key term log := by
  induction later with
  | nil => exact h
  | cons r later ih => exact ih h.2

/-- STEP: an owner that has not deleted its entry is stored to the end of its term at least, or the end
    of its term has come. -/
theorem Lawful.stored (h : Lawful key term log) (hx : x ∈ log) (hxr : x.command ≠ .release)
    (hkept : ∀ y ∈ log, y.owner = x.owner → y.command ≠ .release) :
    (∃ e, current key term (key x.owner) log = some (x.owner, e) ∧ x.time + term ≤ e) ∨
      ∃ y ∈ log, x.time + term ≤ y.time := by
  induction log with
  | nil => cases hx
  | cons r log ih =>
    obtain ⟨hallowed, hlawful⟩ := h
    rcases List.mem_cons.mp hx with rfl | hx
    · exact .inl ⟨_, current_own rfl hxr, Nat.le_refl _⟩
    have hle := hallowed.after x hx
    by_cases hown : r.owner = x.owner
    · refine .inl ⟨r.time + term, ?_, Nat.add_le_add_right hle term⟩
      rw [current_own (congrArg key hown) (hkept r (.head _) hown), hown]
    rcases ih hlawful hx fun y hy => hkept y (.tail _ hy) with ⟨e, he, hterm⟩ | ⟨y, hy, hterm⟩
    · by_cases hk : key r.owner = key x.owner
      · -- another owner's command: it can only be one that takes the key
        have hset : r.command = .set := by
          by_contra hne
          obtain ⟨e', he'⟩ := hallowed.own hne
          rw [hk, he] at he'
          exact hown (Prod.mk.inj (Option.some.inj he')).1.symm
        refine .inr ⟨r, .head _, Nat.le_trans hterm (hallowed.free hset (x.owner, e) ?_)⟩
        rw [hk, he]
        rfl
      · exact .inl ⟨e, (current_other hk).trans he, hterm⟩
    · exact .inr ⟨y, .tail _ hy, hterm⟩

/-- An owner whose key was taken over is silent. -/
theorem Lawful.silent (h : Lawful key term (later ++ y :: earlier)) (hy : y.command = .set)
    (hother : y.owner ≠ a) (hsame : key y.owner = key a)
    (hset : ∃ x ∈ earlier, x.owner = a ∧ x.command = .set) :
    (∀ e, current key term (key a) (later ++ y :: earlier) ≠ some (a, e)) ∧
      ∀ z ∈ later, z.owner ≠ a := by
  induction later with
  | nil =>
    refine ⟨fun e he => hother ?_, nofun⟩
    rw [List.nil_append, current_own hsame (by rw [hy]; decide)] at he
    exact (Prod.mk.inj (Option.some.inj he)).1
  | cons r later ih =>
    obtain ⟨hallowed, hlawful⟩ := h
    obtain ⟨hnot, hsilent⟩ := ih hlawful
    have hr : r.owner ≠ a := by
      rintro rfl
      by_cases hcommand : r.command = .set
      · obtain ⟨x, hx, hown, hxset⟩ := hset
        exact hallowed.once hcommand x (List.mem_append_right _ (.tail _ hx)) hown hxset
      · obtain ⟨e, he⟩ := hallowed.own hcommand
        exact hnot e he
    refine ⟨fun e he => ?_, fun z hz => ?_⟩
    · by_cases hk : key r.owner = key a
      · rw [List.cons_append, current, if_pos hk] at he
        split_ifs at he
        exact hr (Prod.mk.inj (Option.some.inj he)).1
      · exact hnot e ((current_other hk).symm.trans he)
    · rcases List.mem_cons.mp hz with rfl | hz
      · exact hr
      · exact hsilent z hz

/-- LATE: a key is taken over a whole term after every command of an owner that has not deleted its
    entry. -/
theorem Lawful.late (h : Lawful key term log) (hover : TookOver key log a y) (hx : x ∈ log)
    (hown : x.owner = a) (hkept : ∀ z ∈ log, z.owner = a → z.command ≠ .release) :
    x.time + term ≤ y.time := by
  obtain ⟨hset, hother, hsame, later, earlier, rfl, htaken⟩ := hover
  have hxr := hkept x hx hown
  rcases List.mem_append.mp hx with hx | hx
  · exact ((h.silent hset hother hsame htaken).2 x hx hown).elim
  rcases List.mem_cons.mp hx with rfl | hx
  · exact (hother hown).elim
  have hlawful : Lawful key term (y :: earlier) := h.of_append
  rcases hlawful.2.stored hx hxr fun z hz hz' => hkept z
      (List.mem_append_right _ (.tail _ hz)) (hz'.trans hown) with ⟨e, he, hterm⟩ | ⟨z, hz, hterm⟩
  · refine Nat.le_trans hterm (hlawful.1.free hset (x.owner, e) ?_)
    rw [hsame, ← hown, he]
    rfl
  · exact Nat.le_trans hterm (hlawful.1.after z hz)

end LeaseHistory
