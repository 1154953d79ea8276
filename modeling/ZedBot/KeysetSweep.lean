import Mathlib.Data.Finset.Card
import Mathlib.Data.List.Sort
import Mathlib.Order.Defs.LinearOrder

/-! Sweeps of a table by keyset pages.

    A table is the list of its keys in order. A pass reads the next page behind a cursor and moves the
    cursor to the last key it read; a pass that finds less than a full page has reached the end, and if
    it is drained it wraps the cursor to the start. Keys may be inserted anywhere between two passes,
    none is removed. -/

namespace KeysetSweep

variable {α : Type} [LinearOrder α]

/-- The rows behind the cursor; a cursor whose row is missing finds nothing. -/
def ahead (rows : List α) : Option α → List α
  | none => rows
  | some c => if c ∈ rows then rows.filter (c < ·) else []

/-- The page of a pass. -/
def page (size : ℕ) (rows : List α) (cursor : Option α) : List α := (ahead rows cursor).take size

/-- The cursor a pass leaves. -/
def nextCursor (size : ℕ) (drained : Bool) (rows : List α) (cursor : Option α) : Option α :=
  if (ahead rows cursor).length < size ∧ drained then none
  else (page size rows cursor).getLast?.or cursor

variable {size : ℕ} {rows : List α} {cursor : Option α} {x y c : α}

theorem ahead_subset : ahead rows cursor ⊆ rows := by
  cases cursor with
  | none => exact List.Subset.refl _
  | some c =>
    simp only [ahead]
    split
    · exact fun _ h => (List.mem_filter.mp h).1
    · exact List.nil_subset _

theorem page_subset : page size rows cursor ⊆ rows :=
  fun _ h => ahead_subset (List.mem_of_mem_take h)

theorem lt_of_mem_ahead (h : x ∈ ahead rows (some c)) : c < x := by
  simp only [ahead] at h
  split at h
  · exact of_decide_eq_true (List.mem_filter.mp h).2
  · exact absurd h List.not_mem_nil

/-- Only a cursor whose row is there finds anything. -/
theorem mem_of_mem_ahead (h : x ∈ ahead rows (some c)) : c ∈ rows := by
  simp only [ahead] at h
  split at h
  · assumption
  · exact absurd h List.not_mem_nil

theorem mem_ahead_some (hx : x ∈ rows) (hc : c ∈ rows) (hlt : c < x) : x ∈ ahead rows (some c) := by
  rw [ahead, if_pos hc]
  exact List.mem_filter.mpr ⟨hx, decide_eq_true hlt⟩

/-- What is behind the cursor stays behind it as the table grows. -/
theorem mem_ahead_grown {rows' : List α} (hgrows : rows ⊆ rows') (h : x ∈ ahead rows cursor) :
    x ∈ ahead rows' cursor := by
  cases cursor with
  | none => exact hgrows h
  | some c =>
    exact mem_ahead_some (hgrows (ahead_subset h)) (hgrows (mem_of_mem_ahead h)) (lt_of_mem_ahead h)

theorem ahead_sorted (hs : rows.Pairwise (· < ·)) : (ahead rows cursor).Pairwise (· < ·) := by
  cases cursor with
  | none => exact hs
  | some c =>
    simp only [ahead]
    split
    · exact hs.filter _
    · exact .nil

theorem page_nodup (hs : rows.Pairwise (· < ·)) : (page size rows cursor).Nodup :=
  ((ahead_sorted hs).imp ne_of_lt).sublist (List.take_sublist _ _)

/-- A page comes before the rows it leaves. -/
theorem page_lt (hs : rows.Pairwise (· < ·)) (hx : x ∈ page size rows cursor)
    (hy : y ∈ ahead rows cursor) (hnot : y ∉ page size rows cursor) : x < y := by
  have hsplit : (ahead rows cursor).Pairwise (· < ·) := ahead_sorted hs
  rw [← List.take_append_drop size (ahead rows cursor), List.pairwise_append] at hsplit
  refine hsplit.2.2 x hx y ?_
  rw [← List.take_append_drop size (ahead rows cursor), List.mem_append] at hy
  exact hy.resolve_left hnot

/-- A page that leaves a row is full. -/
theorem page_full (hy : y ∈ ahead rows cursor) (hnot : y ∉ page size rows cursor) :
    (page size rows cursor).length = size ∧ size ≤ (ahead rows cursor).length := by
  have hlt : size < (ahead rows cursor).length := by
    by_contra hle
    exact hnot (by rwa [page, List.take_of_length_le (not_lt.mp hle)])
  exact ⟨List.length_take_of_le (Nat.le_of_lt hlt), Nat.le_of_lt hlt⟩

/-- The last key of a page is its greatest. -/
theorem le_getLast (hs : rows.Pairwise (· < ·)) (hlast : (page size rows cursor).getLast? = some c)
    (hx : x ∈ page size rows cursor) : x ≤ c := by
  have hp : (page size rows cursor).Pairwise (· < ·) := (ahead_sorted hs).sublist (List.take_sublist _ _)
  obtain ⟨ys, hys⟩ := List.getLast?_eq_some_iff.mp hlast
  rw [hys] at hp hx
  rcases List.mem_append.mp hx with hx | hx
  · exact le_of_lt ((List.pairwise_append.mp hp).2.2 x hx c List.mem_cons_self)
  · exact le_of_eq (List.mem_singleton.mp hx)

/-- A page is empty or ends with its greatest key. -/
theorem page_last (size : ℕ) (cursor : Option α) (hs : rows.Pairwise (· < ·)) :
    page size rows cursor = [] ∨ ∃ c, (page size rows cursor).getLast? = some c ∧
      c ∈ page size rows cursor ∧ ∀ y ∈ page size rows cursor, y ≤ c := by
  cases hlast : (page size rows cursor).getLast? with
  | none => exact .inl (List.getLast?_eq_none_iff.mp hlast)
  | some c => exact .inr ⟨c, rfl, List.mem_of_getLast? hlast, fun y hy => le_getLast hs hlast hy⟩

/-! ### Runs of passes -/

/-- `n` passes over a table that only grows, from any cursor. -/
structure Sweep (size n : ℕ) (table : ℕ → List α) (cursors : ℕ → Option α) (drained : ℕ → Bool) :
    Prop where
  sorted : ∀ i < n, (table i).Pairwise (· < ·)
  grows : ∀ i < n, table i ⊆ table (i + 1)
  next : ∀ i < n, cursors (i + 1) = nextCursor size (drained i) (table i) (cursors i)

/-- The passes before `n` that were drained. -/
def drainedBefore (drained : ℕ → Bool) : ℕ → ℕ
  | 0 => 0
  | n + 1 => drainedBefore drained n + if drained n then 1 else 0

theorem drainedBefore_all {drained : ℕ → Bool} {n : ℕ} (h : ∀ i < n, drained i = true) :
    drainedBefore drained n = n := by
  induction n with
  | zero => rfl
  | succ n ih =>
    rw [drainedBefore, ih fun i hi => h i (by omega), h n (by omega), if_pos rfl]

/-- What has been read while `x` was not: behind `x` and up to the cursor, until the wrap; after it,
    before `x` as well. A drained pass has read a full page, but for the one that wraps. -/
inductive Missed (size : ℕ) (x : α) (drained : ℕ) (rows : List α) (cursor : Option α) : Prop
  | behind (c : α) (read : Finset α) (hc : cursor = some c) (hrows : ∀ y ∈ read, y ∈ rows)
      (hx : ∀ y ∈ read, x < y ∧ y ≤ c) (hcard : drained * size ≤ read.card)
  | wrapped (read : Finset α) (hc : x ∈ ahead rows cursor) (hrows : ∀ y ∈ read, y ∈ rows)
      (hx : ∀ y ∈ read, x < y ∨ y < x ∧ ∃ c, cursor = some c ∧ y ≤ c)
      (hcard : drained * size ≤ read.card + size)

/-- Nothing has been read yet. -/
theorem Missed.start (hx : x ∈ rows) : Missed size x 0 rows cursor := by
  cases cursor with
  | none => exact .wrapped ∅ hx (by simp) (by simp) (by simp)
  | some c => exact .behind c ∅ rfl (by simp) (by simp) (by simp)

/-- A page and what was read before it. -/
theorem card_union_page {read : Finset α} (hs : rows.Pairwise (· < ·))
    (hdisjoint : ∀ y ∈ page size rows cursor, y ∉ read) :
    (read ∪ (page size rows cursor).toFinset).card = read.card + (page size rows cursor).length := by
  rw [Finset.card_union_of_disjoint, List.toFinset_card_of_nodup (page_nodup hs)]
  rw [Finset.disjoint_left]
  intro y hy hmem
  exact hdisjoint y (List.mem_toFinset.mp hmem) hy

section Step

variable {rows' : List α} {drained : ℕ} {d : Bool}

/-- Behind the wrap the pages approach `x` from below. -/
theorem Missed.step_wrapped {read : Finset α} (hs : rows.Pairwise (· < ·)) (hgrows : rows ⊆ rows')
    (hmissed : x ∉ page size rows cursor) (hahead : x ∈ ahead rows cursor)
    (hrows : ∀ y ∈ read, y ∈ rows)
    (hx : ∀ y ∈ read, x < y ∨ y < x ∧ ∃ c, cursor = some c ∧ y ≤ c)
    (hcard : drained * size ≤ read.card + size) :
    Missed size x (drained + if d then 1 else 0) rows' (nextCursor size d rows cursor) := by
  obtain ⟨hlength, hfull⟩ := page_full hahead hmissed
  have hnext : nextCursor size d rows cursor = (page size rows cursor).getLast?.or cursor :=
    if_neg fun h => absurd h.1 (not_lt.mpr hfull)
  have hbound : (drained + if d then 1 else 0) * size ≤ drained * size + size := by
    rw [Nat.add_mul]
    split <;> omega
  rw [hnext]
  rcases page_last size cursor hs with hempty | ⟨c', hlast, hc', hle⟩
  · -- only a page of size zero is empty here
    rw [hempty, List.length_nil] at hlength
    rw [hempty, List.getLast?_nil, Option.none_or]
    refine .wrapped ∅ ?_ (by simp) (by simp) (by simp [← hlength])
    exact mem_ahead_grown hgrows hahead
  rw [hlast, Option.some_or]
  have hlt : ∀ y ∈ page size rows cursor, y < x := fun y hy => page_lt hs hy hahead hmissed
  have hbehind : ∀ c y, cursor = some c → y ∈ page size rows cursor → c < y := by
    rintro c y rfl hy
    exact lt_of_mem_ahead (List.mem_of_mem_take hy)
  have hdisjoint : ∀ y ∈ page size rows cursor, y ∉ read := by
    intro y hy hread
    rcases hx y hread with hgt | ⟨-, c, hc, hle'⟩
    · exact lt_asymm hgt (hlt y hy)
    · exact absurd (hbehind c y hc hy) (not_lt.mpr hle')
  refine .wrapped (read ∪ (page size rows cursor).toFinset) ?_ (fun y hy => ?_) (fun y hy => ?_) ?_
  · exact mem_ahead_some (hgrows (ahead_subset hahead)) (hgrows (page_subset hc')) (hlt c' hc')
  · rcases Finset.mem_union.mp hy with hy | hy
    · exact hgrows (hrows y hy)
    · exact hgrows (page_subset (List.mem_toFinset.mp hy))
  · rcases Finset.mem_union.mp hy with hy | hy
    · rcases hx y hy with hgt | ⟨hyx, c, hc, hle'⟩
      · exact .inl hgt
      · exact .inr ⟨hyx, c', rfl, hle'.trans (le_of_lt (hbehind c c' hc hc'))⟩
    · have hy := List.mem_toFinset.mp hy
      exact .inr ⟨hlt y hy, c', rfl, hle y hy⟩
  · rw [card_union_page hs hdisjoint, hlength]
    omega

/-- Behind the cursor the pages lead away from `x`, until one of them wraps. -/
theorem Missed.step_behind {read : Finset α} (hs : rows.Pairwise (· < ·)) (hgrows : rows ⊆ rows')
    (hmem : x ∈ rows) (hnot : x ∉ ahead rows (some c)) (hrows : ∀ y ∈ read, y ∈ rows)
    (hx : ∀ y ∈ read, x < y ∧ y ≤ c) (hcard : drained * size ≤ read.card) :
    Missed size x (drained + if d then 1 else 0) rows' (nextCursor size d rows (some c)) := by
  have hbound : (drained + if d then 1 else 0) * size ≤ drained * size + size := by
    rw [Nat.add_mul]
    split <;> omega
  by_cases hstay : (ahead rows (some c)).length < size ∧ d = true
  · rw [nextCursor, if_pos hstay]
    refine .wrapped read ?_ (fun y hy => hgrows (hrows y hy)) (fun y hy => .inl (hx y hy).1) ?_
    · exact hgrows hmem
    · omega
  rw [nextCursor, if_neg hstay]
  have hfull : (drained + if d then 1 else 0) * size ≤
      drained * size + (page size rows (some c)).length := by
    rw [Nat.add_mul, page, List.length_take]
    cases d with
    | false => simp
    | true =>
      have hle : size ≤ (ahead rows (some c)).length := not_lt.mp fun h => hstay ⟨h, rfl⟩
      simp [Nat.min_eq_left hle]
  rcases page_last size (some c) hs with hempty | ⟨c', hlast, hc', hle⟩
  · rw [hempty, List.length_nil] at hfull
    rw [hempty, List.getLast?_nil, Option.none_or]
    exact .behind c read rfl (fun y hy => hgrows (hrows y hy)) hx (by omega)
  rw [hlast, Option.some_or]
  have hgt : ∀ y ∈ page size rows (some c), c < y := fun y hy =>
    lt_of_mem_ahead (List.mem_of_mem_take hy)
  have hxc : x ≤ c := by
    have hc := mem_of_mem_ahead (List.mem_of_mem_take hc')
    exact not_lt.mp fun hlt => hnot (mem_ahead_some hmem hc hlt)
  have hdisjoint : ∀ y ∈ page size rows (some c), y ∉ read := fun y hy hread =>
    absurd (hgt y hy) (not_lt.mpr (hx y hread).2)
  refine .behind c' (read ∪ (page size rows (some c)).toFinset) rfl (fun y hy => ?_)
    (fun y hy => ?_) ?_
  · rcases Finset.mem_union.mp hy with hy | hy
    · exact hgrows (hrows y hy)
    · exact hgrows (page_subset (List.mem_toFinset.mp hy))
  · rcases Finset.mem_union.mp hy with hy | hy
    · exact ⟨(hx y hy).1, (hx y hy).2.trans (le_of_lt (hgt c' hc'))⟩
    · have hy := List.mem_toFinset.mp hy
      exact ⟨hxc.trans_lt (hgt y hy), hle y hy⟩
  · rw [card_union_page hs hdisjoint]
    omega

/-- STEP: one more pass that does not read `x`. -/
theorem Missed.step (hs : rows.Pairwise (· < ·)) (hgrows : rows ⊆ rows')
    (hmissed : x ∉ page size rows cursor) (hmem : x ∈ rows)
    (h : Missed size x drained rows cursor) :
    Missed size x (drained + if d then 1 else 0) rows' (nextCursor size d rows cursor) := by
  cases h with
  | wrapped read hc hrows hx hcard => exact step_wrapped hs hgrows hmissed hc hrows hx hcard
  | behind c read hc hrows hx hcard =>
    subst hc
    by_cases hahead : x ∈ ahead rows (some c)
    · have hlt := lt_of_mem_ahead hahead
      have hnone : read = ∅ := Finset.eq_empty_of_forall_notMem fun y hy =>
        absurd ((hx y hy).1.trans_le (hx y hy).2) (lt_asymm hlt)
      subst hnone
      refine step_wrapped hs hgrows hmissed hahead hrows (fun y hy => ?_) ?_
      · exact absurd hy (Finset.notMem_empty y)
      · exact hcard.trans (Nat.le_add_right _ _)
    · exact step_behind hs hgrows hmem hahead hrows hx hcard

end Step

/-- What was missed by so many passes is in a table that is larger than their pages. -/
theorem Missed.bound {drained : ℕ} (hmem : x ∈ rows) (h : Missed size x drained rows cursor) :
    drained * size < rows.length + size := by
  have hcount : ∀ read : Finset α, (∀ y ∈ read, y ∈ rows) → x ∉ read → read.card < rows.length := by
    intro read hrows hnot
    have hle : (insert x read).card ≤ rows.toFinset.card := by
      refine Finset.card_le_card fun y hy => List.mem_toFinset.mpr ?_
      rcases Finset.mem_insert.mp hy with rfl | hy
      · exact hmem
      · exact hrows y hy
    rw [Finset.card_insert_of_notMem hnot] at hle
    exact Nat.lt_of_lt_of_le hle (List.toFinset_card_le rows)
  cases h with
  | behind c read hc hrows hx hcard =>
    have := hcount read hrows fun h => lt_irrefl x (hx x h).1
    omega
  | wrapped read hc hrows hx hcard =>
    have := hcount read hrows fun h => (hx x h).elim (lt_irrefl x) fun h => lt_irrefl x h.1
    omega

namespace Sweep

variable {n : ℕ} {table : ℕ → List α} {cursors : ℕ → Option α} {drained : ℕ → Bool}

theorem mem (h : Sweep size n table cursors drained) (hx : x ∈ table 0) {i : ℕ} (hi : i ≤ n) :
    x ∈ table i := by
  induction i with
  | zero => exact hx
  | succ i ih => exact h.grows i hi (ih (Nat.le_of_succ_le hi))

/-- RUN: what no pass has read so far. -/
theorem missed (h : Sweep size n table cursors drained) (hx : x ∈ table 0) {i : ℕ} (hi : i ≤ n)
    (hnot : ∀ j < i, x ∉ page size (table j) (cursors j)) :
    Missed size x (drainedBefore drained i) (table i) (cursors i) := by
  induction i with
  | zero => exact .start hx
  | succ i ih =>
    have hle := Nat.le_of_succ_le hi
    rw [h.next i hi, drainedBefore]
    exact (ih hle fun j hj => hnot j (by omega)).step (h.sorted i hi) (h.grows i hi)
      (hnot i (by omega)) (h.mem hx hle)

/-- COVERS: every row is read once as many passes were drained as the table has pages, and one more. -/
theorem covers (h : Sweep size n table cursors drained) (hx : x ∈ table 0)
    (hn : (table n).length + size ≤ drainedBefore drained n * size) :
    ∃ i < n, x ∈ page size (table i) (cursors i) := by
  by_contra hnone
  push Not at hnone
  exact absurd ((h.missed hx le_rfl hnone).bound (h.mem hx le_rfl)) (not_lt.mpr hn)

/-- The cursor never moves back while no pass is drained. -/
theorem cursor_le (h : Sweep size n table cursors drained) (hc : cursors 0 = some c)
    (hd : ∀ i < n, drained i = false) {i : ℕ} (hi : i ≤ n) : ∃ c', cursors i = some c' ∧ c ≤ c' := by
  induction i with
  | zero => exact ⟨c, hc, le_rfl⟩
  | succ i ih =>
    obtain ⟨c', hc', hle⟩ := ih (Nat.le_of_succ_le hi)
    rw [h.next i hi, nextCursor, hd i hi, if_neg (by simp)]
    cases hlast : (page size (table i) (cursors i)).getLast? with
    | none => exact ⟨c', by rw [Option.none_or, hc'], hle⟩
    | some d =>
      refine ⟨d, by rw [Option.some_or], hle.trans (le_of_lt ?_)⟩
      have hmem := List.mem_of_mem_take (List.mem_of_getLast? hlast)
      rw [hc'] at hmem
      exact lt_of_mem_ahead hmem

/-- PINNED: while no pass is drained, nothing up to the first cursor is read. -/
theorem pinned (h : Sweep size n table cursors drained) (hc : cursors 0 = some c)
    (hd : ∀ i < n, drained i = false) (hx : x ≤ c) {i : ℕ} (hi : i < n) :
    x ∉ page size (table i) (cursors i) := by
  obtain ⟨c', hc', hle⟩ := h.cursor_le hc hd (Nat.le_of_lt hi)
  rw [hc']
  intro hmem
  exact absurd (lt_of_mem_ahead (List.mem_of_mem_take hmem)) (not_lt.mpr (hx.trans hle))

end Sweep

/-! ### Pages of pages -/

/-- Behind the last row of a page are the rows that the page left. -/
theorem ahead_last (hs : rows.Pairwise (· < ·)) (hlast : (page size rows cursor).getLast? = some c) :
    ahead rows (some c) = (ahead rows cursor).drop size := by
  have hmem := List.mem_of_getLast? hlast
  have hfilter : (ahead rows cursor).filter (c < ·) = rows.filter (c < ·) := by
    cases cursor with
    | none => rfl
    | some d =>
      have hin := List.mem_of_mem_take hmem
      rw [ahead, if_pos (mem_of_mem_ahead hin), List.filter_filter]
      refine List.filter_congr fun y _ => ?_
      have hlt := lt_of_mem_ahead hin
      by_cases hy : c < y
      · simp [hy, hlt.trans hy]
      · simp [hy]
  rw [ahead, if_pos (page_subset hmem), ← hfilter]
  have hsplit : (ahead rows cursor).Pairwise (· < ·) := ahead_sorted hs
  rw [← List.take_append_drop size (ahead rows cursor), List.pairwise_append] at hsplit
  conv_lhs => rw [← List.take_append_drop size (ahead rows cursor)]
  rw [List.filter_append, List.filter_eq_nil_iff.mpr, List.nil_append, List.filter_eq_self.mpr]
  · intro y hy
    exact decide_eq_true (hsplit.2.2 c hmem y hy)
  · intro y hy
    simpa using le_getLast hs hlast hy

/-- A page and the next ones are one page of their common size. -/
theorem page_add (hs : rows.Pairwise (· < ·)) (hlast : (page size rows cursor).getLast? = some c)
    (n : ℕ) : page (size + n) rows cursor = page size rows cursor ++ page n rows (some c) := by
  rw [page, page, page, ahead_last hs hlast, List.take_add]

/-- The rows from the cursor on are the cursor's row and the rows behind it. -/
theorem filter_le_eq_cons (hs : rows.Pairwise (· < ·)) (hc : c ∈ rows) :
    rows.filter (c ≤ ·) = c :: rows.filter (c < ·) := by
  induction rows with
  | nil => exact absurd hc List.not_mem_nil
  | cons y ys ih =>
    obtain ⟨hy, hys⟩ := List.pairwise_cons.mp hs
    rcases List.mem_cons.mp hc with rfl | hmem
    · have htail : ys.filter (c ≤ ·) = ys.filter (c < ·) :=
        List.filter_congr fun z hz => by simp [le_of_lt (hy z hz), hy z hz]
      rw [List.filter_cons_of_pos (by simp), List.filter_cons_of_neg (by simp), htail]
    · have hlt := hy c hmem
      rw [List.filter_cons_of_neg (by simpa using hlt), ih hys hmem,
        List.filter_cons_of_neg (by simpa using le_of_lt hlt)]

end KeysetSweep
