import Mathlib.Algebra.Order.Floor.Div
import Mathlib.Data.List.Sort
import Mathlib.Order.Defs.LinearOrder

/-! Walking down a table by keyset pages.

    A reader asks for a page of the rows with the greatest keys and goes on below the last row it got,
    until no row is left. Each call reads the table as it stands then. One row more than the page is
    fetched, so that a cursor is handed out only if there is a further row.

        keys:    k₀ > k₁ > … > kₙ
        page 0:  └─ limit ─┘└ 1 ┘
        page 1:             └─ limit ─┘└ 1 ┘ -/

namespace KeysetWalk

variable {α κ : Type} [LinearOrder κ] (key : α → κ) {limit j : ℕ} {rows rows' S : List α}
  {cursor : Option κ} {k : κ} {x : α}

/-- The keys a reader still asks for. -/
def Behind : Option κ → κ → Prop
  | none, _ => True
  | some c, k => k < c

instance (cursor : Option κ) (k : κ) : Decidable (Behind cursor k) :=
  match cursor with
  | none => inferInstanceAs (Decidable True)
  | some c => inferInstanceAs (Decidable (k < c))

/-- The rows a reader still asks for. -/
def rowsBehind (rows : List α) (cursor : Option κ) : List α := rows.filter (Behind cursor <| key ·)

/-- The rows with the greatest keys first. -/
def newestFirst (rows : List α) : List α := rows.insertionSort fun x y => key y ≤ key x

/-- The answer to a call. -/
structure Page (α κ : Type) where
  rows : List α
  hasMore : Bool
  next : Option κ

/-- The page above the rows `found`. -/
def pageOf (limit : ℕ) (found : List α) : Page α κ where
  rows := found.take limit
  hasMore := decide (limit < found.length)
  next := if limit < found.length then (found.take limit).getLast?.map key else none

/-- The page of a call. -/
def page (limit : ℕ) (rows : List α) (cursor : Option κ) : Page α κ :=
  pageOf key limit ((newestFirst key (rowsBehind key rows cursor)).take (limit + 1))

/-! ### Rows in order -/

/-- Each key comes once, and the greatest is first. -/
def Descending (S : List α) : Prop := S.Pairwise fun x y => key y < key x

variable {key}

theorem newestFirst_perm : (newestFirst key rows).Perm rows := List.perm_insertionSort _ _

theorem newestFirst_descending (h : (rows.map key).Nodup) : Descending key (newestFirst key rows) := by
  have hsorted : (newestFirst key rows).Pairwise fun x y => key y ≤ key x :=
    List.pairwise_insertionSort _ _
  have hne : (newestFirst key rows).Pairwise fun x y => key x ≠ key y :=
    List.pairwise_map.mp ((newestFirst_perm.map key).nodup_iff.mpr h)
  exact (hsorted.and hne).imp fun ⟨hle, hne⟩ => lt_of_le_of_ne hle hne.symm

theorem Descending.nodup (h : Descending key S) : (S.map key).Nodup :=
  List.pairwise_map.mpr (h.imp ne_of_gt)

/-- Rows in order are found in order. -/
theorem newestFirst_of_perm (h : Descending key S) (hperm : rows.Perm S) : newestFirst key rows = S := by
  have hrows : Descending key (newestFirst key rows) :=
    newestFirst_descending ((hperm.map key).nodup_iff.mpr h.nodup)
  exact List.Perm.eq_of_pairwise (fun a b _ _ hab hba => absurd hab (lt_asymm hba)) hrows h
    (newestFirst_perm.trans hperm)

theorem rowsBehind_none : rowsBehind key rows none = rows :=
  List.filter_eq_self.mpr fun _ _ => decide_eq_true trivial

theorem rowsBehind_nodup (h : (rows.map key).Nodup) : ((rowsBehind key rows cursor).map key).Nodup :=
  h.sublist (List.filter_sublist.map key)

/-- Below a row are the rows after it. -/
theorem behind_getElem (h : Descending key S) (hj : j < S.length) :
    rowsBehind key S (some (key S[j])) = S.drop (j + 1) := by
  have hsplit : S.Pairwise fun x y => key y < key x := h
  rw [← List.take_append_drop (j + 1) S, List.pairwise_append] at hsplit
  have hmem : S[j] ∈ S.take (j + 1) := List.mem_take_iff_getElem.mpr ⟨j, by omega, rfl⟩
  have hfront : (S.take (j + 1)).filter (Behind (some (key S[j])) <| key ·) = [] := by
    rw [List.filter_eq_nil_iff]
    intro y hy hlt
    obtain ⟨i, hi, rfl⟩ := List.mem_take_iff_getElem.mp hy
    have hlt : key S[i] < key S[j] := of_decide_eq_true hlt
    rcases Nat.lt_or_ge i j with hij | hij
    · exact lt_asymm hlt (List.pairwise_iff_getElem.mp h i j _ hj hij)
    · obtain rfl : i = j := by omega
      exact lt_irrefl _ hlt
  have hback : (S.drop (j + 1)).filter (Behind (some (key S[j])) <| key ·) = S.drop (j + 1) :=
    List.filter_eq_self.mpr fun y hy => decide_eq_true (hsplit.2.2 _ hmem y hy)
  calc rowsBehind key S (some (key S[j]))
      = (S.take (j + 1) ++ S.drop (j + 1)).filter (Behind (some (key S[j])) <| key ·) := by
        rw [List.take_append_drop, rowsBehind]
    _ = S.drop (j + 1) := by rw [List.filter_append, hfront, hback, List.nil_append]

/-! ### A page -/

theorem page_rows (key : α → κ) (limit : ℕ) (rows : List α) (cursor : Option κ) :
    (page key limit rows cursor).rows = (newestFirst key (rowsBehind key rows cursor)).take limit := by
  rw [page, pageOf, List.take_take, Nat.min_eq_left (Nat.le_succ limit)]

/-- A page of rows in order. -/
theorem page_eq (h : Descending key S) (hperm : (rowsBehind key rows cursor).Perm S) :
    page key limit rows cursor = pageOf key limit S := by
  have hlt : limit < min (limit + 1) S.length ↔ limit < S.length := by omega
  rw [page, newestFirst_of_perm h hperm, pageOf, pageOf, List.take_take,
    Nat.min_eq_left (Nat.le_succ limit), List.length_take]
  simp only [hlt]

theorem pageOf_next (hlimit : 0 < limit) (hmore : limit < S.length) :
    (pageOf key limit S).next = some (key (S[limit - 1])) := by
  rw [pageOf]
  dsimp only
  rw [if_pos hmore, List.getLast?_eq_getElem?, List.length_take_of_le (Nat.le_of_lt hmore),
    List.getElem?_take_of_lt (by omega), List.getElem?_eq_getElem (by omega), Option.map_some]

/-! ### Walks -/

/-- What a call is given: the cursor of the page before. -/
def cursorOf (pages : ℕ → Page α κ) : ℕ → Option κ
  | 0 => none
  | i + 1 => (pages i).next

/-- `calls` calls, each below the page before, on a table that changes between them. -/
structure Walk (key : α → κ) (limit : ℕ) (table : ℕ → List α) (pages : ℕ → Page α κ) (calls : ℕ) :
    Prop where
  asked : ∀ i < calls, pages i = page key limit (table i) (cursorOf pages i)
  goes_on : ∀ i, i + 1 < calls → (pages i).next ≠ none

variable {table : ℕ → List α} {pages : ℕ → Page α κ} {calls : ℕ}

/-- A table that has only got rows with greater keys. -/
def Grown (key : α → κ) (start rows : List α) : Prop :=
  ∃ newer, rows.Perm (start ++ newer) ∧ ∀ n ∈ newer, ∀ s ∈ start, key s < key n

/-- Newer rows are not asked for. -/
theorem Grown.rowsBehind (h : Grown key S rows) (hx : x ∈ S) :
    (rowsBehind key rows (some (key x))).Perm (rowsBehind key S (some (key x))) := by
  obtain ⟨newer, hperm, hnewer⟩ := h
  have hnone : newer.filter (Behind (some (key x)) <| key ·) = [] := by
    rw [List.filter_eq_nil_iff]
    intro n hn hlt
    exact lt_asymm (hnewer n hn x hx) (of_decide_eq_true hlt)
  refine (hperm.filter _).trans ?_
  rw [List.filter_append, hnone, List.append_nil]
  exact List.Perm.refl _

/-- SLICE: the pages of a table that has only got greater rows are consecutive slices of it. -/
theorem Walk.slice (h : Walk key limit table pages calls) (hlimit : 0 < limit)
    (hstart : (table 0).Perm S) (hS : Descending key S) (hgrown : ∀ i < calls, Grown key S (table i))
    {i : ℕ} (hi : i < calls) : pages i = pageOf key limit (S.drop (i * limit)) := by
  induction i with
  | zero =>
    rw [h.asked 0 hi, Nat.zero_mul, List.drop_zero]
    exact page_eq hS (by rwa [cursorOf, rowsBehind_none])
  | succ i ih =>
    have hbefore := ih (Nat.lt_of_succ_lt hi)
    have hmore : limit < (S.drop (i * limit)).length := by
      by_contra hle
      exact h.goes_on i hi (by rw [hbefore, pageOf]; exact if_neg hle)
    have hlength : i * limit + limit < S.length := by
      rw [List.length_drop] at hmore
      omega
    have hcursor : cursorOf pages (i + 1) = some (key (S[i * limit + (limit - 1)])) := by
      rw [cursorOf, hbefore, pageOf_next hlimit hmore, List.getElem_drop]
    rw [h.asked (i + 1) hi, hcursor]
    refine page_eq (List.Pairwise.sublist (List.drop_sublist _ _) hS) ?_
    refine ((hgrown (i + 1) hi).rowsBehind (List.getElem_mem _)).trans ?_
    rw [behind_getElem hS, show i * limit + (limit - 1) + 1 = (i + 1) * limit by
      rw [Nat.succ_mul]; omega]

/-- The slices before `n` together. -/
theorem flatMap_slices (S : List α) (limit n : ℕ) :
    ((List.range n).flatMap fun i => (S.drop (i * limit)).take limit) = S.take (n * limit) := by
  induction n with
  | zero => simp
  | succ n ih =>
    rw [List.range_succ, List.flatMap_append, ih, List.flatMap_singleton, Nat.succ_mul, List.take_add]

/-! ### A row that keeps its key -/

/-- A cursor is the key of a row on the page. -/
theorem next_mem {c : κ} (h : (page key limit rows cursor).next = some c) :
    c ∈ (page key limit rows cursor).rows.map key := by
  rw [page, pageOf] at h ⊢
  dsimp only at h ⊢
  split_ifs at h
  obtain ⟨x, hx, rfl⟩ := Option.map_eq_some_iff.mp h
  exact List.mem_map_of_mem (List.mem_of_getLast? hx)

/-- What is on a page was asked for. -/
theorem behind_of_mem_page (hk : k ∈ (page key limit rows cursor).rows.map key) : Behind cursor k := by
  obtain ⟨x, hx, rfl⟩ := List.mem_map.mp hk
  rw [page_rows] at hx
  exact of_decide_eq_true (List.mem_filter.mp (newestFirst_perm.subset (List.mem_of_mem_take hx))).2

/-- How many rows have a key. -/
def occurrences (key : α → κ) (rows : List α) (k : κ) : ℕ := rows.countP fun x => key x = k

theorem occurrences_eq_zero (h : k ∉ rows.map key) : occurrences key rows k = 0 :=
  List.countP_eq_zero.mpr fun _ hx heq =>
    h (of_decide_eq_true heq ▸ List.mem_map_of_mem hx)

theorem occurrences_eq_one (hnodup : (rows.map key).Nodup) (h : k ∈ rows.map key) :
    occurrences key rows k = 1 := by
  rw [← List.count_eq_one_of_mem hnodup h, List.count, List.countP_map, occurrences]
  refine List.countP_congr fun x _ => ?_
  simp

/-- A row that is not asked for is not on the page, and the page hands out no cursor above it. -/
theorem page_silent (key : α → κ) (limit : ℕ) (rows : List α) (h : ¬ Behind cursor k) :
    occurrences key (page key limit rows cursor).rows k = 0 ∧
      ∀ c, (page key limit rows cursor).next = some c → ¬ k < c := by
  refine ⟨occurrences_eq_zero fun hk => h (behind_of_mem_page hk), fun c hc hkc => ?_⟩
  have hbehind := behind_of_mem_page (next_mem hc)
  cases cursor with
  | none => exact h trivial
  | some c' => exact h (lt_trans hkc hbehind)

/-- COUNT: a page has a row that is asked for, or hands out a cursor above it. -/
theorem page_count (hlimit : 0 < limit) (hrows : (rows.map key).Nodup) (hk : k ∈ rows.map key)
    (hbehind : Behind cursor k) :
    occurrences key (page key limit rows cursor).rows k = 1 ∧
        (∀ c, (page key limit rows cursor).next = some c → ¬ k < c) ∨
      occurrences key (page key limit rows cursor).rows k = 0 ∧
        ∃ c, (page key limit rows cursor).next = some c ∧ k < c := by
  obtain ⟨S, hSdef⟩ : ∃ S, S = newestFirst key (rowsBehind key rows cursor) := ⟨_, rfl⟩
  have hS : Descending key S := hSdef ▸ newestFirst_descending (rowsBehind_nodup hrows)
  have hperm : (rowsBehind key rows cursor).Perm S := hSdef ▸ newestFirst_perm.symm
  have hkS : k ∈ S.map key := by
    obtain ⟨x, hx, rfl⟩ := List.mem_map.mp hk
    exact List.mem_map_of_mem (hperm.subset (List.mem_filter.mpr ⟨hx, decide_eq_true hbehind⟩))
  obtain ⟨j, hj, rfl⟩ : ∃ (j : ℕ) (hj : j < S.length), key S[j] = k := by
    obtain ⟨x, hx, rfl⟩ := List.mem_map.mp hkS
    obtain ⟨j, hj, rfl⟩ := List.mem_iff_getElem.mp hx
    exact ⟨j, hj, rfl⟩
  rw [page_eq hS hperm]
  have hnodup : ((S.take limit).map key).Nodup := hS.nodup.sublist ((List.take_sublist _ _).map key)
  rcases Nat.lt_or_ge j limit with hlt | hge
  · left
    refine ⟨occurrences_eq_one hnodup (List.mem_map_of_mem ?_), fun c hc hkc => ?_⟩
    · exact List.mem_take_iff_getElem.mpr ⟨j, by omega, rfl⟩
    · have hmore : limit < S.length := by
        by_contra hle
        rw [pageOf] at hc
        dsimp only at hc
        rw [if_neg hle] at hc
        cases hc
      rw [pageOf_next hlimit hmore] at hc
      cases hc
      rcases Nat.eq_or_lt_of_le (Nat.le_sub_one_of_lt hlt) with rfl | hlast
      · exact lt_irrefl _ hkc
      · exact lt_asymm hkc (List.pairwise_iff_getElem.mp hS j _ hj _ hlast)
  · right
    have hmore : limit < S.length ∨ limit = j := by omega
    refine ⟨occurrences_eq_zero fun hmem => ?_, _, pageOf_next hlimit (by omega), ?_⟩
    · have hdisjoint := hS.nodup
      rw [← List.take_append_drop limit S, List.map_append, List.nodup_append] at hdisjoint
      refine hdisjoint.2.2 _ hmem _ (List.mem_map_of_mem (a := S[j]) ?_) rfl
      exact List.mem_drop_iff_getElem.mpr ⟨j - limit, by omega, by congr 1; omega⟩
    · exact List.pairwise_iff_getElem.mp hS _ j _ hj (by omega)

/-- The rows on the pages before `n`. -/
def read (pages : ℕ → Page α κ) (n : ℕ) : List α := (List.range n).flatMap fun i => (pages i).rows

theorem occurrences_read_succ (pages : ℕ → Page α κ) (k : κ) (n : ℕ) :
    occurrences key (read pages (n + 1)) k =
      occurrences key (read pages n) k + occurrences key (pages n).rows k := by
  rw [read, List.range_succ, List.flatMap_append, occurrences, List.countP_append,
    List.flatMap_singleton]
  rfl

/-- ONCE: a row that keeps its key is met once by a walk to the end. -/
theorem Walk.once (h : Walk key limit table pages calls) (hlimit : 0 < limit)
    (hrows : ∀ i < calls, ((table i).map key).Nodup) (hk : ∀ i < calls, k ∈ (table i).map key)
    (hcalls : 0 < calls) (hend : (pages (calls - 1)).next = none) : occurrences key (read pages calls) k = 1 := by
  -- before each call the key is still asked for, or was met once
  have hinv : ∀ i < calls, occurrences key (read pages i) k = 0 ∧ Behind (cursorOf pages i) k ∨
      occurrences key (read pages i) k = 1 ∧ ¬ Behind (cursorOf pages i) k := by
    intro i
    induction i with
    | zero => exact fun _ => .inl ⟨rfl, trivial⟩
    | succ i ih =>
      intro hi
      obtain ⟨c, hc⟩ := Option.ne_none_iff_exists'.mp (h.goes_on i hi)
      have hpage := h.asked i (by omega)
      rw [occurrences_read_succ, cursorOf, hc]
      rcases ih (by omega) with ⟨hzero, hbehind⟩ | ⟨hone, hbehind⟩
      · rcases page_count hlimit (hrows i (by omega)) (hk i (by omega)) hbehind with
          ⟨hcount, habove⟩ | ⟨hcount, c', hc', hlt⟩
        · rw [← hpage] at hcount habove
          exact .inr ⟨by rw [hzero, hcount], habove c hc⟩
        · rw [← hpage] at hcount hc'
          obtain rfl : c = c' := Option.some.inj (hc.symm.trans hc')
          exact .inl ⟨by rw [hzero, hcount], hlt⟩
      · obtain ⟨hcount, habove⟩ := page_silent key limit (table i) hbehind
        rw [← hpage] at hcount habove
        exact .inr ⟨by rw [hone, hcount], habove c hc⟩
  obtain ⟨i, rfl⟩ := Nat.exists_eq_add_one.mpr hcalls
  rw [Nat.add_sub_cancel] at hend
  have hpage := h.asked i (by omega)
  rw [occurrences_read_succ]
  rcases hinv i (by omega) with ⟨hzero, hbehind⟩ | ⟨hone, hbehind⟩
  · rcases page_count hlimit (hrows i (by omega)) (hk i (by omega)) hbehind with
      ⟨hcount, -⟩ | ⟨-, c, hc, -⟩
    · rw [hzero, hpage, hcount]
    · rw [← hpage, hend] at hc
      cases hc
  · rw [hone, hpage, (page_silent key limit _ hbehind).1]

end KeysetWalk
