import Mathlib.Data.List.Infix
import Mathlib.Data.Nat.Notation

/-! Reading a history by offset while it grows at its front.

    A history lists the newest item first, and new items come before all others. A reader asks for the
    page at an offset and goes on behind it. Items that come in between move the old ones back, so the
    reader sees some of them twice, and none is skipped.

        history:  new … new | old₀ old₁ … oldₙ
        offset:             └─ below ─┘└ page ┘ -/

namespace GrowingHistory

variable {α : Type} {P Q : α → Prop} {history old : List α} {o n : ℕ} {x : α}

/-- The items of `old` that are below the offset now meet `P`. -/
def Below (P : α → Prop) (history old : List α) (o : ℕ) : Prop :=
  ∀ (j : ℕ) (x : α), old[j]? = some x → history.length - old.length + j < o → P x

/-- The page of a request. -/
def slice (history : List α) (offset limit : ℕ) : List α := (history.drop offset).take limit

theorem getElem?_suffix (h : old <:+ history) (j : ℕ) :
    history[history.length - old.length + j]? = old[j]? := by
  obtain ⟨new, rfl⟩ := h
  rw [List.length_append, Nat.add_sub_cancel, List.getElem?_append_right (Nat.le_add_right _ _),
    Nat.add_sub_cancel_left]

theorem Below.imp (h : Below P history old o) (hPQ : ∀ x ∈ old, P x → Q x) :
    Below Q history old o :=
  fun j x hj ho => hPQ x (List.mem_of_getElem? hj) (h j x hj ho)

theorem Below.zero : Below P history old 0 := fun _ _ _ ho => absurd ho (Nat.not_lt_zero _)

/-- Items at the front leave fewer old ones below an offset. -/
theorem Below.grow {history' : List α} (h : Below P history old o)
    (hlength : history.length ≤ history'.length) : Below P history' old o :=
  fun j x hj ho => h j x hj (by omega)

theorem of_all (h : ∀ x ∈ old, P x) : Below P history old o :=
  fun _ _ hj _ => h _ (List.mem_of_getElem? hj)

/-- An old item is below the end of the history. -/
theorem Below.all (hold : old <:+ history) (h : Below P history old o)
    (hend : history.length ≤ o) : ∀ x ∈ old, P x := by
  intro x hx
  obtain ⟨j, hj⟩ := List.mem_iff_getElem?.mp hx
  refine h j x hj ?_
  have hlt := (List.getElem?_eq_some_iff.mp hj).1
  have hle := hold.length_le
  omega

/-- PAGE: what is below the end of a page was below its offset, or is on the page. -/
theorem Below.page (hold : old <:+ history) (h : Below P history old o) :
    Below (fun x => P x ∨ x ∈ slice history o n) history old (o + (slice history o n).length) := by
  intro j x hj ho
  by_cases hbelow : history.length - old.length + j < o
  · exact .inl (h j x hj hbelow)
  · right
    rw [← getElem?_suffix hold] at hj
    have hlt : history.length - old.length + j - o < n := by
      have hle : (slice history o n).length ≤ n := List.length_take_le _ _
      omega
    rw [slice, List.mem_iff_getElem?]
    refine ⟨history.length - old.length + j - o, ?_⟩
    rw [List.getElem?_take_of_lt hlt, List.getElem?_drop, ← hj]
    congr 1
    omega

/-- A short page is the last one. -/
theorem length_le_of_short (h : (slice history o n).length < n) :
    history.length ≤ o + (slice history o n).length := by
  rw [slice, List.length_take, List.length_drop] at h ⊢
  omega

section Sorted

variable {stamp : α → ℕ} {t : ℕ} (hsorted : history.Pairwise fun a b => stamp b ≤ stamp a)
include hsorted

/-- What is behind an item is not newer. -/
theorem stamp_le {i j : ℕ} {y : α} (hi : history[i]? = some x) (hj : history[j]? = some y)
    (hij : i ≤ j) : stamp y ≤ stamp x := by
  rcases Nat.eq_or_lt_of_le hij with rfl | hlt
  · rw [hi] at hj
    cases hj
    exact Nat.le_refl _
  · obtain ⟨hi', rfl⟩ := List.getElem?_eq_some_iff.mp hi
    obtain ⟨hj', rfl⟩ := List.getElem?_eq_some_iff.mp hj
    exact List.pairwise_iff_getElem.mp hsorted i j hi' hj' hlt

/-- A page that has an old item is the last one with a newer one. -/
theorem Below.newer (hold : old <:+ history)
    (h : Below P history old (o + (slice history o n).length)) {y : α}
    (hy : y ∈ slice history o n) (ht : stamp y < t) : ∀ x ∈ old, t ≤ stamp x → P x := by
  intro x hx hnewer
  obtain ⟨j, hj⟩ := List.mem_iff_getElem?.mp hx
  refine h j x hj ?_
  rw [← getElem?_suffix hold] at hj
  obtain ⟨i, hi⟩ := List.mem_iff_getElem?.mp hy
  have hlt := (List.getElem?_eq_some_iff.mp hi).1
  have hlimit : i < n := by
    have hle : (slice history o n).length ≤ n := List.length_take_le _ _
    omega
  rw [slice, List.getElem?_take_of_lt hlimit, List.getElem?_drop] at hi
  by_contra hge
  have hle := stamp_le hsorted hi hj (by omega)
  omega

/-- Where no more than `o` items are newer, the newer ones are below. -/
theorem Below.count (hold : old <:+ history) (h : Below P history old o)
    (hcount : history.countP (fun x => t ≤ stamp x) ≤ o) : ∀ x ∈ old, t ≤ stamp x → P x := by
  intro x hx hnewer
  obtain ⟨j, hj⟩ := List.mem_iff_getElem?.mp hx
  refine h j x hj (Nat.lt_of_lt_of_le ?_ hcount)
  rw [← getElem?_suffix hold] at hj
  generalize history.length - old.length + j = i at hj
  -- the item and all before it are newer
  have hall : ∀ y ∈ history.take (i + 1), t ≤ stamp y := by
    intro y hy
    obtain ⟨k, hk⟩ := List.mem_iff_getElem?.mp hy
    have hlt := (List.getElem?_eq_some_iff.mp hk).1
    rw [List.length_take] at hlt
    rw [List.getElem?_take_of_lt (by omega)] at hk
    exact Nat.le_trans hnewer (stamp_le hsorted hk hj (by omega))
  have hlength := (List.getElem?_eq_some_iff.mp hj).1
  have htake : (history.take (i + 1)).countP (fun x => t ≤ stamp x) = i + 1 := by
    rw [List.countP_eq_length.mpr fun y hy => decide_eq_true (hall y hy), List.length_take]
    omega
  have hle := (List.take_sublist (i + 1) history).countP_le (p := fun x => t ≤ stamp x)
  omega

end Sorted

end GrowingHistory
