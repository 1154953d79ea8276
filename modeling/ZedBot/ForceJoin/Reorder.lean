import ZedBot.ForceJoin.Configuration
import Mathlib.Data.Prod.Lex

/-! # One move in the list

    A move swaps a channel with its neighbour in the listed order and gives every row its place
    in the new order. The new places are all different, so the table lists exactly as the
    swapped list, whatever the places were before. -/

namespace ZedBot.ForceJoin

variable {configs reordered : List ChannelConfig} {c : ChannelConfig}

/-! ### The listed order -/

/-- The columns of the order, compared one after the other. -/
def ChannelConfig.place (c : ChannelConfig) : ℤ ×ₗ ℤ ×ₗ String :=
  toLex (c.sortOrder, toLex (c.createdAt, c.id))

theorem listedBefore_iff {a b : ChannelConfig} : listedBefore a b ↔ a.place ≤ b.place := by
  rw [listedBefore, ChannelConfig.place, ChannelConfig.place, Prod.Lex.toLex_le_toLex,
    Prod.Lex.toLex_le_toLex]

theorem listed_perm (configs : List ChannelConfig) : (listed configs).Perm configs :=
  List.perm_insertionSort _ _

theorem listed_sorted (configs : List ChannelConfig) :
    (listed configs).Pairwise listedBefore :=
  have : Std.Total listedBefore :=
    ⟨fun a b => by simpa only [listedBefore_iff] using le_total a.place b.place⟩
  have : IsTrans ChannelConfig listedBefore :=
    ⟨fun a b c hab hbc => by
      rw [listedBefore_iff] at *
      exact hab.trans hbc⟩
  List.pairwise_insertionSort _ _

theorem id_of_place {a b : ChannelConfig} (hab : listedBefore a b) (hba : listedBefore b a) :
    a.id = b.id := by
  have h := le_antisymm (listedBefore_iff.mp hab) (listedBefore_iff.mp hba)
  exact (Prod.mk.inj (toLex.injective (Prod.mk.inj (toLex.injective h)).2)).2

/-- A sorted arrangement of rows with distinct ids is the listed order. -/
theorem listed_of_perm (hnodup : (configs.map ChannelConfig.id).Nodup)
    (hperm : reordered.Perm configs) (hsorted : reordered.Pairwise listedBefore) :
    listed configs = reordered := by
  refine List.Perm.eq_of_pairwise (fun a b ha hb hab hba => ?_) (listed_sorted configs) hsorted
    ((listed_perm configs).trans hperm.symm)
  exact List.inj_on_of_nodup_map hnodup ((listed_perm configs).mem_iff.mp ha)
    (hperm.mem_iff.mp hb) (id_of_place hab hba)

/-! ### The new places -/

theorem misplaced_cons (r : ChannelConfig) (l : List ChannelConfig) (n : ℕ) :
    misplaced (r :: l) n =
      if r.sortOrder = n then misplaced l (n + 1) else (r, n) :: misplaced l (n + 1) := by
  rw [misplaced, List.zipIdx_cons, List.filter_cons]
  by_cases h : r.sortOrder = n
  · rw [if_pos h, if_neg (by simp [h])]
    rfl
  · rw [if_neg h, if_pos (by simp [h])]
    rfl

/-- A row outside the list keeps its place. -/
theorem placed_of_notMem (l : List ChannelConfig) (n : ℕ) (c : ChannelConfig)
    (h : c.id ∉ l.map ChannelConfig.id) : placed (misplaced l n) c = c := by
  induction l generalizing n with
  | nil => rfl
  | cons r l ih =>
    rw [List.map_cons, List.mem_cons, not_or] at h
    rw [misplaced_cons]
    split_ifs
    · exact ih (n + 1) h.2
    · rw [placed, List.foldl_cons, if_neg h.1]
      exact ih (n + 1) h.2

/-- A row in the list gets its index. -/
theorem placed_of_getElem? {l : List ChannelConfig} {i : ℕ} (n : ℕ)
    (hnodup : (l.map ChannelConfig.id).Nodup) (h : l[i]? = some c) :
    placed (misplaced l n) c = setSortOrder ((n + i : ℕ) : ℤ) c := by
  induction l generalizing n i with
  | nil => cases h
  | cons r l ih =>
    rw [List.map_cons, List.nodup_cons] at hnodup
    rw [misplaced_cons]
    rcases i with _ | i
    · obtain rfl := Option.some.inj h
      split_ifs with hplace
      · rw [placed_of_notMem l _ _ hnodup.1, Nat.add_zero, ← hplace]
        rfl
      · rw [placed, List.foldl_cons, if_pos rfl]
        exact placed_of_notMem l _ _ hnodup.1
    · have hmem : c ∈ l := List.mem_of_getElem? h
      have hne : c.id ≠ r.id := fun heq => hnodup.1 (heq ▸ List.mem_map_of_mem hmem)
      have hplaced := ih (n + 1) hnodup.2 h
      rw [show n + 1 + i = n + (i + 1) by omega] at hplaced
      split_ifs
      · exact hplaced
      · rw [placed, List.foldl_cons, if_neg hne]
        exact hplaced

/-- The renumbered table lists as the list it was numbered by. -/
theorem listed_renumbered (hnodup : (configs.map ChannelConfig.id).Nodup)
    (hperm : reordered.Perm configs) :
    (listed (configs.map (placed (misplaced reordered 0)))).map ChannelConfig.id =
      reordered.map ChannelConfig.id := by
  have hids : ∀ l : List ChannelConfig,
      (l.map (placed (misplaced reordered 0))).map ChannelConfig.id = l.map ChannelConfig.id := by
    intro l
    rw [List.map_map]
    exact List.map_congr_left fun c _ => (placed_id _ c).1
  have hnodup' : (reordered.map ChannelConfig.id).Nodup :=
    (hperm.map ChannelConfig.id).nodup_iff.mpr hnodup
  have hsorted : (reordered.map (placed (misplaced reordered 0))).Pairwise listedBefore := by
    rw [List.pairwise_iff_getElem]
    intro i j hi hj hij
    rw [List.length_map] at hi hj
    rw [List.getElem_map, List.getElem_map,
      placed_of_getElem? 0 hnodup' (List.getElem?_eq_getElem hi),
      placed_of_getElem? 0 hnodup' (List.getElem?_eq_getElem hj)]
    refine Or.inl ?_
    rw [setSortOrder, setSortOrder]
    dsimp only
    omega
  rw [listed_of_perm ((hids configs).symm ▸ hnodup) (hperm.map _) hsorted, hids]

/-! ### The swap -/

theorem getElem?_pair {α : Type} (pre : List α) (a b : α) (post : List α) :
    (pre ++ a :: b :: post)[pre.length]? = some a ∧
      (pre ++ a :: b :: post)[pre.length + 1]? = some b := by
  refine ⟨?_, ?_⟩
  · rw [List.getElem?_append_right (Nat.le_refl _), Nat.sub_self]
    rfl
  · rw [List.getElem?_append_right (Nat.le_add_right _ 1), Nat.add_sub_cancel_left]
    rfl

theorem swapAt_next {α : Type} (pre : List α) (a b : α) (post : List α) :
    swapAt (pre ++ a :: b :: post) pre.length (pre.length + 1) = pre ++ b :: a :: post := by
  obtain ⟨ha, hb⟩ := getElem?_pair pre a b post
  rw [swapAt, ha, hb]
  dsimp only
  rw [List.set_append_right _ _ (Nat.le_refl _), Nat.sub_self,
    List.set_append_right _ _ (Nat.le_add_right _ 1), Nat.add_sub_cancel_left]
  rfl

theorem swapAt_previous {α : Type} (pre : List α) (a b : α) (post : List α) :
    swapAt (pre ++ a :: b :: post) (pre.length + 1) pre.length = pre ++ b :: a :: post := by
  obtain ⟨ha, hb⟩ := getElem?_pair pre a b post
  rw [swapAt, ha, hb]
  dsimp only
  rw [List.set_append_right _ _ (Nat.le_add_right _ 1), Nat.add_sub_cancel_left,
    List.set_append_right _ _ (Nat.le_refl _), Nat.sub_self]
  rfl

/-- One channel changes places with the one before or behind it. -/
def Moved (id : String) (direction : Direction) (before after : List String) : Prop :=
  ∃ pre other post, match direction with
    | .up => before = pre ++ other :: id :: post ∧ after = pre ++ id :: other :: post
    | .down => before = pre ++ id :: other :: post ∧ after = pre ++ other :: id :: post

theorem split_at_pair {α : Type} {l : List α} {i : ℕ} (h : i + 1 < l.length) :
    ∃ pre a b post, l = pre ++ a :: b :: post ∧ pre.length = i := by
  refine ⟨l.take i, l[i], l[i + 1], l.drop (i + 2), ?_, ?_⟩
  · rw [← List.drop_eq_getElem_cons, ← List.drop_eq_getElem_cons, List.take_append_drop]
  · rw [List.length_take]
    omega

/-- The swap of a found channel with its neighbour. -/
theorem swapped {ordered : List ChannelConfig} {id : String} {direction : Direction}
    {idx other : ℕ} (hidx : (ordered.findIdx? fun c => c.id == id) = some idx)
    (hother : swapWith direction idx ordered.length = some other) :
    (swapAt ordered idx other).Perm ordered ∧
      Moved id direction (ordered.map ChannelConfig.id)
        ((swapAt ordered idx other).map ChannelConfig.id) := by
  obtain ⟨hlt, hid, -⟩ := List.findIdx?_eq_some_iff_getElem.mp hidx
  rw [beq_iff_eq] at hid
  cases direction with
  | up =>
    rw [swapWith] at hother
    split_ifs at hother with hzero
    obtain rfl := Option.some.inj hother
    obtain ⟨pre, a, b, post, rfl, hpre⟩ := split_at_pair (l := ordered) (i := idx - 1) (by omega)
    obtain rfl : idx = pre.length + 1 := by omega
    have hb : (pre ++ a :: b :: post)[pre.length + 1] = b := by simp
    rw [hb] at hid
    rw [Nat.add_sub_cancel, swapAt_previous]
    refine ⟨List.Perm.append_left _ (List.Perm.swap _ _ _), pre.map ChannelConfig.id, a.id,
      post.map ChannelConfig.id, ?_⟩
    simp [hid]
  | down =>
    rw [swapWith] at hother
    split_ifs at hother with hnext
    obtain rfl := Option.some.inj hother
    obtain ⟨pre, a, b, post, rfl, hpre⟩ := split_at_pair hnext
    obtain rfl := hpre
    have ha : (pre ++ a :: b :: post)[pre.length] = a := by simp
    rw [ha] at hid
    rw [swapAt_next]
    refine ⟨List.Perm.append_left _ (List.Perm.swap _ _ _), pre.map ChannelConfig.id, b.id,
      post.map ChannelConfig.id, ?_⟩
    simp [hid]

end ZedBot.ForceJoin
