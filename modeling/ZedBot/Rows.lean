import Mathlib.Data.List.Nodup

/-! # Tables as lists of rows

    A statement updates the rows that meet a condition and appends new ones; a row is told by its
    key.

        rows:   r₁  r₂  r₃          the condition holds of r₂
        after:  r₁  r₂' r₃  new -/

namespace Rows

variable {α κ : Type} {cond cond' : α → Bool} {data : α → α} {key : α → κ} {rows rows' : List α}
  {r r' : α} {R : α → α → Prop}

/-- `updateMany`: the rows with the condition get the data. -/
def updateWhere (cond : α → Bool) (data : α → α) (rows : List α) : List α :=
  rows.map fun r => if cond r then data r else r

theorem mem_updateWhere :
    r' ∈ updateWhere cond data rows ↔ ∃ r ∈ rows, (if cond r then data r else r) = r' :=
  List.mem_map

theorem keys_updateWhere (h : ∀ r, key (data r) = key r) :
    (updateWhere cond data rows).map key = rows.map key := by
  rw [updateWhere, List.map_map]
  refine List.map_congr_left fun r _ => ?_
  rw [Function.comp_apply]
  split_ifs
  · exact h r
  · rfl

/-- No row meets the condition. -/
theorem updateWhere_of_none (h : ∀ r ∈ rows, cond r = false) :
    updateWhere cond data rows = rows := by
  conv_rhs => rw [← List.map_id rows]
  refine List.map_congr_left fun r hr => ?_
  rw [h r hr, if_neg Bool.false_ne_true, id_eq]

/-- One row meets the condition. -/
theorem updateWhere_one {before after : List α} (hbefore : ∀ r ∈ before, cond r = false)
    (h : cond r = true) (hafter : ∀ r ∈ after, cond r = false) :
    updateWhere cond data (before ++ [r] ++ after) = before ++ [data r] ++ after := by
  have hleft : updateWhere cond data before = before := updateWhere_of_none hbefore
  have hright : updateWhere cond data after = after := updateWhere_of_none hafter
  rw [updateWhere] at hleft hright
  rw [updateWhere, List.map_append, List.map_append, hleft, hright, List.map_singleton, if_pos h]

/-- Two rows with one key are one row. -/
theorem eq_of_key (h : (rows.map key).Nodup) (hr : r ∈ rows) (hr' : r' ∈ rows)
    (hkey : key r = key r') : r = r' :=
  List.inj_on_of_nodup_map h hr hr' hkey

/-- A row with a new key. -/
theorem nodup_keys_append (h : (rows.map key).Nodup) (hnew : key r ∉ rows.map key) :
    ((rows ++ [r]).map key).Nodup := by
  rw [List.map_append]
  refine List.nodup_append.mpr ⟨h, List.nodup_singleton _, fun k hk k' hk' heq => ?_⟩
  rw [List.mem_singleton.mp hk'] at heq
  exact hnew (heq ▸ hk)

/-- Every row is still there, moved as `R` says. -/
def Moved (R : α → α → Prop) (rows rows' : List α) : Prop := ∀ r ∈ rows, ∃ r' ∈ rows', R r r'

theorem Moved.refl (h : ∀ r, R r r) (rows : List α) : Moved R rows rows := fun r hr => ⟨r, hr, h r⟩

theorem Moved.trans (htrans : ∀ r r' r'', R r r' → R r' r'' → R r r'') {rows'' : List α}
    (h : Moved R rows rows') (h' : Moved R rows' rows'') : Moved R rows rows'' := by
  intro r hr
  obtain ⟨r', hr', hmove⟩ := h r hr
  obtain ⟨r'', hr'', hmove'⟩ := h' r' hr'
  exact ⟨r'', hr'', htrans _ _ _ hmove hmove'⟩

theorem Moved.append (h : ∀ r, R r r) (rows new : List α) : Moved R rows (rows ++ new) :=
  fun r hr => ⟨r, List.mem_append_left _ hr, h r⟩

theorem Moved.updateWhere (hrefl : ∀ r, R r r) (h : ∀ r ∈ rows, cond r = true → R r (data r)) :
    Moved R rows (updateWhere cond data rows) := by
  intro r hr
  refine ⟨_, mem_updateWhere.mpr ⟨r, hr, rfl⟩, ?_⟩
  split_ifs with hcond
  · exact h r hr hcond
  · exact hrefl r

end Rows
