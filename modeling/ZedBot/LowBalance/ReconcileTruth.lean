import ZedBot.LowBalance.BackfillTruth
import ZedBot.LowBalance.ReconcileRules

/-! What a row of the repair sweep can wait for.

    Passes follow one another: each is a pass over a keyset page of the state rows, so the rows are
    covered while the initialisation drains, and the cursor is pinned while it does not. -/

namespace ZedBot.LowBalance
open KeysetSweep ReadCommitted

variable {rowId : ℕ → ℕ} {n : ℕ} {o : ℕ → PassOracle} {db : ℕ → SweepDb}

/-- `n` passes that run to their end with the lease, `db i` being what the `i`-th of them finds.
    Between two passes state rows may be added, and the cursor is left alone. -/
structure SweepRun (rowId : ℕ → ℕ) (n : ℕ) (o : ℕ → PassOracle) (db : ℕ → SweepDb) : Prop where
  ended : ∀ i < n, (runLowBalanceReconciliation rowId (o i) (db i)).Ended
  cursor : ∀ i < n, cursorOf (db (i + 1)) =
    cursorOf (runLowBalanceReconciliation rowId (o i) (db i)).db
  rows : ∀ i < n, stateRowIds rowId
    ((runLowBalanceReconciliation rowId (o i) (db i)).db.alerts.view {}) ⊆
      stateRowIds rowId ((db (i + 1)).alerts.view {})

/-- The state rows that the repair of the `i`-th pass walks over. -/
def repairTable (rowId : ℕ → ℕ) (n : ℕ) (o : ℕ → PassOracle) (db : ℕ → SweepDb) (i : ℕ) : List ℕ :=
  if i < n then
    stateRowIds rowId ((runLowBalanceReconciliation rowId (o i) (db i)).db.alerts.view {})
  else stateRowIds rowId ((db i).alerts.view {})

namespace SweepRun

variable (hinj : Function.Injective rowId) (h : SweepRun rowId n o db)
include hinj h

theorem subset_repairTable {i : ℕ} :
    stateRowIds rowId ((db i).alerts.view {}) ⊆ repairTable rowId n o db i := by
  rw [repairTable]
  split
  · rename_i hi
    exact (pass_spec hinj (h.ended i hi)).2.2
  · exact List.Subset.refl _

/-- The passes are a sweep by pages of their capacity. -/
theorem sweep : Sweep passCapacity n (repairTable rowId n o db) (fun i => cursorOf (db i))
    (fun i => PassDrains (o i) (db i)) where
  sorted i hi := by
    rw [repairTable, if_pos hi]
    exact stateRowIds_sorted hinj
  grows i hi := by
    rw [repairTable, if_pos hi]
    exact List.Subset.trans (h.rows i hi) (h.subset_repairTable hinj)
  next i hi := by
    rw [repairTable, if_pos hi, h.cursor i hi]
    exact (pass_spec hinj (h.ended i hi)).2.1

theorem examined_eq {i : ℕ} (hi : i < n) :
    (runLowBalanceReconciliation rowId (o i) (db i)).examined =
      page passCapacity (repairTable rowId n o db i) (cursorOf (db i)) := by
  rw [repairTable, if_pos hi]
  exact (pass_spec hinj (h.ended i hi)).1

end SweepRun

/-- Passes whose missing users drain examine every row once they are as many as the pages of the state
    rows, and one more; passes whose missing users do not drain examine nothing up to the cursor. -/
theorem repair_revisits (hinj : Function.Injective rowId) (h : SweepRun rowId n o db) :
    ((∀ i < n, PassDrains (o i) (db i) = true) →
      (stateRowIds rowId ((db n).alerts.view {})).length + passCapacity ≤ n * passCapacity →
        ∀ x ∈ stateRowIds rowId ((db 0).alerts.view {}),
          ∃ i < n, x ∈ (runLowBalanceReconciliation rowId (o i) (db i)).examined) ∧
    ((∀ i < n, PassDrains (o i) (db i) = false) →
      ∀ c, cursorOf (db 0) = some c → ∀ x ≤ c, ∀ i < n,
        x ∉ (runLowBalanceReconciliation rowId (o i) (db i)).examined) := by
  refine ⟨fun hdrains hn x hx => ?_, fun hdrains c hc x hx i hi => ?_⟩
  · have htable : repairTable rowId n o db n = stateRowIds rowId ((db n).alerts.view {}) :=
      if_neg (lt_irrefl n)
    obtain ⟨i, hi, hmem⟩ := (h.sweep hinj).covers (h.subset_repairTable hinj hx) (by
      rw [htable, drainedBefore_all hdrains]
      exact hn)
    exact ⟨i, hi, by rwa [h.examined_eq hinj hi]⟩
  · rw [h.examined_eq hinj hi]
    exact (h.sweep hinj).pinned hc hdrains hx hi

/-! A state row that disagrees with its balance, at the cursor; whether there is an ACTIVE user without
    a state row, and the unit of this one fails on each attempt. -/

def sweptDb (second : Bool) : SweepDb where
  control := some { repairCursorId := some 1, lastSweepStartedAt := some 0 }
  alerts :=
    { rows := fun
        | .user id => if id = 1 ∨ id = 2 ∧ second then some {} else none
        | .alertState id => if id = 1 then
            some { state := .ARMED
                   alertCycle := 0
                   lastObservedBalanceToman := 500
                   lastThresholdToman := 100
                   lastRearmBoundaryToman := 200
                   lastConfigVersion := 1 } else none
        | .notification _ _ => none
        | .backfillRun _ => none
      log := [⟨0, { entries := [.user 1, .user 2] }⟩]
      world := () }

def failingUnit : PassOracle where
  ownerToken := 7
  config := some smallConfig
  initFails id := id = 2

def failingPass : SweepDb → PassResult := runLowBalanceReconciliation id failingUnit

/-- The database after so many passes. -/
def failingPasses (second : Bool) (i : ℕ) : SweepDb :=
  (fun db => (failingPass db).db)^[i] (sweptDb second)

theorem failingPasses_succ (second : Bool) (i : ℕ) :
    failingPasses second (i + 1) = (failingPass (failingPasses second i)).db :=
  Function.iterate_succ_apply' ..

/-- However many passes follow, none of them examines the row. -/
theorem failing_unit_pins_cursor :
    ∃ row, row.id = 1 ∧ row.agrees smallConfig = false ∧
      repairRow id ((sweptDb true).alerts.view {}) 1 = some row ∧
      ∀ i, (failingPass (failingPasses true i)).Ended ∧
        1 ∉ (failingPass (failingPasses true i)).examined := by
  have hfixed : (failingPass (sweptDb true)).db = sweptDb true := by rfl
  have hphases : (failingPass (sweptDb true)).phases = some (.stopped, .done) := by decide +kernel
  have hexamined : (failingPass (sweptDb true)).examined = [] := by decide +kernel
  refine ⟨⟨1, 1, .ARMED, 0⟩, rfl, rfl, rfl, fun i => ?_⟩
  rw [failingPasses, Function.iterate_fixed hfixed, hexamined]
  exact ⟨⟨_, _, hphases, .inr rfl, .inl rfl⟩, List.not_mem_nil⟩

/-- Without the second user two passes examine it. -/
theorem repair_revisits_two : ∃ i < 2, 1 ∈ (failingPass (failingPasses false i)).examined := by
  have hphases : ∀ i < 2, (failingPass (failingPasses false i)).phases = some (.done, .done) := by
    decide +kernel
  have hrun : SweepRun id 2 (fun _ => failingUnit) (failingPasses false) :=
    { ended := fun i hi => ⟨_, _, hphases i hi, .inl rfl, .inl rfl⟩
      cursor := fun i _ => by
        rw [failingPasses_succ]
        rfl
      rows := fun i _ => by
        rw [failingPasses_succ]
        exact List.Subset.refl _ }
  exact (repair_revisits Function.injective_id hrun).1 (by decide +kernel) (by decide +kernel) 1
    (by decide +kernel)

end ZedBot.LowBalance
