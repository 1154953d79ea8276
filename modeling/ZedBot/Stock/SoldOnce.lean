import ZedBot.Stock.Items

/-! A stock item is sold once, as long as no reservation is given up after its content was sent and no
    content is sent after its reservation was given up. -/

namespace ZedBot.Stock
open ReadCommitted

variable {procs : ℕ → StockProcess} {p q : ℕ} {s s' : StockStore} {t : StockTx}

/-! ### The life of an item -/

/-- The order of an item stays, and the item is not brought back to the stock. -/
structure Settles (i i' : OtherProductStockItem) : Prop where
  order : i'.deliveredOrderId = i.deliveredOrderId
  status : i'.status = i.status ∨ i.status = .RESERVED ∧ i'.status = .DELIVERED ∨
    i.status = .AVAILABLE ∧ i'.status = .DISABLED

/-- A reservation is given up. -/
structure GivenUp (i i' : OtherProductStockItem) : Prop where
  reserved : i.status = .RESERVED
  order : i'.deliveredOrderId = none
  status : i'.status = .AVAILABLE ∨ i'.status = .DISABLED

theorem Settles.trans {a b c : OtherProductStockItem} (h : Settles a b) (h' : Settles b c) :
    Settles a c := by
  refine ⟨h'.order.trans h.order, ?_⟩
  rcases h'.status with he | ⟨hb, hc⟩ | ⟨hb, hc⟩
  · rw [he]
    exact h.status
  · rcases h.status with he | ⟨-, he⟩ | ⟨-, he⟩
    · exact .inr (.inl ⟨he ▸ hb, hc⟩)
    · rw [hb] at he
      cases he
    · rw [hb] at he
      cases he
  · rcases h.status with he | ⟨-, he⟩ | ⟨-, he⟩
    · exact .inr (.inr ⟨he ▸ hb, hc⟩)
    · rw [hb] at he
      cases he
    · rw [hb] at he
      cases he

/-! ### The rules -/

/-- A commit that settles items, or adds new ones. -/
structure QuietTx (t : StockTx) : Prop where
  items : ∀ id o n, t.chg (.item id) = some (o, n) →
    (∃ i i', o = some i ∧ n = some i' ∧ Settles i i') ∨
      o = none ∧ ∃ i', n = some i' ∧ i'.deliveredOrderId = none
  index : ∀ orderId, t.chg (.itemOfOrder orderId) = none

/-- A commit that reserves one item for an order without one. -/
structure ClaimTx (s : StockStore) (t : StockTx) (id orderId userId : ℕ) (i : OtherProductStockItem) :
    Prop where
  available : i.status = .AVAILABLE
  item : t.chg (.item id) = some (some i, some (i.reservedFor orderId userId))
  others : ∀ id', id' ≠ id → t.chg (.item id') = none
  index : ∃ o, t.chg (.itemOfOrder orderId) = some (o, some id) ∧ ∀ x, o = some x → x = id
  rest : ∀ orderId', orderId' ≠ orderId → t.chg (.itemOfOrder orderId') = none

/-- A commit that gives one reservation up. -/
structure GiveUpTx (t : StockTx) (id : ℕ) (i i' : OtherProductStockItem) : Prop where
  givenUp : GivenUp i i'
  item : t.chg (.item id) = some (some i, some i')
  others : ∀ id', id' ≠ id → t.chg (.item id') = none
  index : ∀ orderId o n, t.chg (.itemOfOrder orderId) = some (o, n) →
    i.deliveredOrderId = some orderId

/-- What may be committed. -/
inductive StockRule (s : StockStore) (t : StockTx) : Prop
  | quiet (h : QuietTx t)
  | claim (id orderId userId : ℕ) (i : OtherProductStockItem) (h : ClaimTx s t id orderId userId i)
  | giveUp (id : ℕ) (i i' : OtherProductStockItem) (h : GiveUpTx t id i i')

/-- The index knows the item of every order, and what is available has none. -/
structure Shelved (s : StockStore) : Prop where
  index : ∀ id i orderId, s.rows (.item id) = some i → i.deliveredOrderId = some orderId →
    s.rows (.itemOfOrder orderId) = some id
  available : ∀ id i, s.rows (.item id) = some i → i.status = .AVAILABLE → i.deliveredOrderId = none

theorem Shelved.unique (h : Shelved s) {id id' orderId : ℕ} {i i' : OtherProductStockItem}
    (hi : s.rows (.item id) = some i) (hi' : s.rows (.item id') = some i')
    (ho : i.deliveredOrderId = some orderId) (ho' : i'.deliveredOrderId = some orderId) : id = id' :=
  Option.some.inj ((h.index id i orderId hi ho).symm.trans (h.index id' i' orderId hi' ho'))

/-- A row that a commit leaves. -/
theorem row_of_none {k : StockKey} (h : t.chg k = none) : (s.commit p t).rows k = s.rows k := by
  simp [Store.commit, Tx.row, h]

theorem row_of_some {k : StockKey} {o n : StockRow k} (h : t.chg k = some (o, n)) :
    (s.commit p t).rows k = n := by
  simp [Store.commit, Tx.row, h]

theorem QuietTx.shelved (h : QuietTx t) (hi : Shelved s) (hheld : t.Held s.rows) :
    Shelved (s.commit p t) := by
  have hfrom : ∀ id i', (s.commit p t).rows (.item id) = some i' →
      (∃ i, s.rows (.item id) = some i ∧ Settles i i') ∨ i'.deliveredOrderId = none := by
    intro id i' hi'
    rcases s.commit_rows p hheld (.item id) with ⟨he, -⟩ | hchg
    · exact .inl ⟨i', he.symm.trans hi', rfl, .inl rfl⟩
    · rcases h.items id _ _ hchg with ⟨i, n, hrow, hn, hsettles⟩ | ⟨-, n, hn, hnew⟩
      · cases hi'.symm.trans hn
        exact .inl ⟨i, hrow, hsettles⟩
      · cases hi'.symm.trans hn
        exact .inr hnew
  refine ⟨fun id i' orderId hi' ho => ?_, fun id i' hi' havailable => ?_⟩
  · rw [row_of_none (h.index orderId)]
    rcases hfrom id i' hi' with ⟨i, hrow, hsettles⟩ | hnone
    · exact hi.index id i orderId hrow (hsettles.order.symm.trans ho)
    · rw [hnone] at ho
      cases ho
  · rcases hfrom id i' hi' with ⟨i, hrow, hsettles⟩ | hnone
    · rw [hsettles.order]
      rcases hsettles.status with he | ⟨-, he⟩ | ⟨-, he⟩
      · exact hi.available id i hrow (he ▸ havailable)
      · rw [havailable] at he
        cases he
      · rw [havailable] at he
        cases he
    · exact hnone

theorem ClaimTx.shelved {id orderId userId : ℕ} {i : OtherProductStockItem}
    (h : ClaimTx s t id orderId userId i) (hi : Shelved s) (hheld : t.Held s.rows) :
    Shelved (s.commit p t) := by
  obtain ⟨o, hindex, ho⟩ := h.index
  refine ⟨fun id' i' x hi' hx => ?_, fun id' i' hi' havailable => ?_⟩
  · by_cases hid : id' = id
    · subst hid
      rw [row_of_some h.item] at hi'
      cases hi'
      cases hx
      exact row_of_some hindex
    · rw [row_of_none (h.others id' hid)] at hi'
      have hlisted := hi.index id' i' x hi' hx
      by_cases hx' : x = orderId
      · -- the order has no item yet
        subst hx'
        have hbase := hheld _ _ _ hindex
        rw [hlisted] at hbase
        exact absurd (ho id' hbase) hid
      · rw [row_of_none (h.rest x hx')]
        exact hlisted
  · by_cases hid : id' = id
    · subst hid
      rw [row_of_some h.item] at hi'
      cases hi'
      cases havailable
    · rw [row_of_none (h.others id' hid)] at hi'
      exact hi.available id' i' hi' havailable

theorem GiveUpTx.shelved {id : ℕ} {i i' : OtherProductStockItem} (h : GiveUpTx t id i i')
    (hi : Shelved s) (hheld : t.Held s.rows) : Shelved (s.commit p t) := by
  have hrow : s.rows (.item id) = some i := (hheld _ _ _ h.item).symm
  refine ⟨fun id' j x hj hx => ?_, fun id' j hj havailable => ?_⟩
  · by_cases hid : id' = id
    · subst hid
      rw [row_of_some h.item] at hj
      cases hj
      rw [h.givenUp.order] at hx
      cases hx
    · rw [row_of_none (h.others id' hid)] at hj
      cases hchg : t.chg (.itemOfOrder x) with
      | none =>
        rw [row_of_none hchg]
        exact hi.index id' j x hj hx
      | some c => exact absurd (hi.unique hj hrow hx (h.index x c.1 c.2 hchg)) hid
  · by_cases hid : id' = id
    · subst hid
      rw [row_of_some h.item] at hj
      cases hj
      exact h.givenUp.order
    · rw [row_of_none (h.others id' hid)] at hj
      exact hi.available id' j hj havailable

/-- The rules of the stock. -/
def stocking : Discipline StockRow StockEntry (List Sent) where
  Inv := Shelved
  Commits _ _ s t := StockRule s t
  Acts _ _ s w := w = s.world ∨ ∃ x, w = x :: s.world
  commits_empty _ := .quiet ⟨fun _ _ _ h => (nomatch h), fun _ => rfl⟩
  inv_commit hi hheld h := by
    cases h with
    | quiet h => exact h.shelved hi hheld
    | claim id orderId userId i h => exact h.shelved hi hheld
    | giveUp id i i' h => exact h.shelved hi hheld
  inv_act hi _ := ⟨hi.index, hi.available⟩

/-! ### Statements -/

/-- A statement that settles items or adds new ones. -/
structure SettlesItems (v : StockView) (writes : List (Write StockRow)) (_ : List StockEntry) :
    Prop where
  items : ∀ id n, ⟨.item id, n⟩ ∈ writes →
    (∃ i i', v.rows (.item id) = some i ∧ n = some i' ∧ Settles i i') ∨
      v.rows (.item id) = none ∧ ∃ i', n = some i' ∧ i'.deliveredOrderId = none
  index : ∀ orderId n, ⟨.itemOfOrder orderId, n⟩ ∉ writes

theorem QuietTx.empty : QuietTx {} := ⟨fun _ _ _ h => (nomatch h), fun _ => rfl⟩

theorem QuietTx.add {β : Type} {e : Effect StockRow StockEntry β} (h : QuietTx t)
    (he : SettlesItems (s.view t) e.writes e.entries) : QuietTx (t.add s.rows e) where
  items id o n hchg := by
    rcases Tx.chg_add hchg with hchg | ⟨rfl, hmem⟩
    · exact h.items id o n hchg
    · rcases he.items id n hmem with ⟨x, i', hx, rfl, hsettles⟩ | ⟨hnone, i', rfl, hnew⟩
      · have hrow : t.row s.rows (.item id) = some x := hx
        rcases Tx.chg_of_row hrow with ⟨-, hbase⟩ | hsome
        · exact .inl ⟨x, i', hbase, rfl, hsettles⟩
        · rcases h.items id _ _ hsome with ⟨i, x', hi, hx', hbefore⟩ | ⟨hi, x', hx', hnew⟩
          · cases hx'
            exact .inl ⟨i, i', hi, rfl, hbefore.trans hsettles⟩
          · cases hx'
            exact .inr ⟨hi, i', rfl, hsettles.order.trans hnew⟩
      · have hrow : t.row s.rows (.item id) = none := hnone
        rcases Tx.chg_of_row hrow with ⟨-, hbase⟩ | hsome
        · exact .inr ⟨hbase, i', rfl, hnew⟩
        · rcases h.items id _ _ hsome with ⟨i, x', -, hx', -⟩ | ⟨-, x', hx', -⟩ <;> cases hx'
  index orderId := by
    rw [Tx.chg_add_of_notMem, h.index]
    intro hmem
    obtain ⟨⟨k, n⟩, hw, hk⟩ := List.mem_map.mp hmem
    cases hk
    exact he.index orderId n hw

theorem quietRules : StmtRules stocking p SettlesItems
    (fun w w' => w' = w ∨ ∃ x, w' = x :: w) fun _ t => QuietTx t where
  start _ := .empty
  env _ _ h := h
  add _ h he := h.add he
  commits _ _ h := .quiet h
  acts _ h := h

theorem SettlesItems.nothing (v : StockView) (es : List StockEntry) : SettlesItems v [] es :=
  ⟨fun _ _ h => (nomatch h), fun _ _ h => (nomatch h)⟩

/-- A statement that writes neither items nor the index. -/
theorem SettlesItems.of_elsewhere {v : StockView} {writes : List (Write StockRow)}
    {es : List StockEntry} (h : ∀ w ∈ writes, (∃ id, w.1 = .order id) ∨ ∃ id, w.1 = .record id) :
    SettlesItems v writes es := by
  refine ⟨fun id n hmem => ?_, fun orderId n hmem => ?_⟩
  · rcases h _ hmem with ⟨x, he⟩ | ⟨x, he⟩ <;> cases he
  · rcases h _ hmem with ⟨x, he⟩ | ⟨x, he⟩ <;> cases he

theorem each_updateOrder (id : ℕ) (cond : Order → Bool) (data : Order → Order) :
    (updateOrder id cond data).Each SettlesItems (fun w w' => w' = w ∨ ∃ x, w' = x :: w) := by
  refine .update (fun v => .nothing v []) fun v n _ => .of_elsewhere fun w hw => ?_
  cases List.mem_singleton.mp hw
  exact .inl ⟨id, rfl⟩

theorem each_updateRecord (orderId : ℕ) (cond : OtherProductOrder → Bool)
    (data : OtherProductOrder → OtherProductOrder) :
    (updateRecord orderId cond data).Each SettlesItems (fun w w' => w' = w ∨ ∃ x, w' = x :: w) := by
  refine .update (fun v => .nothing v []) fun v n _ => .of_elsewhere fun w hw => ?_
  cases List.mem_singleton.mp hw
  exact .inr ⟨orderId, rfl⟩

/-- An update that settles its item. -/
theorem each_updateItem {id : ℕ} {cond : OtherProductStockItem → Bool}
    {data : OtherProductStockItem → OtherProductStockItem}
    (h : ∀ i, cond i = true → Settles i (data i)) :
    (updateItem id cond data).Each SettlesItems (fun w w' => w' = w ∨ ∃ x, w' = x :: w) := by
  refine .sql fun v => ?_
  split
  · rename_i i hi
    split
    · rename_i hc
      have hsettles := h i hc
      have hwrites : itemWrites id i (data i) = [⟨.item id, some (data i)⟩] := by
        rw [itemWrites, if_pos hsettles.order]
      dsimp only
      rw [hwrites]
      refine ⟨fun id' n hmem => ?_, fun orderId n hmem => ?_⟩
      · cases List.mem_singleton.mp hmem
        exact .inl ⟨i, data i, hi, rfl, hsettles⟩
      · cases List.mem_singleton.mp hmem
    · exact .nothing v []
  · exact .nothing v []

theorem settles_delivered {orderId : ℕ} (now : ℕ) (i : OtherProductStockItem)
    (h : isClaimOf orderId i = true) : Settles i (i.delivered now) :=
  ⟨rfl, .inr (.inl ⟨(of_decide_eq_true h).1, rfl⟩)⟩

/-- What is written of an item: its row, and the index where its order changes. -/
theorem mem_itemWrites {id : ℕ} {o n : OtherProductStockItem} {w : Write StockRow}
    (h : w ∈ itemWrites id o n) : w = ⟨.item id, some n⟩ ∨
      (∃ x, w = ⟨.itemOfOrder x, none⟩ ∧ o.deliveredOrderId = some x) ∨
      ∃ x, w = ⟨.itemOfOrder x, some id⟩ ∧ n.deliveredOrderId = some x := by
  rw [itemWrites, List.mem_cons] at h
  rcases h with h | h
  · exact .inl h
  · split at h
    · cases h
    · simp only [List.mem_append, List.mem_map, Option.mem_toList] at h
      rcases h with ⟨x, hx, rfl⟩ | ⟨x, hx, rfl⟩
      · exact .inr (.inl ⟨x, rfl, hx⟩)
      · exact .inr (.inr ⟨x, rfl, hx⟩)

section Write

variable {β : Type} {e : Effect StockRow StockEntry β} {id : ℕ} {o n : OtherProductStockItem}

theorem chg_item_self (h : e.writes = itemWrites id o n) (hrow : s.rows (.item id) = some o) :
    (Tx.add {} s.rows e).chg (.item id) = some (some o, some n) := by
  rw [← hrow]
  refine Tx.chg_add_of_last (h.trans (List.nil_append _).symm) fun hmem => ?_
  split at hmem
  · cases hmem
  · simp at hmem

theorem chg_item_other (h : e.writes = itemWrites id o n) {id' : ℕ} (hne : id' ≠ id) :
    (Tx.add {} s.rows e).chg (.item id') = none := by
  refine Tx.chg_add_of_notMem fun hmem => ?_
  obtain ⟨w, hw, he⟩ := List.mem_map.mp hmem
  rw [h] at hw
  rcases mem_itemWrites hw with rfl | ⟨x, rfl, -⟩ | ⟨x, rfl, -⟩ <;> cases he
  exact hne rfl

end Write

/-- An update that gives its reservation up. -/
theorem accepts_giveUp {id : ℕ} {cond : OtherProductStockItem → Bool}
    {data : OtherProductStockItem → OtherProductStockItem}
    (h : ∀ i, cond i = true → GivenUp i (data i)) :
    Accepts stocking p (updateItem id cond data) := by
  refine .sql fun r s hi => ?_
  have hnothing : StockRule s (Tx.add {} s.rows (⟨0, [], []⟩ : Effect StockRow StockEntry ℕ)) :=
    stocking.commits_empty (p := p) (r := r) hi
  dsimp only [Store.view]
  rw [Tx.row_empty]
  split
  · rename_i i hrow
    split
    · rename_i hc
      have hgiven := h i hc
      refine .giveUp id i (data i) ⟨hgiven, chg_item_self rfl hrow, fun id' => chg_item_other rfl,
        fun orderId o n hchg => ?_⟩
      obtain ⟨-, hmem⟩ := Tx.chg_add_empty hchg
      rcases mem_itemWrites hmem with he | ⟨x, he, hx⟩ | ⟨x, he, hx⟩
      · cases he
      · cases he
        exact hx
      · rw [hgiven.order] at hx
        cases hx
    · exact hnothing
  · exact hnothing

/-- A claim reserves an item, or does nothing. -/
theorem accepts_claimItem (id orderId userId : ℕ) :
    Accepts stocking p (claimItem id orderId userId) := by
  refine .sql fun r s hi => ?_
  have hnothing : ∀ x, StockRule s (Tx.add {} s.rows (⟨x, [], []⟩ :
      Effect StockRow StockEntry ClaimResult)) := fun _ =>
    stocking.commits_empty (p := p) (r := r) hi
  split
  · rename_i i hrow
    change s.rows (.item id) = some i at hrow
    split
    · rename_i havailable
      split
      · rename_i hfree
        change (s.rows (.itemOfOrder orderId)).all (· = id) = true at hfree
        have hnone := hi.available id i hrow havailable
        have hwrites : itemWrites id i (i.reservedFor orderId userId) =
            [⟨.item id, some (i.reservedFor orderId userId)⟩] ++ ⟨.itemOfOrder orderId, some id⟩ :: [] := by
          simp [itemWrites, hnone, OtherProductStockItem.reservedFor]
        refine .claim id orderId userId i ⟨havailable, chg_item_self rfl hrow,
          fun id' => chg_item_other rfl, ⟨s.rows (.itemOfOrder orderId), ?_, fun x hx => ?_⟩,
          fun orderId' hne => ?_⟩
        · exact Tx.chg_add_of_last hwrites (by simp)
        · rw [hx] at hfree
          simpa using hfree
        · refine Tx.chg_add_of_notMem ?_
          dsimp only
          rw [hwrites]
          simpa using hne
      · exact hnothing _
    · exact hnothing _
  · exact hnothing _

/-! ### Processes -/

variable {orderId : ℕ}

theorem accepts_settle {id : ℕ} {cond : OtherProductStockItem → Bool}
    {data : OtherProductStockItem → OtherProductStockItem}
    (h : ∀ i, cond i = true → Settles i (data i)) :
    Accepts stocking p (updateItem id cond data) := quietRules.accepts_stmt (each_updateItem h)

theorem accepts_updateOrder (id : ℕ) (cond : Order → Bool) (data : Order → Order) :
    Accepts stocking p (updateOrder id cond data) := quietRules.accepts_stmt (each_updateOrder id cond data)

theorem accepts_updateRecord (id : ℕ) (cond : OtherProductOrder → Bool)
    (data : OtherProductOrder → OtherProductOrder) :
    Accepts stocking p (updateRecord id cond data) :=
  quietRules.accepts_stmt (each_updateRecord id cond data)

theorem accepts_sendContent (itemId orderId : ℕ) :
    Accepts stocking p (sendContent itemId orderId) := by
  refine quietRules.accepts_ext (.ext fun c w => ?_)
  split
  · exact .inr ⟨_, rfl⟩
  · exact .inl rfl

/-- A rollback, a release and the end of an unreadable item give the claim of an order up. -/
theorem accepts_endClaim (id orderId : ℕ) {data : OtherProductStockItem → OtherProductStockItem}
    (horder : ∀ i, (data i).deliveredOrderId = none)
    (hstatus : ∀ i, (data i).status = .AVAILABLE ∨ (data i).status = .DISABLED) :
    Accepts stocking p (updateItem id (isClaimOf orderId) data) :=
  accepts_giveUp fun i h => ⟨(of_decide_eq_true h).1, horder i, hstatus i⟩

theorem accepts_claimStockItem (orderId productId userId : ℕ) :
    ∀ n, Accepts stocking p (claimStockItem orderId productId userId n)
  | 0 => .pure _
  | n + 1 => by
    refine .bind (.select _) fun candidate => ?_
    split
    · exact .pure _
    · refine .bind (accepts_claimItem _ _ _) fun outcome => ?_
      split
      · exact .select _
      · exact accepts_claimStockItem orderId productId userId n
      · refine .bind (.select _) fun winner => ?_
        split
        · exact .pure _
        · exact accepts_claimStockItem orderId productId userId n

theorem accepts_reserveCandidate (orderId productId userId : ℕ) :
    ∀ n, Accepts stocking p (reserveCandidate orderId productId userId n)
  | 0 => .pure _
  | n + 1 => by
    refine .bind (.select _) fun candidate => ?_
    split
    · exact .pure _
    · refine .bind (accepts_claimItem _ _ _) fun outcome => ?_
      split
      · refine .bind (.select _) fun item => ?_
        split
        · exact .pure _
        · exact accepts_reserveCandidate orderId productId userId n
      · exact accepts_reserveCandidate orderId productId userId n
      · refine .bind (.select _) fun winner => ?_
        split
        · exact .pure _
        · exact accepts_reserveCandidate orderId productId userId n

theorem accepts_reserve (orderId productId userId : ℕ) :
    Accepts stocking p (reserveStockItemForOrder orderId productId userId) := by
  refine .bind (.select _) fun existing => ?_
  split
  · exact .pure _
  · exact accepts_reserveCandidate orderId productId userId _

theorem accepts_withRetry {finalize : Stocking (Except Unit Unit)}
    (h : Accepts stocking p finalize) : Accepts stocking p (withRetry finalize) := by
  refine .bind h fun result => ?_
  split
  · exact .pure _
  · exact .bind h fun _ => .pure _

theorem accepts_finalizeOrder (itemId orderId now : ℕ) :
    Accepts stocking p (finalizeOrder itemId orderId now) :=
  quietRules.accepts_transaction (.bind (each_updateItem (settles_delivered now)) fun _ =>
    .bind (each_updateOrder _ _ _) fun _ => .bind (.ask _) fun _ => .pure _)

theorem accepts_finalizeStockRecord (orderId now : ℕ) :
    Accepts stocking p (finalizeStockRecord orderId now) :=
  quietRules.accepts_transaction (.bind (each_updateRecord _ _ _) fun _ =>
    .bind (each_updateOrder _ _ _) fun _ => .bind (.ask _) fun _ => .pure _)

theorem accepts_finalizeSpecialized (itemId orderId now : ℕ) :
    Accepts stocking p (finalizeSpecialized itemId orderId now) :=
  quietRules.accepts_transaction (.bind (each_updateItem (settles_delivered now)) fun _ =>
    .bind (each_updateRecord _ _ _) fun _ => .bind (each_updateOrder _ _ _) fun _ =>
      .bind (.ask _) fun _ => .pure _)

theorem accepts_sendClaimed (orderId itemId : ℕ) :
    Accepts stocking p (sendClaimed orderId itemId) := by
  refine .bind (.ask _) fun decrypts => ?_
  split
  · exact .bind (.ask _) fun now => .bind
      (accepts_endClaim _ _ (fun _ => rfl) fun _ => .inr rfl) fun _ => .pure _
  refine .bind (accepts_sendContent _ _) fun reached => ?_
  split
  · exact .bind (accepts_endClaim _ _ (fun _ => rfl) fun _ => .inl rfl) fun _ => .pure _
  · exact .bind (.ask _) fun now =>
      .bind (accepts_withRetry (accepts_finalizeOrder _ _ _)) fun _ => .pure _

theorem accepts_autoDeliver (orderId : ℕ) :
    Accepts stocking p (autoDeliverStockOrder orderId) := by
  refine .bind (.select _) fun order => .bind (.ask _) fun isStock => .bind (.ask _) fun info => ?_
  split
  · exact .pure _
  split
  · exact .pure _
  split
  · exact .pure _
  split
  · exact .pure _
  split
  · exact .pure _
  refine .bind (.select _) fun found => ?_
  dsimp only
  split
  · exact .bind (accepts_updateOrder _ _ _) fun _ => .pure _
  split
  · exact accepts_sendClaimed _ _
  refine .bind (accepts_claimStockItem _ _ _ _) fun item => ?_
  split
  · exact accepts_sendClaimed _ _
  · exact .pure _

theorem accepts_park (orderId : ℕ) (record : OtherProductOrder) :
    Accepts stocking p (parkOrderAwaitingStock orderId record) :=
  .bind (.ask _) fun _ => .bind (accepts_updateRecord _ _ _) fun _ =>
    .bind (accepts_updateRecord _ _ _) fun _ => .pure _

theorem accepts_deliverSpecialized (orderId : ℕ) (record : OtherProductOrder) :
    ∀ n, Accepts stocking p (deliverSpecialized orderId record n)
  | 0 => .bind (accepts_park orderId record) fun _ => .pure _
  | n + 1 => by
    refine .bind (accepts_reserve _ _ _) fun reserved => ?_
    split
    · exact .bind (accepts_park orderId record) fun _ => .pure _
    · exact .pure _
    refine .bind (.ask _) fun now => ?_
    split
    · exact .bind (accepts_finalizeStockRecord _ _) fun _ => .pure _
    refine .bind (accepts_updateRecord _ _ _) fun _ => .bind (.ask _) fun decrypts => ?_
    split
    · exact .bind (accepts_endClaim _ _ (fun _ => rfl) fun _ => .inr rfl) fun _ =>
        accepts_deliverSpecialized orderId record n
    refine .bind (accepts_sendContent _ _) fun reached => ?_
    split
    · refine .bind (.bind (accepts_endClaim _ _ (fun _ => rfl) fun _ => .inl rfl) fun _ =>
        .pure _) fun _ => ?_
      exact .bind (accepts_updateRecord _ _ _) fun _ => .pure _
    · exact .bind (.ask _) fun now =>
        .bind (accepts_withRetry (accepts_finalizeSpecialized _ _ _)) fun _ => .pure _

theorem accepts_runSpecialized (orderId : ℕ) (record : OtherProductOrder) (order : Order) :
    Accepts stocking p (runSpecializedStockDelivery orderId record order) := by
  rw [runSpecializedStockDelivery]
  split
  · exact .bind (.ask _) fun _ => .bind (accepts_finalizeStockRecord _ _) fun _ => .pure _
  split
  · exact .pure _
  · exact accepts_deliverSpecialized orderId record 3

theorem accepts_ensureRecord (orderId : ℕ) (order : Order) :
    Accepts stocking p (ensureSpecializedRecord orderId order) := by
  rw [ensureSpecializedRecord]
  split
  · exact .pure _
  refine .bind (.select _) fun existing => ?_
  split
  · exact .pure _
  refine .bind (.ask _) fun now => .bind (quietRules.accepts_stmt (.sql fun v => ?_)) fun created => ?_
  · dsimp only
    split
    · refine .of_elsewhere fun w hw => ?_
      cases List.mem_singleton.mp hw
      exact .inr ⟨orderId, rfl⟩
    · exact .nothing v []
  · split
    · exact .pure _
    · exact .select _

theorem accepts_retryRecords : ∀ records, Accepts stocking p (retryRecords records)
  | [] => .pure _
  | (orderId, record, order) :: rest => by
    refine .bind (accepts_runSpecialized orderId record order) fun outcome => ?_
    split
    · exact .pure _
    · exact accepts_retryRecords rest

theorem accepts_actionable (itemId : ℕ) : Accepts stocking p (checkReservedActionable itemId) := by
  refine .bind (.select _) fun item => ?_
  split
  · exact .pure _
  split
  · exact .pure _
  split
  · exact .pure _
  · exact .bind (.select _) fun _ => .pure _

theorem accepts_process (process : StockProcess) : Accepts stocking p process.program := by
  cases process with
  | autoDeliver orderId => exact .bind (accepts_autoDeliver orderId) fun _ => .pure _
  | dispatch orderId =>
    refine .bind (.select _) fun order => ?_
    split
    · exact .pure _
    refine .bind (accepts_ensureRecord _ _) fun record => ?_
    split
    · exact .pure _
    · exact .bind (.select _) fun _ => .bind (accepts_runSpecialized _ _ _) fun _ => .pure _
  | retry productId => exact .bind (.select _) fun records => accepts_retryRecords _
  | reserve orderId productId userId =>
    exact .bind (accepts_reserve orderId productId userId) fun _ => .pure _
  | finalize itemId orderId =>
    exact .bind (.bind (.ask _) fun now => .bind (accepts_settle (settles_delivered now)) fun _ =>
      .pure _) fun _ => .pure _
  | releaseClaim itemId orderId =>
    exact .bind (.bind (accepts_endClaim _ _ (fun _ => rfl) fun _ => .inl rfl) fun _ => .pure _)
      fun _ => .pure _
  | releaseReserved itemId =>
    refine .bind (accepts_actionable itemId) fun actionable => ?_
    split
    · exact .bind (accepts_giveUp fun i h => ⟨of_decide_eq_true h, rfl, .inl rfl⟩) fun _ => .pure _
    · exact .pure _
  | disableReserved itemId =>
    refine .bind (accepts_actionable itemId) fun actionable => ?_
    split
    · exact .bind (.ask _) fun now =>
        .bind (accepts_giveUp fun i h => ⟨of_decide_eq_true h, rfl, .inr rfl⟩) fun _ => .pure _
    · exact .pure _
  | disable itemId =>
    exact .bind (.ask _) fun now => .bind (accepts_settle fun i h =>
      ⟨rfl, .inr (.inr ⟨of_decide_eq_true h, rfl⟩)⟩) fun _ => .pure _
  | add id productId =>
    refine .bind (.ask _) fun now => quietRules.accepts_stmt (.sql fun v => ?_)
    split
    · rename_i hnone
      refine ⟨fun id' n hmem => ?_, fun x n hmem => ?_⟩
      · cases List.mem_singleton.mp hmem
        exact .inr ⟨hnone, _, rfl, rfl⟩
      · cases List.mem_singleton.mp hmem
    · exact .nothing v []
  | editOrder id row =>
    refine quietRules.accepts_stmt (.sql fun v => .of_elsewhere fun w hw => ?_)
    cases List.mem_singleton.mp hw
    exact .inl ⟨id, rfl⟩
  | editRecord orderId row =>
    refine quietRules.accepts_stmt (.sql fun v => .of_elsewhere fun w hw => ?_)
    cases List.mem_singleton.mp hw
    exact .inr ⟨orderId, rfl⟩

/-! ### Runs -/

/-- An item settles, is claimed from the stock, or is given up. -/
theorem StockRule.moves (h : StockRule s t) (hheld : t.Held s.rows) {id : ℕ}
    {i : OtherProductStockItem} (hrow : s.rows (.item id) = some i) :
    ∃ i', (s.commit p t).rows (.item id) = some i' ∧
      (Settles i i' ∨ i.status = .AVAILABLE ∨ GivenUp i i') := by
  have hstays (hnone : t.chg (.item id) = none) : ∃ i', (s.commit p t).rows (.item id) = some i' ∧
      (Settles i i' ∨ i.status = .AVAILABLE ∨ GivenUp i i') :=
    ⟨i, (row_of_none hnone).trans hrow, .inl ⟨rfl, .inl rfl⟩⟩
  cases h with
  | quiet h =>
    rcases s.commit_rows p hheld (.item id) with ⟨he, -⟩ | hchg
    · exact ⟨i, he.trans hrow, .inl ⟨rfl, .inl rfl⟩⟩
    · rcases h.items id _ _ hchg with ⟨x, i', hx, hn, hsettles⟩ | ⟨hnone, -⟩
      · rw [hrow] at hx
        cases hx
        exact ⟨i', hn, .inl hsettles⟩
      · rw [hrow] at hnone
        cases hnone
  | claim id' orderId userId j h =>
    by_cases hid : id = id'
    · subst hid
      have he := (hheld _ _ _ h.item).trans hrow
      cases he
      exact ⟨_, row_of_some h.item, .inr (.inl h.available)⟩
    · exact hstays (h.others id hid)
  | giveUp id' j j' h =>
    by_cases hid : id = id'
    · subst hid
      have he := (hheld _ _ _ h.item).trans hrow
      cases he
      exact ⟨_, row_of_some h.item, .inr (.inr h.givenUp)⟩
    · exact hstays (h.others id hid)

/-- The order holds the item that was sent to it. -/
def isHeldFor (s : StockStore) (x : Sent) : Bool :=
  (s.rows (.item x.itemId)).any fun i => isHeld i ∧ i.deliveredOrderId = some x.orderId

/-- A step takes an item from RESERVED back to the stock, or out of it. -/
def givesUp (s s' : StockStore) (id : ℕ) : Bool :=
  (s.rows (.item id)).any fun i => (s'.rows (.item id)).any fun i' =>
    i.status = .RESERVED ∧ (i'.status = .AVAILABLE ∨ i'.status = .DISABLED)

/-- A step sends only what the order holds, and gives up only what was not sent. -/
def keepsSent (s s' : StockStore) : Bool :=
  (s'.world.take (s'.world.length - s.world.length)).all (isHeldFor s) ∧
    s.world.all fun x => ! givesUp s s' x.itemId

/-- Every content that was sent is held by its order. -/
def SentHeld (s : StockStore) : Prop := ∀ x ∈ s.world, isHeldFor s x = true

theorem isHeldFor_iff {x : Sent} : isHeldFor s x = true ↔
    ∃ i, s.rows (.item x.itemId) = some i ∧ isHeld i = true ∧
      i.deliveredOrderId = some x.orderId := by
  simp [isHeldFor, Option.any_eq_true]

theorem Settles.isHeld {i i' : OtherProductStockItem} (h : Settles i i') (hi : isHeld i = true) :
    isHeld i' = true := by
  simp only [Stock.isHeld, decide_eq_true_eq] at hi ⊢
  rcases h.status with he | ⟨-, he⟩ | ⟨havailable, -⟩
  · rwa [he]
  · exact .inr he
  · rw [havailable] at hi
    rcases hi with hi | hi <;> cases hi

/-- STEP: a step that keeps what was sent leaves it with its order. -/
theorem SentHeld.step {r : List StockStore} (h : SentHeld s) (hst : stocking.Step p r s s')
    (hC : keepsSent s s' = true) : SentHeld s' := by
  obtain ⟨hnew, hkept⟩ := of_decide_eq_true hC
  cases hst with
  | act w hw =>
    rcases hw with rfl | ⟨x, rfl⟩
    · exact h
    · intro y hy
      rcases List.mem_cons.mp hy with rfl | hy
      · refine List.all_eq_true.mp hnew y ?_
        simp
      · exact h y hy
  | commit t hheld ht =>
    intro x hx
    obtain ⟨i, hrow, hi, ho⟩ := isHeldFor_iff.mp (h x hx)
    obtain ⟨i', hrow', hsettles | havailable | hgiven⟩ := StockRule.moves (p := p) ht hheld hrow
    · exact isHeldFor_iff.mpr ⟨i', hrow', hsettles.isHeld hi, hsettles.order.trans ho⟩
    · rw [isHeld, havailable] at hi
      cases hi
    · have hno := List.all_eq_true.mp hkept x hx
      have hyes : givesUp s (s.commit p t) x.itemId = true := by
        simp [givesUp, hrow, hrow', hgiven.reserved, hgiven.status]
      rw [hyes] at hno
      cases hno

/-- A DELIVERED item keeps its status and its order in every step. -/
theorem delivered_step {r : List StockStore} {id : ℕ} {orderId : Option ℕ}
    (hst : stocking.Step p r s s')
    (h : ∃ i, s.rows (.item id) = some i ∧ i.status = .DELIVERED ∧ i.deliveredOrderId = orderId) :
    ∃ i, s'.rows (.item id) = some i ∧ i.status = .DELIVERED ∧ i.deliveredOrderId = orderId := by
  obtain ⟨i, hrow, hstatus, ho⟩ := h
  cases hst with
  | act w _ => exact ⟨i, hrow, hstatus, ho⟩
  | commit t hheld ht =>
    obtain ⟨i', hrow', hsettles | havailable | hgiven⟩ := StockRule.moves (p := p) ht hheld hrow
    · refine ⟨i', hrow', ?_, hsettles.order.trans ho⟩
      rcases hsettles.status with he | ⟨he, -⟩ | ⟨he, -⟩
      · exact he.trans hstatus
      · rw [hstatus] at he
        cases he
      · rw [hstatus] at he
        cases he
    · rw [hstatus] at havailable
      cases havailable
    · have he := hgiven.reserved
      rw [hstatus] at he
      cases he

def paidOrder : Order where
  type := .OTHER_PRODUCT
  status := .PAID
  userId := 1
  productId := some 1

def oneItem : StockStore where
  rows
    | .item 1 => some { productId := 1 }
    | .order 1 | .order 2 => some paidOrder
    | .item _ | .order _ | .itemOfOrder _ | .record _ => none
  log := [⟨0, { entries := [.item 1] }⟩]
  world := []

theorem oneItem_shelved : Shelved oneItem := by
  refine ⟨fun id i orderId hrow ho => ?_, fun id i hrow _ => ?_⟩
  all_goals
    match id with
    | 0 => cases hrow
    | 1 => cases hrow; first | rfl | cases ho
    | id + 2 => cases hrow

def dispatches : ℕ → StockProcess
  | 0 | 1 => .autoDeliver 1
  | _ => .autoDeliver 2

/-- What the oracle answers where the send fails. -/
def unreached : StockChoice := { reaches := false }

/-- Order 1 is dispatched alone. -/
def soldToOne : List (Event StockChoice) := List.replicate 15 (.run 0 {})

theorem soldToOne_runs :
    ((Config.start oneItem fun p => (dispatches p).program).execWhile
      (fun _ _ => keepsSent) soldToOne).any (fun c =>
        c.store.world = [⟨1, 1⟩] ∧ ((c.store.rows (.item 1)).any fun i =>
          i.status = .DELIVERED ∧ i.deliveredOrderId = some 1)) = true := by decide +kernel

/-- The second dispatch of order 1 finds the reservation of the first, and its send fails after the
    first was sent; order 2 is dispatched then. -/
def soldToTwo : List (Event StockChoice) :=
  List.replicate 9 (.run 0 {}) ++ List.replicate 7 (.run 1 unreached) ++
    List.replicate 9 (.run 2 {})

theorem soldToTwo_runs :
    ((Config.start oneItem fun p => (dispatches p).program).exec soldToTwo).any (fun c =>
      c.store.world = [⟨1, 2⟩, ⟨1, 1⟩]) = true := by decide +kernel

end ZedBot.Stock
