import ZedBot.Payments.PaymentLinks

/-! A link that was handed out finds its payment, as long as no call stores its handle over another's or
    revives a row that has one. -/

namespace ZedBot.Links
open ReadCommitted

variable {calls : ℕ → Option GatewayCall} {p q id : ℕ} {a : String} {key : IdempotencyKey}
  {s s' : LinkStore} {t : LinkTx} {o n : GatewayPayment}

/-! ### The index on the authority -/

/-- The unique index on the authority lists the payments that have one. -/
def Indexed (s : LinkStore) : Prop := ∀ a id, s.rows (.paymentOfAuthority a) = some id ↔
  ∃ row, s.rows (.payment id) = some row ∧ row.payment.authority = some a

/-- The payment has this handle. -/
def Handle (id : ℕ) (a : String) (s : LinkStore) : Prop :=
  ∃ row, s.rows (.payment id) = some row ∧ row.payment.authority = some a

theorem Indexed.find (h : Indexed s) (ha : Handle id a s) :
    ∃ row, findPaymentOfAuthority (s.view {}) a = some (id, row) ∧ row.payment.authority = some a := by
  obtain ⟨row, hrow, hauthority⟩ := ha
  have hindex := (h a id).mpr ⟨row, hrow, hauthority⟩
  exact ⟨row, by simp [findPaymentOfAuthority, Store.view, hindex, hrow], hauthority⟩

section Write

variable {β : Type} {e : Effect LinkRow LinkEntry β} {prior : Option GatewayPayment}
  {ws : List (Write LinkRow)}

/-- What is seen of the payments after a write of one. -/
theorem payment_of_rowWrites (h : e.writes = rowWrites id prior n ++ ws)
    (hws : ∀ w ∈ ws, ∃ key, w.1 = .paymentOfKey key) (id' : ℕ) :
    (s.commit p (Tx.add {} s.rows e)).rows (.payment id') =
      if id' = id then some n else s.rows (.payment id') := by
  have hkeys : ∀ id', .payment id' ∉ ws.map (·.1) := by
    intro id' hmem
    obtain ⟨w, hw, he⟩ := List.mem_map.mp hmem
    obtain ⟨key, hkey⟩ := hws w hw
    rw [hkey] at he
    cases he
  split
  · rename_i hid
    subst hid
    rw [rowWrites, List.append_assoc, List.cons_append] at h
    exact Tx.row_add_of_last h (by simpa using hkeys id') _
  · rename_i hne
    refine (Tx.row_add_of_notMem ?_ _).trans (Tx.row_empty _ _)
    rw [h, List.map_append, List.mem_append, not_or]
    exact ⟨by simpa [rowWrites] using hne, hkeys id'⟩

/-- What is seen of the index: the new handle is entered, the old one is given up. -/
theorem index_of_rowWrites (h : e.writes = rowWrites id prior n ++ ws)
    (hws : ∀ w ∈ ws, ∃ key, w.1 = .paymentOfKey key) (a : String) :
    (s.commit p (Tx.add {} s.rows e)).rows (.paymentOfAuthority a) =
      if n.payment.authority = some a then some id
      else if prior.bind (·.payment.authority) = some a then none
      else s.rows (.paymentOfAuthority a) := by
  have hkeys : ∀ a, .paymentOfAuthority a ∉ ws.map (·.1) := by
    intro a hmem
    obtain ⟨w, hw, he⟩ := List.mem_map.mp hmem
    obtain ⟨key, hkey⟩ := hws w hw
    rw [hkey] at he
    cases he
  split
  · rename_i hnew
    rw [rowWrites, hnew, Option.toList_some, List.map_singleton, List.append_assoc,
      ← List.singleton_append, ← List.append_assoc, ← List.append_assoc, List.append_assoc] at h
    exact Tx.row_add_of_last h (hkeys a) _
  · rename_i hnew
    split
    · rename_i hold
      rw [rowWrites, hold, Option.toList_some, List.map_singleton, List.append_assoc,
        List.singleton_append] at h
      refine Tx.row_add_of_last (show e.writes = [] ++ ⟨.paymentOfAuthority a, none⟩ :: _ from h) ?_ _
      rw [List.cons_append, List.map_cons, List.mem_cons, List.map_append, List.mem_append]
      rintro (he | hmem | hmem)
      · cases he
      · simp only [List.map_map, List.mem_map, Option.mem_toList] at hmem
        obtain ⟨b, hb, he⟩ := hmem
        cases he
        exact hnew hb
      · exact hkeys a hmem
    · rename_i hold
      refine (Tx.row_add_of_notMem ?_ _).trans (Tx.row_empty _ _)
      rw [h, List.map_append, List.mem_append, not_or]
      refine ⟨fun hmem => ?_, hkeys a⟩
      simp only [rowWrites, List.map_append, List.map_cons, List.map_map, List.mem_append,
        List.mem_cons, List.mem_map, Option.mem_toList] at hmem
      rcases hmem with ⟨b, hb, he⟩ | he | ⟨b, hb, he⟩
      · cases he
        exact hold hb
      · cases he
      · cases he
        exact hnew hb

end Write

/-- A write of a payment whose handle is free keeps the index. -/
theorem Indexed.write {β : Type} {e : Effect LinkRow LinkEntry β} {ws : List (Write LinkRow)}
    (hi : Indexed s) (h : e.writes = rowWrites id (s.rows (.payment id)) n ++ ws)
    (hws : ∀ w ∈ ws, ∃ key, w.1 = .paymentOfKey key)
    (hfree : ∀ a, n.payment.authority = some a → ∀ other,
      s.rows (.paymentOfAuthority a) = some other → other = id) :
    Indexed (s.commit p (Tx.add {} s.rows e)) := by
  intro a id'
  rw [index_of_rowWrites h hws, payment_of_rowWrites h hws]
  by_cases hid : id' = id
  · subst hid
    rw [if_pos rfl]
    by_cases hnew : n.payment.authority = some a
    · simp [hnew]
    · rw [if_neg hnew]
      simp only [Option.some.injEq, exists_eq_left', hnew, iff_false]
      split
      · nofun
      · rename_i hold
        intro hindex
        obtain ⟨row, hrow, ha⟩ := (hi a id').mp hindex
        exact hold (by rw [hrow]; exact ha)
  · rw [if_neg hid, ← hi a id']
    by_cases hnew : n.payment.authority = some a
    · rw [if_pos hnew]
      refine ⟨fun he => absurd (Option.some.inj he).symm hid, fun he => ?_⟩
      exact absurd (hfree a hnew id' he) hid
    · rw [if_neg hnew]
      split
      · rename_i hold
        refine ⟨nofun, fun he => ?_⟩
        obtain ⟨row, hrow, ha⟩ := Option.bind_eq_some_iff.mp hold
        exact absurd (Option.some.inj (he.symm.trans ((hi a id).mpr ⟨row, hrow, ha⟩))) hid
      · rfl

/-! ### The rules -/

/-- A call stores its handle on the row. -/
def storesHandle (o n : GatewayPayment) : Bool :=
  n.payment.authority ≠ o.payment.authority ∧ n.payment.authority ≠ none

/-- A call revives the row. -/
def revives (o n : GatewayPayment) : Bool := o.payment.status ≠ .PENDING ∧ n.payment.status = .PENDING

/-- A commit takes the handle of a payment away. -/
def Replaces (e : Commit LinkRow LinkEntry) : Prop := ∃ id o n a,
  e.tx.chg (.payment id) = some (some o, some n) ∧ o.payment.authority = some a ∧
    n.payment.authority ≠ some a

/-- No handle was taken away so far. -/
def Untouched (s : LinkStore) : Prop := ∀ e ∈ s.log, ¬ Replaces e

theorem Untouched.of_commit (h : Untouched (s.commit p t)) : Untouched s ∧ ¬ Replaces ⟨p, t⟩ :=
  ⟨fun e he => h e (.tail _ he), h _ (.head _)⟩

/-- What a call may commit. -/
structure LinksTx (call : Option GatewayCall) (s : LinkStore) (p : ℕ) (t : LinkTx) : Prop where
  indexed : Indexed (s.commit p t)
  keys : ∀ key o n, t.chg (.paymentOfKey key) = some (o, n) → o = none
  rows : ∀ id o n, t.chg (.payment id) = some (some o, n) → ∃ n' c, n = some n' ∧ call = some c ∧
    s.rows (.paymentOfKey c.key) = some id ∧
    (n'.payment.authority = o.payment.authority ∨ storesHandle o n' = true ∨ revives o n' = true)
  links : ∀ id a, .link id a ∈ t.entries → Untouched s → Handle id a s

/-- The index is right, and every link finds its payment while no handle was taken away. -/
structure Linked (s : LinkStore) : Prop where
  indexed : Indexed s
  links : Untouched s → ∀ id a, .link id a ∈ s.journal → Handle id a s

theorem Handle.commit {call : Option GatewayCall} (h : Handle id a s) (ht : LinksTx call s p t)
    (hheld : t.Held s.rows) (hkept : ¬ Replaces ⟨p, t⟩) : Handle id a (s.commit p t) := by
  obtain ⟨o, ho, ha⟩ := h
  rcases s.commit_rows p hheld (.payment id) with ⟨he, -⟩ | hchg
  · exact ⟨o, he.trans ho, ha⟩
  · rw [ho] at hchg
    obtain ⟨n, -, hn, -⟩ := ht.rows id o _ hchg
    refine ⟨n, hn, ?_⟩
    by_contra hne
    rw [hn] at hchg
    exact hkept ⟨id, o, n, a, hchg, ha, hne⟩

/-- The rules of the calls. -/
def linking (calls : ℕ → Option GatewayCall) : Discipline LinkRow LinkEntry (List String) where
  Inv := Linked
  Commits p _ s t := LinksTx (calls p) s p t
  Acts _ _ _ _ := True
  commits_empty hi := ⟨hi.indexed, fun _ _ _ h => (nomatch h), fun _ _ _ h => (nomatch h),
    fun _ _ h => (nomatch h)⟩
  inv_commit hi hheld ht := ⟨ht.indexed, fun hu id a hmem => by
    obtain ⟨hu, hkept⟩ := hu.of_commit
    rw [Store.journal_commit, List.mem_append] at hmem
    rcases hmem with hmem | hmem
    · exact (hi.links hu id a hmem).commit ht hheld hkept
    · exact (ht.links id a hmem hu).commit ht hheld hkept⟩
  inv_act hi _ := ⟨hi.indexed, hi.links⟩

/-! ### Facts that stay -/

/-- The payment of a key stays. -/
theorem keyRow_later {ks : LinkKey → Prop} (hl : (linking calls).Later p ks s s') (hi : Linked s)
    (h : s.rows (.paymentOfKey key) = some id) : s'.rows (.paymentOfKey key) = some id := by
  refine hl.stable (P := fun s => s.rows (.paymentOfKey key) = some id) (fun _ _ hst h => ?_) hi h
  cases hst with
  | act w _ => exact h
  | commit t hheld ht =>
    have ht : LinksTx _ _ _ t := ht
    rcases Store.commit_rows _ _ hheld (.paymentOfKey key) with ⟨he, -⟩ | hchg
    · exact he.trans h
    · rw [h] at hchg
      cases ht.keys key _ _ hchg

/-- A handle stays while none is taken away. -/
theorem handle_later {ks : LinkKey → Prop} (hl : (linking calls).Later p ks s s') (hi : Linked s)
    (h : Untouched s → Handle id a s) : Untouched s' → Handle id a s' := by
  refine hl.stable (P := fun s => Untouched s → Handle id a s) (fun _ _ hst h => ?_) hi h
  cases hst with
  | act w _ => exact h
  | commit t hheld ht =>
    intro hu
    obtain ⟨hu, hkept⟩ := hu.of_commit
    exact (h hu).commit ht hheld hkept

/-! ### Statements -/

variable {call : GatewayCall} {r : List LinkStore}

/-- One write of the payment of the call. -/
theorem LinksTx.write {β : Type} {e : Effect LinkRow LinkEntry β} {ws : List (Write LinkRow)}
    (hi : Linked s) (h : e.writes = rowWrites id (s.rows (.payment id)) n ++ ws)
    (hws : ∀ w ∈ ws, ∃ key, w = ⟨.paymentOfKey key, some id⟩ ∧ s.rows (.paymentOfKey key) = none)
    (hkey : s.rows (.paymentOfKey call.key) = some id ∨ s.rows (.payment id) = none)
    (hfree : ∀ a, n.payment.authority = some a → ∀ other,
      s.rows (.paymentOfAuthority a) = some other → other = id)
    (hmove : ∀ o, s.rows (.payment id) = some o → n.payment.authority = o.payment.authority ∨
      storesHandle o n = true ∨ revives o n = true)
    (hentries : e.entries = []) : LinksTx (some call) s p (Tx.add {} s.rows e) where
  indexed := hi.indexed.write h (fun w hw => by
    obtain ⟨key, rfl, -⟩ := hws w hw
    exact ⟨key, rfl⟩) hfree
  keys key o n' hchg := by
    obtain ⟨rfl, hmem⟩ := Tx.chg_add_empty hchg
    rw [h, List.mem_append] at hmem
    rcases hmem with hmem | hmem
    · simp [rowWrites] at hmem
    · obtain ⟨key', he, hnone⟩ := hws _ hmem
      cases he
      exact hnone
  rows id' o n' hchg := by
    obtain ⟨hbase, hmem⟩ := Tx.chg_add_empty hchg
    rw [h, List.mem_append] at hmem
    rcases hmem with hmem | hmem
    · have he : id' = id ∧ n' = some n := by simpa [rowWrites] using hmem
      obtain ⟨rfl, rfl⟩ := he
      refine ⟨n, call, rfl, rfl, ?_, hmove o hbase.symm⟩
      rcases hkey with hkey | hnone
      · exact hkey
      · rw [hnone] at hbase
        cases hbase
    · obtain ⟨key', he, -⟩ := hws _ hmem
      cases he
  links id' a hmem := by
    rw [Tx.entries_add, hentries] at hmem
    cases hmem

theorem wp_createPayment {row : GatewayPayment} (hp : calls p = some call)
    (hrow : row.payment.authority = none) {Q : Bool → LinkLocal → LinkStore → Prop}
    (htrue : ∀ s', Linked s' → s'.rows (.paymentOfKey call.key) = some id → Q true ⟨none, r⟩ s')
    (hfalse : ∀ s', Linked s' → Q false ⟨none, r⟩ s') :
    wp (linking calls) p (createPayment id call.key row) Q ⟨none, r⟩ s := by
  refine wp_sql fun s' _ hi => ?_
  dsimp only [Store.view]
  rw [Tx.row_empty, Tx.row_empty]
  split
  · rename_i hnone hkey
    have ht : LinksTx (calls p) s' p (Tx.add {} s'.rows (⟨true, rowWrites id none row ++
        [⟨.paymentOfKey call.key, some id⟩], []⟩ : Effect LinkRow LinkEntry Bool)) := by
      rw [hp]
      refine .write hi (by rw [hnone]) ?_ (.inr hnone) (fun a ha => ?_) (fun o ho => ?_) rfl
      · intro w hw
        exact ⟨call.key, List.mem_singleton.mp hw, hkey⟩
      · rw [hrow] at ha
        cases ha
      · rw [hnone] at ho
        cases ho
    refine ⟨ht, htrue _ ((linking calls).inv_commit hi ((Tx.Held.empty _).add _) (r := r) ht) ?_⟩
    exact Tx.row_add_of_last rfl (by simp) _
  · have ht : LinksTx (calls p) s' p (Tx.add {} s'.rows (⟨false, [], []⟩ :
        Effect LinkRow LinkEntry Bool)) := (linking calls).commits_empty hi (r := r)
    exact ⟨ht, hfalse _ ((linking calls).inv_commit hi (Tx.Held.empty _) (r := r) ht)⟩

theorem wp_updatePayment {cond : Payment → Bool} {data : GatewayPayment → GatewayPayment}
    (hp : calls p = some call) (hi : Linked s) (hkey : s.rows (.paymentOfKey call.key) = some id)
    (hdata : ∀ o, cond o.payment = true → (data o).payment.authority = o.payment.authority ∨
      (data o).payment.authority = none ∧ revives o (data o) = true)
    {Q : ℕ → LinkLocal → LinkStore → Prop}
    (hQ : ∀ x s', Linked s' → s'.rows (.paymentOfKey call.key) = some id → Q x ⟨none, r⟩ s') :
    wp (linking calls) p (updatePayment id cond data) Q ⟨none, r⟩ s := by
  refine wp_sql fun s' hl hi' => ?_
  have hkey := keyRow_later hl hi hkey
  have hnothing : ∀ x, LinksTx (calls p) s' p (Tx.add {} s'.rows (⟨x, [], []⟩ :
      Effect LinkRow LinkEntry ℕ)) := fun x => (linking calls).commits_empty hi' (r := r)
  have hquiet : ∀ x, Q x ⟨none, r⟩ (s'.commit p {}) := fun x =>
    hQ x _ ((linking calls).inv_commit hi' (Tx.Held.empty _) (r := r) (hnothing x)) hkey
  dsimp only [Store.view]
  rw [Tx.row_empty]
  split
  · rename_i o ho
    split
    · rename_i hc
      have ht : LinksTx (calls p) s' p (Tx.add {} s'.rows (⟨1, rowWrites id (some o) (data o), []⟩ :
          Effect LinkRow LinkEntry ℕ)) := by
        rw [hp]
        refine .write hi' (by rw [ho]; exact (List.append_nil _).symm) (by simp) (.inl hkey)
          (fun a ha other hother => ?_) (fun o' ho' => ?_) rfl
        · rcases hdata o hc with he | ⟨hnone, -⟩
          · rw [he] at ha
            exact Option.some.inj (hother.symm.trans ((hi'.indexed a id).mpr ⟨o, ho, ha⟩))
          · rw [hnone] at ha
            cases ha
        · cases ho.symm.trans ho'
          exact (hdata o hc).imp_right fun h => .inr h.2
      refine ⟨ht, hQ 1 _ ((linking calls).inv_commit hi' ((Tx.Held.empty _).add _) (r := r) ht) ?_⟩
      exact (Tx.row_add_of_notMem (by simp [rowWrites]) _).trans hkey
    · exact ⟨hnothing 0, hquiet 0⟩
  · exact ⟨hnothing 0, hquiet 0⟩

theorem wp_storeHandle {create : CreatePaymentResult} (hp : calls p = some call) (hi : Linked s)
    (hkey : s.rows (.paymentOfKey call.key) = some id) {Q : Bool → LinkLocal → LinkStore → Prop}
    (htrue : ∀ s', Linked s' → Handle id create.authority s' → Q true ⟨none, r⟩ s')
    (hfalse : ∀ s', Q false ⟨none, r⟩ s') :
    wp (linking calls) p (storeHandle id call.gateway.type create) Q ⟨none, r⟩ s := by
  refine wp_sql fun s' hl hi' => ?_
  have hkey := keyRow_later hl hi hkey
  have hnothing : LinksTx (calls p) s' p (Tx.add {} s'.rows (⟨false, [], []⟩ :
      Effect LinkRow LinkEntry Bool)) := (linking calls).commits_empty hi' (r := r)
  have hstored : ∀ o, s'.rows (.payment id) = some o →
      (∀ other, s'.rows (.paymentOfAuthority create.authority) = some other → other = id) →
      LinksTx (calls p) s' p (Tx.add {} s'.rows (⟨true, rowWrites id (some o)
        (withHandle call.gateway.type create o), []⟩ : Effect LinkRow LinkEntry Bool)) ∧
      Q true ⟨none, r⟩ (s'.commit p (Tx.add {} s'.rows (⟨true, rowWrites id (some o)
        (withHandle call.gateway.type create o), []⟩ : Effect LinkRow LinkEntry Bool))) := by
    intro o ho hfree
    have hwrites : rowWrites id (some o) (withHandle call.gateway.type create o) =
        rowWrites id (s'.rows (.payment id)) (withHandle call.gateway.type create o) ++ [] := by
      rw [ho, List.append_nil]
    have ht : LinksTx (calls p) s' p (Tx.add {} s'.rows (⟨true, rowWrites id (some o)
        (withHandle call.gateway.type create o), []⟩ : Effect LinkRow LinkEntry Bool)) := by
      rw [hp]
      refine .write hi' hwrites (by simp) (.inl hkey) (fun a ha other hother => ?_)
        (fun o' ho' => ?_) rfl
      · cases (ha : some create.authority = some a)
        exact hfree other hother
      · cases ho.symm.trans ho'
        by_cases he : o.payment.authority = some create.authority
        · exact .inl he.symm
        · exact .inr (.inl (by simpa [storesHandle, withHandle] using fun h => he h.symm))
    refine ⟨ht, htrue _ ((linking calls).inv_commit hi' ((Tx.Held.empty _).add _) (r := r) ht) ?_⟩
    refine ⟨withHandle call.gateway.type create o, ?_, rfl⟩
    rw [payment_of_rowWrites hwrites (by simp), if_pos rfl]
  dsimp only [Store.view]
  rw [Tx.row_empty, Tx.row_empty]
  split
  · exact ⟨hnothing, hfalse _⟩
  · rename_i o ho hfree
    exact hstored o ho fun other hother => by
      rw [hfree] at hother
      cases hother
  · rename_i o other ho hother
    split
    · rename_i he
      exact hstored o ho fun other' hother' => by
        cases hother.symm.trans hother'
        exact he
    · exact ⟨hnothing, hfalse _⟩

/-! ### The calls -/

theorem resynthesize_authority {row : GatewayPayment} {create : CreatePaymentResult}
    (h : resynthesizeCreateResult row = some create) :
    row.payment.authority = some create.authority := by
  simp only [resynthesizeCreateResult] at h
  split at h
  · cases h
  · rename_i authority hauthority
    rw [hauthority]
    split at h
    · cases h
    · split at h
      · split at h
        · obtain ⟨stars, -, rfl⟩ := Option.map_eq_some_iff.mp h
          rfl
        · cases h
      · obtain ⟨url, -, rfl⟩ := Option.map_eq_some_iff.mp h
        rfl

/-- The row that a call goes on with: its key leads there, and a handle read on it is there. -/
theorem wp_loadOrCreatePaymentRow (hp : calls p = some call)
    {Q : Option (ℕ × GatewayPayment) → LinkLocal → LinkStore → Prop}
    (hnone : ∀ l s', Q none l s')
    (hsome : ∀ id row r s', Linked s' → s'.rows (.paymentOfKey call.key) = some id →
      (∀ a, row.payment.authority = some a → Untouched s' → Handle id a s') →
      Q (some (id, row)) ⟨none, r⟩ s') :
    wp (linking calls) p (loadOrCreatePaymentRow call) Q ⟨none, r⟩ s := by
  refine (wp_seq _ _).mpr (wp_ask _ fun c => (wp_seq _ _).mpr (wp_ask _ fun c' =>
    (wp_seq _ _).mpr (wp_createPayment hp rfl (fun s₁ hi₁ hkey => ?_) fun s₁ hi₁ => ?_)))
  · exact hsome _ _ _ s₁ hi₁ hkey fun a ha => (nomatch ha)
  · refine (wp_seq _ _).mpr (wp_select _ fun s₂ hl₂ hi₂ => ?_)
    dsimp only [Local.pending, Option.getD_none, Store.view]
    rw [Tx.row_empty]
    cases hkey : s₂.rows (.paymentOfKey call.key) with
    | none => exact hnone _ _
    | some id =>
      dsimp only [Option.bind_some]
      rw [Tx.row_empty]
      cases hrow : s₂.rows (.payment id) with
      | none => exact hnone _ _
      | some row =>
        dsimp only [Option.map_some]
        split
        · exact hsome id row _ s₂ hi₂ hkey fun a ha _ => ⟨row, hrow, ha⟩
        · refine (wp_seq _ _).mpr (wp_updatePayment hp hi₂ hkey (fun o hc => .inr ⟨rfl, ?_⟩)
            fun x s₃ hi₃ hkey₃ => ?_)
          · simp only [canRevive, isRevivable, decide_eq_true_eq] at hc
            rw [revives, decide_eq_true_eq]
            refine ⟨fun hpending => ?_, rfl⟩
            rw [hpending] at hc
            simp at hc
          · split
            · exact hnone _ _
            · refine (wp_seq _ _).mpr (wp_select _ fun s₄ hl₄ hi₄ => ?_)
              dsimp only [Local.pending, Local.read, Option.getD_none, Store.view]
              rw [Tx.row_empty]
              cases hrow₄ : s₄.rows (.payment id) with
              | none => exact hnone _ _
              | some row₄ =>
                exact hsome id row₄ _ s₄ hi₄ (keyRow_later hl₄ hi₃ hkey₃) fun a ha _ =>
                  ⟨row₄, hrow₄, ha⟩

/-- CALL: the handle of the link that a call returns is on the payment. -/
theorem wp_getOrCreateGatewayPayment (hp : calls p = some call) :
    wp (linking calls) p (getOrCreateGatewayPayment call) (fun x l s => ∀ id create,
      x = some (id, create) → l.tx = none ∧ Linked s ∧
        (Untouched s → Handle id create.authority s)) ⟨none, r⟩ s := by
  have hnone : ∀ l s, ∀ id create, (none : Option (ℕ × CreatePaymentResult)) = some (id, create) →
      (l : LinkLocal).tx = none ∧ Linked s ∧ (Untouched s → Handle id create.authority s) :=
    fun _ _ _ _ h => (nomatch h)
  rw [getOrCreateGatewayPayment]
  split
  · exact hnone _ _
  refine (wp_seq _ _).mpr (wp_ask _ fun c => ?_)
  split
  · exact hnone _ _
  refine (wp_seq _ _).mpr (wp_select _ fun s₁ hl₁ hi₁ => (wp_seq _ _).mpr (wp_ask _ fun c' => ?_))
  split
  · rename_i reused hreused
    intro id create he
    cases he
    refine ⟨rfl, hi₁, fun _ => ?_⟩
    obtain ⟨⟨id', row⟩, hfound, hreused⟩ := Option.bind_eq_some_iff.mp hreused
    split at hreused
    · obtain ⟨create', hcreate, he⟩ := Option.map_eq_some_iff.mp hreused
      cases he
      obtain ⟨id₁, -, hfound⟩ := Option.bind_eq_some_iff.mp hfound
      obtain ⟨row₁, hrow, he⟩ := Option.map_eq_some_iff.mp hfound
      cases he
      exact ⟨row, hrow, resynthesize_authority hcreate⟩
    · cases hreused
  · refine (wp_seq _ _).mpr (wp_loadOrCreatePaymentRow hp hnone fun id row r' s₂ hi₂ hkey hrow => ?_)
    dsimp only
    split
    · rename_i create hcreate
      intro id' create' he
      cases he
      exact ⟨rfl, hi₂, hrow _ (resynthesize_authority hcreate)⟩
    · refine (wp_seq _ _).mpr (wp_ext _ fun s₃ hl₃ hi₃ c'' => ⟨trivial, ?_⟩)
      have hkey₃ := keyRow_later hl₃ hi₂ hkey
      split
      · refine (wp_seq _ _).mpr (wp_updatePayment hp ?_ ?_ ?_ ?_)
        · exact ⟨hi₃.indexed, hi₃.links⟩
        · exact hkey₃
        · exact fun o _ => .inl rfl
        · exact fun x s₄ _ _ => hnone _ _
      · refine (wp_seq _ _).mpr (wp_storeHandle hp ?_ ?_ (fun s₄ hi₄ hhandle => ?_)
          fun s₄ => hnone _ _)
        · exact ⟨hi₃.indexed, hi₃.links⟩
        · exact hkey₃
        intro id' create' he
        cases he
        exact ⟨rfl, hi₄, fun _ => hhandle⟩

theorem wp_linkProgram : wp (linking calls) p (linkProgram (calls p)) (fun _ _ _ => True)
    ⟨none, r⟩ s := by
  cases hp : calls p with
  | none => trivial
  | some call =>
    refine (wp_seq _ _).mpr (wp_mono _ (fun x l s hx => ?_) (wp_getOrCreateGatewayPayment hp))
    match x with
    | none => trivial
    | some (id, create) =>
      obtain ⟨tx, reads⟩ := l
      obtain ⟨rfl, hi, hhandle⟩ := hx id create rfl
      refine wp_sql fun s' hl hi' => ⟨?_, trivial⟩
      refine ⟨hi'.indexed, fun _ _ _ h => (nomatch h), fun _ _ _ h => (nomatch h),
        fun id' a hmem hu => ?_⟩
      rw [Tx.entries_add] at hmem
      cases List.mem_singleton.mp hmem
      exact handle_later hl hi hhandle hu

/-! ### Runs -/

/-- A call that stores its handle on its row, or revives it, finds it without a handle. -/
def findsNoHandle (calls : ℕ → Option GatewayCall) (p : ℕ) (s s' : LinkStore) : Bool :=
  (calls p).all fun call => (s.rows (.paymentOfKey call.key)).all fun id =>
    (s.rows (.payment id)).all fun o => (s'.rows (.payment id)).all fun n =>
      storesHandle o n ∨ revives o n → o.payment.authority = none

theorem LinksTx.keeps (h : LinksTx (calls p) s p t) (hheld : t.Held s.rows)
    (hC : findsNoHandle calls p s (s.commit p t) = true) : ¬ Replaces ⟨p, t⟩ := by
  rintro ⟨id, o, n, a, hchg, ha, hne⟩
  change t.chg (.payment id) = some (some o, some n) at hchg
  obtain ⟨n', call, he, hcall, hkey, hmove⟩ := h.rows id o _ hchg
  cases he
  have hrow : s.rows (.payment id) = some o := (hheld _ _ _ hchg).symm
  have hrow' : (s.commit p t).rows (.payment id) = some n := by
    simp [Store.commit, Tx.row, hchg]
  simp only [findsNoHandle, hcall, hkey, hrow, hrow', Option.all_some, decide_eq_true_eq] at hC
  rcases hmove with hsame | hmove
  · exact hne (hsame.trans ha)
  · rw [hC hmove] at ha
    cases ha

/-- RESOLVED: in a run where every call that stores its handle or revives its row finds it without a
    handle, a callback for any link that was handed out finds its payment. -/
theorem links_resolve (calls : ℕ → Option GatewayCall) {s₀ : LinkStore} (h₀ : Indexed s₀)
    (hlog : s₀.log = []) {c : LinkConfig}
    (hrun : Run (fun p _ s s' => findsNoHandle calls p s s' = true)
      (Config.start s₀ fun p => linkProgram (calls p)) c)
    {id : ℕ} {authority : String} (hlink : .link id authority ∈ c.store.journal) :
    ∃ row, findPaymentOfAuthority (c.store.view {}) authority = some (id, row) ∧
      row.payment.authority = some authority := by
  have hi₀ : Linked s₀ := ⟨h₀, fun _ id a hmem => by
    rw [Store.journal, hlog] at hmem
    cases hmem⟩
  have hg : Good (linking calls) (Config.start s₀ fun p => linkProgram (calls p)) :=
    good_start hi₀ fun p => wp_linkProgram
  have hi : Linked c.store := (hrun.sound hg).1.inv
  have hu : Untouched c.store := by
    refine hrun.keeps hg (P := Untouched) (fun _ hst hC h => ?_) fun e he => ?_
    · cases hst with
      | act w _ => exact h
      | commit t hheld ht =>
        intro e he
        rcases List.mem_cons.mp he with rfl | he
        · exact LinksTx.keeps ht hheld hC
        · exact h e he
    · change e ∈ s₀.log at he
      rw [hlog] at he
      cases he
  exact hi.indexed.find (hi.links hu id authority hlink)

/-! Two taps on the payment button of one checkout. -/

def tappedCheckout : CheckoutSession where
  userId := 1
  purpose := .ORDER_PAYMENT
  finalPriceToman := 100
  expiresAt := 900000

def tap : GatewayCall where
  userId := 1
  checkoutId := 1
  checkout := tappedCheckout
  gateway := ⟨1, .ZARINPAL, true⟩

def twoTaps : ℕ → Option GatewayCall
  | 0 | 1 => some tap
  | _ => none

def noPayments : LinkStore where
  rows
    | .payment _ | .paymentOfKey _ | .paymentOfAuthority _ => none
  world := []

theorem noPayments_indexed : Indexed noPayments :=
  fun _ _ => ⟨nofun, fun ⟨_, h, _⟩ => (nomatch h)⟩

/-- What the provider answers a tap. -/
def answered (authority : String) : LinkChoice where
  id := 1
  authority := authority
  redirectUrl := some authority

/-- The second tap comes after the first and is given the same link. -/
def tapAgain : List (Event LinkChoice) :=
  List.replicate 9 (.run 0 (answered "A1")) ++ List.replicate 4 (.run 1 (answered "A2"))

theorem tapAgain_runs :
    ((Config.start noPayments fun p => linkProgram (twoTaps p)).execWhile
      (fun p _ => findsNoHandle twoTaps p) tapAgain).any (fun c =>
        c.store.journal = [.link 1 "A1", .link 1 "A1"]) = true := by decide +kernel

theorem links_resolve_again : ∃ (c : LinkConfig) (row : GatewayPayment),
    c.store.journal = [.link 1 "A1", .link 1 "A1"] ∧
    findPaymentOfAuthority (c.store.view {}) "A1" = some (1, row) ∧
    row.payment.authority = some "A1" := by
  obtain ⟨c, hrun, hc⟩ := Run.of_execWhile_any tapAgain_runs
  have hjournal := of_decide_eq_true hc
  obtain ⟨row, hfind, ha⟩ := links_resolve twoTaps noPayments_indexed rfl hrun
    (hjournal ▸ .head _ : .link 1 "A1" ∈ c.store.journal)
  exact ⟨c, row, hjournal, hfind, ha⟩

/-- The second tap finds the payment of the first before its handle is stored. -/
def tapTwice : List (Event LinkChoice) :=
  List.replicate 6 (.run 0 (answered "A1")) ++ List.replicate 7 (.run 1 (answered "A2")) ++
    List.replicate 3 (.run 0 (answered "A1")) ++ List.replicate 3 (.run 1 (answered "A2"))

theorem tapTwice_runs :
    ((Config.start noPayments fun p => linkProgram (twoTaps p)).exec tapTwice).any (fun c =>
      c.store.journal = [.link 1 "A1", .link 1 "A2"] ∧
      findPaymentOfAuthority (c.store.view {}) "A1" = none ∧
      (c.threads 0).prog.isReturned ∧ (c.threads 1).prog.isReturned) = true := by decide +kernel

/-- LOST: all calls have returned, and no payment is found for a link that was handed out. -/
theorem link_lost : ∃ c : LinkConfig,
    Run anyStep (Config.start noPayments fun p => linkProgram (twoTaps p)) c ∧
    (∀ p, (c.threads p).prog.isReturned = true) ∧ .link 1 "A1" ∈ c.store.journal ∧
    findPaymentOfAuthority (c.store.view {}) "A1" = none := by
  obtain ⟨c, hrun, hc⟩ := Run.of_exec_any tapTwice_runs
  obtain ⟨hjournal, hlost, hfirst, hsecond⟩ := of_decide_eq_true hc
  refine ⟨c, hrun, fun p => ?_, hjournal ▸ .head _, hlost⟩
  match p with
  | 0 => exact hfirst
  | 1 => exact hsecond
  | p + 2 => exact hrun.returned rfl

end ZedBot.Links
