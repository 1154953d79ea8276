import ZedBot.Stock.InventoryTruth

/-! What the parser of separated blocks keeps, and both parsers.

    The groups between the separators are the lines of a paste without the separators; an item is a
    trimmed group that is not empty. -/

namespace ZedBot.Stock.Inventory
open JsText TextLines

variable {raw t : JsText}

def SEPARATOR : JsText := ofChars ['-', '-', '-']

/-- The groups of lines between the separators. -/
def lineGroups (raw : JsText) : List (List JsText) := (normalizedLines raw).splitOnP isSeparator

/-- The contents of the groups that are not empty. -/
def groupContents (raw : JsText) : List JsText :=
  ((lineGroups raw).map blockContent).filter (· ≠ [])

def separatedItem (content : JsText) : InventoryItem := { content, boundaryEmail := none }

/-- A paste of separated blocks that the parser accepts. -/
structure Separated (raw : JsText) : Prop where
  whole : raw.length ≤ INVENTORY_TOTAL_MAX_CHARS
  short : ∀ group ∈ lineGroups raw, (blockContent group).length ≤ INVENTORY_BLOCK_MAX_CHARS
  some : groupContents raw ≠ []
  few : (groupContents raw).length ≤ INVENTORY_MAX_ITEMS

theorem filterMap_mapIdx {α β γ : Type} {f : ℕ → α → β} {g : β → Option γ} {k : α → Option γ}
    {xs : List α} (h : ∀ i, ∀ x ∈ xs, g (f i x) = k x) :
    (xs.mapIdx f).filterMap g = xs.filterMap k := by
  induction xs generalizing f with
  | nil => rfl
  | cons x xs ih =>
    rw [List.mapIdx_cons, List.filterMap_cons, List.filterMap_cons, h 0 x (.head _),
      ih fun i y hy => h (i + 1) y (.tail _ hy)]

theorem groupItem_error {i : ℕ} {group : List JsText} :
    (groupItem i group).bind Sum.getLeft? = none ↔
      (blockContent group).length ≤ INVENTORY_BLOCK_MAX_CHARS := by
  simp only [groupItem]
  split_ifs with hnil hlong
  · refine iff_of_true rfl ?_
    rw [hnil]
    exact Nat.zero_le _
  · exact iff_of_false (by rintro ⟨⟩) (not_le.mpr hlong)
  · exact iff_of_true rfl (not_lt.mp hlong)

theorem groupItem_item {i : ℕ} {group : List JsText}
    (h : (blockContent group).length ≤ INVENTORY_BLOCK_MAX_CHARS) :
    (groupItem i group).bind Sum.getRight? =
      if blockContent group ≠ [] then some (separatedItem (blockContent group)) else none := by
  simp only [groupItem, if_neg (not_lt.mpr h)]
  split_ifs <;> first | rfl | contradiction

theorem groups_items
    (h : ∀ group ∈ lineGroups raw, (blockContent group).length ≤ INVENTORY_BLOCK_MAX_CHARS) :
    ((lineGroups raw).mapIdx groupItem).filterMap (fun result => result.bind Sum.getRight?) =
      (groupContents raw).map separatedItem := by
  have hgroups : ((lineGroups raw).mapIdx groupItem).filterMap
      (fun result => result.bind Sum.getRight?) = (lineGroups raw).filterMap fun group =>
        if blockContent group ≠ [] then some (separatedItem (blockContent group)) else none :=
    filterMap_mapIdx fun i group hgroup => groupItem_item (h group hgroup)
  rw [hgroups, groupContents, List.filter_map, List.map_map, ← List.filterMap_eq_map,
    List.filterMap_filter]
  refine List.filterMap_congr fun group _ => ?_
  by_cases hnil : blockContent group = [] <;> simp [hnil]

theorem groups_errors :
    ((lineGroups raw).mapIdx groupItem).filterMap (fun result => result.bind Sum.getLeft?) = [] ↔
      ∀ group ∈ lineGroups raw, (blockContent group).length ≤ INVENTORY_BLOCK_MAX_CHARS := by
  rw [List.filterMap_eq_nil_iff]
  constructor
  · intro h group hgroup
    obtain ⟨i, hi, rfl⟩ := List.mem_iff_getElem.mp hgroup
    exact groupItem_error.mp (h _ (List.mem_mapIdx.mpr ⟨i, hi, rfl⟩))
  · intro h result hresult
    obtain ⟨i, hi, rfl⟩ := List.mem_mapIdx.mp hresult
    exact groupItem_error.mpr (h _ (List.getElem_mem hi))

theorem normalizedLines_ne_nil (h : groupContents raw ≠ []) : normalizedLines raw ≠ [] := by
  intro hnil
  rw [groupContents, lineGroups, hnil] at h
  exact h rfl

theorem parse_separated (h : Separated raw) :
    (parseExplicitSeparatorInventory raw).ok = true ∧
      (parseExplicitSeparatorInventory raw).items = (groupContents raw).map separatedItem := by
  have hitems := groups_items h.short
  have herrors := groups_errors.mpr h.short
  rw [lineGroups] at hitems herrors
  have hne : ¬ ((groupContents raw).map separatedItem = [] ∧ ([] : List JsText) = []) :=
    fun hnil => h.some (List.map_eq_nil_iff.mp hnil.1)
  have hfew : ¬ INVENTORY_MAX_ITEMS < ((groupContents raw).map separatedItem).length := by
    rw [List.length_map]
    exact not_lt.mpr h.few
  rw [parseExplicitSeparatorInventory, if_neg (not_lt.mpr h.whole),
    if_neg (normalizedLines_ne_nil h.some)]
  dsimp only
  rw [hitems, herrors, if_neg hne, if_neg hfew]
  exact ⟨Result.close_ok.mpr rfl, Result.close_items rfl⟩

theorem separated_of_ok (h : (parseExplicitSeparatorInventory raw).ok = true) : Separated raw := by
  rw [parseExplicitSeparatorInventory] at h
  split_ifs at h with hlen hnil
  · cases h
  · cases h
  dsimp only at h
  have herrors := Result.close_ok.mp h
  rw [List.append_eq_nil_iff, List.append_eq_nil_iff] at herrors
  obtain ⟨⟨hlong, hempty⟩, hmany⟩ := herrors
  have hshort := groups_errors.mp hlong
  have hitems := groups_items hshort
  rw [lineGroups] at hitems
  rw [hitems, hlong] at hempty
  rw [hitems, List.length_map] at hmany
  refine ⟨not_lt.mp hlen, hshort, fun hnone => ?_, ?_⟩
  · rw [hnone, if_pos ⟨rfl, rfl⟩] at hempty
    cases hempty
  · by_contra hlt
    rw [if_pos (not_le.mp hlt)] at hmany
    cases hmany

theorem separated_items_of_rejected (h : (parseExplicitSeparatorInventory raw).ok = false) :
    (parseExplicitSeparatorInventory raw).items = [] := by
  rw [parseExplicitSeparatorInventory] at h ⊢
  split_ifs at h ⊢ with hlen hnil
  · rfl
  · rfl
  · exact Result.close_rejected h

/-- The text of some items, separated by lines of their own. -/
def separatedText (items : List InventoryItem) : JsText :=
  join newline ((items.map (·.content)).intersperse SEPARATOR)

def InventoryItem.again (item : InventoryItem) : InventoryItem :=
  { item with content := recoded item.content }

/-- What the items of a separated paste keep of it. -/
structure SeparatedKept (raw : JsText) (items : List InventoryItem) : Prop where
  partition : items.map (·.content) = groupContents raw
  visible : (visibleLines isSpace newline raw).filter (· ≠ SEPARATOR) =
    items.flatMap (visibleLines isSpace newline ·.content)
  apart : ∀ item ∈ items, item.boundaryEmail = none ∧ item.content ≠ [] ∧
    ∀ l ∈ trimmedLines isSpace newline item.content, l ≠ SEPARATOR
  again : (separatedText items).length ≤ INVENTORY_TOTAL_MAX_CHARS →
    (parseExplicitSeparatorInventory (separatedText items)).ok = true ∧
      (parseExplicitSeparatorInventory (separatedText items)).items = items.map InventoryItem.again

theorem isSeparator_iff : isSeparator t = true ↔ trim isSpace t = SEPARATOR := by
  rw [isSeparator, decide_eq_true_iff, SEPARATOR]

/-- The lines of a group are lines of the paste, and none of them is a separator. -/
theorem mem_lineGroups {group : List JsText} (h : group ∈ lineGroups raw) :
    ∀ l ∈ group, l ∈ normalizedLines raw ∧ isSeparator l = false := by
  have hgo : ∀ ls : List JsText, ∀ group ∈ ls.splitOnP isSeparator,
      ∀ l ∈ group, l ∈ ls ∧ isSeparator l = false := by
    intro ls
    induction ls with
    | nil =>
      intro group hgroup l hl
      rw [List.splitOnP_nil, List.mem_singleton] at hgroup
      rw [hgroup] at hl
      cases hl
    | cons t ls ih =>
      intro group hgroup l hl
      rw [List.splitOnP_cons_eq_if_modifyHead] at hgroup
      split_ifs at hgroup with ht
      · rcases List.mem_cons.mp hgroup with rfl | hgroup
        · cases hl
        · exact ⟨.tail _ (ih group hgroup l hl).1, (ih group hgroup l hl).2⟩
      · cases hsplit : ls.splitOnP isSeparator with
        | nil => exact (List.splitOnP_ne_nil _ _ hsplit).elim
        | cons first groups =>
          rw [hsplit] at hgroup ih
          rcases List.mem_cons.mp hgroup with rfl | hgroup
          · rcases List.mem_cons.mp hl with rfl | hl
            · exact ⟨.head _, Bool.eq_false_iff.mpr ht⟩
            · exact ⟨.tail _ (ih first (.head _) l hl).1, (ih first (.head _) l hl).2⟩
          · exact ⟨.tail _ (ih group (.tail _ hgroup) l hl).1, (ih group (.tail _ hgroup) l hl).2⟩
  exact hgo _ group h

theorem flatMap_filter_ne_nil {f : JsText → List JsText} (hf : f [] = []) (ts : List JsText) :
    (ts.filter (· ≠ [])).flatMap f = ts.flatMap f := by
  induction ts with
  | nil => rfl
  | cons t ts ih =>
    rw [List.filter_cons, List.flatMap_cons]
    split_ifs with ht
    · rw [List.flatMap_cons, ih]
    · have hnil : t = [] := by simpa using ht
      rw [hnil, hf, List.nil_append, ih]

/-- The lines that are no separator, group by group. -/
theorem flatten_splitOnP (p : JsText → Bool) (ls : List JsText) :
    (ls.splitOnP p).flatten = ls.filter (!p ·) := by
  induction ls with
  | nil => rfl
  | cons t ls ih =>
    rw [List.splitOnP_cons_eq_if_modifyHead, List.filter_cons]
    split_ifs with ht hnot hnot
    · rw [ht] at hnot
      cases hnot
    · rw [List.flatten_cons, List.nil_append, ih]
    · cases hsplit : ls.splitOnP p with
      | nil => exact (List.splitOnP_ne_nil _ _ hsplit).elim
      | cons first groups =>
        rw [← ih, hsplit]
        rfl
    · rw [Bool.not_eq_true', Bool.not_eq_false] at hnot
      exact (ht hnot).elim

theorem mem_intersperse {c sep : JsText} {ts : List JsText} (h : c ∈ ts.intersperse sep) :
    c ∈ ts ∨ c = sep := by
  induction ts with
  | nil => cases h
  | cons t ts ih =>
    cases ts with
    | nil => exact .inl h
    | cons u ts =>
      rw [List.intersperse_cons_cons] at h
      rcases List.mem_cons.mp h with rfl | h
      · exact .inl (.head _)
      · rcases List.mem_cons.mp h with rfl | h
        · exact .inr rfl
        · exact (ih h).imp_left (.tail _)

theorem intersperse_ne_nil {sep : JsText} {ts : List JsText} (h : ts ≠ []) :
    ts.intersperse sep ≠ [] := by
  intro hnil
  have hlength := congrArg List.length hnil
  rw [List.length_intersperse, List.length_nil] at hlength
  have hpos := List.length_pos_iff.mpr h
  omega

/-- Contents between separators are the groups of the text. -/
theorem splitOnP_contents {contents : List JsText} (hne : contents ≠ [])
    (h : ∀ c ∈ contents, ∀ l ∈ trimmedLines isSpace newline c, l ≠ SEPARATOR) :
    ((contents.intersperse SEPARATOR).flatMap (lines newline ∘ recoded)).splitOnP isSeparator =
      contents.map (lines newline ∘ recoded) := by
  have hapart : ∀ c ∈ contents, ∀ l ∈ (lines newline ∘ recoded) c, isSeparator l = false := by
    intro c hc l hl
    rw [Bool.eq_false_iff, Ne, isSeparator_iff]
    refine h c hc _ ?_
    rw [← trimmedLines_recoded]
    exact List.mem_map_of_mem hl
  have hseparator : (lines newline ∘ recoded) SEPARATOR = [SEPARATOR] := by decide
  induction contents with
  | nil => exact (hne rfl).elim
  | cons c contents ih =>
    cases contents with
    | nil =>
      rw [List.intersperse_singleton, List.flatMap_singleton, List.map_singleton]
      exact List.splitOnP_eq_singleton (hapart c (.head _))
    | cons d contents =>
      rw [List.intersperse_cons_cons, List.flatMap_cons, List.flatMap_cons, hseparator,
        List.singleton_append,
        List.splitOnP_append_cons_of_forall_mem (hapart c (.head _)) SEPARATOR (by decide),
        ih (List.cons_ne_nil _ _) (fun c hc => h c (.tail _ hc)) fun c hc => hapart c (.tail _ hc)]
      rfl

theorem separated_kept (h : Separated raw) :
    SeparatedKept raw ((groupContents raw).map separatedItem) := by
  have hnewline : ∀ group ∈ lineGroups raw, ∀ l ∈ group, newline ∉ l := fun group hgroup l hl =>
    newline_notMem_normalizedLines raw l (mem_lineGroups hgroup l hl).1
  have hcontents : ((groupContents raw).map separatedItem).map (·.content) = groupContents raw := by
    rw [List.map_map]
    exact List.map_id _
  have hgroup : ∀ c ∈ groupContents raw,
      c ≠ [] ∧ ∃ group ∈ lineGroups raw, blockContent group = c := by
    intro c hc
    obtain ⟨hmem, hne⟩ := List.mem_filter.mp hc
    exact ⟨of_decide_eq_true hne, List.mem_map.mp hmem⟩
  have hapart : ∀ c ∈ groupContents raw, ∀ l ∈ trimmedLines isSpace newline c, l ≠ SEPARATOR := by
    intro c hc l hl
    obtain ⟨hne, group, hmem, rfl⟩ := hgroup c hc
    rw [trimmedLines_blockContent (hnewline group hmem) hne] at hl
    have hl' := (List.rdropWhile_prefix _ _).subset ((List.dropWhile_suffix _).subset hl)
    obtain ⟨line, hline, rfl⟩ := List.mem_map.mp hl'
    rw [Ne, ← isSeparator_iff, (mem_lineGroups hmem line hline).2]
    exact Bool.false_ne_true
  refine ⟨hcontents, ?_, ?_, fun hlen => ?_⟩
  · have hvisible : ∀ group ∈ lineGroups raw, (group.map (trim isSpace)).filter (!·.isEmpty) =
        visibleLines isSpace newline (blockContent group) := fun group hmem =>
      (visibleLines_blockContent (hnewline group hmem)).symm
    have hlines : ((lineGroups raw).flatten.map (trim isSpace)).filter (!·.isEmpty) =
        (visibleLines isSpace newline raw).filter (· ≠ SEPARATOR) := by
      rw [lineGroups, flatten_splitOnP, ← visible_normalizedLines, List.filter_map, List.filter_map,
        List.filter_map, List.filter_filter, List.filter_filter]
      refine congrArg _ (List.filter_congr fun l _ => ?_)
      rw [Function.comp_apply, Function.comp_apply, Bool.and_comm, isSeparator, ← SEPARATOR,
        decide_not]
    rw [← hlines, List.map_flatten, List.filter_flatten, List.map_map, ← List.flatMap_def,
      List.flatMap_map, groupContents]
    refine Eq.trans ?_ (flatMap_filter_ne_nil (f := visibleLines isSpace newline) rfl _).symm
    rw [List.flatMap_map]
    exact List.flatMap_congr hvisible
  · intro item hitem
    obtain ⟨c, hc, rfl⟩ := List.mem_map.mp hitem
    exact ⟨rfl, (hgroup c hc).1, hapart c hc⟩
  · rw [separatedText, hcontents] at hlen ⊢
    set again := join newline ((groupContents raw).intersperse SEPARATOR) with hagain
    have htrim : ∀ c ∈ (groupContents raw).intersperse SEPARATOR, trim isSpace c = c ∧ c ≠ [] := by
      intro c hc
      rcases mem_intersperse hc with hc | rfl
      · obtain ⟨hne, group, -, rfl⟩ := hgroup c hc
        exact ⟨trim_blockContent group, hne⟩
      · decide
    have hlineGroups : lineGroups again = (groupContents raw).map (lines newline ∘ recoded) := by
      rw [lineGroups, hagain, normalizedLines_contents (intersperse_ne_nil h.some) htrim,
        splitOnP_contents h.some hapart]
    have hblock : ∀ c ∈ groupContents raw,
        blockContent ((lines newline ∘ recoded) c) = recoded c := by
      intro c hc
      obtain ⟨hne, group, -, rfl⟩ := hgroup c hc
      exact blockContent_again (trim_blockContent group)
    have hgroupContents : groupContents again = (groupContents raw).map recoded := by
      have hblocks : (groupContents raw).map (blockContent ∘ lines newline ∘ recoded) =
          (groupContents raw).map recoded := List.map_congr_left hblock
      rw [groupContents, hlineGroups, List.map_map, hblocks, List.filter_eq_self]
      intro c hc
      obtain ⟨d, hd, rfl⟩ := List.mem_map.mp hc
      exact decide_eq_true fun hnil => (hgroup d hd).1 (crlf_eq_nil.mp hnil)
    have hseparated : Separated again := by
      refine ⟨hlen, fun group hmem => ?_, ?_, ?_⟩
      · rw [hlineGroups] at hmem
        obtain ⟨c, hc, rfl⟩ := List.mem_map.mp hmem
        rw [hblock c hc]
        obtain ⟨-, group, hfrom, rfl⟩ := hgroup c hc
        exact (crlf_length _).trans (h.short group hfrom)
      · rw [hgroupContents]
        exact fun hnil => h.some (List.map_eq_nil_iff.mp hnil)
      · rw [hgroupContents, List.length_map]
        exact h.few
    obtain ⟨hok, hitems⟩ := parse_separated hseparated
    refine ⟨hok, hitems.trans ?_⟩
    rw [hgroupContents, List.map_map, List.map_map]
    rfl

/-! ### The inventory -/

/-- An accepted paste loses and mixes nothing, and a rejected one has no item. -/
theorem inventory_kept (raw : JsText) :
    ((parseAppleIdInventory raw).ok = true → Kept raw (parseAppleIdInventory raw).items) ∧
      ((parseAppleIdInventory raw).ok = false → (parseAppleIdInventory raw).items = []) ∧
      ((parseExplicitSeparatorInventory raw).ok = true →
        SeparatedKept raw (parseExplicitSeparatorInventory raw).items) ∧
      ((parseExplicitSeparatorInventory raw).ok = false →
        (parseExplicitSeparatorInventory raw).items = []) := by
  refine ⟨fun h => ?_, items_of_rejected, fun h => ?_, separated_items_of_rejected⟩
  · obtain ⟨blocks, hlines, haccepted, hitems⟩ := accepted_of_ok h
    rw [hitems]
    exact kept_of_blocks hlines haccepted
  · have hseparated := separated_of_ok h
    rw [(parse_separated hseparated).2]
    exact separated_kept hseparated

/-- Two accounts with a blank line between them. -/
def twoAccounts : JsText :=
  ofChars ['a', '@', 'b', '.', 'c', 'o', '\r', '\n', 'p', '1', '\n', '\n', ' ', 'E', 'm', 'a', 'i',
    'l', ':', ' ', 'd', '@', 'b', '.', 'c', 'o', '\n', '\n', 'p', '2', ' ']

/-- Two blocks with a stray separator. -/
def twoBlocks : JsText :=
  ofChars ['x', '\r', '\n', ' ', '-', '-', '-', '\n', '-', '-', '-', '\n', '\n', 'y', '\r', 'z']

theorem inventory_kept_two :
    Kept twoAccounts (parseAppleIdInventory twoAccounts).items ∧
      SeparatedKept twoBlocks (parseExplicitSeparatorInventory twoBlocks).items :=
  ⟨(inventory_kept twoAccounts).1 (by decide +kernel),
    (inventory_kept twoBlocks).2.2.1 (by decide +kernel)⟩

/-- An account with two carriage returns before a newline. -/
def doubleReturn : JsText :=
  ofChars ['a', '@', 'b', '.', 'c', 'o', '\r', '\r', '\n', 'p']

/-- The replacement leaves a carriage return of two, and the second paste loses it. -/
theorem inventory_again_differs :
    (parseAppleIdInventory doubleReturn).ok = true ∧
      (pasted (parseAppleIdInventory doubleReturn).items).length ≤ INVENTORY_TOTAL_MAX_CHARS ∧
      (parseAppleIdInventory (pasted (parseAppleIdInventory doubleReturn).items)).items ≠
        (parseAppleIdInventory doubleReturn).items := by
  decide +kernel

end ZedBot.Stock.Inventory
