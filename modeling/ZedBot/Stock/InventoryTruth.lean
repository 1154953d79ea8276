import Mathlib.Data.List.ModifyLast
import ZedBot.Stock.Inventory

/-! What a parser of a pasted inventory keeps.

    The blocks of a paste are its lines, none lost and none in another block, and the items are
    the trimmed blocks. Such items pasted again give the same blocks: a trimmed text has the trimmed
    lines of the text, and no carriage return of it comes to stand before a newline. Only a carriage
    return that the replacement has left before a newline goes at the second paste.

        raw  ──▶  lines  ──▶  blocks  ──▶  items
                                 ▲            │ joined
                                 └────────────┘ -/

namespace ZedBot.Stock.Inventory
open JsText TextLines

variable {raw t email : JsText} {ls : List JsText} {blocks : List Block} {s : Scan}

theorem space_newline : isSpace newline = true := by decide

theorem space_cr : isSpace cr = true := by decide

theorem cr_ne_newline : cr ≠ newline := by decide

theorem detectBoundaryEmail_nil : detectBoundaryEmail [] = none := by decide

/-! ### Lines of a paste -/

theorem isBlank_eq (line : JsText) : isBlank line = (trim isSpace line).isEmpty := rfl

theorem newline_notMem_normalizedLines (raw : JsText) : ∀ l ∈ normalizedLines raw, newline ∉ l := by
  intro l hl
  have hmem := (List.dropWhile_suffix _).subset ((List.rdropWhile_prefix _ _).subset hl)
  exact notMem_of_mem_lines hmem

/-- The first line of a paste is not blank. -/
theorem normalizedLines_head (h : normalizedLines raw = t :: ls) : isBlank t = false := by
  set front := (lines newline (crlfToLf cr newline raw)).dropWhile isBlank with hfront
  obtain ⟨post, hpost⟩ := List.rdropWhile_prefix isBlank front
  rw [show front.rdropWhile isBlank = t :: ls from h] at hpost
  have hnot := List.head?_dropWhile_not isBlank (lines newline (crlfToLf cr newline raw))
  rw [← hfront, ← hpost, List.cons_append, List.head?_cons] at hnot
  simpa using hnot

/-- A trimmed text has no blank line at its ends. -/
theorem normalizedLines_of_trimmed (htrim : trim isSpace t = t) (hne : t ≠ []) :
    normalizedLines t = lines newline (crlfToLf cr newline t) := by
  set ls := lines newline (crlfToLf cr newline t) with hls
  have hvisible : stripEmpty (ls.map (trim isSpace)) = ls.map (trim isSpace) := by
    have hstrip := trimmedLines_trim space_newline (t := t) (by rwa [htrim])
    rw [htrim, ← trimmedLines_crlf space_cr cr_ne_newline t] at hstrip
    exact hstrip.symm
  have hmap : ∀ ls : List JsText, (ls.rdropWhile isBlank).map (trim isSpace) =
      (ls.map (trim isSpace)).rdropWhile (·.isEmpty) := by
    intro ls
    rw [List.rdropWhile, List.rdropWhile, List.map_reverse, ← List.map_reverse (l := ls),
      List.dropWhile_map]
    rfl
  have hend : ls.rdropWhile isBlank = ls := by
    refine List.IsPrefix.eq_of_length (List.rdropWhile_prefix _ _) (le_antisymm ?_ ?_)
    · exact (List.rdropWhile_prefix _ _).length_le
    · have hlen := (List.dropWhile_suffix (·.isEmpty)
        (l := (ls.map (trim isSpace)).rdropWhile (·.isEmpty))).length_le
      rw [show List.dropWhile _ _ = stripEmpty (ls.map (trim isSpace)) from rfl, hvisible, ← hmap,
        List.length_map, List.length_map] at hlen
      exact hlen
  have hfront : ls.dropWhile isBlank = ls := by
    refine List.IsSuffix.eq_of_length (List.dropWhile_suffix _) (le_antisymm ?_ ?_)
    · exact (List.dropWhile_suffix _).length_le
    · have hlen := congrArg List.length hvisible
      rw [stripEmpty, ← hmap, hend, List.dropWhile_map, List.length_map, List.length_map] at hlen
      exact hlen.ge
  rw [normalizedLines, ← hls, hfront, hend]

/-- The visible lines of a paste. -/
theorem visible_normalizedLines (raw : JsText) :
    ((normalizedLines raw).map (trim isSpace)).filter (!·.isEmpty) =
      visibleLines isSpace newline raw := by
  have hfront (ls : List JsText) :
      ((ls.dropWhile isBlank).map (trim isSpace)).filter (!·.isEmpty) =
        (ls.map (trim isSpace)).filter (!·.isEmpty) := by
    have hnone : ((ls.takeWhile isBlank).map (trim isSpace)).filter (!·.isEmpty) = [] := by
      refine List.filter_eq_nil_iff.mpr fun l hl => ?_
      obtain ⟨line, hline, rfl⟩ := List.mem_map.mp hl
      rw [← isBlank_eq, List.mem_takeWhile_imp hline]
      exact fun h => nomatch h
    calc ((ls.dropWhile isBlank).map (trim isSpace)).filter (!·.isEmpty)
        = ((ls.takeWhile isBlank ++ ls.dropWhile isBlank).map (trim isSpace)).filter
            (!·.isEmpty) := by
          rw [List.map_append, List.filter_append, hnone, List.nil_append]
      _ = (ls.map (trim isSpace)).filter (!·.isEmpty) := by rw [List.takeWhile_append_dropWhile]
  rw [normalizedLines, List.rdropWhile, List.map_reverse, List.filter_reverse, hfront,
    List.map_reverse, List.filter_reverse, List.reverse_reverse, hfront, visibleLines,
    ← trimmedLines_crlf space_cr cr_ne_newline raw, trimmedLines]

/-! ### Contents -/

/-- The content of a block is trimmed. -/
theorem trim_blockContent (ls : List JsText) : trim isSpace (blockContent ls) = blockContent ls :=
  trim_trim _

theorem blockContent_last (ls : List JsText) : (blockContent ls).getLast? ≠ some cr := by
  intro hlast
  have hspace := trim_last (join newline ls) cr hlast
  rw [space_cr] at hspace
  cases hspace

/-- A content as a second paste leaves it. -/
def recoded (content : JsText) : JsText := crlfToLf cr newline content

theorem trim_recoded {content : JsText} (h : trim isSpace content = content) :
    trim isSpace (recoded content) = recoded content := by
  have htrim : trim isSpace (recoded (trim isSpace content)) = recoded (trim isSpace content) :=
    trim_crlf space_cr content
  rwa [h] at htrim

/-- The trimmed lines of a content, pasted again or not. -/
theorem trimmedLines_recoded (content : JsText) :
    trimmedLines isSpace newline (recoded content) = trimmedLines isSpace newline content :=
  trimmedLines_crlf space_cr cr_ne_newline content

/-- The lines of a content are those of its block without the blank ones at the ends. -/
theorem trimmedLines_blockContent (h : ∀ l ∈ ls, newline ∉ l) (hne : blockContent ls ≠ []) :
    trimmedLines isSpace newline (blockContent ls) = stripEmpty (ls.map (trim isSpace)) := by
  have hls : ls ≠ [] := by
    rintro rfl
    exact hne rfl
  rw [blockContent, trimmedLines_trim space_newline hne, trimmedLines, lines_join_of_notMem h hls]

theorem visibleLines_blockContent (h : ∀ l ∈ ls, newline ∉ l) :
    visibleLines isSpace newline (blockContent ls) =
      (ls.map (trim isSpace)).filter (!·.isEmpty) := by
  rw [blockContent, visibleLines_trim space_newline, visibleLines_join h]

theorem blockContent_ne_nil (ht : t ∈ ls) (h : isBlank t = false) : blockContent ls ≠ [] := by
  intro hnil
  rw [isBlank_eq, trim_eq_nil.mpr fun x hx => trim_eq_nil.mp hnil x (mem_join ht hx)] at h
  cases h

/-! ### Blocks -/

/-- Trimmed lines of one account: the boundary line of its email, and no other boundary line. -/
def Bounded (email : JsText) (trimmed : List JsText) : Prop :=
  ∃ first rest, trimmed = first :: rest ∧ detectBoundaryEmail first = some email ∧
    ∀ l ∈ rest, detectBoundaryEmail l = none

/-- A boundary line is not blank. -/
theorem ne_nil_of_boundary (h : detectBoundaryEmail t = some email) : t ≠ [] := by
  rintro rfl
  rw [detectBoundaryEmail_nil] at h
  cases h

/-- Of an account only blank lines at the end are stripped. -/
theorem stripEmpty_bounded {trimmed : List JsText} (h : Bounded email trimmed) :
    Bounded email (stripEmpty trimmed) := by
  obtain ⟨first, rest, rfl, hfirst, hrest⟩ := h
  have hne : first.isEmpty = false := by
    rw [List.isEmpty_eq_false_iff]
    exact ne_nil_of_boundary hfirst
  refine ⟨first, rest.rdropWhile (·.isEmpty), ?_, hfirst, fun l hl =>
    hrest l ((List.rdropWhile_prefix _ _).subset hl)⟩
  rw [stripEmpty, rdropWhile_cons]
  split_ifs with hnil hfirst'
  · rw [hne] at hfirst'
    cases hfirst'
  · rw [hnil, List.dropWhile_cons, if_neg (by rw [hne]; exact Bool.false_ne_true)]
  · rw [List.dropWhile_cons, if_neg (by rw [hne]; exact Bool.false_ne_true)]

theorem tail_stripEmpty {trimmed : List JsText} (h : Bounded email trimmed)
    (hbody : ∃ l ∈ trimmed.tail, l ≠ []) : ∃ l ∈ (stripEmpty trimmed).tail, l ≠ [] := by
  obtain ⟨first, rest, rfl, hfirst, -⟩ := h
  have hne : first.isEmpty = false := by
    rw [List.isEmpty_eq_false_iff]
    exact ne_nil_of_boundary hfirst
  obtain ⟨l, hl, hvisible⟩ := hbody
  have hrest : rest.rdropWhile (·.isEmpty) ≠ [] := by
    intro hnil
    exact hvisible (List.isEmpty_iff.mp (List.rdropWhile_eq_nil_iff.mp hnil l hl))
  rw [stripEmpty, rdropWhile_cons, if_neg hrest, List.dropWhile_cons,
    if_neg (by rw [hne]; exact Bool.false_ne_true), List.tail_cons]
  refine ⟨_, List.getLast_mem hrest, fun hnil => ?_⟩
  exact List.rdropWhile_last_not _ _ hrest (List.isEmpty_iff.mpr hnil)

/-- Blocks that make a paste: the parser keeps each of them. -/
structure Accepted (blocks : List Block) : Prop where
  some : blocks ≠ []
  few : blocks.length ≤ INVENTORY_MAX_ITEMS
  bounded : ∀ b ∈ blocks, Bounded b.boundaryEmail (b.lines.map (trim isSpace))
  body : ∀ b ∈ blocks, ∃ l ∈ (b.lines.map (trim isSpace)).tail, l ≠ []
  short : ∀ b ∈ blocks, (blockContent b.lines).length ≤ INVENTORY_BLOCK_MAX_CHARS

def Block.item (block : Block) : AppleIdInventoryItem :=
  { content := blockContent block.lines, boundaryEmail := block.boundaryEmail }

/-! ### The scan -/

theorem scanLine_boundary (h : detectBoundaryEmail (trim isSpace t) = some email) :
    scanLine s t = { s with blocks := s.blocks ++ [{ boundaryEmail := email, lines := [t] }] } := by
  simp only [scanLine, h]

/-- A line behind a boundary goes to the last block. -/
theorem scanLine_push {block : Block} (h : detectBoundaryEmail (trim isSpace t) = none)
    (hs : s.blocks = blocks ++ [block]) :
    ∃ embedded, scanLine s t = { s with
      blocks := blocks ++ [{ block with lines := block.lines ++ [t] }]
      embeddedEmailLineCount := embedded } := by
  have hne : blocks ++ [block] ≠ [] := List.concat_ne_nil block blocks
  simp only [scanLine, h, pushLine, hs, if_neg hne, List.modifyLast_concat]
  exact ⟨_, rfl⟩

/-- A line in front of every boundary is counted. -/
theorem scanLine_lead (h : detectBoundaryEmail (trim isSpace t) = none) (hs : s.blocks = []) :
    scanLine s t = if isBlank t then s else { s with
      preBoundaryLineCount := s.preBoundaryLineCount + 1
      invalidLineCount := s.invalidLineCount + 1 } := by
  simp only [scanLine, h, if_pos hs, isBlank_eq, List.isEmpty_iff]
  split_ifs <;> first | rfl | contradiction

/-- What the loop has made of the lines it has seen: the lines in front of the first boundary, then
    blocks. -/
structure Scanned (seen : List JsText) (s : Scan) : Prop where
  bounded : ∀ b ∈ s.blocks, Bounded b.boundaryEmail (b.lines.map (trim isSpace))
  lines : ∃ lead, seen = lead ++ s.blocks.flatMap Block.lines ∧
    s.preBoundaryLineCount = lead.countP (!isBlank ·)

theorem Scanned.start : Scanned [] {} := ⟨fun _ hb => (List.not_mem_nil hb).elim, [], rfl, rfl⟩

/-- STEP: a line opens a block, goes to the last one, or stands in front of all. -/
theorem Scanned.line {seen : List JsText} (h : Scanned seen s) (t : JsText) :
    Scanned (seen ++ [t]) (scanLine s t) := by
  obtain ⟨hbounded, lead, hlines, hcount⟩ := h
  cases hdetect : detectBoundaryEmail (trim isSpace t) with
  | some email =>
    rw [scanLine_boundary hdetect]
    refine ⟨fun b hb => ?_, lead, ?_, hcount⟩
    · rcases List.mem_append.mp hb with hb | hb
      · exact hbounded b hb
      · rw [List.mem_singleton.mp hb]
        exact ⟨trim isSpace t, [], rfl, hdetect, fun l hl => (List.not_mem_nil hl).elim⟩
    · rw [hlines, List.flatMap_append, List.append_assoc]
      rfl
  | none =>
    rcases List.eq_nil_or_concat s.blocks with hnil | ⟨blocks, block, hblocks⟩
    · rw [scanLine_lead hdetect hnil]
      have hlines' : seen ++ [t] = (lead ++ [t]) ++ s.blocks.flatMap Block.lines := by
        rw [hlines, hnil, List.flatMap_nil, List.append_nil, List.append_nil]
      split_ifs with hblank
      · refine ⟨hbounded, lead ++ [t], hlines', ?_⟩
        rw [List.countP_append, List.countP_singleton, hblank, hcount]
        rfl
      · refine ⟨hbounded, lead ++ [t], hlines', ?_⟩
        rw [List.countP_append, List.countP_singleton, Bool.eq_false_iff.mpr hblank, ← hcount]
        rfl
    · rw [List.concat_eq_append] at hblocks
      obtain ⟨embedded, hpush⟩ := scanLine_push hdetect hblocks
      rw [hpush]
      refine ⟨fun b hb => ?_, lead, ?_, hcount⟩
      · rcases List.mem_append.mp hb with hb | hb
        · exact hbounded b (hblocks ▸ List.mem_append_left _ hb)
        · rw [List.mem_singleton.mp hb]
          obtain ⟨first, rest, htrimmed, hfirst, hrest⟩ :=
            hbounded block (hblocks ▸ List.mem_append_right _ (List.mem_singleton_self _))
          refine ⟨first, rest ++ [trim isSpace t], ?_, hfirst, fun l hl => ?_⟩
          · rw [List.map_append, htrimmed]
            rfl
          · rcases List.mem_append.mp hl with hl | hl
            · exact hrest l hl
            · rw [List.mem_singleton.mp hl]
              exact hdetect
      · rw [hlines, hblocks, List.flatMap_append, List.flatMap_append, List.flatMap_singleton,
          List.flatMap_singleton, List.append_assoc, List.append_assoc]

/-- RUN: the scan of a paste. -/
theorem Scanned.lines_seen {seen : List JsText} (h : Scanned seen s) (ls : List JsText) :
    Scanned (seen ++ ls) (ls.foldl scanLine s) := by
  induction ls generalizing seen s with
  | nil => rwa [List.append_nil]
  | cons t ls ih =>
    rw [List.foldl_cons, List.append_cons]
    exact ih (h.line t)

/-- A paste without a line in front of its first boundary is made of its blocks. -/
theorem lines_of_scan (hpre : ((normalizedLines raw).foldl scanLine {}).preBoundaryLineCount = 0) :
    normalizedLines raw = ((normalizedLines raw).foldl scanLine {}).blocks.flatMap Block.lines := by
  obtain ⟨lead, hlines, hcount⟩ := (Scanned.start.lines_seen (normalizedLines raw)).lines
  rw [List.nil_append] at hlines
  cases lead with
  | nil => exact hlines
  | cons t lead =>
    rw [hpre, List.countP_cons_of_pos (by rw [normalizedLines_head hlines]; rfl)] at hcount
    omega

/-- Lines behind a boundary stay with it. -/
theorem scan_rest {block : Block} {rest : List JsText} (hs : s.blocks = blocks ++ [block])
    (hrest : ∀ l ∈ rest, detectBoundaryEmail (trim isSpace l) = none) :
    ∃ embedded, rest.foldl scanLine s = { s with
      blocks := blocks ++ [{ block with lines := block.lines ++ rest }]
      embeddedEmailLineCount := embedded } := by
  induction rest generalizing s block with
  | nil => exact ⟨s.embeddedEmailLineCount, by rw [List.append_nil, ← hs]; rfl⟩
  | cons t rest ih =>
    obtain ⟨embedded, hpush⟩ := scanLine_push (hrest t (.head _)) hs
    rw [List.foldl_cons, hpush]
    obtain ⟨embedded', hscan⟩ := ih (s := { s with
      blocks := blocks ++ [{ block with lines := block.lines ++ [t] }]
      embeddedEmailLineCount := embedded }) rfl fun l hl => hrest l (.tail _ hl)
    exact ⟨embedded', by rw [hscan, List.append_assoc]; rfl⟩

/-- The scan of blocks gives them back. -/
theorem scan_blocks (h : ∀ b ∈ blocks, Bounded b.boundaryEmail (b.lines.map (trim isSpace)))
    (s : Scan) : ∃ embedded, (blocks.flatMap Block.lines).foldl scanLine s = { s with
      blocks := s.blocks ++ blocks
      embeddedEmailLineCount := embedded } := by
  induction blocks generalizing s with
  | nil => exact ⟨s.embeddedEmailLineCount, by rw [List.append_nil]; rfl⟩
  | cons block blocks ih =>
    obtain ⟨first, rest, hmap, hfirst, hrest⟩ := h block (.head _)
    obtain ⟨t, ls, hls, rfl, rfl⟩ := List.map_eq_cons_iff.mp hmap
    have hrest' : ∀ l ∈ ls, detectBoundaryEmail (trim isSpace l) = none :=
      fun l hl => hrest _ (List.mem_map_of_mem hl)
    obtain ⟨embedded, hscan⟩ := scan_rest (s := { s with
      blocks := s.blocks ++ [{ boundaryEmail := block.boundaryEmail, lines := [t] }] }) rfl hrest'
    rw [List.flatMap_cons, hls, List.cons_append, List.foldl_cons, List.foldl_append,
      scanLine_boundary hfirst, hscan]
    obtain ⟨embedded', hblocks⟩ := ih (fun b hb => h b (.tail _ hb)) { s with
      blocks := s.blocks ++ [{ boundaryEmail := block.boundaryEmail, lines := t :: ls }]
      embeddedEmailLineCount := embedded }
    refine ⟨embedded', ?_⟩
    rw [← hls, List.append_assoc] at hblocks
    rw [List.singleton_append, ← hls]
    exact hblocks

/-! ### The parser of the Apple IDs -/

section Close

variable {Item : Type} {items : List Item} {n : ℕ} {warnings errors : List JsText}

theorem Result.close_ok : (Result.close items n warnings errors).ok = true ↔ errors = [] := by
  rw [Result.close]
  split_ifs with h
  · exact iff_of_false nofun h
  · exact iff_of_true rfl (not_not.mp h)

theorem Result.close_items (h : errors = []) :
    (Result.close items n warnings errors).items = items := by
  rw [Result.close, if_neg (not_not.mpr h)]

theorem Result.close_rejected (h : (Result.close items n warnings errors).ok = false) :
    (Result.close items n warnings errors).items = [] := by
  rw [Result.close] at h ⊢
  split_ifs at h ⊢
  rfl

end Close

theorem blockItem_kept {block : Block} (hbody : ∃ l ∈ (block.lines.map (trim isSpace)).tail, l ≠ [])
    (hshort : (blockContent block.lines).length ≤ INVENTORY_BLOCK_MAX_CHARS) :
    blockItem block = .inr block.item := by
  have hany : (block.lines.drop 1).any (!isBlank ·) = true := by
    obtain ⟨l, hl, hne⟩ := hbody
    rw [← List.map_tail] at hl
    obtain ⟨line, hline, rfl⟩ := List.mem_map.mp hl
    refine List.any_eq_true.mpr ⟨line, by rwa [List.drop_one], ?_⟩
    rw [isBlank_eq, List.isEmpty_eq_false_iff.mpr hne]
    rfl
  simp only [blockItem, hany, Bool.not_true, Bool.false_eq_true, if_false,
    if_neg (not_lt.mpr hshort)]
  rfl

/-- A block with an item has a body that is short enough. -/
theorem kept_of_blockItem {block : Block} (h : (blockItem block).getLeft? = none) :
    (∃ l ∈ (block.lines.map (trim isSpace)).tail, l ≠ []) ∧
      (blockContent block.lines).length ≤ INVENTORY_BLOCK_MAX_CHARS := by
  simp only [blockItem] at h
  split_ifs at h with hnone hlong
  · cases h
  · cases h
  have hbody : (block.lines.drop 1).any (!isBlank ·) = true := by
    rwa [Bool.not_eq_true', Bool.not_eq_false] at hnone
  refine ⟨?_, not_lt.mp hlong⟩
  rw [List.any_eq_true] at hbody
  obtain ⟨line, hline, hvisible⟩ := hbody
  rw [List.drop_one] at hline
  refine ⟨trim isSpace line, ?_, fun hnil => ?_⟩
  · rw [← List.map_tail]
    exact List.mem_map_of_mem hline
  · rw [isBlank_eq, hnil] at hvisible
    cases hvisible

/-- Blocks that make a paste are its items. -/
theorem parse_of_accepted (hlen : raw.length ≤ INVENTORY_TOTAL_MAX_CHARS)
    (hlines : normalizedLines raw = blocks.flatMap Block.lines) (h : Accepted blocks) :
    (parseAppleIdInventory raw).ok = true ∧
      (parseAppleIdInventory raw).items = blocks.map Block.item := by
  obtain ⟨embedded, hscan⟩ := scan_blocks h.bounded {}
  have hne : normalizedLines raw ≠ [] := by
    obtain ⟨b, hb⟩ := List.exists_mem_of_ne_nil _ h.some
    obtain ⟨first, rest, hmap, -, -⟩ := h.bounded b hb
    obtain ⟨t, ls, hls, -, -⟩ := List.map_eq_cons_iff.mp hmap
    rw [hlines]
    exact List.ne_nil_of_mem (List.mem_flatMap.mpr ⟨b, hb, hls ▸ List.mem_cons_self⟩)
  have hparsed : blocks.map blockItem = blocks.map (Sum.inr ∘ Block.item) :=
    List.map_congr_left fun b hb => blockItem_kept (h.body b hb) (h.short b hb)
  have hleft : (blocks.map blockItem).filterMap Sum.getLeft? = [] := by
    rw [hparsed, List.filterMap_map]
    exact List.filterMap_eq_nil_iff.mpr fun b _ => rfl
  have hright : (blocks.map blockItem).filterMap Sum.getRight? = blocks.map Block.item := by
    rw [hparsed, List.filterMap_map, ← List.filterMap_eq_map]
    rfl
  have hscan' : (normalizedLines raw).foldl scanLine {} =
      { blocks, embeddedEmailLineCount := embedded } := by
    rw [hlines, hscan]
    rfl
  have herrors : scanErrors { blocks, embeddedEmailLineCount := embedded } = [] := by
    simp only [scanErrors, lt_irrefl, if_false, if_neg h.some, if_neg (not_lt.mpr h.few)]
    rfl
  rw [parseAppleIdInventory, if_neg (not_lt.mpr hlen), if_neg hne, hscan']
  dsimp only
  rw [hleft, hright, herrors]
  exact ⟨Result.close_ok.mpr rfl, Result.close_items rfl⟩

/-- An accepted paste is made of blocks. -/
theorem accepted_of_ok (h : (parseAppleIdInventory raw).ok = true) :
    ∃ blocks, normalizedLines raw = blocks.flatMap Block.lines ∧ Accepted blocks ∧
      (parseAppleIdInventory raw).items = blocks.map Block.item := by
  rw [parseAppleIdInventory] at h ⊢
  split_ifs at h ⊢ with hlen hnil
  · cases h
  · cases h
  set scan := (normalizedLines raw).foldl scanLine {} with hscan
  have herrors := Result.close_ok.mp h
  obtain ⟨hscanErrors, hleft⟩ := List.append_eq_nil_iff.mp herrors
  rw [scanErrors, List.append_eq_nil_iff, List.append_eq_nil_iff] at hscanErrors
  obtain ⟨⟨hpre, hsome⟩, hfew⟩ := hscanErrors
  have hpre' : scan.preBoundaryLineCount = 0 := by
    by_contra hne
    rw [if_pos (Nat.pos_of_ne_zero hne)] at hpre
    cases hpre
  have hsome' : scan.blocks ≠ [] := by
    intro hnil
    rw [if_pos hnil] at hsome
    cases hsome
  have hfew' : scan.blocks.length ≤ INVENTORY_MAX_ITEMS := by
    by_contra hmany
    rw [if_pos (not_le.mp hmany)] at hfew
    cases hfew
  have hkept : ∀ b ∈ scan.blocks, (∃ l ∈ (b.lines.map (trim isSpace)).tail, l ≠ []) ∧
      (blockContent b.lines).length ≤ INVENTORY_BLOCK_MAX_CHARS := fun b hb =>
    kept_of_blockItem (List.filterMap_eq_nil_iff.mp hleft _ (List.mem_map_of_mem hb))
  have haccepted : Accepted scan.blocks :=
    ⟨hsome', hfew', (Scanned.start.lines_seen _).bounded, fun b hb => (hkept b hb).1,
      fun b hb => (hkept b hb).2⟩
  refine ⟨scan.blocks, lines_of_scan hpre', haccepted, ?_⟩
  have hparsed : scan.blocks.map blockItem = scan.blocks.map (Sum.inr ∘ Block.item) :=
    List.map_congr_left fun b hb => blockItem_kept (hkept b hb).1 (hkept b hb).2
  rw [Result.close_items herrors, hparsed, List.filterMap_map, ← List.filterMap_eq_map]
  rfl

theorem items_of_rejected (h : (parseAppleIdInventory raw).ok = false) :
    (parseAppleIdInventory raw).items = [] := by
  rw [parseAppleIdInventory] at h ⊢
  split_ifs at h ⊢ with hlen hnil
  · rfl
  · rfl
  · exact Result.close_rejected h

/-! ### The second paste -/

/-- A block as a second paste reads it. -/
def Block.again (block : Block) : Block :=
  { block with lines := TextLines.lines newline (recoded (blockContent block.lines)) }

theorem blockContent_again {content : JsText} (h : trim isSpace content = content) :
    blockContent (lines newline (recoded content)) = recoded content := by
  rw [blockContent, join_lines, trim_recoded h]

/-- Joined contents are read line by line. -/
theorem normalizedLines_contents {contents : List JsText} (hne : contents ≠ [])
    (h : ∀ c ∈ contents, trim isSpace c = c ∧ c ≠ []) :
    normalizedLines (join newline contents) = contents.flatMap (lines newline ∘ recoded) := by
  have hjoined : join newline contents ≠ [] := by
    obtain ⟨c, hc⟩ := List.exists_mem_of_ne_nil _ hne
    obtain ⟨x, hx⟩ := List.exists_mem_of_ne_nil _ (h c hc).2
    exact List.ne_nil_of_mem (mem_join hc hx)
  have hlast : ∀ c ∈ contents, c.getLast? ≠ some cr := by
    intro c hc hcr
    rw [← (h c hc).1] at hcr
    have hspace := trim_last c cr hcr
    rw [space_cr] at hspace
    cases hspace
  rw [normalizedLines_of_trimmed (trim_join h) hjoined, crlf_join cr_ne_newline hlast,
    lines_join newline (fun hnil => hne (List.map_eq_nil_iff.mp hnil)), List.flatMap_map]
  rfl

theorem Block.content_ne_nil {block : Block}
    (h : Bounded block.boundaryEmail (block.lines.map (trim isSpace))) :
    blockContent block.lines ≠ [] := by
  obtain ⟨first, rest, hmap, hfirst, -⟩ := h
  obtain ⟨t, ls, hls, rfl, -⟩ := List.map_eq_cons_iff.mp hmap
  refine blockContent_ne_nil (hls ▸ List.mem_cons_self) ?_
  rw [isBlank_eq, List.isEmpty_eq_false_iff]
  exact ne_nil_of_boundary hfirst

/-- The items' texts pasted again are accepted. -/
theorem accepted_again (hnewline : ∀ b ∈ blocks, ∀ l ∈ b.lines, newline ∉ l) (h : Accepted blocks) :
    Accepted (blocks.map Block.again) := by
  have htrimmed : ∀ b ∈ blocks, b.again.lines.map (trim isSpace) =
      stripEmpty (b.lines.map (trim isSpace)) := fun b hb => by
    rw [← trimmedLines_blockContent (hnewline b hb) (Block.content_ne_nil (h.bounded b hb)),
      ← trimmedLines_recoded, trimmedLines, Block.again]
  refine ⟨fun hnil => h.some (List.map_eq_nil_iff.mp hnil), ?_, ?_, ?_, ?_⟩
  · rw [List.length_map]
    exact h.few
  · intro b' hb'
    obtain ⟨b, hb, rfl⟩ := List.mem_map.mp hb'
    rw [htrimmed b hb]
    exact stripEmpty_bounded (h.bounded b hb)
  · intro b' hb'
    obtain ⟨b, hb, rfl⟩ := List.mem_map.mp hb'
    rw [htrimmed b hb]
    exact tail_stripEmpty (h.bounded b hb) (h.body b hb)
  · intro b' hb'
    obtain ⟨b, hb, rfl⟩ := List.mem_map.mp hb'
    rw [Block.again, blockContent_again (trim_blockContent b.lines)]
    exact (crlf_length _).trans (h.short b hb)

/-- The text of some items: their contents on lines of their own. -/
def pasted (items : List AppleIdInventoryItem) : JsText := join newline (items.map (·.content))

/-- An item as a second paste leaves it. -/
def AppleIdInventoryItem.again (item : AppleIdInventoryItem) : AppleIdInventoryItem :=
  { item with content := recoded item.content }

/-- An item holds the lines of one account. -/
structure OneAccount (item : AppleIdInventoryItem) : Prop where
  bounded : Bounded item.boundaryEmail (trimmedLines isSpace newline item.content)
  body : ∃ l ∈ (trimmedLines isSpace newline item.content).tail, l ≠ []

/-- What the items of a paste keep of it: its blocks are its lines, in order, and the items are the
    trimmed blocks; each item is one account, and the items pasted again are the same ones. -/
structure Kept (raw : JsText) (items : List AppleIdInventoryItem) : Prop where
  partition : ∃ blocks : List (List JsText), normalizedLines raw = blocks.flatten ∧
    items.map (·.content) = blocks.map blockContent
  visible : visibleLines isSpace newline raw =
    items.flatMap (visibleLines isSpace newline ·.content)
  oneAccount : ∀ item ∈ items, OneAccount item
  again : (pasted items).length ≤ INVENTORY_TOTAL_MAX_CHARS →
    (parseAppleIdInventory (pasted items)).ok = true ∧
      (parseAppleIdInventory (pasted items)).items = items.map AppleIdInventoryItem.again

theorem kept_of_blocks (hlines : normalizedLines raw = blocks.flatMap Block.lines)
    (h : Accepted blocks) : Kept raw (blocks.map Block.item) := by
  have hnewline : ∀ b ∈ blocks, ∀ l ∈ b.lines, newline ∉ l := fun b hb l hl =>
    newline_notMem_normalizedLines raw l (hlines ▸ List.mem_flatMap.mpr ⟨b, hb, hl⟩)
  have hcontents : (blocks.map Block.item).map (·.content) =
      blocks.map (blockContent ∘ Block.lines) := List.map_map
  refine ⟨⟨blocks.map Block.lines, ?_, ?_⟩, ?_, ?_, fun hlen => ?_⟩
  · rw [hlines, List.flatMap_def]
  · rw [hcontents, List.map_map]
  · rw [← visible_normalizedLines, hlines, List.map_flatMap, List.filter_flatMap, List.flatMap_map]
    exact List.flatMap_congr fun b hb => (visibleLines_blockContent (hnewline b hb)).symm
  · intro item hitem
    obtain ⟨b, hb, rfl⟩ := List.mem_map.mp hitem
    have htrimmed : trimmedLines isSpace newline b.item.content =
        stripEmpty (b.lines.map (trim isSpace)) :=
      trimmedLines_blockContent (hnewline b hb) (Block.content_ne_nil (h.bounded b hb))
    refine ⟨?_, ?_⟩
    · rw [htrimmed]
      exact stripEmpty_bounded (h.bounded b hb)
    · rw [htrimmed]
      exact tail_stripEmpty (h.bounded b hb) (h.body b hb)
  · have hpasted : normalizedLines (pasted (blocks.map Block.item)) =
        (blocks.map Block.again).flatMap Block.lines := by
      rw [pasted, hcontents, normalizedLines_contents (by simpa using h.some), List.flatMap_map,
        List.flatMap_map]
      · rfl
      · intro c hc
        obtain ⟨b, hb, rfl⟩ := List.mem_map.mp hc
        exact ⟨trim_blockContent _, Block.content_ne_nil (h.bounded b hb)⟩
    obtain ⟨hok, hitems⟩ := parse_of_accepted hlen hpasted (accepted_again hnewline h)
    refine ⟨hok, hitems.trans ?_⟩
    rw [List.map_map, List.map_map]
    refine List.map_congr_left fun b _ => ?_
    have hcontent := blockContent_again (trim_blockContent b.lines)
    exact congrArg (AppleIdInventoryItem.mk · b.boundaryEmail) hcontent

end ZedBot.Stock.Inventory
