import ZedBot.MiniApp.InitData

/-! # The check string

    Pairs decoded from other chunks may be cut differently out of one check string: an `=` or a
    newline that was percent-encoded moves a border. Borders between pairs are still borders
    between lines, so what a pair begins with is a line that was signed.

        k₁=v₁ ⏎ k₂=v₂ ⏎ k₃=v₃      the same text, cut as   k₁=(v₁ ⏎ k₂=v₂) ⏎ k₃=v₃ -/

namespace ZedBot.MiniApp

open TextLines (lines join lines_append lines_join lines_join_of_notMem lines_of_notMem)

variable {pairs payload : Pairs} {key value : Text} {chunks chunks' : List Text}

/-- A payload as it is signed: a map without borders in its keys, or newlines in its values. -/
structure SignedPayload (payload : Pairs) : Prop where
  distinct : (payload.map Prod.fst).Nodup
  keys : ∀ pair ∈ payload, '=' ∉ pair.1 ∧ '\n' ∉ pair.1
  values : ∀ pair ∈ payload, '\n' ∉ pair.2

/-- The lines of the pairs that are signed. -/
def signedLines (pairs : Pairs) : List Text :=
  ((pairs.filter fun pair => pair.1 != hashKey).insertionSort sortedBefore).map line

theorem mem_signedLines {t : Text} :
    t ∈ signedLines pairs ↔ ∃ pair ∈ pairs, pair.1 ≠ hashKey ∧ line pair = t := by
  rw [signedLines, List.mem_map]
  refine exists_congr fun pair => ?_
  rw [List.mem_insertionSort, List.mem_filter, bne_iff_ne, and_assoc]

/-- The text before a border determines the key, and the text after it the value. -/
theorem line_inj {key' value' : Text} (hkey : '=' ∉ key) (hkey' : '=' ∉ key')
    (h : line (key, value) = line (key', value')) : key = key' ∧ value = value' := by
  induction key generalizing key' with
  | nil =>
    cases key' with
    | nil => exact ⟨rfl, (List.cons.inj h).2⟩
    | cons c key' => exact absurd (List.cons.inj h).1 fun heq => hkey' (heq ▸ List.mem_cons_self)
  | cons c key ih =>
    cases key' with
    | nil => exact absurd (List.cons.inj h).1 fun heq => hkey (heq ▸ List.mem_cons_self)
    | cons d key' =>
      obtain ⟨rfl, hrest⟩ := List.cons.inj h
      obtain ⟨rfl, hvalue⟩ := ih (fun hmem => hkey (List.mem_cons_of_mem c hmem))
        (fun hmem => hkey' (List.mem_cons_of_mem c hmem)) hrest
      exact ⟨rfl, hvalue⟩

/-- A signed line is the pair of its key. -/
theorem mem_of_signedLine (h : SignedPayload payload) (hkey : '=' ∉ key)
    (hline : line (key, value) ∈ signedLines payload) : (key, value) ∈ payload := by
  obtain ⟨⟨key', value'⟩, hmem, -, heq⟩ := mem_signedLines.mp hline
  obtain ⟨rfl, rfl⟩ := line_inj (h.keys _ hmem).1 hkey heq
  exact hmem

theorem signedLine_no_newline (h : SignedPayload payload) {t : Text}
    (ht : t ∈ signedLines payload) : '\n' ∉ t := by
  obtain ⟨pair, hmem, -, rfl⟩ := mem_signedLines.mp ht
  rw [line, List.mem_append, List.mem_cons]
  rintro (hkey | heq | hvalue)
  · exact (h.keys pair hmem).2 hkey
  · cases heq
  · exact h.values pair hmem hvalue

/-- However the check string of a payload is cut, the lines of a pair are lines of the payload. -/
theorem lines_of_cut (h : SignedPayload payload)
    (hcheck : buildBotTokenCheckString pairs = buildBotTokenCheckString payload)
    (hsigned : signedLines payload ≠ []) {pair : Text × Text} (hmem : pair ∈ pairs)
    (hhash : pair.1 ≠ hashKey) :
    ∀ t ∈ lines '\n' (line pair), t ∈ signedLines payload := by
  have hline : line pair ∈ signedLines pairs := mem_signedLines.mpr ⟨pair, hmem, hhash, rfl⟩
  have hall : (signedLines pairs).flatMap (lines '\n') = signedLines payload := by
    rw [← lines_join '\n' (List.ne_nil_of_mem hline),
      ← lines_join_of_notMem (fun t ht => signedLine_no_newline h ht) hsigned]
    exact congrArg (lines '\n') hcheck
  intro t ht
  rw [← hall]
  exact List.mem_flatMap.mpr ⟨line pair, hline, ht⟩

/-- A value without a newline has been signed under its key. -/
theorem mem_of_cut (h : SignedPayload payload)
    (hcheck : buildBotTokenCheckString pairs = buildBotTokenCheckString payload)
    (hsigned : signedLines payload ≠ []) (hmem : (key, value) ∈ pairs) (hhash : key ≠ hashKey)
    (hkey : '=' ∉ key ∧ '\n' ∉ key) (hvalue : '\n' ∉ value) : (key, value) ∈ payload := by
  have hnewline : '\n' ∉ line (key, value) := by
    rw [line, List.mem_append, List.mem_cons]
    rintro (hk | heq | hv)
    · exact hkey.2 hk
    · cases heq
    · exact hvalue hv
  have hlines := lines_of_cut h hcheck hsigned hmem hhash
  rw [lines_of_notMem hnewline] at hlines
  exact mem_of_signedLine h hkey.1 (hlines _ List.mem_cons_self)

/-- A value with a newline begins with the signed one, and an `=` comes later. -/
theorem cut_of_newline (h : SignedPayload payload)
    (hcheck : buildBotTokenCheckString pairs = buildBotTokenCheckString payload)
    (hsigned : signedLines payload ≠ []) (hmem : (key, value) ∈ pairs) (hhash : key ≠ hashKey)
    (hkey : '=' ∉ key ∧ '\n' ∉ key) (hvalue : '\n' ∈ value) :
    ∃ signed rest, (key, signed) ∈ payload ∧ value = signed ++ '\n' :: rest ∧ '=' ∈ rest := by
  obtain ⟨signed, rest, rfl, hfirst⟩ := List.eq_append_cons_of_mem hvalue
  have hlines := lines_of_cut h hcheck hsigned hmem hhash
  have hsplit : line (key, signed ++ '\n' :: rest) = line (key, signed) ++ '\n' :: rest := by
    rw [line, line, List.append_assoc, List.cons_append]
  have hnewline : '\n' ∉ line (key, signed) := by
    rw [line, List.mem_append, List.mem_cons]
    rintro (hk | heq | hv)
    · exact hkey.2 hk
    · cases heq
    · exact hfirst hv
  rw [hsplit, lines_append, lines_of_notMem hnewline] at hlines
  refine ⟨signed, rest, mem_of_signedLine h hkey.1 (hlines _ List.mem_cons_self), rfl, ?_⟩
  obtain ⟨t, ht⟩ := List.exists_mem_of_ne_nil _ (TextLines.lines_ne_nil '\n' rest)
  obtain ⟨pair, -, -, hpair⟩ := mem_signedLines.mp (hlines t (List.mem_append_right _ ht))
  have hborder : '=' ∈ t := by
    rw [← hpair, line]
    exact List.mem_append_right _ List.mem_cons_self
  rw [← TextLines.join_lines '\n' rest]
  exact TextLines.mem_join ht hborder

/-! ### The order of the pairs -/

instance : IsTrans (Text × Text) sortedBefore where
  trans a b c hab hbc := by
    rw [sortedBefore, List.not_lt] at *
    exact List.le_trans hab hbc

instance : Std.Total sortedBefore where
  total a b := by
    rw [sortedBefore, sortedBefore, List.not_lt, List.not_lt]
    exact List.le_total _ _

/-- Sorting forgets in which order the pairs came. -/
theorem check_perm {pairs' : Pairs} (hnodup : (pairs.map Prod.fst).Nodup)
    (h : pairs.Perm pairs') :
    buildBotTokenCheckString pairs = buildBotTokenCheckString pairs' := by
  have hsorted : (pairs.filter fun pair => pair.1 != hashKey).insertionSort sortedBefore =
      (pairs'.filter fun pair => pair.1 != hashKey).insertionSort sortedBefore := by
    refine List.Perm.eq_of_pairwise ?_ (List.pairwise_insertionSort _ _)
      (List.pairwise_insertionSort _ _) ?_
    · intro a b ha hb hab hba
      rw [sortedBefore, List.not_lt] at hab hba
      have hkey : a.1 = b.1 := JsText.ofChars_inj (List.le_antisymm hab hba)
      have ha' := (List.mem_filter.mp ((List.mem_insertionSort _).mp ha)).1
      have hb' := h.symm.subset (List.mem_filter.mp ((List.mem_insertionSort _).mp hb)).1
      exact List.inj_on_of_nodup_map hnodup ha' hb' hkey
    · exact (List.perm_insertionSort _ _).trans
        ((h.filter _).trans (List.perm_insertionSort _ _).symm)
  rw [buildBotTokenCheckString, buildBotTokenCheckString, hsorted]

theorem get_eq_some (hnodup : (pairs.map Prod.fst).Nodup) :
    get key pairs = some value ↔ (key, value) ∈ pairs := by
  rw [get, Option.map_eq_some_iff]
  constructor
  · rintro ⟨⟨key', value'⟩, hfound, rfl⟩
    have htest := List.find?_some hfound
    have hkey : key' = key := beq_iff_eq.mp htest
    exact hkey ▸ List.mem_of_find?_eq_some hfound
  · intro hmem
    cases hfound : pairs.find? fun pair => pair.1 == key with
    | none => exact absurd (beq_self_eq_true key) (List.find?_eq_none.mp hfound _ hmem)
    | some pair =>
      have htest := List.find?_some hfound
      have hkey : pair.1 = key := beq_iff_eq.mp htest
      have hpair := List.inj_on_of_nodup_map hnodup (List.mem_of_find?_eq_some hfound) hmem hkey
      exact ⟨pair, rfl, by rw [hpair]⟩

theorem get_perm {pairs' : Pairs} (hnodup : (pairs.map Prod.fst).Nodup) (h : pairs.Perm pairs')
    (key : Text) : get key pairs = get key pairs' := by
  ext value
  rw [get_eq_some hnodup, get_eq_some ((h.map Prod.fst).nodup_iff.mp hnodup), h.mem_iff]

/-! ### Parsing -/

theorem decodePair_nil : decodePair [] = none := rfl

/-- The pairs are those of the chunks, none of them twice. -/
theorem parseChunks_ok {acc result : Pairs} (hacc : (acc.map Prod.fst).Nodup) :
    parseChunks chunks acc = .ok result ↔
      (∀ chunk ∈ chunks, chunk ≠ [] → (decodePair chunk).isSome = true) ∧
        result = acc ++ chunks.filterMap decodePair ∧ (result.map Prod.fst).Nodup := by
  induction chunks generalizing acc with
  | nil =>
    rw [parseChunks, Except.ok.injEq]
    constructor
    · rintro rfl
      exact ⟨List.forall_mem_nil _, (List.append_nil _).symm, hacc⟩
    · rintro ⟨-, rfl, -⟩
      exact (List.append_nil _).symm
  | cons chunk chunks ih =>
    rw [parseChunks]
    by_cases hempty : chunk = []
    · subst hempty
      rw [if_pos rfl, ih hacc, List.filterMap_cons_none decodePair_nil, List.forall_mem_cons]
      exact ⟨fun h => ⟨⟨fun hne => absurd rfl hne, h.1⟩, h.2⟩, fun h => ⟨h.1.2, h.2⟩⟩
    · rw [if_neg hempty, List.forall_mem_cons]
      cases hpair : decodePair chunk with
      | none =>
        refine ⟨nofun, fun h => ?_⟩
        exact absurd (h.1.1 hempty) Bool.false_ne_true
      | some pair =>
        have hmap : (chunk :: chunks).filterMap decodePair =
            pair :: chunks.filterMap decodePair := List.filterMap_cons_some hpair
        have hassoc : acc ++ pair :: chunks.filterMap decodePair =
            (acc ++ [pair]) ++ chunks.filterMap decodePair := by
          rw [List.append_assoc, List.singleton_append]
        dsimp only
        rw [hmap, hassoc]
        by_cases htwice : (acc.any fun other => other.1 == pair.1) = true
        · rw [if_pos htwice]
          refine ⟨nofun, fun h => ?_⟩
          obtain ⟨other, hother, hsame⟩ := List.any_eq_true.mp htwice
          obtain ⟨-, rfl, hnodup⟩ := h
          rw [List.append_assoc, List.map_append] at hnodup
          exact absurd (beq_iff_eq.mp hsame) ((List.nodup_append.mp hnodup).2.2 _
            (List.mem_map_of_mem hother) _ List.mem_cons_self)
        · have hfresh : pair.1 ∉ acc.map Prod.fst := by
            intro hmem
            obtain ⟨other, hother, hsame⟩ := List.mem_map.mp hmem
            exact htwice (List.any_eq_true.mpr ⟨other, hother, beq_iff_eq.mpr hsame⟩)
          have hacc' : ((acc ++ [pair]).map Prod.fst).Nodup := by
            rw [List.map_append, List.map_singleton]
            exact List.concat_eq_append ▸ hacc.concat hfresh
          rw [if_neg htwice, ih hacc']
          exact ⟨fun h => ⟨⟨fun _ => rfl, h.1⟩, h.2⟩, fun h => ⟨h.1.2, h.2⟩⟩

theorem parseStrict_ok {initData : Text} :
    parseStrict initData = .ok pairs ↔
      (∀ chunk ∈ MiniApp.chunks initData, chunk ≠ [] → (decodePair chunk).isSome = true) ∧
        pairs = (MiniApp.chunks initData).filterMap decodePair ∧
        (pairs.map Prod.fst).Nodup := by
  have hnil : (([] : Pairs).map Prod.fst).Nodup := List.nodup_nil
  rw [parseStrict, parseChunks_ok hnil, List.nil_append]

/-- Chunks in another order give the same pairs in another order. -/
theorem parseStrict_perm {initData initData' : Text} (h : parseStrict initData = .ok pairs)
    (hperm : (MiniApp.chunks initData).Perm (MiniApp.chunks initData')) :
    ∃ pairs', parseStrict initData' = .ok pairs' ∧ pairs.Perm pairs' := by
  obtain ⟨hall, rfl, hnodup⟩ := parseStrict_ok.mp h
  have hpairs := hperm.filterMap decodePair
  refine ⟨_, parseStrict_ok.mpr ⟨fun chunk hmem => hall chunk (hperm.mem_iff.mpr hmem), rfl,
    ((hpairs.map Prod.fst).nodup_iff).mp hnodup⟩, hpairs⟩

end ZedBot.MiniApp
