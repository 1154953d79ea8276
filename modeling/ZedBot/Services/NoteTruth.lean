import ZedBot.Services.Note

/-! A normalized note is normalized, and plain.

    The passes over a note leave a text that all of them leave alone: a text of permitted units in which
    no space stands before a space or a newline, no newline after two others, and no white space at
    an end.

        raw ──unify──▶ ──check──▶ ──lines──▶ spaced ──breaks──▶ capped ──trim──▶ trimmed -/

namespace ZedBot.Services

open JsText TextLines

variable {t l raw s : JsText} {ls : List JsText}

/-! ### Line breaks -/

theorem cr_notMem_crToLf (t : JsText) : cr ∉ crToLf t := by
  have hne : cr ≠ newline := by decide
  fun_induction crToLf t with
  | case1 => exact List.not_mem_nil
  | case2 => simpa using hne
  | case3 u hu => simpa using Ne.symm hu
  | case4 t ih => exact List.not_mem_cons_of_ne_of_not_mem hne ih
  | case5 v t hv ih => exact List.not_mem_cons_of_ne_of_not_mem hne ih
  | case6 u v t hu ih => exact List.not_mem_cons_of_ne_of_not_mem (Ne.symm hu) ih

theorem crToLf_of_notMem (h : cr ∉ t) : crToLf t = t := by
  fun_induction crToLf t with
  | case1 => rfl
  | case2 => exact absurd (.head _) h
  | case3 => rfl
  | case4 => exact absurd (.head _) h
  | case5 => exact absurd (.head _) h
  | case6 u v t hu ih => rw [ih fun hmem => h (.tail _ hmem)]

/-- The units that are unified away. -/
def IsUnified (u : UInt16) : Prop :=
  u ≠ cr ∧ u ≠ lineSeparator ∧ u ≠ paragraphSeparator ∧ u ≠ tab

theorem isUnified_newline : IsUnified newline := by
  rw [IsUnified]
  decide

theorem isUnified_space : IsUnified space := by
  rw [IsUnified]
  decide

theorem isUnified_of_mem_unify {u : UInt16} (h : u ∈ unify raw) : IsUnified u := by
  obtain ⟨v, hv, rfl⟩ := List.mem_map.mp h
  obtain ⟨w, hw, rfl⟩ := List.mem_map.mp hv
  have hcr : w ≠ cr := fun heq => cr_notMem_crToLf raw (heq ▸ hw)
  by_cases hbreak : w = lineSeparator ∨ w = paragraphSeparator
  · rw [if_pos hbreak]
    exact isUnified_newline
  · rw [if_neg hbreak]
    by_cases htab : w = tab
    · rw [if_pos htab]
      exact isUnified_space
    · rw [if_neg htab]
      exact ⟨hcr, fun h => hbreak (.inl h), fun h => hbreak (.inr h), htab⟩

theorem unify_of_isUnified (h : ∀ u ∈ t, IsUnified u) : unify t = t := by
  rw [unify, crToLf_of_notMem fun hmem => (h cr hmem).1 rfl, List.map_map]
  refine (List.map_congr_left fun u hu => ?_).trans (List.map_id t)
  obtain ⟨-, hline, hparagraph, htab⟩ := h u hu
  rw [Function.comp_apply, if_neg (not_or.mpr ⟨hline, hparagraph⟩), if_neg htab, id]

/-! ### Lines -/

/-- No space stands before a space or a newline. -/
def Apart (u v : UInt16) : Prop := u = space → v ≠ space ∧ v ≠ newline

theorem newline_ne_space : newline ≠ space := by decide

/-- A line without doubled spaces and without a space at its end. -/
structure TidyLine (l : JsText) : Prop where
  chain : l.IsChain fun u v => ¬ (u = space ∧ v = space)
  last : l.getLast? ≠ some space

theorem normalizeLine_tidy (l : JsText) : TidyLine (normalizeLine l) := by
  have hcapped : (capRuns space 1 0 l).IsChain fun u v => ¬ (u = space ∧ v = space) :=
    (capRuns_capped space 1 l 0).chain
  refine ⟨ List.IsChain.prefix hcapped (List.rdropWhile_prefix _ _), fun hlast => ?_⟩
  have hne : normalizeLine l ≠ [] := by
    intro hnil
    rw [hnil] at hlast
    cases hlast
  rw [List.getLast?_eq_some_getLast hne] at hlast
  exact List.rdropWhile_last_not _ _ hne (decide_eq_true (Option.some.inj hlast))

theorem normalizeLine_subset (l : JsText) : normalizeLine l ⊆ l :=
  fun _ h => capRuns_subset space 1 l 0 ((List.rdropWhile_prefix _ _).subset h)

theorem TidyLine.normalizeLine (h : TidyLine l) : normalizeLine l = l := by
  have hcapped : capRuns space 1 0 l = l := capRuns_of_capped (capped_of_chain h.chain (.inl rfl))
  rw [Services.normalizeLine, hcapped, List.rdropWhile_eq_self_iff]
  intro hne hspace
  refine h.last ?_
  rw [List.getLast?_eq_some_getLast hne, of_decide_eq_true hspace]

/-- Tidy lines make a text in which spaces are apart. -/
theorem chain_join (h : ∀ l ∈ ls, TidyLine l ∧ newline ∉ l) : (join newline ls).IsChain Apart := by
  have hline : ∀ l ∈ ls, l.IsChain Apart := by
    intro l hl
    obtain ⟨htidy, hnewline⟩ := h l hl
    rw [List.isChain_iff_getElem]
    intro i hi hspace
    refine ⟨fun hnext => ?_, fun hnext => hnewline (hnext ▸ List.getElem_mem _)⟩
    exact List.isChain_iff_getElem.mp htidy.chain i hi ⟨hspace, hnext⟩
  induction ls with
  | nil => exact .nil
  | cons l ls ih =>
    cases ls with
    | nil =>
      rw [join, List.intercalate_singleton]
      exact hline l (.head _)
    | cons m ls =>
      have hrest := ih (fun l hl => h l (.tail _ hl)) fun l hl => hline l (.tail _ hl)
      rw [join, List.intercalate_cons_cons, ← join, List.append_assoc, List.singleton_append,
        List.isChain_append, List.isChain_cons]
      refine ⟨hline l (.head _), ⟨fun v _ hspace => absurd hspace newline_ne_space, hrest⟩, ?_⟩
      intro u hu v _ hspace
      exact absurd (hspace ▸ hu) (h l (.head _)).1.last

/-- The lines of a text in which spaces are apart are tidy. -/
theorem tidy_of_chain (h : (join newline ls).IsChain Apart)
    (hlast : (join newline ls).getLast? ≠ some space) : ∀ l ∈ ls, TidyLine l := by
  have hline : ∀ {l : JsText}, l.IsChain Apart → l.IsChain fun u v => ¬ (u = space ∧ v = space) :=
    fun hl => hl.imp fun u v huv hboth => (huv hboth.1).1 hboth.2
  induction ls with
  | nil => exact fun l hl => absurd hl List.not_mem_nil
  | cons l ls ih =>
    cases ls with
    | nil =>
      rw [join, List.intercalate_singleton] at h hlast
      exact fun m hm => List.mem_singleton.mp hm ▸ ⟨hline h, hlast⟩
    | cons m ls =>
      rw [join, List.intercalate_cons_cons, ← join, List.append_assoc, List.singleton_append] at h hlast
      rw [List.isChain_append, List.isChain_cons] at h
      obtain ⟨hl, ⟨-, hrest⟩, hbreak⟩ := h
      intro k hk
      rcases List.mem_cons.mp hk with rfl | hk
      · refine ⟨hline hl, fun hspace => ?_⟩
        exact (hbreak space hspace newline rfl rfl).2 rfl
      · refine ih hrest (fun hspace => hlast ?_) k hk
        rw [List.getLast?_append, List.getLast?_cons, hspace]
        rfl

/-! ### Normal notes -/

/-- A unit that the check lets pass. -/
def IsPermitted (u : UInt16) : Prop :=
  isControlCodePoint u.toNat = false ∧ u.toNat ∉ REJECTED_FORMAT_CODE_POINTS

/-- What all passes leave alone. -/
structure Normal (s : JsText) : Prop where
  permitted : ∀ u ∈ s, IsPermitted u
  unified : ∀ u ∈ s, IsUnified u
  spaced : s.IsChain Apart
  breaks : Capped newline 2 0 s
  trimmed : trim isSpace s = s

/-- The check of the code points is one of the units: it concerns no surrogate and no pair. -/
theorem permitted_iff (t : JsText) :
    ((codePoints t).any fun cp => isControlCodePoint cp ∨ cp ∈ REJECTED_FORMAT_CODE_POINTS) = false ↔
      ∀ u ∈ t, IsPermitted u := by
  have hsurrogate : ∀ n, 0xD800 ≤ n ∧ n ≤ 0xDFFF ∨ 0x10000 ≤ n →
      isControlCodePoint n = false ∧ n ∉ REJECTED_FORMAT_CODE_POINTS := by
    intro n hn
    rw [isControlCodePoint, REJECTED_FORMAT_CODE_POINTS, decide_eq_false_iff_not]
    refine ⟨by omega, fun hmem => ?_⟩
    simp only [List.mem_cons, List.not_mem_nil, or_false] at hmem
    omega
  have hcheck : ∀ n, (decide (isControlCodePoint n ∨ n ∈ REJECTED_FORMAT_CODE_POINTS)) = false ↔
      isControlCodePoint n = false ∧ n ∉ REJECTED_FORMAT_CODE_POINTS := by
    intro n
    rw [decide_eq_false_iff_not, not_or, Bool.not_eq_true]
  rw [List.any_eq_false]
  simp only [Bool.not_eq_true, hcheck]
  constructor
  · intro h u hu
    rcases mem_codePoints_of_mem hu with hmem | hsur
    · exact h _ hmem
    · exact hsurrogate _ (.inl hsur)
  · intro h cp hcp
    rcases of_mem_codePoints hcp with ⟨u, hu, rfl⟩ | hlarge
    · exact h u hu
    · exact hsurrogate _ (.inr hlarge)

theorem Normal.last (h : Normal s) : s.getLast? ≠ some space := by
  intro hspace
  have hnot := trim_last s space (by rw [h.trimmed]; exact hspace)
  exact absurd hnot (by decide)

/-- The passes give a normal note. -/
theorem normal_of_ok (h : normalizeServiceNote raw = .ok s) :
    Normal s ∧ (codePoints s).length ≤ SERVICE_NOTE_MAX_CODE_POINTS := by
  rw [normalizeServiceNote] at h
  dsimp only at h
  split_ifs at h with hrejected hlong
  obtain rfl := ServiceNoteValidation.ok.inj h
  obtain ⟨u, hu⟩ : ∃ u, u = unify raw := ⟨_, rfl⟩
  rw [← hu] at hrejected hlong ⊢
  obtain ⟨v, hv⟩ : ∃ v, v = join newline ((lines newline u).map normalizeLine) := ⟨_, rfl⟩
  rw [← hv] at hlong ⊢
  have hpermitted := (permitted_iff u).mp (Bool.eq_false_iff.mpr hrejected)
  have hsubset : ∀ x ∈ v, x = newline ∨ x ∈ u := by
    intro x hx
    rw [hv] at hx
    rcases mem_of_mem_join hx with hx | ⟨l, hl, hx⟩
    · exact .inl hx
    · obtain ⟨line, hline, rfl⟩ := List.mem_map.mp hl
      right
      rw [← join_lines newline u]
      exact mem_join hline (normalizeLine_subset line hx)
  have hinner : ∀ x ∈ trim isSpace (capRuns newline 2 0 v), x = newline ∨ x ∈ u := fun x hx =>
    hsubset x (capRuns_subset newline 2 v 0 ((trim_within _).subset hx))
  have hchain : v.IsChain Apart := by
    rw [hv]
    refine chain_join fun l hl => ?_
    obtain ⟨line, hline, rfl⟩ := List.mem_map.mp hl
    exact ⟨normalizeLine_tidy line, fun h => notMem_of_mem_lines hline (normalizeLine_subset line h)⟩
  have hapart : ∀ x, Apart newline x := fun x h => absurd h newline_ne_space
  refine ⟨⟨fun x hx => ?_, fun x hx => ?_, ?_, ?_, trim_trim _⟩, not_lt.mp hlong⟩
  · rcases hinner x hx with rfl | hx
    · rw [IsPermitted]
      decide
    · exact hpermitted x hx
  · rcases hinner x hx with rfl | hx
    · exact isUnified_newline
    · exact isUnified_of_mem_unify (hu ▸ hx)
  · exact List.IsChain.infix (capRuns_chain hapart (by decide) hchain 0).1 (trim_within _)
  · exact (capRuns_capped newline 2 v 0).infix_of (trim_within _)

/-- The passes leave a normal note alone. -/
theorem Normal.again (h : Normal s) (hshort : (codePoints s).length ≤ SERVICE_NOTE_MAX_CODE_POINTS) :
    normalizeServiceNote s = .ok s := by
  have htidy : ∀ l ∈ lines newline s, TidyLine l := by
    refine tidy_of_chain ?_ ?_
    · rw [join_lines]
      exact h.spaced
    · rw [join_lines]
      exact h.last
  have hlines : (lines newline s).map normalizeLine = lines newline s :=
    (List.map_congr_left fun l hl => (htidy l hl).normalizeLine).trans (List.map_id _)
  rw [normalizeServiceNote, unify_of_isUnified h.unified]
  dsimp only
  rw [(permitted_iff s).mpr h.permitted, hlines, join_lines, capRuns_of_capped h.breaks, h.trimmed,
    if_neg Bool.false_ne_true, if_neg]
  exact not_lt.mpr hshort

/-! ### The note -/

/-- A note that may be shown as it is. -/
structure PlainNote (s : JsText) : Prop where
  again : normalizeServiceNote s = .ok s
  short : (codePoints s).length ≤ 120
  controls : ∀ cp ∈ codePoints s, cp < 0x20 ∨ 0x7F ≤ cp ∧ cp ≤ 0x9F → cp = 0xA
  formats : ∀ cp ∈ codePoints s, cp ∉ REJECTED_FORMAT_CODE_POINTS
  breaks : ¬ [newline, newline, newline] <:+: s
  lines : ∀ l ∈ TextLines.lines newline s, ¬ [space, space] <:+: l ∧ l.getLast? ≠ some space
  edges : ∀ u, s.head? = some u ∨ s.getLast? = some u → isSpace u = false

/-- Whatever is accepted is a plain note, which is left alone. -/
theorem note_normalized (raw s : JsText) (h : normalizeServiceNote raw = .ok s) : PlainNote s := by
  obtain ⟨hnormal, hshort⟩ := normal_of_ok h
  have hcheck := List.any_eq_false.mp ((permitted_iff s).mpr hnormal.permitted)
  have hplain : ∀ cp ∈ codePoints s,
      isControlCodePoint cp = false ∧ cp ∉ REJECTED_FORMAT_CODE_POINTS := by
    intro cp hcp
    have hcp := hcheck cp hcp
    rw [decide_eq_true_eq, not_or, Bool.not_eq_true] at hcp
    exact hcp
  refine ⟨hnormal.again hshort, hshort, fun cp hcp hcontrol => ?_, fun cp hcp => (hplain cp hcp).2,
    hnormal.breaks.no_run, fun l hl => ?_, fun u hu => ?_⟩
  · have hnot := (hplain cp hcp).1
    rw [isControlCodePoint, decide_eq_false_iff_not] at hnot
    omega
  · have htidy : TidyLine l := by
      refine tidy_of_chain ?_ ?_ l hl
      · rw [join_lines]
        exact hnormal.spaced
      · rw [join_lines]
        exact hnormal.last
    exact ⟨(capped_of_chain htidy.chain (.inl rfl)).no_run, htidy.last⟩
  · rcases hu with hu | hu
    · exact trim_head s u (by rw [hnormal.trimmed]; exact hu)
    · exact trim_last s u (by rw [hnormal.trimmed]; exact hu)

/-- A note with every kind of space. -/
def spacedNote : JsText := ofChars ['\t', 'a', ' ', ' ', 'b', ' ', '\r', '\n', '\r', '\n', '\r', 'c', ' ']

theorem note_normalized_spaced :
    normalizeServiceNote spacedNote = .ok (ofChars ['a', ' ', 'b', '\n', '\n', 'c']) ∧
      PlainNote (ofChars ['a', ' ', 'b', '\n', '\n', 'c']) :=
  ⟨by decide +kernel, note_normalized spacedNote _ (by decide +kernel)⟩

end ZedBot.Services
