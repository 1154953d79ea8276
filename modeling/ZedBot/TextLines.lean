import Mathlib.Data.List.Chain
import Mathlib.Data.List.DropRight
import Mathlib.Data.Nat.Notation
import Mathlib.Tactic.SplitIfs

/-! Lines of a text.

    A text is split at its newlines, and a line is trimmed at its ends. The trimmed lines of a
    trimmed text are those of the text without the empty ones at the ends; and a carriage return
    before a newline is lost in a trimmed line, whether it has been removed before or not. -/

namespace TextLines

variable {α : Type} [DecidableEq α]

/-- The lines of a text. -/
def lines (newline : α) (t : List α) : List (List α) := t.splitOn newline

/-- A text of lines. -/
def join (newline : α) (ls : List (List α)) : List α := [newline].intercalate ls

/-- A text without the space at its ends. -/
def trim (space : α → Bool) (t : List α) : List α := (t.rdropWhile space).dropWhile space

/-- Each carriage return that stands before a newline is removed, in one pass. -/
def crlfToLf (cr newline : α) : List α → List α
  | [] => []
  | [c] => [c]
  | c :: d :: cs =>
    if c = cr ∧ d = newline then newline :: crlfToLf cr newline cs
    else c :: crlfToLf cr newline (d :: cs)

def trimmedLines (space : α → Bool) (newline : α) (t : List α) : List (List α) :=
  (lines newline t).map (trim space)

/-- A list without the empty texts at its ends. -/
def stripEmpty (ls : List (List α)) : List (List α) :=
  (ls.rdropWhile (·.isEmpty)).dropWhile (·.isEmpty)

/-- The trimmed lines of a text that are not blank. -/
def visibleLines (space : α → Bool) (newline : α) (t : List α) : List (List α) :=
  (trimmedLines space newline t).filter (!·.isEmpty)

variable {space : α → Bool} {newline cr c : α} {t u l : List α} {ls : List (List α)}

/-! ### Trimming -/

omit [DecidableEq α] in
theorem rdropWhile_cons (c : α) (t : List α) : (c :: t).rdropWhile space =
    if t.rdropWhile space = [] then (if space c then [] else [c])
    else c :: t.rdropWhile space := by
  rw [List.rdropWhile, List.rdropWhile, List.reverse_cons, List.dropWhile_append]
  by_cases hnil : t.reverse.dropWhile space = []
  · rw [if_pos (List.isEmpty_iff.mpr hnil), if_pos (List.reverse_eq_nil_iff.mpr hnil)]
    rw [List.dropWhile_cons]
    split_ifs <;> rfl
  · rw [if_neg (fun h => hnil (List.isEmpty_iff.mp h)),
      if_neg (fun h => hnil (List.reverse_eq_nil_iff.mp h)), List.reverse_append]
    rfl

omit [DecidableEq α] in
theorem trim_concat (h : space c = true) : trim space (t ++ [c]) = trim space t := by
  rw [trim, List.rdropWhile_concat_pos _ _ _ h, trim]

omit [DecidableEq α] in
theorem trim_cons (h : space c = true) : trim space (c :: t) = trim space t := by
  rw [trim, rdropWhile_cons]
  split_ifs with hnil
  · rw [trim, hnil]
  · rw [List.dropWhile_cons, if_pos h, trim]

omit [DecidableEq α] in
theorem trim_eq_nil : trim space t = [] ↔ ∀ x ∈ t, space x = true := by
  rw [trim, List.dropWhile_eq_nil_iff]
  constructor
  · intro h
    by_contra hnot
    have hne : t.rdropWhile space ≠ [] := fun hnil => hnot (List.rdropWhile_eq_nil_iff.mp hnil)
    exact List.rdropWhile_last_not _ _ hne (h _ (List.getLast_mem hne))
  · exact fun h x hx => h x ((List.rdropWhile_prefix space t).subset hx)

omit [DecidableEq α] in
theorem trim_ne_nil_of_mem (hmem : c ∈ t) (h : space c = false) : trim space t ≠ [] := by
  intro hnil
  rw [trim_eq_nil.mp hnil c hmem] at h
  cases h

omit [DecidableEq α] in
theorem trim_head (t : List α) : ∀ x ∈ (trim space t).head?, space x = false := by
  intro x hx
  have hnot := List.head?_dropWhile_not space (t.rdropWhile space)
  rw [show List.head? (List.dropWhile space (t.rdropWhile space)) = some x from hx] at hnot
  simpa using hnot

omit [DecidableEq α] in
theorem trim_last (t : List α) : ∀ x ∈ (trim space t).getLast?, space x = false := by
  intro x hx
  obtain ⟨pre, hpre⟩ := List.dropWhile_suffix space (l := t.rdropWhile space)
  have hlast : (t.rdropWhile space).getLast? = some x := by
    rw [← hpre, List.getLast?_append, show List.getLast? (List.dropWhile space _) = some x from hx]
    rfl
  have hne : t.rdropWhile space ≠ [] := by
    intro hnil
    rw [hnil] at hlast
    cases hlast
  rw [List.getLast?_eq_some_getLast hne] at hlast
  exact Bool.eq_false_iff.mpr (Option.some.inj hlast ▸ List.rdropWhile_last_not _ _ hne)

omit [DecidableEq α] in
/-- A text without space at its ends. -/
theorem trim_eq_self (hhead : ∀ x ∈ t.head?, space x = false)
    (hlast : ∀ x ∈ t.getLast?, space x = false) : trim space t = t := by
  have hend : t.rdropWhile space = t := by
    refine List.rdropWhile_eq_self_iff.mpr fun hne => ?_
    rw [hlast _ (List.getLast?_eq_some_getLast hne)]
    exact Bool.false_ne_true
  rw [trim, hend]
  cases t with
  | nil => rfl
  | cons c cs => rw [List.dropWhile_cons, if_neg (by rw [hhead c rfl]; exact Bool.false_ne_true)]

omit [DecidableEq α] in
@[simp] theorem trim_trim (t : List α) : trim space (trim space t) = trim space t :=
  trim_eq_self (trim_head t) (trim_last t)

omit [DecidableEq α] in
theorem trim_nil : trim space [] = [] := rfl

omit [DecidableEq α] in
/-- A text is its trimmed text with space around it. -/
theorem trim_split (space : α → Bool) (t : List α) : ∃ pre post, t = pre ++ trim space t ++ post ∧
    (∀ x ∈ pre, space x = true) ∧ ∀ x ∈ post, space x = true := by
  refine ⟨(t.rdropWhile space).takeWhile space, t.rtakeWhile space, ?_, fun x hx => ?_, fun x hx => ?_⟩
  · rw [trim, List.takeWhile_append_dropWhile, List.rdropWhile_append_rtakeWhile]
  · exact List.mem_takeWhile_imp hx
  · exact List.mem_rtakeWhile_imp hx

omit [DecidableEq α] in
/-- Space around a text is trimmed away. -/
theorem trim_around {pre post : List α} (hpre : ∀ x ∈ pre, space x = true)
    (hpost : ∀ x ∈ post, space x = true) (t : List α) :
    trim space (pre ++ t ++ post) = trim space t := by
  induction pre with
  | nil =>
    rw [List.nil_append]
    induction post using List.reverseRecOn with
    | nil => rw [List.append_nil]
    | append_singleton post x ih =>
      rw [← List.append_assoc, trim_concat (hpost x (List.mem_append_right _ (.head _)))]
      exact ih fun y hy => hpost y (List.mem_append_left _ hy)
  | cons x pre ih =>
    rw [List.cons_append, List.cons_append, trim_cons (hpre x (.head _))]
    exact ih fun y hy => hpre y (.tail _ hy)

omit [DecidableEq α] in
theorem trim_within (t : List α) : trim space t <:+: t :=
  (List.dropWhile_suffix space).isInfix.trans (List.rdropWhile_prefix space t).isInfix

/-! ### Lines -/

theorem lines_cons_newline (newline : α) (t : List α) :
    lines newline (newline :: t) = [] :: lines newline t := by
  rw [lines, List.splitOn_cons_eq_if_modifyHead, if_pos (beq_self_eq_true newline), lines]

theorem lines_cons (h : c ≠ newline) :
    lines newline (c :: t) = (lines newline t).modifyHead (c :: ·) := by
  rw [lines, List.splitOn_cons_eq_if_modifyHead, if_neg (by simpa using h), lines]

theorem lines_append (newline : α) (t u : List α) :
    lines newline (t ++ newline :: u) = lines newline t ++ lines newline u :=
  List.splitOn_append_cons_self t u

theorem lines_ne_nil (newline : α) (t : List α) : lines newline t ≠ [] :=
  List.splitOn_ne_nil newline t

theorem lines_of_notMem (h : newline ∉ t) : lines newline t = [t] := List.splitOn_eq_singleton h

theorem join_lines (newline : α) (t : List α) : join newline (lines newline t) = t :=
  List.intercalate_splitOn newline

/-- A character that is no newline goes to the last line. -/
theorem lines_concat (h : c ≠ newline) (t : List α) :
    ∃ ls l, lines newline t = ls ++ [l] ∧ lines newline (t ++ [c]) = ls ++ [l ++ [c]] := by
  induction t with
  | nil => exact ⟨[], [], rfl, lines_of_notMem (by simpa using h.symm)⟩
  | cons x xs ih =>
    obtain ⟨ls, l, hxs, hconcat⟩ := ih
    rw [List.cons_append]
    by_cases hx : x = newline
    · rw [hx, lines_cons_newline, lines_cons_newline, hxs, hconcat]
      exact ⟨[] :: ls, l, rfl, rfl⟩
    · rw [lines_cons hx, lines_cons hx, hxs, hconcat]
      cases ls with
      | nil => exact ⟨[], x :: l, rfl, rfl⟩
      | cons head ls => exact ⟨(x :: head) :: ls, l, rfl, rfl⟩

/-- Every line of joined texts is a line of one of them. -/
theorem lines_join (newline : α) : ∀ {ts : List (List α)}, ts ≠ [] →
    lines newline (join newline ts) = ts.flatMap (lines newline)
  | [], h => (h rfl).elim
  | [t], _ => by simp [join]
  | t :: u :: ts, _ => by
    have ih := lines_join newline (List.cons_ne_nil u ts)
    rw [join, List.intercalate_cons_cons, ← join, List.append_assoc, List.singleton_append,
      lines_append, ih]
    rfl

theorem notMem_of_mem_lines (hl : l ∈ lines newline t) : newline ∉ l := by
  induction t generalizing l with
  | nil =>
    rw [List.mem_singleton.mp hl]
    exact List.not_mem_nil
  | cons c cs ih =>
    by_cases hc : c = newline
    · rw [hc, lines_cons_newline] at hl
      rcases List.mem_cons.mp hl with rfl | hl
      · exact List.not_mem_nil
      · exact ih hl
    · rw [lines_cons hc] at hl
      cases hls : lines newline cs with
      | nil => exact (lines_ne_nil newline cs hls).elim
      | cons head ls =>
        rw [hls, List.modifyHead_cons] at hl
        rw [hls] at ih
        rcases List.mem_cons.mp hl with rfl | hl
        · intro hmem
          rcases List.mem_cons.mp hmem with heq | hmem
          · exact hc heq.symm
          · exact ih (.head _) hmem
        · exact ih (.tail _ hl)

/-- Lines without a newline are the lines of their text. -/
theorem lines_join_of_notMem (h : ∀ l ∈ ls, newline ∉ l) (hne : ls ≠ []) :
    lines newline (join newline ls) = ls := List.splitOn_intercalate newline h hne

theorem mem_join {x : α} (hl : l ∈ ls) (hx : x ∈ l) : x ∈ join newline ls := by
  induction ls with
  | nil => cases hl
  | cons head ls ih =>
    cases ls with
    | nil =>
      rw [List.mem_singleton.mp hl] at hx
      simpa [join] using hx
    | cons next ls =>
      rw [join, List.intercalate_cons_cons, ← join, List.mem_append]
      rcases List.mem_cons.mp hl with rfl | hl
      · exact .inl (List.mem_append_left _ hx)
      · exact .inr (ih hl)

omit [DecidableEq α] in
theorem mem_of_mem_join {x : α} (hx : x ∈ join newline ls) : x = newline ∨ ∃ l ∈ ls, x ∈ l := by
  induction ls with
  | nil => cases hx
  | cons l ls ih =>
    cases ls with
    | nil =>
      rw [join, List.intercalate_singleton] at hx
      exact .inr ⟨l, .head _, hx⟩
    | cons m ls =>
      rw [join, List.intercalate_cons_cons, ← join] at hx
      rcases List.mem_append.mp hx with hx | hx
      · rcases List.mem_append.mp hx with hx | hx
        · exact .inr ⟨l, .head _, hx⟩
        · exact .inl (List.mem_singleton.mp hx)
      · rcases ih hx with heq | ⟨k, hk, hx⟩
        · exact .inl heq
        · exact .inr ⟨k, .tail _ hk, hx⟩

omit [DecidableEq α] in
theorem filter_stripEmpty (ls : List (List α)) :
    (stripEmpty ls).filter (!·.isEmpty) = ls.filter (!·.isEmpty) := by
  have hfront : ∀ ls : List (List α),
      (ls.dropWhile (·.isEmpty)).filter (!·.isEmpty) = ls.filter (!·.isEmpty) := by
    intro ls
    have hnone : (ls.takeWhile (·.isEmpty)).filter (!·.isEmpty) = [] := by
      refine List.filter_eq_nil_iff.mpr fun l hl => ?_
      rw [List.mem_takeWhile_imp hl]
      exact fun h => nomatch h
    calc (ls.dropWhile (·.isEmpty)).filter (!·.isEmpty)
        = (ls.takeWhile (·.isEmpty) ++ ls.dropWhile (·.isEmpty)).filter (!·.isEmpty) := by
          rw [List.filter_append, hnone, List.nil_append]
      _ = ls.filter (!·.isEmpty) := by rw [List.takeWhile_append_dropWhile]
  rw [stripEmpty, hfront, List.rdropWhile, List.filter_reverse, hfront, List.filter_reverse,
    List.reverse_reverse]

/-- A text of trimmed texts is trimmed. -/
theorem trim_join (h : ∀ t ∈ ls, trim space t = t ∧ t ≠ []) :
    trim space (join newline ls) = join newline ls := by
  have hhead : ∀ x ∈ (join newline ls).head?, space x = false := by
    intro x hx
    cases ls with
    | nil => cases hx
    | cons t ts =>
      obtain ⟨htrim, hne⟩ := h t (.head _)
      refine trim_head t x ?_
      rw [htrim]
      cases t with
      | nil => exact (hne rfl).elim
      | cons c cs =>
        cases ts with
        | nil => simpa [join] using hx
        | cons u ts => simpa [join] using hx
  have hlast : ∀ {ls : List (List α)}, (∀ t ∈ ls, trim space t = t ∧ t ≠ []) →
      ∀ x ∈ (join newline ls).getLast?, space x = false := by
    intro ls
    induction ls with
    | nil => exact fun _ x hx => nomatch hx
    | cons t ts ih =>
      intro h x hx
      cases ts with
      | nil =>
        obtain ⟨htrim, -⟩ := h t (.head _)
        refine trim_last t x ?_
        rw [htrim]
        simpa [join] using hx
      | cons u ts =>
        refine ih (fun v hv => h v (.tail _ hv)) x ?_
        have hne : join newline (u :: ts) ≠ [] := by
          obtain ⟨-, hu⟩ := h u (.tail _ (.head _))
          obtain ⟨c, hc⟩ := List.exists_mem_of_ne_nil u hu
          exact List.ne_nil_of_mem (mem_join (.head _) hc)
        rw [join, List.intercalate_cons_cons, ← join, List.getLast?_append,
          List.getLast?_eq_some_getLast hne] at hx
        rw [List.getLast?_eq_some_getLast hne]
        exact hx
  exact trim_eq_self hhead (hlast h)

section Space

variable (hspace : space newline = true)
include hspace

/-- Space at the front of a text leaves its trimmed lines, apart from empty ones at the front. -/
theorem trimmedLines_dropWhile (h : ∃ c ∈ t, space c = false) :
    trimmedLines space newline (t.dropWhile space) =
      (trimmedLines space newline t).dropWhile (·.isEmpty) := by
  induction t with
  | nil =>
    obtain ⟨c, hc, -⟩ := h
    cases hc
  | cons c cs ih =>
    by_cases hc : space c = true
    · have hcs : ∃ c ∈ cs, space c = false := by
        obtain ⟨x, hx, hxs⟩ := h
        rcases List.mem_cons.mp hx with rfl | hx
        · rw [hc] at hxs
          cases hxs
        · exact ⟨x, hx, hxs⟩
      rw [List.dropWhile_cons, if_pos hc, ih hcs]
      by_cases hn : c = newline
      · rw [trimmedLines, trimmedLines, hn, lines_cons_newline, List.map_cons, List.dropWhile_cons,
          if_pos (by rfl)]
      · rw [trimmedLines, trimmedLines, lines_cons hn]
        cases hls : lines newline cs with
        | nil => exact (lines_ne_nil newline cs hls).elim
        | cons l ls =>
          rw [List.modifyHead_cons, List.map_cons, List.map_cons, trim_cons hc]
    · have hn : c ≠ newline := fun hn => hc (hn ▸ hspace)
      rw [List.dropWhile_cons, if_neg hc, trimmedLines, lines_cons hn]
      cases hls : lines newline cs with
      | nil => exact (lines_ne_nil newline cs hls).elim
      | cons l ls =>
        rw [List.modifyHead_cons, List.map_cons, List.dropWhile_cons, if_neg]
        rw [List.isEmpty_iff]
        exact trim_ne_nil_of_mem List.mem_cons_self (Bool.eq_false_iff.mpr hc)

/-- Space at the end of a text leaves its trimmed lines, apart from empty ones at the end. -/
theorem trimmedLines_rdropWhile (h : ∃ c ∈ t, space c = false) :
    trimmedLines space newline (t.rdropWhile space) =
      (trimmedLines space newline t).rdropWhile (·.isEmpty) := by
  induction t using List.reverseRecOn with
  | nil =>
    obtain ⟨c, hc, -⟩ := h
    cases hc
  | append_singleton cs c ih =>
    by_cases hc : space c = true
    · have hcs : ∃ c ∈ cs, space c = false := by
        obtain ⟨x, hx, hxs⟩ := h
        rcases List.mem_append.mp hx with hx | hx
        · exact ⟨x, hx, hxs⟩
        · rw [List.mem_singleton.mp hx, hc] at hxs
          cases hxs
      rw [List.rdropWhile_concat_pos _ _ _ hc, ih hcs]
      by_cases hn : c = newline
      · rw [trimmedLines, trimmedLines, hn, lines_append, List.map_append]
        exact (List.rdropWhile_concat_pos _ _ _ (by rfl)).symm
      · obtain ⟨ls, l, hls, hconcat⟩ := lines_concat hn cs
        rw [trimmedLines, trimmedLines, hconcat, hls, List.map_append, List.map_append,
          List.map_singleton, List.map_singleton, trim_concat hc]
    · have hn : c ≠ newline := fun hn => hc (hn ▸ hspace)
      obtain ⟨ls, l, hls, hconcat⟩ := lines_concat hn cs
      rw [List.rdropWhile_concat_neg _ _ _ hc, trimmedLines, hconcat, List.map_append,
        List.map_singleton, List.rdropWhile_concat_neg]
      rw [List.isEmpty_iff]
      refine trim_ne_nil_of_mem ?_ (Bool.eq_false_iff.mpr hc)
      exact List.mem_append_right _ (List.mem_singleton_self _)

/-- TRIM: the trimmed lines of a trimmed text are those of the text without the empty ones at its
    ends. -/
theorem trimmedLines_trim (h : trim space t ≠ []) :
    trimmedLines space newline (trim space t) = stripEmpty (trimmedLines space newline t) := by
  have hvisible : ∃ c ∈ t, space c = false := by
    by_contra hnone
    refine h (trim_eq_nil.mpr fun x hx => ?_)
    by_contra hx'
    exact hnone ⟨x, hx, Bool.eq_false_iff.mpr hx'⟩
  have hend : ∃ c ∈ t.rdropWhile space, space c = false := by
    have hne : t.rdropWhile space ≠ [] := by
      intro hnil
      rw [trim, hnil] at h
      exact h rfl
    exact ⟨_, List.getLast_mem hne, Bool.eq_false_iff.mpr (List.rdropWhile_last_not _ _ hne)⟩
  rw [trim, trimmedLines_dropWhile hspace hend, trimmedLines_rdropWhile hspace hvisible, stripEmpty]

/-- The visible lines of a trimmed text. -/
theorem visibleLines_trim (t : List α) :
    visibleLines space newline (trim space t) = visibleLines space newline t := by
  by_cases h : trim space t = []
  · have hblank : ∀ l ∈ trimmedLines space newline t, l = [] := by
      intro l hl
      rw [trimmedLines] at hl
      obtain ⟨line, hline, rfl⟩ := List.mem_map.mp hl
      refine trim_eq_nil.mpr fun x hx => trim_eq_nil.mp h x ?_
      rw [← join_lines newline t]
      exact mem_join hline hx
    rw [h, visibleLines, visibleLines, List.filter_eq_nil_iff.mpr, List.filter_eq_nil_iff.mpr]
    · intro l hl
      rw [hblank l hl]
      exact fun h => nomatch h
    · intro l hl
      rw [show trimmedLines space newline [] = [[]] from rfl, List.mem_singleton] at hl
      rw [hl]
      exact fun h => nomatch h
  · rw [visibleLines, trimmedLines_trim hspace h, filter_stripEmpty, visibleLines]

end Space

/-- The visible lines of a text of lines. -/
theorem visibleLines_join (h : ∀ l ∈ ls, newline ∉ l) :
    visibleLines space newline (join newline ls) = (ls.map (trim space)).filter (!·.isEmpty) := by
  cases ls with
  | nil => rfl
  | cons l ls =>
    rw [visibleLines, trimmedLines, lines_join_of_notMem h (List.cons_ne_nil l ls)]

/-! ### Carriage returns -/

theorem crlfToLf_cons (h : ¬ (c = cr ∧ t.head? = some newline)) :
    crlfToLf cr newline (c :: t) = c :: crlfToLf cr newline t := by
  cases t with
  | nil => rfl
  | cons d cs =>
    rw [crlfToLf, if_neg]
    rintro ⟨hc, rfl⟩
    exact h ⟨hc, rfl⟩

theorem crlfToLf_cr_newline (cr newline : α) (t : List α) :
    crlfToLf cr newline (cr :: newline :: t) = newline :: crlfToLf cr newline t := by
  rw [crlfToLf, if_pos ⟨rfl, rfl⟩]

/-- The cases of a text as the pass sees them. -/
theorem crlf_cases (cr newline : α) {P : List α → Prop} (nil : P [])
    (pair : ∀ t, P t → P (cr :: newline :: t))
    (other : ∀ c t, ¬ (c = cr ∧ t.head? = some newline) → P t → P (c :: t)) : ∀ t, P t
  | [] => nil
  | [c] => other c [] (fun h => nomatch h.2) nil
  | c :: d :: cs => by
    have hcs := crlf_cases cr newline nil pair other cs
    have hd := crlf_cases cr newline nil pair other (d :: cs)
    by_cases h : c = cr ∧ d = newline
    · rw [h.1, h.2]
      exact pair cs hcs
    · exact other c _ (fun hcd => h ⟨hcd.1, Option.some.inj hcd.2⟩) hd

/-- The pass changes no line but at its end. -/
theorem crlf_lines (hcr : space cr = true) (hne : cr ≠ newline) (t : List α) :
    (lines newline (crlfToLf cr newline t)).map (List.rdropWhile space) =
      (lines newline t).map (List.rdropWhile space) := by
  induction t using crlf_cases cr newline with
  | nil => rfl
  | pair t ih =>
    have hline : lines newline (cr :: newline :: t) = [cr] :: lines newline t := by
      rw [lines_cons hne, lines_cons_newline, List.modifyHead_cons]
    rw [crlfToLf_cr_newline, lines_cons_newline, hline, List.map_cons, List.map_cons, ih,
      List.rdropWhile_singleton, if_pos hcr]
    rfl
  | other c t hc ih =>
    rw [crlfToLf_cons hc]
    by_cases hn : c = newline
    · rw [hn, lines_cons_newline, lines_cons_newline, List.map_cons, List.map_cons, ih]
    · rw [lines_cons hn, lines_cons hn]
      cases hls : lines newline t with
      | nil => exact (lines_ne_nil newline t hls).elim
      | cons l ls =>
        cases hls' : lines newline (crlfToLf cr newline t) with
        | nil => exact (lines_ne_nil newline _ hls').elim
        | cons l' ls' =>
          rw [hls, hls', List.map_cons, List.map_cons] at ih
          obtain ⟨hhead, htail⟩ := List.cons.inj ih
          rw [List.modifyHead_cons, List.modifyHead_cons, List.map_cons, List.map_cons, htail,
            rdropWhile_cons, rdropWhile_cons, hhead]

/-- CRLF: the trimmed lines are the same. -/
theorem trimmedLines_crlf (hcr : space cr = true) (hne : cr ≠ newline) (t : List α) :
    trimmedLines space newline (crlfToLf cr newline t) = trimmedLines space newline t := by
  have htrim : ∀ ls : List (List α), ls.map (trim space) =
      (ls.map (List.rdropWhile space)).map (List.dropWhile space) := by
    intro ls
    rw [List.map_map]
    rfl
  rw [trimmedLines, trimmedLines, htrim, htrim, crlf_lines hcr hne]

theorem crlf_head (h : t.head? ≠ some cr) : (crlfToLf cr newline t).head? = t.head? := by
  cases t with
  | nil => rfl
  | cons c cs =>
    rw [crlfToLf_cons fun hc => h (congrArg some hc.1)]
    rfl

theorem crlf_eq_nil : crlfToLf cr newline t = [] ↔ t = [] := by
  induction t using crlf_cases cr newline with
  | nil => exact Iff.rfl
  | pair t _ => rw [crlfToLf_cr_newline]; exact iff_of_false nofun nofun
  | other c t hc _ => rw [crlfToLf_cons hc]; exact iff_of_false nofun nofun

theorem crlf_last (t : List α) : (crlfToLf cr newline t).getLast? = t.getLast? := by
  induction t using crlf_cases cr newline with
  | nil => rfl
  | pair t ih => rw [crlfToLf_cr_newline, List.getLast?_cons, List.getLast?_cons, ih,
      List.getLast?_cons, Option.getD_some]
  | other c t hc ih => rw [crlfToLf_cons hc, List.getLast?_cons, List.getLast?_cons, ih]

/-- A trimmed text stays trimmed. -/
theorem trim_crlf (hcr : space cr = true) (t : List α) :
    trim space (crlfToLf cr newline (trim space t)) = crlfToLf cr newline (trim space t) := by
  refine trim_eq_self (fun x hx => trim_head t x ?_) fun x hx => trim_last t x ?_
  · rw [crlf_head] at hx
    · exact hx
    · intro hhead
      have hnot := trim_head t cr hhead
      rw [hcr] at hnot
      cases hnot
  · rwa [crlf_last] at hx

theorem crlf_append (hne : cr ≠ newline) (h : t.getLast? ≠ some cr) (u : List α) :
    crlfToLf cr newline (t ++ newline :: u) =
      crlfToLf cr newline t ++ newline :: crlfToLf cr newline u := by
  induction t using crlf_cases cr newline with
  | nil => exact crlfToLf_cons fun hc => hne hc.1.symm
  | pair t ih =>
    rw [List.cons_append, List.cons_append, crlfToLf_cr_newline, crlfToLf_cr_newline,
      List.cons_append, ih]
    intro hlast
    rw [List.getLast?_cons, List.getLast?_cons, hlast] at h
    exact h rfl
  | other c t hc ih =>
    cases t with
    | nil =>
      have hc' : c ≠ cr := fun hc' => h (congrArg some hc')
      rw [List.singleton_append, crlfToLf_cons fun h' => hc' h'.1,
        crlfToLf_cons fun h' => hne h'.1.symm]
      rfl
    | cons d t =>
      have hlast : (d :: t).getLast? ≠ some cr := by
        rwa [List.getLast?_cons_cons] at h
      rw [List.cons_append, crlfToLf_cons hc, crlfToLf_cons (by exact hc), ih hlast]
      rfl

/-- Texts that do not end with a carriage return are rewritten one by one. -/
theorem crlf_join (hne : cr ≠ newline) : ∀ {ts : List (List α)}, (∀ t ∈ ts, t.getLast? ≠ some cr) →
    crlfToLf cr newline (join newline ts) = join newline (ts.map (crlfToLf cr newline))
  | [], _ => rfl
  | [t], _ => by simp [join]
  | t :: u :: ts, h => by
    have ih : crlfToLf cr newline (join newline (u :: ts)) =
        join newline ((u :: ts).map (crlfToLf cr newline)) :=
      crlf_join hne fun v hv => h v (.tail _ hv)
    have hrest : (u :: ts).map (crlfToLf cr newline) =
        crlfToLf cr newline u :: ts.map (crlfToLf cr newline) := List.map_cons
    rw [join, List.intercalate_cons_cons, ← join, List.append_assoc, List.singleton_append,
      crlf_append hne (h t (.head _)), ih, hrest, List.map_cons, hrest, join, join,
      List.intercalate_cons_cons, List.append_assoc, List.singleton_append]

theorem crlf_length (t : List α) : (crlfToLf cr newline t).length ≤ t.length := by
  induction t using crlf_cases cr newline with
  | nil => exact Nat.le_refl _
  | pair t ih =>
    rw [crlfToLf_cr_newline, List.length_cons, List.length_cons, List.length_cons]
    omega
  | other c t hc ih =>
    rw [crlfToLf_cons hc, List.length_cons, List.length_cons]
    omega

/-! ### Runs -/

/-- A text whose runs of `c` are cut to `k`; `n` of them have been seen. -/
def capRuns (c : α) (k : ℕ) : ℕ → List α → List α
  | _, [] => []
  | n, x :: t =>
    if x = c then
      if n < k then x :: capRuns c k (n + 1) t else capRuns c k n t
    else x :: capRuns c k 0 t

/-- No run of `c` is longer than `k`; `n` of them have been seen. -/
def Capped (c : α) (k : ℕ) : ℕ → List α → Prop
  | _, [] => True
  | n, x :: t => if x = c then n < k ∧ Capped c k (n + 1) t else Capped c k 0 t

variable {k n m : ℕ}

theorem capRuns_capped (c : α) (k : ℕ) (t : List α) : ∀ n, Capped c k n (capRuns c k n t) := by
  induction t with
  | nil => exact fun _ => trivial
  | cons x t ih =>
    intro n
    rw [capRuns]
    split_ifs with hx hn
    · rw [Capped, if_pos hx]
      exact ⟨hn, ih (n + 1)⟩
    · exact ih n
    · rw [Capped, if_neg hx]
      exact ih 0

theorem capRuns_of_capped (h : Capped c k n t) : capRuns c k n t = t := by
  induction t generalizing n with
  | nil => rfl
  | cons x t ih =>
    rw [Capped] at h
    rw [capRuns]
    split_ifs at h with hx
    · rw [if_pos hx, if_pos h.1, ih h.2]
    · rw [if_neg hx, ih h]

theorem capRuns_subset (c : α) (k : ℕ) (t : List α) : ∀ n, capRuns c k n t ⊆ t := by
  induction t with
  | nil => exact fun _ => List.Subset.refl _
  | cons x t ih =>
    intro n
    rw [capRuns]
    split_ifs
    · exact List.cons_subset_cons x (ih (n + 1))
    · exact List.subset_cons_of_subset x (ih n)
    · exact List.cons_subset_cons x (ih 0)

theorem Capped.mono (h : Capped c k n t) (hm : m ≤ n) : Capped c k m t := by
  induction t generalizing n m with
  | nil => trivial
  | cons x t ih =>
    rw [Capped] at h ⊢
    split_ifs at h ⊢ with hx
    · exact ⟨by omega, ih h.2 (by omega)⟩
    · exact h

theorem Capped.suffix {u : List α} (h : Capped c k n t) (hu : u <:+ t) : Capped c k 0 u := by
  obtain ⟨pre, rfl⟩ := hu
  induction pre generalizing n with
  | nil => exact h.mono (Nat.zero_le n)
  | cons x pre ih =>
    rw [List.cons_append, Capped] at h
    split_ifs at h
    · exact ih h.2
    · exact ih h

theorem Capped.left (h : Capped c k n (t ++ u)) : Capped c k n t := by
  induction t generalizing n with
  | nil => trivial
  | cons x t ih =>
    rw [List.cons_append, Capped] at h
    rw [Capped]
    split_ifs at h ⊢ with hx
    · exact ⟨h.1, ih h.2⟩
    · exact ih h

theorem Capped.infix_of {u : List α} (h : Capped c k n t) (hu : u <:+: t) : Capped c k 0 u := by
  obtain ⟨pre, post, rfl⟩ := hu
  exact h.left.suffix (List.suffix_append pre u)

/-- A run that is too long is not capped. -/
theorem not_capped_replicate (hm : k < n + m) : ¬ Capped c k n (List.replicate m c) ∨ m = 0 := by
  induction m generalizing n with
  | zero => exact .inr rfl
  | succ m ih =>
    left
    rw [List.replicate_succ, Capped, if_pos rfl]
    rintro ⟨hn, h⟩
    rcases ih (by omega : k < n + 1 + m) with hnot | hzero
    · exact hnot h
    · omega

theorem Capped.no_run (h : Capped c k n t) : ¬ List.replicate (k + 1) c <:+: t := by
  intro hrun
  have hlong : k < 0 + (k + 1) := by omega
  rcases not_capped_replicate (c := c) hlong with hnot | hzero
  · exact hnot (h.infix_of hrun)
  · omega

/-- Runs of one: no two in a row. -/
theorem Capped.chain (h : Capped c 1 n t) : t.IsChain fun x y => ¬ (x = c ∧ y = c) := by
  induction t generalizing n with
  | nil => exact .nil
  | cons x t ih =>
    rw [Capped] at h
    rw [List.isChain_cons]
    split_ifs at h with hx
    · refine ⟨fun y hy => ?_, ih h.2⟩
      rintro ⟨-, rfl⟩
      cases t with
      | nil => cases hy
      | cons z t =>
        obtain rfl : z = y := Option.some.inj hy
        rw [Capped, if_pos rfl] at h
        omega
    · exact ⟨fun y _ hxy => hx hxy.1, ih h⟩

theorem capped_of_chain (h : t.IsChain fun x y => ¬ (x = c ∧ y = c))
    (hn : n = 0 ∨ t.head? ≠ some c) : Capped c 1 n t := by
  induction t generalizing n with
  | nil => trivial
  | cons x t ih =>
    rw [List.isChain_cons] at h
    rw [Capped]
    split_ifs with hx
    · refine ⟨?_, ih h.2 (.inr fun hc => h.1 c hc ⟨hx, rfl⟩)⟩
      rcases hn with rfl | hne
      · exact Nat.one_pos
      · exact absurd (congrArg some hx) hne
    · exact ih h.2 (.inl rfl)

/-- Cutting the runs of `c` leaves a chain in which `c` may stand before anything. -/
theorem capRuns_chain {R : α → α → Prop} (hR : ∀ x, R c x) (hk : 0 < k) (h : t.IsChain R) :
    ∀ n, (capRuns c k n t).IsChain R ∧ (n < k → (capRuns c k n t).head? = t.head?) := by
  induction t with
  | nil => exact fun _ => ⟨.nil, fun _ => rfl⟩
  | cons x t ih =>
    intro n
    rw [List.isChain_cons] at h
    rw [capRuns]
    split_ifs with hx hn
    · exact ⟨List.isChain_cons.mpr ⟨fun y _ => hx ▸ hR y, (ih h.2 (n + 1)).1⟩, fun _ => rfl⟩
    · exact ⟨(ih h.2 n).1, fun h => absurd h hn⟩
    · refine ⟨List.isChain_cons.mpr ⟨fun y hy => h.1 y ?_, (ih h.2 0).1⟩, fun _ => rfl⟩
      rwa [(ih h.2 0).2 hk] at hy

end TextLines
