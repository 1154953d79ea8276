import ZedBot.Terms.Documents

/-! # A book of terms

    What the table stands for: the texts that have been in force, oldest first, the text that is,
    and a draft. Every operation on the table is one on the book, and the texts that have been in
    force only grow at their end.

        archive        current      draft
        v1 … vₖ   ++   vₖ₊₁    ++   (no version)   =  rows of the table -/

namespace ZedBot.Terms

open Rows

structure Entry where
  id : ℕ
  body : JsText
  publishedAt : ℕ
  deriving DecidableEq

structure Draft where
  id : ℕ
  body : JsText

structure Book where
  archive : List Entry
  current : Option Entry
  draft : Option Draft
  distinct : (archive.map Entry.id ++ current.toList.map Entry.id ++
    draft.toList.map Draft.id).Nodup
  checked : ∀ e ∈ archive ++ current.toList, validateTermsBody e.body = .ok e.body
  draft_checked : ∀ d ∈ draft, validateTermsBody d.body = .ok d.body ∨ d.body = []

/-- The texts that users have been asked to accept. -/
def Book.history (b : Book) : List Entry := b.archive ++ b.current.toList

/-- Version `n` of the book is the document `id`. -/
def Book.Names (b : Book) (id n : ℕ) : Prop :=
  0 < n ∧ (b.history[n - 1]?).map Entry.id = some id

variable {Digest : Type} (sha256 : JsText → Digest)

/-! ### The rows of the table -/

def archivedRow (i : ℕ) (e : Entry) : TermsDocument Digest where
  id := e.id
  version := some (i + 1)
  body := e.body
  status := .ARCHIVED
  contentHash := some (sha256 e.body)
  publishedAt := some e.publishedAt

def publishedRow (i : ℕ) (e : Entry) : TermsDocument Digest :=
  { archivedRow sha256 i e with status := .PUBLISHED }

def draftRow (d : Draft) : TermsDocument Digest where
  id := d.id
  body := d.body

def Book.rows (b : Book) : List (TermsDocument Digest) :=
  b.archive.mapIdx (archivedRow sha256) ++
    b.current.toList.map (publishedRow sha256 b.archive.length) ++ b.draft.toList.map draftRow

variable {sha256} {b b' : Book} {docs : List (TermsDocument Digest)} {id draftId now n : ℕ}
  {rawBody : JsText} {d : TermsDocument Digest}

theorem mem_archived : d ∈ b.archive.mapIdx (archivedRow sha256) ↔
    ∃ i, ∃ e, b.archive[i]? = some e ∧ archivedRow sha256 i e = d := by
  rw [List.mem_mapIdx]
  constructor
  · rintro ⟨i, hi, rfl⟩
    exact ⟨i, b.archive[i], List.getElem?_eq_getElem hi, rfl⟩
  · rintro ⟨i, e, he, rfl⟩
    obtain ⟨hi, rfl⟩ := List.getElem?_eq_some_iff.mp he
    exact ⟨i, hi, rfl⟩

/-- A row is an archived one, the one in force, or the draft. -/
theorem mem_rows : d ∈ b.rows sha256 ↔
    (∃ i, ∃ e, b.archive[i]? = some e ∧ archivedRow sha256 i e = d) ∨
      (∃ e ∈ b.current, publishedRow sha256 b.archive.length e = d) ∨
        ∃ x ∈ b.draft, draftRow x = d := by
  rw [Book.rows, List.mem_append, List.mem_append, mem_archived, or_assoc, List.mem_map,
    List.mem_map]
  simp only [Option.mem_toList, Option.mem_def]

theorem rows_of_no_draft (h : b.draft = none) : b.rows sha256 =
    b.archive.mapIdx (archivedRow sha256) ++
      b.current.toList.map (publishedRow sha256 b.archive.length) := by
  rw [Book.rows, h]
  exact List.append_nil _

theorem rows_of_draft {x : Draft} (h : b.draft = some x) : b.rows sha256 =
    b.archive.mapIdx (archivedRow sha256) ++
      b.current.toList.map (publishedRow sha256 b.archive.length) ++ [draftRow x] := by
  rw [Book.rows, h]
  rfl

theorem ids_rows : (b.rows sha256).map TermsDocument.id =
    b.archive.map Entry.id ++ b.current.toList.map Entry.id ++ b.draft.toList.map Draft.id := by
  simp only [Book.rows, List.map_append, List.map_map]
  congr 2
  refine List.ext_getElem? fun i => ?_
  rw [List.getElem?_map, List.getElem?_mapIdx, List.getElem?_map, Option.map_map]
  rfl

theorem versions_archived (es : List Entry) :
    (es.mapIdx (archivedRow sha256)).filterMap (·.version) = List.range' 1 es.length := by
  induction es using List.reverseRecOn with
  | nil => rfl
  | append_singleton es e ih =>
    rw [List.mapIdx_concat, List.filterMap_append, ih, List.length_append, List.length_singleton,
      List.range'_concat, Nat.one_mul, Nat.add_comm 1]
    rfl

theorem versions_rows : (b.rows sha256).filterMap (·.version) =
    List.range' 1 b.history.length := by
  have hdraft : (b.draft.toList.map fun d => (draftRow d : TermsDocument Digest)).filterMap
      (·.version) = [] := by
    cases b.draft <;> rfl
  rw [Book.rows, List.filterMap_append, List.filterMap_append, versions_archived, hdraft,
    List.append_nil, Book.history, List.length_append]
  cases b.current with
  | none => exact List.append_nil _
  | some e =>
    rw [Option.toList_some, List.length_singleton, List.range'_concat, Nat.one_mul,
      Nat.add_comm 1]
    rfl

theorem nextVersion_rows : nextVersion (b.rows sha256) = b.history.length + 1 := by
  rw [nextVersion, versions_rows]
  congr 1
  cases b.history.length with
  | zero => rfl
  | succ n =>
    have hmax : (List.range' 1 (n + 1)).max? = some (n + 1) := by
      refine List.max?_eq_some_iff.mpr ⟨List.mem_range'_1.mpr (by omega), fun m hm => ?_⟩
      have hlt := (List.mem_range'_1.mp hm).2
      omega
    rw [hmax]
    rfl

/-! ### Reading the table -/

theorem status_of_mem (h : d ∈ b.rows sha256) : d.version = none ↔ d.status = .DRAFT := by
  rcases mem_rows.mp h with ⟨i, e, -, rfl⟩ | ⟨e, -, rfl⟩ | ⟨x, -, rfl⟩
  · exact iff_of_false (Option.some_ne_none _) (by rintro ⟨⟩)
  · exact iff_of_false (Option.some_ne_none _) (by rintro ⟨⟩)
  · exact iff_of_true rfl rfl

theorem find_append_draft {p : TermsDocument Digest → Bool}
    (harchived : ∀ i e, p (archivedRow sha256 i e) = false)
    (hcurrent : ∀ e ∈ b.current, p (publishedRow sha256 b.archive.length e) = false) :
    (b.rows sha256).find? p = (b.draft.toList.map draftRow).find? p := by
  have hnone : (b.archive.mapIdx (archivedRow sha256) ++
      b.current.toList.map (publishedRow sha256 b.archive.length)).find? p = none := by
    refine List.find?_eq_none.mpr fun d hd => ?_
    rcases List.mem_append.mp hd with hd | hd
    · obtain ⟨i, e, -, rfl⟩ := mem_archived.mp hd
      exact Bool.eq_false_iff.mp (harchived i e)
    · obtain ⟨e, he, rfl⟩ := List.mem_map.mp hd
      exact Bool.eq_false_iff.mp (hcurrent e (Option.mem_toList.mp he))
  rw [Book.rows, List.find?_append, hnone, Option.none_or]

theorem getPublishedTerms_rows : getPublishedTerms (b.rows sha256) =
    b.current.map (publishedRow sha256 b.archive.length) := by
  have harchive : (b.archive.mapIdx (archivedRow sha256)).find? (·.status = .PUBLISHED) = none := by
    refine List.find?_eq_none.mpr fun d hd => ?_
    obtain ⟨i, e, -, rfl⟩ := mem_archived.mp hd
    exact Bool.false_ne_true
  rw [getPublishedTerms, Book.rows, List.append_assoc, List.find?_append, harchive, Option.none_or]
  cases b.current with
  | none =>
    cases b.draft with
    | none => rfl
    | some x => rfl
  | some e => rfl

theorem find_draft_rows : (b.rows sha256).find? (·.status = .DRAFT) = b.draft.map draftRow := by
  rw [find_append_draft (fun _ _ => rfl) fun _ _ => rfl]
  cases b.draft <;> rfl

theorem draftById_eq_some (h : draftById draftId (b.rows sha256) = some d) :
    ∃ x, b.draft = some x ∧ x.id = draftId ∧ d = draftRow x := by
  rw [draftById, find_append_draft (fun _ _ => by simp [archivedRow])
    fun _ _ => by simp [publishedRow]] at h
  cases hdraft : b.draft with
  | none =>
    rw [hdraft] at h
    cases h
  | some x =>
    rw [hdraft] at h
    obtain ⟨hmem, hcond⟩ := And.intro (List.mem_of_find?_eq_some h) (List.find?_some h)
    obtain rfl := List.mem_singleton.mp hmem
    exact ⟨x, rfl, (of_decide_eq_true hcond).1, rfl⟩

/-! ### Changing rows by id -/

/-- The draft's id is nobody else's. -/
theorem draft_fresh {x : Draft} (h : b.draft = some x) (e : Entry) (he : e ∈ b.history) :
    e.id ≠ x.id := by
  have hdistinct := b.distinct
  rw [h, ← List.map_append, List.nodup_append] at hdistinct
  exact hdistinct.2.2 e.id (List.mem_map_of_mem he) x.id (List.mem_singleton_self _)

theorem current_fresh {e : Entry} (h : b.current = some e) (e' : Entry) (he : e' ∈ b.archive) :
    e'.id ≠ e.id := by
  have hdistinct := b.distinct.of_append_left
  rw [h, List.nodup_append] at hdistinct
  exact hdistinct.2.2 e'.id (List.mem_map_of_mem he) e.id (List.mem_singleton_self _)

theorem mem_history_of_archived {i : ℕ} {e : Entry} (h : b.archive[i]? = some e) :
    e ∈ b.history :=
  List.mem_append_left _ (List.mem_of_getElem? h)

theorem mem_history_of_current {e : Entry} (h : b.current = some e) : e ∈ b.history :=
  List.mem_append_right _ (Option.mem_toList.mpr h)

/-- A change of the draft's row leaves the others. -/
theorem updateWhere_draft {x : Draft} (h : b.draft = some x)
    (data : TermsDocument Digest → TermsDocument Digest) :
    updateWhere (fun d => d.id = x.id) data (b.rows sha256) =
      b.archive.mapIdx (archivedRow sha256) ++
        b.current.toList.map (publishedRow sha256 b.archive.length) ++ [data (draftRow x)] := by
  rw [Book.rows, h]
  have hothers : ∀ d ∈ b.archive.mapIdx (archivedRow sha256) ++
      b.current.toList.map (publishedRow sha256 b.archive.length),
      decide (d.id = x.id) = false := by
    intro d hd
    rcases List.mem_append.mp hd with hd | hd
    · obtain ⟨i, e, he, rfl⟩ := mem_archived.mp hd
      exact decide_eq_false (draft_fresh h e (mem_history_of_archived he))
    · obtain ⟨e, he, rfl⟩ := List.mem_map.mp hd
      exact decide_eq_false (draft_fresh h e (mem_history_of_current (Option.mem_toList.mp he)))
  have hnone : ∀ d ∈ ([] : List (TermsDocument Digest)), decide (d.id = x.id) = false := by
    rintro d ⟨⟩
  have hone : updateWhere (fun d => d.id = x.id) data (_ ++ [draftRow x] ++ []) = _ :=
    updateWhere_one hothers (decide_eq_true rfl) hnone
  rwa [List.append_nil, List.append_nil] at hone

/-- The text in force goes to the archive. -/
theorem archivePrevious_rows : archivePrevious (b.rows sha256) =
    b.history.mapIdx (archivedRow sha256) ++ b.draft.toList.map draftRow := by
  rw [archivePrevious, getPublishedTerms_rows, Book.history]
  cases hcurrent : b.current with
  | none =>
    rw [Book.rows, hcurrent, Option.toList_none, List.append_nil, List.map_nil, List.append_nil]
    rfl
  | some e =>
    have harchive : ∀ d ∈ b.archive.mapIdx (archivedRow sha256),
        decide (d.id = e.id) = false := by
      intro d hd
      obtain ⟨i, e', he', rfl⟩ := mem_archived.mp hd
      exact decide_eq_false (current_fresh hcurrent e' (List.mem_of_getElem? he'))
    have hdraft : ∀ d ∈ b.draft.toList.map (fun x => (draftRow x : TermsDocument Digest)),
        decide (d.id = e.id) = false := by
      intro d hd
      obtain ⟨x, hx, rfl⟩ := List.mem_map.mp hd
      exact decide_eq_false
        (draft_fresh (Option.mem_toList.mp hx) e (mem_history_of_current hcurrent)).symm
    rw [Book.rows, hcurrent, Option.toList_some, List.mapIdx_concat]
    exact updateWhere_one harchive (decide_eq_true rfl) hdraft

/-! ### The operations on the book -/

/-- The text in force is put away, before the next is published. -/
def Book.putAway (b : Book) : Book :=
  { b with
    archive := b.history
    current := none
    distinct := by
      rw [Book.history, List.map_append, Option.toList_none, List.map_nil, List.append_nil]
      exact b.distinct
    checked := by
      rw [Option.toList_none, List.append_nil]
      exact b.checked }

/-- A draft is added when there is none. -/
theorem createTermsDraft_rows (hfresh : id ∉ (b.rows sha256).map TermsDocument.id)
    (h : createTermsDraft id (b.rows sha256) = .ok docs) :
    ∃ b' : Book, docs = b'.rows sha256 ∧ b'.history = b.history ∧ b'.current = b.current := by
  rw [createTermsDraft, find_draft_rows, getPublishedTerms_rows] at h
  cases hdraft : b.draft with
  | some x =>
    rw [hdraft] at h
    cases h
  | none =>
    rw [hdraft] at h
    obtain rfl := Except.ok.inj h
    rw [ids_rows, hdraft, Option.toList_none, List.map_nil, List.append_nil] at hfresh
    have hdistinct := b.distinct
    rw [hdraft, Option.toList_none, List.map_nil, List.append_nil] at hdistinct
    have hchecked : validateTermsBody ((b.current.map Entry.body).getD []) =
        .ok ((b.current.map Entry.body).getD []) ∨ (b.current.map Entry.body).getD [] = [] := by
      cases hcurrent : b.current with
      | none => exact .inr rfl
      | some e => exact .inl (b.checked e (mem_history_of_current hcurrent))
    have hids : (b.archive.map Entry.id ++ b.current.toList.map Entry.id ++ [id]).Nodup := by
      refine List.nodup_append.mpr ⟨hdistinct, List.nodup_singleton _, fun i hi j hj hij => ?_⟩
      exact hfresh (List.mem_singleton.mp hj ▸ hij ▸ hi)
    refine ⟨{ b with
      draft := some ⟨id, (b.current.map Entry.body).getD []⟩
      distinct := hids
      draft_checked := by
        rintro d ⟨⟩
        exact hchecked }, ?_, rfl, rfl⟩
    rw [rows_of_no_draft hdraft, Option.map_map]
    rfl

theorem updateTermsDraftBody_rows
    (h : updateTermsDraftBody draftId rawBody (b.rows sha256) = .ok docs) :
    ∃ b' : Book, docs = b'.rows sha256 ∧ b'.history = b.history ∧ b'.current = b.current := by
  rw [updateTermsDraftBody] at h
  split at h
  · cases h
  · rename_i body hvalid
    split at h
    · cases h
    · rename_i draft hdraft
      obtain ⟨x, hx, -, rfl⟩ := draftById_eq_some hdraft
      obtain rfl := Except.ok.inj h
      have hdistinct := b.distinct
      rw [hx] at hdistinct
      refine ⟨{ b with
        draft := some { x with body }
        distinct := hdistinct
        draft_checked := ?_ }, updateWhere_draft hx _, rfl, rfl⟩
      rintro d ⟨⟩
      exact .inl (validateTermsBody_again hvalid)

theorem deleteTermsDraft_rows (h : deleteTermsDraft draftId (b.rows sha256) = .ok docs) :
    ∃ b' : Book, docs = b'.rows sha256 ∧ b'.history = b.history ∧ b'.current = b.current := by
  rw [deleteTermsDraft] at h
  split at h
  · cases h
  · rename_i draft hdraft
    obtain ⟨x, hx, -, rfl⟩ := draftById_eq_some hdraft
    obtain rfl := Except.ok.inj h
    refine ⟨{ b with
      draft := none
      distinct := ?_
      draft_checked := by rintro d ⟨⟩ }, ?_, rfl, rfl⟩
    · rw [Option.toList_none, List.map_nil, List.append_nil]
      exact b.distinct.of_append_left
    · have hothers : ∀ d ∈ b.archive.mapIdx (archivedRow sha256) ++
          b.current.toList.map (publishedRow sha256 b.archive.length),
          decide (d.id ≠ (draftRow x : TermsDocument Digest).id) = true := by
        intro d hd
        refine decide_eq_true ?_
        rcases List.mem_append.mp hd with hd | hd
        · obtain ⟨i, e, he, rfl⟩ := mem_archived.mp hd
          exact draft_fresh hx e (mem_history_of_archived he)
        · obtain ⟨e, he, rfl⟩ := List.mem_map.mp hd
          exact draft_fresh hx e (mem_history_of_current (Option.mem_toList.mp he))
      rw [rows_of_draft hx, List.filter_append, List.filter_eq_self.mpr hothers,
        List.filter_singleton, decide_eq_false (not_not_intro rfl)]
      rfl

/-- The draft comes into force as it stands, and the book grows by it. -/
theorem publishTermsDraft_rows
    (h : publishTermsDraft sha256 draftId now (b.rows sha256) = .ok docs) :
    ∃ (b' : Book) (e : Entry), docs = b'.rows sha256 ∧ b'.history = b.history ++ [e] ∧
      b'.current = some e ∧ b.draft = some ⟨draftId, e.body⟩ ∧ e.id = draftId ∧
        e.publishedAt = now := by
  rw [publishTermsDraft] at h
  split at h
  · cases h
  · rename_i draft hdraft
    obtain ⟨x, hx, hid, rfl⟩ := draftById_eq_some hdraft
    split at h
    · cases h
    · rename_i body hvalid
      have hbody : x.body = body := by
        rcases b.draft_checked x hx with hchecked | hempty
        · exact Except.ok.inj (hchecked.symm.trans hvalid)
        · have hmeaning := (validateTermsBody_eq_ok.mp hvalid).2.1
          rw [← (validateTermsBody_eq_ok.mp hvalid).1, draftRow, hempty] at hmeaning
          have hblank : isMeaningfulTermsBody (normalizeTermsBody []) = false := by decide
          exact absurd (hblank.symm.trans hmeaning) Bool.false_ne_true
      subst hbody
      have harchived : archivePrevious (b.rows sha256) = b.putAway.rows sha256 := by
        rw [archivePrevious_rows, Book.rows]
        exact congrArg (· ++ _) (List.append_nil _).symm
      have hversion : nextVersion (b.putAway.rows sha256) = b.history.length + 1 := by
        rw [nextVersion_rows, Book.history]
        exact congrArg (·.length + 1) (List.append_nil b.history)
      obtain rfl := Except.ok.inj h
      obtain rfl := hid
      have hdistinct := b.distinct
      rw [hx, ← List.map_append] at hdistinct
      refine ⟨{
        archive := b.history
        current := some ⟨x.id, x.body, now⟩
        draft := none
        distinct := by
          rw [Option.toList_none, List.map_nil, List.append_nil]
          exact hdistinct
        checked := ?_
        draft_checked := by rintro d ⟨⟩ }, ⟨x.id, x.body, now⟩, ?_, rfl, rfl, hx, rfl, rfl⟩
      · intro e he
        rcases List.mem_append.mp he with he | he
        · exact b.checked e he
        · rw [List.mem_singleton.mp he]
          exact validateTermsBody_again hvalid
      · rw [harchived, hversion]
        refine (updateWhere_draft (b := b.putAway) hx _).trans ?_
        refine Eq.trans ?_ (rows_of_no_draft rfl).symm
        exact congrArg (· ++ _) (List.append_nil _)

end ZedBot.Terms
