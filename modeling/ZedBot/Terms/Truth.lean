import ZedBot.Terms.Runs

/-! # What a run of the terms comes to

    From an installation that has no document yet, or the one that the legacy text became. -/

namespace ZedBot.Terms

open Rows ForceJoin

variable {Digest : Type} {sha256 : JsText → Digest} {b b' : Book} {s s₀ t : System Digest}
  {docs : List (TermsDocument Digest)} {draftId now : ℕ}

/-- No document, or version 1 with the acceptances that came over. -/
structure Start (sha256 : JsText → Digest) (s : System Digest) : Prop where
  documents : s.db.documents = [] ∨ ∃ e : Entry, validateTermsBody e.body = .ok e.body ∧
    s.db.documents = [publishedRow sha256 0 e]
  switch : isTruthySettingValue s.db.setting = true → s.db.documents ≠ []
  userIds : (s.db.users.map User.id).Nodup
  keys : (s.db.acceptances.map TermsAcceptance.key).Nodup
  names : ∀ a ∈ s.db.acceptances, a.termsVersion = 1 ∧
    a.termsDocumentId ∈ s.db.documents.map TermsDocument.id
  stamped : ∀ a ∈ s.db.acceptances, (⟨a.userId, some a.acceptedAt⟩ : User) ∈ s.db.users
  pending : s.pending = []
  answers : s.answers = []

/-- The book that an installation starts with. -/
def firstBook (current : Option Entry)
    (h : ∀ e ∈ current, validateTermsBody e.body = .ok e.body) : Book where
  archive := []
  current
  draft := none
  distinct := by cases current <;> simp
  checked := fun e he => h e (Option.mem_toList.mp he)
  draft_checked := by rintro d ⟨⟩

theorem Start.book (h : Start sha256 s) : ∃ b : Book, s.db.documents = b.rows sha256 ∧
    b.archive = [] ∧ b.draft = none ∧ (s.db.documents ≠ [] → b.current.isSome) := by
  rcases h.documents with hnone | ⟨e, hvalid, hone⟩
  · exact ⟨firstBook none (by rintro e ⟨⟩), hnone, rfl, rfl, fun hne => absurd hnone hne⟩
  · refine ⟨firstBook (some e) ?_, hone, rfl, rfl, fun _ => rfl⟩
    rintro e' ⟨⟩
    exact hvalid

theorem Start.sound (h : Start sha256 s) : ∃ b, Sound sha256 b s := by
  obtain ⟨b, hdocs, harchive, hdraft, hcurrent⟩ := h.book
  have hserving : b.current = none → b.history = [] := by
    intro hnone
    rw [Book.history, harchive, hnone]
    rfl
  have hnames : ∀ a ∈ s.db.acceptances, b.Names a.termsDocumentId a.termsVersion := by
    intro a ha
    obtain ⟨hversion, hid⟩ := h.names a ha
    rw [hdocs, ids_rows, harchive, hdraft, Option.toList_none, List.map_nil, List.map_nil,
      List.append_nil, List.nil_append] at hid
    obtain ⟨e, he, hid⟩ := List.mem_map.mp hid
    have hfirst := names_current (Option.mem_toList.mp he)
    rwa [harchive, hid, List.length_nil, Nat.zero_add, ← hversion] at hfirst
  refine ⟨b, ⟨hdocs, fun htrue => hcurrent (h.switch htrue), hserving, h.userIds, h.keys, hnames,
    fun a ha => List.mem_map.mpr ⟨_, h.stamped a ha, rfl⟩, fun a ha u hu hid => ?_⟩,
    fun hne => absurd h.pending hne, ?_, ?_, ?_, ?_⟩
  · obtain rfl := eq_of_key h.userIds hu (h.stamped a ha) hid
    exact ⟨a.acceptedAt, rfl, Nat.le_refl _⟩
  · rw [h.pending]
    exact List.nodup_nil
  · rw [h.pending]
    rintro x ⟨⟩
  · rw [h.pending]
    rintro x ⟨⟩
  · rw [h.answers]
    rintro r ⟨⟩

/-- Everything that a run leaves, from a sound state on. -/
theorem Sound.reaches (h : Sound sha256 b s₀) (hs : Reaches sha256 s₀ s) :
    ∃ b', Sound sha256 b' s ∧ b.history <+: b'.history ∧ Later s₀ s := by
  induction hs with
  | start => exact ⟨b, h, List.prefix_rfl, Later.refl _⟩
  | step _ hstep ih =>
    obtain ⟨b₁, hsound, hhist, hlater⟩ := ih
    obtain ⟨b₂, hgood⟩ := hsound.step hstep
    exact ⟨b₂, hgood.sound, hhist.trans hgood.history, hlater.trans hgood.later⟩

/-- An installation with one user and no document. -/
def installed : System ℕ := { db := { users := [{ id := 1 }] } }

theorem installed_start : Start List.length installed where
  documents := .inl rfl
  switch := by decide
  userIds := by decide
  keys := by decide
  names := by decide
  stamped := by decide
  pending := rfl
  answers := rfl

/-- The user accepts the first text while the second is published. -/
def accepting : List Event :=
  [.createDraft 10, .editDraft 10 [0x41], .publish 10 5, .enable, .press 0 1 10, .act 0 (.read 6),
    .act 0 .insert, .createDraft 11, .editDraft 11 [0x42], .publish 11 7, .act 0 .stamp,
    .act 0 .commit]

theorem accepting_run : ∃ s, Reaches List.length installed s ∧
    s.db.documents.map (·.version) = [some 1, some 2] ∧ s.db.acceptances = [⟨1, 10, 1, 6⟩] ∧
      termsGate s.db 1 = .owes 11 := by
  have hrun : (Runs.exec (step List.length) installed accepting).map (fun s =>
      (s.db.documents.map (·.version), s.db.acceptances, termsGate s.db 1)) =
        some ([some 1, some 2], [⟨1, 10, 1, 6⟩], .owes 11) := by decide +kernel
  obtain ⟨s, hs, hdata⟩ := Option.map_eq_some_iff.mp hrun
  obtain ⟨hversions, hrest⟩ := Prod.mk.inj hdata
  obtain ⟨hacceptances, hgate⟩ := Prod.mk.inj hrest
  exact ⟨s, Runs.reaches_of_exec hs, hversions, hacceptances, hgate⟩

/-! ### Versions -/

/-- Versions are numbered without a gap, the highest is in force, and what has a version has a
    checked body and its hash. -/
structure VersionHistory (sha256 : JsText → Digest) (docs : List (TermsDocument Digest)) (n : ℕ) :
    Prop where
  ids : (docs.map TermsDocument.id).Nodup
  numbered : docs.filterMap (·.version) = List.range' 1 n
  draft : ∀ d ∈ docs, d.status = .DRAFT ↔ d.version = none
  oneDraft : (docs.filter (·.status = .DRAFT)).length ≤ 1
  published : ∀ d ∈ docs, d.status = .PUBLISHED ↔ d.version = some n
  fixed : ∀ d ∈ docs, d.status ≠ .DRAFT →
    validateTermsBody d.body = .ok d.body ∧ d.contentHash = some (sha256 d.body)

/-- The row of a version later: the same, or put away. -/
def Kept (d d' : TermsDocument Digest) : Prop :=
  d' = d ∨ d.status = .PUBLISHED ∧ d' = { d with status := .ARCHIVED }

theorem drafts_rows : (b.rows sha256).filter (·.status = .DRAFT) = b.draft.toList.map draftRow := by
  have harchive : (b.archive.mapIdx (archivedRow sha256)).filter (·.status = .DRAFT) = [] := by
    refine List.filter_eq_nil_iff.mpr fun d hd => ?_
    obtain ⟨i, e, -, rfl⟩ := mem_archived.mp hd
    exact Bool.false_ne_true
  rw [Book.rows, List.filter_append, List.filter_append, harchive]
  cases b.current <;> cases b.draft <;> rfl

theorem version_lt {i : ℕ} {e : Entry} (hserving : b.current = none → b.history = [])
    (h : b.archive[i]? = some e) : i + 1 < b.history.length := by
  have hi := (List.getElem?_eq_some_iff.mp h).1
  cases hcurrent : b.current with
  | none =>
    have hnil := hserving hcurrent
    rw [Book.history, hcurrent, Option.toList_none, List.append_nil] at hnil
    rw [hnil] at hi
    cases hi
  | some e' =>
    rw [Book.history, hcurrent, List.length_append]
    exact Nat.succ_lt_succ hi

theorem history_length {e : Entry} (h : b.current = some e) :
    b.history.length = b.archive.length + 1 := by
  rw [Book.history, h, List.length_append]
  rfl

theorem versionHistory_rows (hserving : b.current = none → b.history = []) :
    VersionHistory sha256 (b.rows sha256) b.history.length where
  ids := ids_rows ▸ b.distinct
  numbered := versions_rows
  draft := fun d hd => (status_of_mem hd).symm
  oneDraft := by
    rw [drafts_rows, List.length_map]
    cases b.draft with
    | none => exact Nat.zero_le _
    | some x => exact Nat.le_refl _
  published := by
    intro d hd
    rcases mem_rows.mp hd with ⟨i, e, he, rfl⟩ | ⟨e, he, rfl⟩ | ⟨x, -, rfl⟩
    · refine iff_of_false (by rintro ⟨⟩) fun hversion => ?_
      exact (version_lt hserving he).ne (Option.some.inj hversion)
    · exact iff_of_true rfl (congrArg some (history_length he).symm)
    · exact iff_of_false (by rintro ⟨⟩) (by rintro ⟨⟩)
  fixed := by
    intro d hd hstatus
    rcases mem_rows.mp hd with ⟨i, e, he, rfl⟩ | ⟨e, he, rfl⟩ | ⟨x, -, rfl⟩
    · exact ⟨b.checked e (mem_history_of_archived he), rfl⟩
    · exact ⟨b.checked e (mem_history_of_current he), rfl⟩
    · exact absurd rfl hstatus

theorem kept_rows (hserving : b.current = none → b.history = []) (hhist : b.history <+: b'.history)
    {d : TermsDocument Digest} (hd : d ∈ b.rows sha256) (hstatus : d.status ≠ .DRAFT) :
    ∃ d' ∈ b'.rows sha256, Kept d d' := by
  have hlater : ∀ {i : ℕ} {e : Entry}, b.history[i]? = some e → b'.history[i]? = some e := by
    intro i e he
    obtain ⟨tail, htail⟩ := hhist
    rw [← htail, List.getElem?_append_left (List.getElem?_eq_some_iff.mp he).1, he]
  have hlength : b'.history.length ≤ b'.archive.length + 1 := by
    rw [Book.history, List.length_append]
    cases b'.current with
    | none => exact Nat.le_succ _
    | some e => exact Nat.le_refl _
  rcases mem_rows.mp hd with ⟨i, e, he, rfl⟩ | ⟨e, he, rfl⟩ | ⟨x, -, rfl⟩
  · have hget : b.history[i]? = some e := by
      rw [Book.history, List.getElem?_append_left (List.getElem?_eq_some_iff.mp he).1, he]
    rcases row_of_history sha256 (hlater hget) with ⟨-, hrow⟩ | ⟨hindex, -, -⟩
    · exact ⟨_, hrow, .inl rfl⟩
    · have hlt := version_lt hserving he
      have hle := hhist.length_le
      omega
  · have hget : b.history[b.archive.length]? = some e := by
      rw [Book.history, Option.mem_def.mp he, List.getElem?_append_right (Nat.le_refl _),
        Nat.sub_self]
      rfl
    rcases row_of_history sha256 (hlater hget) with ⟨-, hrow⟩ | ⟨-, -, hrow⟩
    · exact ⟨_, hrow, .inr ⟨rfl, rfl⟩⟩
    · exact ⟨_, hrow, .inl rfl⟩
  · exact absurd rfl hstatus

/-- A draft that is published keeps the text that was saved, and gets the next version. -/
theorem publish_keeps_text (h : Sound sha256 b s)
    (hpub : publishTermsDraft sha256 draftId now s.db.documents = .ok docs) :
    ∃ d ∈ s.db.documents, d.id = draftId ∧ d.status = .DRAFT ∧
      getPublishedTerms docs = some { d with
        status := .PUBLISHED
        version := some (b.history.length + 1)
        contentHash := some (sha256 d.body)
        publishedAt := some now } := by
  rw [h.db.documents] at hpub
  obtain ⟨b', e, rfl, hhist, hcurrent, hdraft, hid, hat⟩ := publishTermsDraft_rows hpub
  refine ⟨draftRow ⟨draftId, e.body⟩, ?_, rfl, rfl, ?_⟩
  · rw [h.db.documents]
    exact mem_rows.mpr (.inr (.inr ⟨_, hdraft, rfl⟩))
  · have hlength : b'.archive.length = b.history.length := by
      have hlast := history_length hcurrent
      rw [hhist, List.length_append] at hlast
      exact (Nat.succ.inj hlast).symm
    rw [getPublishedTerms_rows, hcurrent, Option.map_some, hlength, ← hid, ← hat]
    rfl

/-- In every run the versions are a history: numbered without a gap, at most one in force, a text
    as it was saved, and never changed or lost afterwards. -/
theorem versions_are_history (h : Start sha256 s₀) (hs : Reaches sha256 s₀ s)
    (ht : Reaches sha256 s t) :
    (∃ n, VersionHistory sha256 s.db.documents n ∧
      ∀ draftId now docs, publishTermsDraft sha256 draftId now s.db.documents = .ok docs →
        ∃ d ∈ s.db.documents, d.id = draftId ∧ d.status = .DRAFT ∧
          getPublishedTerms docs = some { d with
            status := .PUBLISHED
            version := some (n + 1)
            contentHash := some (sha256 d.body)
            publishedAt := some now }) ∧
      ∀ d ∈ s.db.documents, d.status ≠ .DRAFT → ∃ d' ∈ t.db.documents, Kept d d' := by
  obtain ⟨b₀, h₀⟩ := h.sound
  obtain ⟨b, hsound, -, -⟩ := h₀.reaches hs
  obtain ⟨b', hsound', hhist, -⟩ := hsound.reaches ht
  refine ⟨⟨b.history.length, ?_, fun draftId now docs hpub => publish_keeps_text hsound hpub⟩,
    fun d hd hstatus => ?_⟩
  · rw [hsound.db.documents]
    exact versionHistory_rows hsound.db.serving
  · rw [hsound.db.documents] at hd
    rw [hsound'.db.documents]
    exact kept_rows hsound.db.serving hhist hd hstatus

theorem versions_are_history_accepting : ∃ s, Reaches List.length installed s ∧
    s.db.documents.map (·.version) = [some 1, some 2] ∧
      ∃ n, VersionHistory List.length s.db.documents n := by
  obtain ⟨s, hs, hversions, -⟩ := accepting_run
  obtain ⟨⟨n, hn, -⟩, -⟩ := versions_are_history installed_start hs .start
  exact ⟨s, hs, hversions, n, hn⟩

/-! ### Acceptances -/

/-- What the acceptances say. -/
structure AcceptancesHold (s : System Digest) : Prop where
  keys : (s.db.acceptances.map TermsAcceptance.key).Nodup
  named : ∀ a ∈ s.db.acceptances, ∃ d ∈ s.db.documents,
    d.id = a.termsDocumentId ∧ d.version = some a.termsVersion
  stamped : ∀ a ∈ s.db.acceptances, ∃ u ∈ s.db.users, u.id = a.userId ∧
    ∃ last ∈ u.termsAcceptedAt, a.acceptedAt ≤ last
  answered : ∀ r ∈ s.answers, ∀ version already, r.result = .ok version already →
    ∃ a ∈ s.db.acceptances, a.key = (r.userId, r.documentId) ∧ a.termsVersion = version

theorem Sound.acceptancesHold (h : Sound sha256 b s) : AcceptancesHold s where
  keys := h.db.keys
  named := by
    intro a ha
    rw [h.db.documents]
    exact row_of_names (h.db.names a ha)
  stamped := by
    intro a ha
    obtain ⟨u, hu, hid⟩ := List.mem_map.mp (h.db.known a ha)
    exact ⟨u, hu, hid, h.db.stamped a ha u hu hid⟩
  answered := h.answered

/-- In every run, however the transactions interleave with each other and with publications. -/
theorem acceptances_hold (h : Start sha256 s₀) (hs : Reaches sha256 s₀ s)
    (ht : Reaches sha256 s t) : AcceptancesHold s ∧ Later s t := by
  obtain ⟨b₀, h₀⟩ := h.sound
  obtain ⟨b, hsound, -, -⟩ := h₀.reaches hs
  obtain ⟨-, -, -, hlater⟩ := hsound.reaches ht
  exact ⟨hsound.acceptancesHold, hlater⟩

theorem acceptances_hold_accepting : ∃ s, Reaches List.length installed s ∧
    s.db.acceptances = [⟨1, 10, 1, 6⟩] ∧ AcceptancesHold s := by
  obtain ⟨s, hs, -, hacceptances, -⟩ := accepting_run
  exact ⟨s, hs, hacceptances, (acceptances_hold installed_start hs .start).1⟩

/-! ### The gate -/

/-- Nobody has accepted a text that is published only now. -/
theorem gate_after_publish (h : Sound sha256 b s)
    (hpub : publishTermsDraft sha256 draftId now s.db.documents = .ok docs) (userId : ℕ)
    (hon : isTruthySettingValue s.db.setting = true) :
    termsGate { s.db with documents := docs } userId = .owes draftId := by
  rw [h.db.documents] at hpub
  obtain ⟨b', e, rfl, -, hcurrent, hdraft, hid, -⟩ := publishTermsDraft_rows hpub
  have hnone : hasAcceptedTermsDocument { s.db with documents := b'.rows sha256 } userId e.id =
      false := by
    refine decide_eq_false fun hmem => ?_
    obtain ⟨a, ha, hkey⟩ := List.mem_map.mp hmem
    obtain ⟨e', he', heq⟩ := (h.db.names a ha).mem
    have hdocument : a.termsDocumentId = e.id := congrArg Prod.snd hkey
    exact draft_fresh hdraft e' he' (heq.trans (hdocument.trans hid))
  rw [termsGate, if_pos hon]
  dsimp only
  rw [getPublishedTerms_rows, hcurrent]
  change (if hasAcceptedTermsDocument _ userId e.id = true then Gate.pass else .owes e.id) = _
  rw [hnone, if_neg Bool.false_ne_true, hid]

end ZedBot.Terms
