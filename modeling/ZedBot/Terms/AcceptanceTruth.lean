import ZedBot.Terms.Acceptance

/-! # What acceptances say

    An acceptance names a version that has been in force, once for each user and document, and the
    user's stamp is not before it. Every statement of every transaction keeps this, beside the
    others and beside a publication. -/

namespace ZedBot.Terms

open Rows ForceJoin Runs

variable {Digest : Type} {sha256 : JsText → Digest} {b b' : Book} {s s₀ t : System Digest}
  {db db' : Db Digest} {x y : Acceptance} {id m n userId documentId version acceptedAt : ℕ}

/-! ### Versions of the book -/

theorem Book.Names.mono (h : b.Names id n) (hhist : b.history <+: b'.history) : b'.Names id n := by
  obtain ⟨hpos, e, he, hid⟩ := And.imp_right Option.map_eq_some_iff.mp h
  obtain ⟨tail, htail⟩ := hhist
  refine ⟨hpos, Option.map_eq_some_iff.mpr ⟨e, ?_, hid⟩⟩
  rw [← htail, List.getElem?_append_left (List.getElem?_eq_some_iff.mp he).1, he]

theorem Book.history_ids (b : Book) : (b.history.map Entry.id).Nodup := by
  rw [Book.history, List.map_append]
  exact b.distinct.of_append_left

theorem Book.Names.unique (h : b.Names id n) (h' : b.Names id m) : n = m := by
  obtain ⟨hpos, hget⟩ := h
  obtain ⟨hpos', hget'⟩ := h'
  rw [← List.getElem?_map] at hget hget'
  have hindex := (List.getElem?_inj (List.getElem?_eq_some_iff.mp hget).1 b.history_ids).mp
    (hget.trans hget'.symm)
  omega

theorem Book.Names.mem (h : b.Names id n) : ∃ e ∈ b.history, e.id = id := by
  obtain ⟨e, he, hid⟩ := Option.map_eq_some_iff.mp h.2
  exact ⟨e, List.mem_of_getElem? he, hid⟩

theorem names_current {e : Entry} (h : b.current = some e) :
    b.Names e.id (b.archive.length + 1) := by
  refine ⟨Nat.succ_pos _, Option.map_eq_some_iff.mpr ⟨e, ?_, rfl⟩⟩
  rw [Book.history, h, Nat.add_sub_cancel, List.getElem?_append_right (Nat.le_refl _), Nat.sub_self]
  rfl

/-- A version is put away, or it is the one in force. -/
theorem row_of_history (sha256 : JsText → Digest) {i : ℕ} {e : Entry}
    (h : b.history[i]? = some e) :
    i < b.archive.length ∧ archivedRow sha256 i e ∈ b.rows sha256 ∨
      i = b.archive.length ∧ b.current = some e ∧ publishedRow sha256 i e ∈ b.rows sha256 := by
  rw [Book.history, List.getElem?_append] at h
  split_ifs at h with hlt
  · exact .inl ⟨hlt, mem_rows.mpr (.inl ⟨i, e, h, rfl⟩)⟩
  · have hbound := (List.getElem?_eq_some_iff.mp h).1
    cases hcurrent : b.current with
    | none =>
      rw [hcurrent] at h
      cases h
    | some e' =>
      rw [hcurrent, Option.toList_some, List.length_singleton] at hbound
      have hindex : i = b.archive.length := by omega
      rw [hcurrent, hindex, Nat.sub_self] at h
      obtain rfl := Option.some.inj h
      exact .inr ⟨hindex, rfl, mem_rows.mpr (.inr (.inl ⟨e', hcurrent, hindex ▸ rfl⟩))⟩

/-- A version of the book is a row of the table that is no draft. -/
theorem row_of_names (h : b.Names id n) : ∃ d ∈ b.rows sha256, d.id = id ∧ d.version = some n := by
  obtain ⟨hpos, e, he, rfl⟩ := And.imp_right Option.map_eq_some_iff.mp h
  have hversion : some (n - 1 + 1) = some n := congrArg some (Nat.sub_add_cancel hpos)
  rcases row_of_history sha256 he with ⟨-, hrow⟩ | ⟨-, -, hrow⟩
  · exact ⟨_, hrow, rfl, hversion⟩
  · exact ⟨_, hrow, rfl, hversion⟩

/-! ### Transactions -/

/-- The user has a row with a stamp, and it is not before this instant. -/
def StampedBy (db : Db Digest) (userId acceptedAt : ℕ) : Prop :=
  ∀ u ∈ db.users, u.id = userId → ∃ last, u.termsAcceptedAt = some last ∧ acceptedAt ≤ last

/-- A transaction's row is no row yet, and the user is known. -/
structure NewRow (b : Book) (db : Db Digest) (userId documentId version : ℕ) : Prop where
  names : b.Names documentId version
  key : (userId, documentId) ∉ db.acceptances.map TermsAcceptance.key
  user : userId ∈ db.users.map User.id

/-- The row is there. -/
def OldRow (db : Db Digest) (userId documentId version : ℕ) : Prop :=
  ∃ a ∈ db.acceptances, a.key = (userId, documentId) ∧ a.termsVersion = version

def PhaseOk (b : Book) (db : Db Digest) (x : Acceptance) : Phase → Prop
  | .locked => True
  | .published version _ => b.Names x.documentId version
  | .inserted version _ => NewRow b db x.userId x.documentId version
  | .present version _ => OldRow db x.userId x.documentId version
  | .stamped version acceptedAt true touched =>
    NewRow b db x.userId x.documentId version ∧
      if touched then
        ∀ u ∈ db.users, u.id = x.userId → ∀ last ∈ u.termsAcceptedAt, last < acceptedAt
      else StampedBy db x.userId acceptedAt
  | .stamped version _ false touched =>
    touched = false ∧ OldRow db x.userId x.documentId version

/-- Two transactions do not hold one lock. -/
structure Apart (x y : Acceptance) : Prop where
  row : x.holdsRow = true → y.holdsRow = true → (x.userId, x.documentId) ≠ (y.userId, y.documentId)
  user : x.holdsUser = true → y.holdsUser = true → x.userId ≠ y.userId

structure DbSound (sha256 : JsText → Digest) (b : Book) (db : Db Digest) : Prop where
  documents : db.documents = b.rows sha256
  switch : isTruthySettingValue db.setting = true → b.current.isSome
  serving : b.current = none → b.history = []
  userIds : (db.users.map User.id).Nodup
  keys : (db.acceptances.map TermsAcceptance.key).Nodup
  names : ∀ a ∈ db.acceptances, b.Names a.termsDocumentId a.termsVersion
  known : ∀ a ∈ db.acceptances, a.userId ∈ db.users.map User.id
  stamped : ∀ a ∈ db.acceptances, StampedBy db a.userId a.acceptedAt

structure Sound (sha256 : JsText → Digest) (b : Book) (s : System Digest) : Prop where
  db : DbSound sha256 b s.db
  held : s.pending ≠ [] → isTruthySettingValue s.db.setting = true
  ids : (s.pending.map Acceptance.id).Nodup
  phases : ∀ x ∈ s.pending, PhaseOk b s.db x x.phase
  apart : ∀ x ∈ s.pending, ∀ y ∈ s.pending, x.id ≠ y.id → Apart x y
  answered : ∀ r ∈ s.answers, ∀ version already, r.result = .ok version already →
    OldRow s.db r.userId r.documentId version

/-! ### What later states keep -/

/-- The tables after one event or more. -/
structure Later (s t : System Digest) : Prop where
  acceptances : s.db.acceptances <+: t.db.acceptances
  users : ∀ u ∈ s.db.users, ∀ last ∈ u.termsAcceptedAt,
    ∃ u' ∈ t.db.users, u'.id = u.id ∧ ∃ last' ∈ u'.termsAcceptedAt, last ≤ last'
  answers : s.answers <+: t.answers

theorem Later.refl (s : System Digest) : Later s s where
  acceptances := List.prefix_rfl
  users := fun u hu last hlast => ⟨u, hu, rfl, last, hlast, Nat.le_refl _⟩
  answers := List.prefix_rfl

theorem Later.trans {u : System Digest} (h : Later s t) (h' : Later t u) : Later s u where
  acceptances := h.acceptances.trans h'.acceptances
  users := by
    intro x hx last hlast
    obtain ⟨y, hy, hid, last', hlast', hle⟩ := h.users x hx last hlast
    obtain ⟨z, hz, hid', last'', hlast'', hle'⟩ := h'.users y hy last' hlast'
    exact ⟨z, hz, hid'.trans hid, last'', hlast'', hle.trans hle'⟩
  answers := h.answers.trans h'.answers

theorem OldRow.mono (h : OldRow db userId documentId version)
    (hacc : db.acceptances <+: db'.acceptances) : OldRow db' userId documentId version := by
  obtain ⟨a, ha, hkey, hversion⟩ := h
  exact ⟨a, hacc.subset ha, hkey, hversion⟩

/-! ### Changes of the configuration -/

/-- The book may grow, and everything that was said of its versions stays true. -/
theorem DbSound.documents_grow (h : DbSound sha256 b db)
    (hhist : b.history <+: b'.history) (hcurrent : b.current.isSome → b'.current.isSome)
    (hserving : b'.current = none → b'.history = []) :
    DbSound sha256 b' { db with documents := b'.rows sha256 } where
  documents := rfl
  switch := fun htrue => hcurrent (h.switch htrue)
  serving := hserving
  userIds := h.userIds
  keys := h.keys
  names := fun a ha => (h.names a ha).mono hhist
  known := h.known
  stamped := h.stamped

theorem PhaseOk.documents_grow {phase : Phase} (h : PhaseOk b db x phase)
    (hhist : b.history <+: b'.history) (documents : List (TermsDocument Digest)) :
    PhaseOk b' { db with documents } x phase := by
  cases phase with
  | locked => trivial
  | published version acceptedAt => exact Book.Names.mono h hhist
  | inserted version acceptedAt => exact ⟨h.names.mono hhist, h.key, h.user⟩
  | present version acceptedAt => exact h
  | stamped version acceptedAt new touched =>
    cases new with
    | true => exact ⟨⟨h.1.names.mono hhist, h.1.key, h.1.user⟩, h.2⟩
    | false => exact h

theorem Sound.documents_grow (h : Sound sha256 b s) (hhist : b.history <+: b'.history)
    (hcurrent : b.current.isSome → b'.current.isSome)
    (hserving : b'.current = none → b'.history = []) :
    Sound sha256 b' { s with db := { s.db with documents := b'.rows sha256 } } where
  db := h.db.documents_grow hhist hcurrent hserving
  held := h.held
  ids := h.ids
  phases := fun x hx => (h.phases x hx).documents_grow hhist _
  apart := h.apart
  answered := h.answered

/-! ### A commit -/

section Commit

variable {new touched : Bool}

/-- A user of the table after a commit: the same as before, or stamped. -/
theorem mem_users_commit {u' : User}
    (h : u' ∈ (commitAcceptance userId documentId version acceptedAt new touched db).users) :
    ∃ u ∈ db.users, u'.id = u.id ∧ (u' = u ∨
      touched = true ∧ u.id = userId ∧ u'.termsAcceptedAt = some acceptedAt) := by
  cases touched with
  | false => exact ⟨u', h, rfl, .inl rfl⟩
  | true =>
    obtain ⟨u, hu, rfl⟩ := mem_updateWhere.mp h
    refine ⟨u, hu, ?_⟩
    split_ifs with hid
    · exact ⟨rfl, .inr ⟨rfl, of_decide_eq_true hid, rfl⟩⟩
    · exact ⟨rfl, .inl rfl⟩

theorem userIds_commit :
    (commitAcceptance userId documentId version acceptedAt new touched db).users.map User.id =
      db.users.map User.id := by
  cases touched with
  | false => rfl
  | true => exact keys_updateWhere fun _ => rfl

theorem acceptances_commit : db.acceptances <+:
    (commitAcceptance userId documentId version acceptedAt new touched db).acceptances := by
  cases new with
  | false => exact List.prefix_rfl
  | true => exact List.prefix_append _ _

/-- The stamps only move forward. -/
theorem StampedBy.commit {other otherAt : ℕ}
    (htouched : touched = true → ∀ u ∈ db.users, u.id = userId →
      ∀ last ∈ u.termsAcceptedAt, last < acceptedAt)
    (h : StampedBy db other otherAt) :
    StampedBy (commitAcceptance userId documentId version acceptedAt new touched db)
      other otherAt := by
  intro u' hu' hother
  obtain ⟨u, hu, hid, rfl | ⟨hyes, huser, hstamp⟩⟩ := mem_users_commit hu'
  · exact h u' hu hother
  · obtain ⟨last, hlast, hle⟩ := h u hu (hid ▸ hother)
    exact ⟨acceptedAt, hstamp, hle.trans (htouched hyes u hu huser last hlast).le⟩

theorem touched_of_phase (hx : PhaseOk b db x (.stamped version acceptedAt new touched)) :
    touched = true → ∀ u ∈ db.users, u.id = x.userId →
      ∀ last ∈ u.termsAcceptedAt, last < acceptedAt := by
  rintro rfl
  cases new with
  | true => exact hx.2
  | false => exact absurd hx.1 Bool.true_eq_false_eq_False

/-- The new row and its stamp come together. -/
theorem stamped_commit
    (hx : PhaseOk b db x (.stamped version acceptedAt true touched)) :
    StampedBy (commitAcceptance x.userId x.documentId version acceptedAt true touched db)
      x.userId acceptedAt := by
  intro u' hu' huser
  cases touched with
  | false => exact hx.2 u' hu' huser
  | true =>
    obtain ⟨u, hu, rfl⟩ := mem_updateWhere.mp hu'
    by_cases hid : u.id = x.userId
    · rw [if_pos (decide_eq_true hid)]
      exact ⟨acceptedAt, rfl, Nat.le_refl _⟩
    · rw [if_neg fun hdec => hid (of_decide_eq_true hdec)] at huser
      exact absurd huser hid

theorem DbSound.commit (h : DbSound sha256 b db)
    (hx : PhaseOk b db x (.stamped version acceptedAt new touched)) :
    DbSound sha256 b
      (commitAcceptance x.userId x.documentId version acceptedAt new touched db) := by
  have hmem : ∀ a ∈ (commitAcceptance x.userId x.documentId version acceptedAt new touched
      db).acceptances, a ∈ db.acceptances ∨
        new = true ∧ a = ⟨x.userId, x.documentId, version, acceptedAt⟩ := by
    intro a ha
    cases new with
    | false => exact .inl ha
    | true => exact (List.mem_append.mp ha).imp_right fun ha => ⟨rfl, List.mem_singleton.mp ha⟩
  refine ⟨h.documents, h.switch, h.serving, ?_, ?_, ?_, ?_, ?_⟩
  · rw [userIds_commit]
    exact h.userIds
  · cases new with
    | false => exact h.keys
    | true => exact nodup_keys_append h.keys hx.1.key
  · intro a ha
    rcases hmem a ha with ha | ⟨rfl, rfl⟩
    · exact h.names a ha
    · exact hx.1.names
  · intro a ha
    rw [userIds_commit]
    rcases hmem a ha with ha | ⟨rfl, rfl⟩
    · exact h.known a ha
    · exact hx.1.user
  · intro a ha
    rcases hmem a ha with ha | ⟨rfl, rfl⟩
    · exact (h.stamped a ha).commit (touched_of_phase hx)
    · exact stamped_commit hx

theorem oldRow_commit (hx : PhaseOk b db x (.stamped version acceptedAt new touched)) :
    OldRow (commitAcceptance x.userId x.documentId version acceptedAt new touched db)
      x.userId x.documentId version := by
  cases new with
  | true => exact ⟨_, List.mem_append_right _ (List.mem_singleton_self _), rfl, rfl⟩
  | false => exact hx.2.mono acceptances_commit

/-- Another transaction may go on as before. -/
theorem PhaseOk.commit (hx : PhaseOk b db x (.stamped version acceptedAt new touched))
    (hphase : x.phase = .stamped version acceptedAt new touched) (hapart : Apart x y)
    (hy : PhaseOk b db y y.phase) :
    PhaseOk b (commitAcceptance x.userId x.documentId version acceptedAt new touched db) y
      y.phase := by
  have hnew : ∀ v, y.holdsRow = true → NewRow b db y.userId y.documentId v →
      NewRow b (commitAcceptance x.userId x.documentId version acceptedAt new touched db)
        y.userId y.documentId v := by
    intro v hholds hrow
    refine ⟨hrow.names, ?_, ?_⟩
    · cases new with
      | false => exact hrow.key
      | true =>
        change _ ∉ (db.acceptances ++ [_]).map TermsAcceptance.key
        rw [List.map_append, List.mem_append]
        rintro (hkey | hkey)
        · exact hrow.key hkey
        · refine hapart.row ?_ hholds (List.mem_singleton.mp hkey).symm
          rw [Acceptance.holdsRow, hphase]
    · rw [userIds_commit]
      exact hrow.user
  cases hphase' : y.phase with
  | locked => trivial
  | published v at' =>
    rw [hphase'] at hy
    exact hy
  | inserted v at' =>
    rw [hphase'] at hy
    exact hnew v (by rw [Acceptance.holdsRow, hphase']) hy
  | present v at' =>
    rw [hphase'] at hy
    exact OldRow.mono hy acceptances_commit
  | stamped v at' new' touched' =>
    rw [hphase'] at hy
    cases new' with
    | false => exact ⟨hy.1, hy.2.mono acceptances_commit⟩
    | true =>
      refine ⟨hnew v (by rw [Acceptance.holdsRow, hphase']) hy.1, ?_⟩
      cases touched' with
      | false => exact StampedBy.commit (touched_of_phase hx) hy.2
      | true =>
        intro u' hu' huser
        obtain ⟨u, hu, hid, rfl | ⟨hyes, huser', -⟩⟩ := mem_users_commit hu'
        · exact hy.2 u' hu huser
        · refine absurd (huser'.symm.trans (hid.symm.trans huser)) (hapart.user ?_ ?_)
          · rw [Acceptance.holdsUser, hphase, hyes]
          · rw [Acceptance.holdsUser, hphase']

theorem later_commit (hx : PhaseOk b s.db x (.stamped version acceptedAt new touched))
    (pending : List Acceptance) (answer : Answer) :
    Later s
      { db := commitAcceptance x.userId x.documentId version acceptedAt new touched s.db
        pending
        answers := s.answers ++ [answer] } where
  acceptances := acceptances_commit
  users := by
    intro u hu last hlast
    cases htouched : touched with
    | false => exact ⟨u, hu, rfl, last, hlast, Nat.le_refl _⟩
    | true =>
      refine ⟨_, mem_updateWhere.mpr ⟨u, hu, rfl⟩, ?_⟩
      split_ifs with hid
      · exact ⟨rfl, acceptedAt, rfl,
          (touched_of_phase hx htouched u hu (of_decide_eq_true hid) last hlast).le⟩
      · exact ⟨rfl, last, hlast, Nat.le_refl _⟩
  answers := List.prefix_append _ _

end Commit

end ZedBot.Terms
