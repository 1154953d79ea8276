import ZedBot.Backup.Cleanup

/-! # What a cleanup pass leaves

    The pass unlinks the names of the entries that no rule keeps, and the names of their
    manifests. A manifest's name is longer than any recognised name, so a recognised file is
    gone only when its own entry was not kept; the names of a directory being distinct, that
    entry has one place in the order. -/

namespace ZedBot.Backup

variable {removable : String → Bool} {kept : List String} {minRetained : ℤ} {cutoff : ℚ}

/-- A recognised dump, encrypted or not, that is not a legacy file. -/
def IsDump (name : String) : Prop :=
  ∃ kind shortId, classifyBackupFileName name = some (kind, shortId) ∧ kind ≠ .legacySqlGz

/-! ### Names -/

theorem length_of_drop {text ending : List Char} (h : text.drop 25 = ending)
    (hne : 0 < ending.length) : text.length = 25 + ending.length := by
  have hlength := congrArg List.length h
  rw [List.length_drop] at hlength
  omega

/-- A recognised name has at most 34 characters. -/
theorem length_of_classified {name : String} {c : BackupFileKind × List Char}
    (h : classifyBackupFileName name = some c) : name.toList.length ≤ 34 := by
  rw [classifyBackupFileName] at h
  split_ifs at h with _ hdump henc hlegacy
  · exact (length_of_drop hdump (by decide)).trans_le (by decide)
  · exact (length_of_drop henc (by decide)).trans_le (by decide)
  · exact (length_of_drop hlegacy (by decide)).trans_le (by decide)

theorem le_length_of_classified {name : String} {c : BackupFileKind × List Char}
    (h : classifyBackupFileName name = some c) : 30 ≤ name.toList.length := by
  rw [classifyBackupFileName] at h
  split_ifs at h with _ hdump henc hlegacy
  · exact (by decide : 30 ≤ 25 + ".dump".toList.length).trans
      (length_of_drop hdump (by decide)).ge
  · exact (by decide : 30 ≤ 25 + ".dump.enc".toList.length).trans
      (length_of_drop henc (by decide)).ge
  · exact (by decide : 30 ≤ 25 + ".sql.gz".toList.length).trans
      (length_of_drop hlegacy (by decide)).ge

/-- The manifest of a recognised file has no recognised name. -/
theorem manifest_unclassified {name : String} {c : BackupFileKind × List Char}
    (h : classifyBackupFileName name = some c) :
    classifyBackupFileName (manifestPath name) = none := by
  cases hmanifest : classifyBackupFileName (manifestPath name) with
  | none => rfl
  | some d =>
    have hlong := length_of_classified hmanifest
    have hlength := le_length_of_classified h
    rw [manifestPath, String.toList_append, List.length_append] at hlong
    have hsuffix : BACKUP_MANIFEST_SUFFIX.toList.length = 14 := by decide
    omega

/-! ### Entries -/

theorem backupEntry_some {f : DirEntry} {entry : BackupEntry} (h : backupEntry f = some entry) :
    IsDump f.name ∧ f.readable = true ∧ f.isFile = true ∧ entry.name = f.name ∧
      entry.mtimeMs = f.mtimeMs := by
  rw [backupEntry] at h
  split at h
  · cases h
  · cases h
  · rename_i kind shortId hkind hclass
    split_ifs at h with hstat
    rw [Bool.and_eq_true] at hstat
    obtain rfl := Option.some.inj h
    exact ⟨⟨kind, shortId, hclass, fun hlegacy => hkind (by rw [hlegacy])⟩, hstat.1, hstat.2,
      rfl, rfl⟩

theorem mem_backupEntries {files : List DirEntry} {entry : BackupEntry} :
    entry ∈ backupEntries files ↔ ∃ f ∈ files, backupEntry f = some entry := by
  rw [backupEntries, List.mem_insertionSort, List.mem_filterMap]

theorem newerOrSame_trans (a b c : BackupEntry) (hab : newerOrSame a b = true)
    (hbc : newerOrSame b c = true) : newerOrSame a c = true := by
  rw [newerOrSame, decide_eq_true_iff] at *
  rcases hab with hab | ⟨hab, hab'⟩
  · rcases hbc with hbc | ⟨hbc, _⟩
    · exact Or.inl (hbc.trans hab)
    · exact Or.inl (hbc ▸ hab)
  · rcases hbc with hbc | ⟨hbc, hbc'⟩
    · exact Or.inl (hab ▸ hbc)
    · exact Or.inr ⟨hbc.trans hab, hbc'.trans hab'⟩

theorem newerOrSame_total (a b : BackupEntry) :
    newerOrSame a b = true ∨ newerOrSame b a = true := by
  rw [newerOrSame, newerOrSame, decide_eq_true_iff, decide_eq_true_iff]
  rcases lt_trichotomy a.shortId b.shortId with hlt | heq | hgt
  · exact Or.inr (Or.inl hlt)
  · rcases le_total b.mtimeMs a.mtimeMs with hle | hle
    · exact Or.inl (Or.inr ⟨heq.symm, hle⟩)
    · exact Or.inr (Or.inr ⟨heq, hle⟩)
  · exact Or.inl (Or.inl hgt)

theorem backupEntries_sorted (files : List DirEntry) :
    (backupEntries files).Pairwise fun a b => newerOrSame a b = true :=
  have : Std.Total fun a b => newerOrSame a b = true := ⟨newerOrSame_total⟩
  have : IsTrans BackupEntry fun a b => newerOrSame a b = true := ⟨newerOrSame_trans⟩
  List.pairwise_insertionSort _ _

theorem entryNames_sublist (files : List DirEntry) :
    ((files.filterMap backupEntry).map BackupEntry.name).Sublist (files.map DirEntry.name) := by
  induction files with
  | nil => exact List.Sublist.slnil
  | cons f files ih =>
    rw [List.filterMap_cons, List.map_cons]
    cases hentry : backupEntry f with
    | none => exact ih.cons _
    | some entry =>
      rw [List.map_cons, (backupEntry_some hentry).2.2.2.1]
      exact ih.cons₂ _

/-- Each entry of a directory has a name of its own. -/
theorem entryNames_nodup (dir : Directory) :
    ((backupEntries dir.files).map BackupEntry.name).Nodup := by
  have hperm := (List.perm_insertionSort (fun a b => newerOrSame a b = true)
    (dir.files.filterMap backupEntry)).map BackupEntry.name
  exact hperm.nodup_iff.mpr (dir.nodup.sublist (entryNames_sublist dir.files))

/-! ### The newest verified operation -/

theorem verifiedBefore_iff {a b : BackupOperation} : verifiedBefore a b = true ↔
    a.verifiedAt = none ∨ ∃ x y, a.verifiedAt = some x ∧ b.verifiedAt = some y ∧ y ≤ x := by
  rw [verifiedBefore]
  rcases a.verifiedAt with _ | x
  · simp
  · rcases b.verifiedAt with _ | y
    · simp
    · simp

theorem verifiedBefore_trans (a b c : BackupOperation) (hab : verifiedBefore a b = true)
    (hbc : verifiedBefore b c = true) : verifiedBefore a c = true := by
  rw [verifiedBefore_iff] at *
  rcases hab with hnone | ⟨x, y, hx, hy, hyx⟩
  · exact Or.inl hnone
  · rcases hbc with hnone | ⟨y', z, hy', hz, hzy⟩
    · rw [hnone] at hy
      cases hy
    · obtain rfl := Option.some.inj (hy.symm.trans hy')
      exact Or.inr ⟨x, z, hx, hz, hzy.trans hyx⟩

theorem verifiedBefore_total (a b : BackupOperation) :
    verifiedBefore a b = true ∨ verifiedBefore b a = true := by
  rw [verifiedBefore_iff, verifiedBefore_iff]
  rcases a.verifiedAt with _ | x
  · exact Or.inl (Or.inl rfl)
  · rcases b.verifiedAt with _ | y
    · exact Or.inr (Or.inl rfl)
    · rcases le_total y x with hle | hle
      · exact Or.inl (Or.inr ⟨x, y, rfl, rfl, hle⟩)
      · exact Or.inr (Or.inr ⟨y, x, rfl, rfl, hle⟩)

/-- The row found is verified and names a file, and no such row comes before it. -/
theorem newestVerified_some {rows : List BackupOperation} {row : BackupOperation}
    (h : newestVerified rows = some row) :
    row ∈ rows ∧ row.status = .VERIFIED ∧ row.filename ≠ none ∧
      ∀ other ∈ rows, other.status = .VERIFIED → other.filename ≠ none →
        verifiedBefore row other = true := by
  have : Std.Total fun a b => verifiedBefore a b = true := ⟨verifiedBefore_total⟩
  have : IsTrans BackupOperation fun a b => verifiedBefore a b = true := ⟨verifiedBefore_trans⟩
  have hsorted := List.pairwise_insertionSort (fun a b => verifiedBefore a b = true)
    (rows.filter fun row => row.status == .VERIFIED && row.filename.isSome)
  rw [newestVerified] at h
  have hmem := (List.mem_insertionSort _).mp (List.mem_of_head? h)
  rw [List.mem_filter, Bool.and_eq_true, beq_iff_eq, Option.isSome_iff_ne_none] at hmem
  refine ⟨hmem.1, hmem.2.1, hmem.2.2, fun other hother hstatus hfile => ?_⟩
  have hthere : other ∈ (rows.filter fun row =>
      row.status == .VERIFIED && row.filename.isSome).insertionSort
        fun a b => verifiedBefore a b = true := by
    rw [List.mem_insertionSort, List.mem_filter, Bool.and_eq_true, beq_iff_eq,
      Option.isSome_iff_ne_none]
    exact ⟨hother, hstatus, hfile⟩
  obtain ⟨rest, hrest⟩ := List.head?_eq_some_iff.mp h
  rw [hrest] at hsorted hthere
  rcases List.mem_cons.mp hthere with rfl | hlater
  · exact (or_self_iff).mp (verifiedBefore_total other other)
  · exact (List.pairwise_cons.mp hsorted).1 other hlater

/-! ### What the pass unlinks -/

/-- The names that go with an entry: its own and its manifest's, where they can be unlinked. -/
def Unlinked (removable : String → Bool) (entry : BackupEntry) (name : String) : Prop :=
  removable name = true ∧ (name = entry.name ∨ name = manifestPath entry.name)

theorem mem_unlinkQuiet {files : List DirEntry} {name : String} {f : DirEntry} :
    f ∈ unlinkQuiet removable files name ↔
      f ∈ files ∧ ¬ (removable name = true ∧ f.name = name) := by
  rw [unlinkQuiet]
  split_ifs with h
  · simp [List.mem_filter, h]
  · simp [h]

theorem mem_deleteEntry {p : Progress} {entry : BackupEntry} {f : DirEntry} :
    f ∈ (deleteEntry removable p entry).files ↔
      f ∈ p.files ∧ ¬ Unlinked removable entry f.name := by
  rw [deleteEntry, mem_unlinkQuiet, mem_unlinkQuiet, and_assoc, Unlinked]
  refine and_congr_right fun _ => ⟨?_, ?_⟩
  · rintro ⟨hown, hmanifest⟩ ⟨hremovable, heq | heq⟩
    · exact hown ⟨heq ▸ hremovable, heq⟩
    · exact hmanifest ⟨heq ▸ hremovable, heq⟩
  · intro h
    exact ⟨fun hown => h ⟨hown.2 ▸ hown.1, Or.inl hown.2⟩,
      fun hmanifest => h ⟨hmanifest.2 ▸ hmanifest.1, Or.inr hmanifest.2⟩⟩

/-- A file is left by the loop when it goes with no entry that is not kept. -/
theorem mem_deleteLoop {f : DirEntry} (entries : List BackupEntry) (i : ℕ) (p : Progress) :
    f ∈ (deleteLoop removable minRetained kept cutoff i entries p).files ↔
      f ∈ p.files ∧ ∀ j entry, entries[j]? = some entry →
        isKept minRetained kept cutoff (i + j) entry = false →
        ¬ Unlinked removable entry f.name := by
  induction entries generalizing i p with
  | nil => simp [deleteLoop]
  | cons entry entries ih =>
    have hlater : (∀ j e, (entry :: entries)[j]? = some e →
          isKept minRetained kept cutoff (i + j) e = false → ¬ Unlinked removable e f.name) ↔
        (isKept minRetained kept cutoff i entry = false → ¬ Unlinked removable entry f.name) ∧
          ∀ j e, entries[j]? = some e → isKept minRetained kept cutoff (i + 1 + j) e = false →
            ¬ Unlinked removable e f.name := by
      refine ⟨fun h => ⟨h 0 entry rfl, fun j e he => ?_⟩, fun h j e he => ?_⟩
      · have hj := h (j + 1) e he
        rwa [show i + (j + 1) = i + 1 + j by omega] at hj
      · rcases j with _ | j
        · obtain rfl := Option.some.inj he
          exact h.1
        · have hj := h.2 j e he
          rwa [show i + 1 + j = i + (j + 1) by omega] at hj
    rw [hlater, deleteLoop]
    split_ifs with hkept
    · rw [ih, hkept]
      simp
    · rw [ih, mem_deleteEntry, and_assoc]
      rw [Bool.not_eq_true] at hkept
      simp [hkept]

theorem deleteLoop_deleted (entries : List BackupEntry) (i : ℕ) (p : Progress) :
    (deleteLoop removable minRetained kept cutoff i entries p).deleted ≤
      p.deleted + entries.length := by
  induction entries generalizing i p with
  | nil => exact Nat.le_refl _
  | cons entry entries ih =>
    rw [deleteLoop, List.length_cons]
    split_ifs
    · exact (ih _ _).trans (by omega)
    · refine (ih _ _).trans ?_
      rw [deleteEntry]
      dsimp only
      omega

/-! ### What stays -/

variable {readdir : Bool} {dir : Directory} {rows : List BackupOperation}
  {minimum retentionDays now : ℤ} {f : DirEntry}

/-- The entry of this place is kept by the pass. -/
def Spared (dir : Directory) (rows : List BackupOperation) (minimum retentionDays now : ℤ)
    (i : ℕ) (entry : BackupEntry) : Prop :=
  isKept (backupMinRetained minimum) (protectedNames (backupEntries dir.files) rows)
    (cutoffMs now (backupRetentionDays retentionDays)) i entry = true

theorem spared_iff {i : ℕ} {entry : BackupEntry} :
    Spared dir rows minimum retentionDays now i entry ↔
      (i : ℤ) < backupMinRetained minimum ∨
        entry.name ∈ protectedNames (backupEntries dir.files) rows ∨
        cutoffMs now (backupRetentionDays retentionDays) ≤ entry.mtimeMs := by
  rw [Spared, isKept, Bool.or_eq_true, Bool.or_eq_true, decide_eq_true_iff, decide_eq_true_iff,
    List.contains_iff_mem, or_assoc]

/-- A file that is gone went with an entry that the pass did not keep. -/
theorem unlinked_of_gone (hf : f ∈ dir.files)
    (hgone : f ∉ (runBackupCleanup readdir removable dir.files rows minimum retentionDays now).2) :
    ∃ i entry, (backupEntries dir.files)[i]? = some entry ∧
      ¬ Spared dir rows minimum retentionDays now i entry ∧ Unlinked removable entry f.name := by
  rw [runBackupCleanup] at hgone
  split_ifs at hgone with hreaddir
  · rw [mem_deleteLoop, not_and] at hgone
    have hsome := hgone hf
    push Not at hsome
    obtain ⟨i, entry, hentry, hkept, hunlinked⟩ := hsome
    rw [Nat.zero_add] at hkept
    exact ⟨i, entry, hentry, Bool.not_eq_true _ ▸ hkept, hunlinked⟩
  · exact absurd hf hgone

/-- A recognised dump stays when every place of its entry is kept. -/
theorem dump_stays (hf : f ∈ dir.files) (hdump : IsDump f.name)
    (hspared : ∀ i entry, (backupEntries dir.files)[i]? = some entry → entry.name = f.name →
      Spared dir rows minimum retentionDays now i entry) :
    f ∈ (runBackupCleanup readdir removable dir.files rows minimum retentionDays now).2 := by
  by_contra hgone
  obtain ⟨i, entry, hentry, hnot, -, hname | hname⟩ := unlinked_of_gone hf hgone
  · exact hnot (hspared i entry hentry hname.symm)
  · obtain ⟨g, _, hg⟩ := mem_backupEntries.mp (List.mem_of_getElem? hentry)
    obtain ⟨⟨kind, shortId, hclass, _⟩, _, _, hgname, _⟩ := backupEntry_some hg
    obtain ⟨kind', shortId', hclass', _⟩ := hdump
    rw [hname, hgname, manifest_unclassified hclass] at hclass'
    cases hclass'

/-- A name has one place in the order. -/
theorem place_unique {i j : ℕ} {entry other : BackupEntry}
    (hi : (backupEntries dir.files)[i]? = some entry)
    (hj : (backupEntries dir.files)[j]? = some other) (hname : entry.name = other.name) :
    i = j := by
  have hi' := congrArg (Option.map BackupEntry.name) hi
  have hj' := congrArg (Option.map BackupEntry.name) hj
  rw [← List.getElem?_map, Option.map_some] at hi' hj'
  obtain ⟨hlt, _⟩ := List.getElem?_eq_some_iff.mp hi'
  refine (List.getElem?_inj hlt (entryNames_nodup dir)).mp ?_
  rw [hi', hj', hname]

theorem deleted_add_retained (files : List DirEntry) :
    (runBackupCleanup readdir removable files rows minimum retentionDays now).1.deleted +
        (runBackupCleanup readdir removable files rows minimum retentionDays now).1.retained =
      (runBackupCleanup readdir removable files rows minimum retentionDays now).1.scanned := by
  rw [runBackupCleanup]
  split_ifs
  · refine Nat.add_sub_cancel' ((deleteLoop_deleted _ _ _).trans ?_)
    rw [Nat.zero_add]
  · rfl

/-- The pass goes over the recognised dumps, newest first. It leaves the newest of them and the
    retained minimum, the file of the newest verified operation, and every dump younger than the
    retention period; besides dumps it unlinks only the manifests of dumps that it did not
    keep. -/
theorem backup_cleanup (readdir : Bool) (removable : String → Bool) (dir : Directory)
    (rows : List BackupOperation) (minimum retentionDays now : ℤ) :
    ((backupEntries dir.files).Pairwise fun a b => newerOrSame a b = true) ∧
    (∀ entry, entry ∈ backupEntries dir.files ↔ ∃ f ∈ dir.files, backupEntry f = some entry) ∧
    (∀ row, newestVerified rows = some row → ∀ f ∈ dir.files, IsDump f.name →
      row.filename = some f.name →
        row ∈ rows ∧ row.status = .VERIFIED ∧
        f ∈ (runBackupCleanup readdir removable dir.files rows minimum retentionDays now).2) ∧
    (∀ (i : ℕ) entry, (backupEntries dir.files)[i]? = some entry →
      i = 0 ∨ (i : ℤ) < backupMinRetained minimum →
      ∀ f ∈ dir.files, f.name = entry.name →
        f ∈ (runBackupCleanup readdir removable dir.files rows minimum retentionDays now).2) ∧
    (∀ f ∈ dir.files, IsDump f.name →
      cutoffMs now (backupRetentionDays retentionDays) ≤ f.mtimeMs →
        f ∈ (runBackupCleanup readdir removable dir.files rows minimum retentionDays now).2) ∧
    (∀ f ∈ dir.files,
      f ∉ (runBackupCleanup readdir removable dir.files rows minimum retentionDays now).2 →
        ∃ i entry, (backupEntries dir.files)[i]? = some entry ∧ IsDump entry.name ∧
          ¬ Spared dir rows minimum retentionDays now i entry ∧
          (f.name = entry.name ∨ f.name = manifestPath entry.name)) ∧
    (runBackupCleanup readdir removable dir.files rows minimum retentionDays now).1.deleted +
        (runBackupCleanup readdir removable dir.files rows minimum retentionDays now).1.retained =
      (runBackupCleanup readdir removable dir.files rows minimum retentionDays now).1.scanned := by
  refine ⟨backupEntries_sorted _, fun entry => mem_backupEntries,
    fun row hrow f hf hdump hname => ?_, fun i entry hentry hplace f hf hname => ?_, fun f hf hdump hyoung => ?_,
    fun f hf hgone => ?_, deleted_add_retained _⟩
  · obtain ⟨hmem, hverified, _⟩ := newestVerified_some hrow
    refine ⟨hmem, hverified, dump_stays hf hdump fun i entry hentry hentryName => ?_⟩
    refine spared_iff.mpr (Or.inr (Or.inl ?_))
    rw [protectedNames, hrow, Option.bind_some, hname, hentryName]
    exact List.mem_append_right _ (List.mem_singleton_self _)
  · obtain ⟨g, hg, hgentry⟩ := mem_backupEntries.mp (List.mem_of_getElem? hentry)
    obtain ⟨hdump, _, _, hgname, _⟩ := backupEntry_some hgentry
    refine dump_stays hf (by rwa [hname, hgname]) fun j other hother hotherName => ?_
    obtain rfl := place_unique hother hentry (hotherName.trans hname)
    rcases hplace with rfl | hlt
    · refine spared_iff.mpr (Or.inr (Or.inl ?_))
      rw [protectedNames, List.head?_eq_getElem?, hother]
      exact List.mem_append_left _ (List.mem_singleton_self _)
    · exact spared_iff.mpr (Or.inl hlt)
  · refine dump_stays hf hdump fun i entry hentry hentryName => ?_
    obtain ⟨g, hg, hgentry⟩ := mem_backupEntries.mp (List.mem_of_getElem? hentry)
    obtain ⟨_, _, _, hgname, hgtime⟩ := backupEntry_some hgentry
    obtain rfl := List.inj_on_of_nodup_map dir.nodup hg hf (hgname.symm.trans hentryName)
    exact spared_iff.mpr (Or.inr (Or.inr (hgtime ▸ hyoung)))
  · obtain ⟨i, entry, hentry, hnot, -, hname⟩ := unlinked_of_gone hf hgone
    obtain ⟨g, _, hgentry⟩ := mem_backupEntries.mp (List.mem_of_getElem? hentry)
    obtain ⟨hdump, _, _, hgname, _⟩ := backupEntry_some hgentry
    exact ⟨i, entry, hentry, hgname ▸ hdump, hnot, hname⟩

/-! ### A verified backup without the newest one's file -/

def dumpFile (name : String) (mtimeMs : ℚ) : DirEntry where
  name := name
  isFile := true
  readable := true
  size := 1000
  mtimeMs := mtimeMs

/-- A verified backup with its manifest, and a newer one that was never verified. -/
def januaryFiles : List DirEntry :=
  [dumpFile "zedbot-db-20250101-000000.dump" 1000,
    dumpFile "zedbot-db-20250101-000000.dump.manifest.json" 1000,
    dumpFile "zedbot-db-20250201-000000.dump" 2000]

/-- The file of the later verification is not in the directory. -/
def januaryRows : List BackupOperation :=
  [⟨.VERIFIED, some "zedbot-db-20250101-000000.dump", some 1⟩,
    ⟨.VERIFIED, some "zedbot-db-20250115-000000.dump", some 2⟩,
    ⟨.CORRUPT, some "zedbot-db-20250201-000000.dump", none⟩]

theorem last_verified_backup_deleted :
    (januaryFiles.map DirEntry.name).Nodup ∧
    dumpFile "zedbot-db-20250101-000000.dump" 1000 ∈ januaryFiles ∧
    classifyBackupFileName "zedbot-db-20250101-000000.dump.manifest.json" = none ∧
    runBackupCleanup true (fun _ => true) januaryFiles januaryRows 0 14 2000000000 =
      ({ scanned := 2, deleted := 1, retained := 1, freedBytes := 1000 },
        [dumpFile "zedbot-db-20250201-000000.dump" 2000]) ∧
    ∀ row ∈ januaryRows, row.status = .VERIFIED →
      row.filename ≠ some "zedbot-db-20250201-000000.dump" := by
  decide +kernel

end ZedBot.Backup
