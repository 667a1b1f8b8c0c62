import Mathlib
import RustyDB.Kv.Sequence
import RustyDB.Recovery.Restored
import RustyDB.Recovery.PointInTime

/-!
# Backup and restore of the latest state

`create` copies the snapshots, the active logs and the archive; `restore` to `Latest` copies
the snapshots back and writes each log anew, from all the segments it finds, with the records
behind the snapshot only.  A directory whose archive is covered by its snapshots comes back
as what it was, even after its archive has been pruned.

* `SqlFiles`, `KvFiles` — the files of a directory as the two engines see them.
* `LogSource` — an active log of valid records that holds everything its snapshot does not.
* `SqlSource`, `KvSource` — directories that can be opened, with such logs.
* `kept_of_source` — what a restore keeps of all the records found.
* `replayRecords_skip` — the records that `replay_wal` skips are those it does not keep.
* `validateManifest_create` — a backup passes its own manifest.
* `latest_round_trip` — **pruning, backup and restore lead back to the same state.**
-/

namespace RustyDB
namespace Recovery

open LineFile NumberedLog

/-! ## Directories that are opened -/

/-- The SQL files of a directory, without tables of the older format. -/
structure SqlFiles (directory : Directory) (disk : Sql.SqlDisk) : Prop where
  catalog : directory.read ["catalog.json"] = disk.catalogFile.map utf8
  wal : directory.read ["sql_wal.log"] = disk.wal
  tables : ∀ file ∈ directory, file.path.head? ≠ some "tables"
  legacy : disk.legacyTables = []

/-- The key-value files of a directory, whose snapshot is of the present format. -/
structure KvFiles (R : RecoveryHost) (directory : Directory) (disk : Kv.Disk) : Prop where
  snapshot : ∀ content, directory.read ["rustydb.db"] = some content →
    ∃ text file, decode content = some text ∧ R.decodeKvSnapshot text = some file ∧
      disk.snapshot = some (.snapshot file)
  missing : directory.read ["rustydb.db"] = none → disk.snapshot = none
  wal : ∃ texts : List String, lines ((directory.read ["rustydb.wal"]).getD []) = texts.map some ∧
    disk.wal = texts.map R.kv.readLine

/-- A log of valid records with increasing numbers, which holds every record of the archive
that the snapshot does not cover. -/
structure LogSource {α : Type} (K : RecordKind α) (source : Directory) (path : List String)
    (base : Nat) (records : List α) : Prop where
  active : List.Forall₂ (fun l r => ∃ text, l = some text ∧ K.decode text = some r ∧
    K.valid r = true ∧ isBlank text = false) (lines ((source.read path).getD [])) records
  increasing : Increasing K.number records
  archive : ∀ file ∈ source, file.path.head? = some "wal_archive" →
    K.selects file.fileName = true → ∀ l ∈ lines file.content, ∃ text r, l = some text ∧
      K.decode text = some r ∧ K.valid r = true ∧ (K.number r ≤ base ∨ r ∈ records)

/-- A directory whose SQL engine opens. -/
structure SqlSource (R : RecoveryHost) (H : Sql.Host) (source : Directory) (base : Nat)
    (records : List Sql.WalRecord) (catalog : Sql.Catalog) : Prop where
  exists_disk : ∃ disk loaded, SqlFiles source disk ∧
    Sql.loadCatalog H R.catalog disk.catalogFile disk.legacyTables = .ok loaded ∧
    loaded.version = base ∧ Sql.openCatalog H R.sql R.catalog disk = .ok catalog
  log : LogSource (sqlKind R) source ["sql_wal.log"] base records

/-- A directory whose key-value engine opens.  Its active log leaves no gap behind the
snapshot, and what the snapshot covers of it leaves the snapshot as it is: this is so after a
snapshot, and after a crash between the renaming of one and the archiving of the log. -/
structure KvSource (R : RecoveryHost) (source : Directory) (disk : Kv.Disk)
    (records : List Kv.KvWalRecord) (m : String → Option String) : Prop where
  files : KvFiles R source disk
  log : LogSource (kvKind R) source ["rustydb.wal"] disk.snapshotSequence records
  numbered : ∃ n ≤ disk.snapshotSequence, Numbered Kv.KvWalRecord.sequence n records
  recovers : Kv.Disk.recovered R.kvHost { disk with wal := [] } = .ok m
  covered : KeyLog.replay m ((records.filter fun r => r.sequence ≤ disk.snapshotSequence).map
    Kv.KvWalRecord.operation) = m

/-- The name of every file can stand in a manifest, and no two files share a path. -/
structure Named (source : Directory) : Prop where
  nodup : (source.map StoredFile.path).Nodup
  plain : ∀ file ∈ source, ∀ name ∈ file.path, '/' ∉ name.toList ∧ '\\' ∉ name.toList

/-! ## Copies -/

section Copies

variable {source : Directory} {file : StoredFile} {path : List String}

theorem read_of_mem (hnodup : (source.map StoredFile.path).Nodup) (hfile : file ∈ source) :
    source.read file.path = some file.content := by
  induction source with
  | nil => cases hfile
  | cons first rest ih =>
    obtain ⟨hfirst, hrest⟩ := List.nodup_cons.mp hnodup
    rcases List.mem_cons.mp hfile with rfl | hfile
    · simp [Directory.read]
    · have hne : first.path ≠ file.path := by
        intro heq
        apply hfirst
        rw [heq]
        exact List.mem_map_of_mem hfile
      have htail := ih hrest hfile
      rw [Directory.read] at htail ⊢
      rwa [List.find?_cons_of_neg (by simpa using hne)]

theorem mem_copyFile {destination : List String} :
    file ∈ source.copyFile path destination ↔
      ∃ content, source.read path = some content ∧ file = ⟨destination, content⟩ := by
  rw [Directory.copyFile]
  cases source.read path with
  | none => simp
  | some content => simp

theorem mem_copyTree {name : String} :
    file ∈ source.copyTree name ↔ file ∈ source ∧ file.path.head? = some name := by
  rw [Directory.copyTree, List.mem_filter, mem_listFiles, beq_iff_eq]

/-- A copied tree reads as its source. -/
theorem read_copyTree (hnodup : (source.map StoredFile.path).Nodup) {name : String}
    (hfile : file ∈ source) (hhead : file.path.head? = some name) :
    (source.copyTree name).read file.path = some file.content := by
  refine read_of_mem ?_ (mem_copyTree.mpr ⟨hfile, hhead⟩)
  have hperm : (source.listFiles.map StoredFile.path).Nodup :=
    ((List.perm_insertionSort _ source).map _).nodup_iff.mpr hnodup
  exact (List.filter_sublist.map _).nodup hperm

/-- A file that is not archived is kept by what removes archived ones. -/
theorem read_filter {keep : StoredFile → Bool}
    (hkeep : ∀ file ∈ source, file.path.head? ≠ some "wal_archive" → keep file = true)
    (hpath : path.head? ≠ some "wal_archive") :
    Directory.read (source.filter keep) path = source.read path := by
  induction source with
  | nil => rfl
  | cons first rest ih =>
    have htail := ih fun file hfile => hkeep file (List.mem_cons_of_mem _ hfile)
    rw [Directory.read, Directory.read] at htail ⊢
    by_cases hfirst : first.path = path
    · have hkept : keep first = true := hkeep first List.mem_cons_self (by rwa [hfirst])
      rw [List.filter_cons_of_pos hkept, List.find?_cons_of_pos (by simpa using hfirst),
        List.find?_cons_of_pos (by simpa using hfirst)]
    · rw [List.find?_cons_of_neg (by simpa using hfirst), ← htail]
      cases hkept : keep first with
      | true =>
        rw [List.filter_cons_of_pos hkept, List.find?_cons_of_neg (by simpa using hfirst)]
      | false => rw [List.filter_cons_of_neg (by simp [hkept])]

end Copies

/-! ## What a restore keeps -/

section Keeping

variable {α : Type} {K : RecordKind α} {L : LoopKind α} {source rest : Directory}
  {name : String} {path : List String} {base m : Nat} {records found : List α}

theorem mem_of_forall₂ {β γ : Type} {P : β → γ → Prop} {xs : List β} {ys : List γ}
    (h : List.Forall₂ P xs ys) : (∀ x ∈ xs, ∃ y ∈ ys, P x y) ∧ ∀ y ∈ ys, ∃ x ∈ xs, P x y := by
  induction h with
  | nil => exact ⟨by simp, by simp⟩
  | cons hxy _ ih =>
    constructor
    · intro x hx
      rcases List.mem_cons.mp hx with rfl | hx
      · exact ⟨_, List.mem_cons_self, hxy⟩
      · obtain ⟨y, hy, hP⟩ := ih.1 x hx
        exact ⟨y, List.mem_cons_of_mem _ hy, hP⟩
    · intro y hy
      rcases List.mem_cons.mp hy with rfl | hy
      · exact ⟨_, List.mem_cons_self, hxy⟩
      · obtain ⟨x, hx, hP⟩ := ih.2 y hy
        exact ⟨x, List.mem_cons_of_mem _ hx, hP⟩

/-- The records of a backup are those of its source: the archived ones and the active
ones. -/
theorem LogSource.holds (h : LogSource K source [name] base records)
    (hname : ∀ other ∈ ["catalog.json", "sql_wal.log", "rustydb.db", "rustydb.wal"],
      K.selects other = true → other = name)
    (hrest : ∀ file ∈ rest, K.selects file.fileName = false) (display : String) :
    K.Holds (fun r => K.number r ≤ base ∨ r ∈ records)
      [⟨display, backupFiles source ++ rest⟩] := by
  intro root hroot file hfile l hl
  rw [List.mem_singleton] at hroot
  subst hroot
  obtain ⟨hfile, hselects⟩ := mem_filesOf.mp hfile
  have hactive : ∀ other ∈ ["catalog.json", "sql_wal.log", "rustydb.db", "rustydb.wal"],
      file ∈ source.copyFile [other] ["base", other] → ∃ text r, l = some text ∧
        K.decode text = some r ∧ K.valid r = true ∧ (K.number r ≤ base ∨ r ∈ records) := by
    intro other hother hcopy
    obtain ⟨content, hread, rfl⟩ := mem_copyFile.mp hcopy
    obtain rfl := hname other hother hselects
    have hlines := h.active
    rw [hread] at hlines
    obtain ⟨r, hr, text, htext, hdecode, hvalid, -⟩ := (mem_of_forall₂ hlines).1 l hl
    exact ⟨text, r, htext, hdecode, hvalid, Or.inr hr⟩
  rcases List.mem_append.mp hfile with hfile | hfile
  · rw [backupFiles, List.mem_append, List.mem_append, List.mem_append, List.mem_append] at hfile
    rcases hfile with (((hfile | hfile) | hfile) | hfile) | hfile
    · exact hactive _ (by simp) hfile
    · exact hactive _ (by simp) hfile
    · exact hactive _ (by simp) hfile
    · exact hactive _ (by simp) hfile
    · obtain ⟨hmem, hhead⟩ := mem_copyTree.mp hfile
      exact h.archive file hmem hhead hselects l hl
  · rw [hrest file hfile] at hselects
    cases hselects

/-- The same, without any other file. -/
theorem LogSource.holds_files (h : LogSource K source [name] base records)
    (hname : ∀ other ∈ ["catalog.json", "sql_wal.log", "rustydb.db", "rustydb.wal"],
      K.selects other = true → other = name) (display : String) :
    K.Holds (fun r => K.number r ≤ base ∨ r ∈ records) [⟨display, backupFiles source⟩] := by
  have hholds := h.holds hname (List.forall_mem_nil _) display
  rwa [List.append_nil] at hholds

/-- Every active record is found in the backup. -/
theorem LogSource.mem_found (h : LogSource K source [name] base records)
    (hname : name ∈ ["catalog.json", "sql_wal.log", "rustydb.db", "rustydb.wal"])
    (hselects : K.selects name = true) {root : Root} (hroot : backupFiles source ⊆ root.files)
    {r : α} (hr : r ∈ records) : r ∈ K.found [root] := by
  obtain ⟨l, hl, text, rfl, hdecode, -⟩ := (mem_of_forall₂ h.active).2 r hr
  cases hread : source.read [name] with
  | none =>
    rw [hread] at hl
    cases hl
  | some content =>
    rw [hread] at hl
    have hcopy : (⟨["base", name], content⟩ : StoredFile) ∈
        source.copyFile [name] ["base", name] := mem_copyFile.mpr ⟨content, hread, rfl⟩
    have hfile : (⟨["base", name], content⟩ : StoredFile) ∈ backupFiles source := by
      simp only [backupFiles, List.mem_append]
      fin_cases hname
      · exact Or.inl (Or.inl (Or.inl (Or.inl hcopy)))
      · exact Or.inl (Or.inl (Or.inl (Or.inr hcopy)))
      · exact Or.inl (Or.inl (Or.inr hcopy))
      · exact Or.inl (Or.inr hcopy)
    have htexts : ∀ ls : List (Option String), (∀ l ∈ ls, ∃ text, l = some text) →
        some text ∈ ls → text ∈ mapWhileOk ls := by
      intro ls hls hmem
      induction ls with
      | nil => cases hmem
      | cons first ls ih =>
        obtain ⟨shown, rfl⟩ := hls first List.mem_cons_self
        rcases List.mem_cons.mp hmem with heq | hmem
        · rw [Option.some.inj heq]
          exact List.mem_cons_self
        · exact List.mem_cons_of_mem _ (ih (fun l hl => hls l (List.mem_cons_of_mem _ hl)) hmem)
    have hlines := h.active
    rw [hread] at hlines
    refine Recovery.mem_found.mpr ⟨_, List.mem_singleton_self _, _, mem_filesOf.mpr
      ⟨hroot hfile, hselects⟩, text, htexts _ (fun l hl => ?_) hl, hdecode⟩
    obtain ⟨-, -, text, htext, -⟩ := (mem_of_forall₂ hlines).1 l hl
    exact ⟨text, htext⟩

/-- **Behind the base**, what is found is what the active log holds. -/
theorem kept_of_source {number : α → Nat} (hincreasing : Increasing number records)
    (hfound : ∀ r ∈ found, number r ≤ base ∨ r ∈ records) (hrecords : ∀ r ∈ records, r ∈ found) :
    (gather number found).filter (fun r => base < number r) =
      records.filter fun r => base < number r := by
  have hgathered : Increasing number ((gather number found).filter fun r => base < number r) :=
    (increasing_gather found).filter _
  have hactive : Increasing number (records.filter fun r => base < number r) :=
    hincreasing.filter _
  refine hgathered.ext hactive fun r => ?_
  rw [List.mem_filter, List.mem_filter, decide_eq_true_eq]
  constructor
  · rintro ⟨hr, hlt⟩
    rcases hfound r (gather_subset hr) with hle | hr
    · omega
    · exact ⟨hr, hlt⟩
  · rintro ⟨hr, hlt⟩
    obtain ⟨s, hs, hnumber⟩ : ∃ s ∈ gather number found, number s = number r :=
      exists_mem_gather (hrecords r hr)
    rcases hfound s (gather_subset hs) with hle | hmem
    · omega
    · obtain rfl := hincreasing.eq_of_number hmem hr hnumber
      exact ⟨hs, hlt⟩

theorem kept_latest (rs : List α) :
    Filter.kept L ⟨base, none, none⟩ rs = rs.filter fun r => base < L.number r := by
  simp [Filter.kept]

/-- The number that `create` writes into the manifest is the one a restore will reach. -/
theorem maxNumber_eq {root : Root} (hnumber : K.number = L.number)
    (hvalid : ∀ r ∈ K.found [root], K.valid r = true)
    (hchain : L.Chain base ((gather K.number (K.found [root])).filter fun r => base < K.number r)
      m) : maxNumber K root base = m := by
  have hgather : Increasing K.number (gather K.number (K.found [root])) := increasing_gather _
  rw [maxNumber, collectRecords_eq_ok.mpr ⟨rfl, hvalid⟩]
  simp only
  cases hlast : (gather K.number (K.found [root])).getLast? with
  | none =>
    rw [List.getLast?_eq_none_iff.mp hlast] at hchain
    obtain rfl : base = m := hchain
    simp
  | some last =>
    obtain ⟨init, hsplit⟩ := List.getLast?_eq_some_iff.mp hlast
    rw [hsplit] at hgather hchain
    have hmax : ∀ r ∈ init ++ [last], K.number r ≤ K.number last := by
      intro r hr
      rcases List.mem_append.mp hr with hr | hr
      · exact ((List.pairwise_append.mp hgather).2.2 r hr last (List.mem_singleton_self _)).le
      · rw [List.mem_singleton.mp hr]
    simp only [Option.map_some, Option.getD_some]
    by_cases hbase : K.number last ≤ base
    · have hempty : (init ++ [last]).filter (fun r => base < K.number r) = [] := by
        refine List.filter_eq_nil_iff.mpr fun r hr => ?_
        have hle := hmax r hr
        rw [decide_eq_true_eq]
        omega
      rw [hempty] at hchain
      obtain rfl : base = m := hchain
      omega
    · have hkept : last ∈ (init ++ [last]).filter fun r => base < K.number r := by
        rw [List.mem_filter, decide_eq_true_eq]
        exact ⟨by simp, by omega⟩
      have hincreasing : Increasing L.number
          ((init ++ [last]).filter fun r => base < K.number r) := by
        rw [← hnumber]
        exact hgather.filter _
      have hle := hchain.le hincreasing hkept
      rw [← hnumber] at hle
      rcases hchain.stop with hm | ⟨r, hr, hm⟩
      · omega
      · rw [← hnumber] at hm
        have hlast := hmax r (List.mem_of_mem_filter hr)
        omega

end Keeping

/-! ## Replaying -/

/-- **The records that `replay_wal` skips** are those that a restore does not keep. -/
theorem replayRecords_skip {H : Sql.Host} {W : Sql.WalHost} {catalog final : Sql.Catalog}
    {rs : List Sql.WalRecord} (hrs : Increasing Sql.WalRecord.commitVersion rs)
    (h : Sql.replayRecords H W catalog rs = .ok final) :
    sqlLoop.Chain catalog.version (rs.filter fun r => catalog.version < r.commitVersion)
        final.version ∧
      Sql.replayRecords H W catalog (rs.filter fun r => catalog.version < r.commitVersion) =
        .ok final := by
  induction rs generalizing catalog with
  | nil =>
    obtain rfl := Except.ok.inj h
    exact ⟨rfl, rfl⟩
  | cons r rs ih =>
    obtain ⟨hfirst, hrest⟩ := List.pairwise_cons.mp hrs
    rw [Sql.replayRecords] at h
    by_cases hskip : r.commitVersion ≤ catalog.version
    · rw [Sql.replayRecord, if_pos hskip] at h
      have hnot : ¬ catalog.version < r.commitVersion := by omega
      rw [List.filter_cons_of_neg (by simpa using hnot)]
      exact ih hrest h
    · obtain ⟨next, hnext, h⟩ := Result.bind_eq_ok.mp h
      have hrecord := hnext
      rw [Sql.replayRecord, if_neg hskip] at hnext
      split_ifs at hnext with hbase
      obtain ⟨replayed, -, rfl⟩ := Result.map_eq_ok.mp hnext
      obtain ⟨hchain, hreplay⟩ := ih hrest h
      have hall : ∀ n ≤ r.commitVersion, rs.filter (fun s => n < s.commitVersion) = rs := by
        intro n hn
        refine List.filter_eq_self.mpr fun s hs => ?_
        have hlt := hfirst s hs
        rw [decide_eq_true_eq]
        omega
      rw [hall _ (Nat.le_refl _)] at hchain hreplay
      have hlt : catalog.version < r.commitVersion := by omega
      rw [List.filter_cons_of_pos (by simpa using hlt), hall _ hlt.le]
      refine ⟨⟨?_, hchain⟩, ?_⟩
      · simpa [sqlLoop] using not_not.mp hbase
      · rw [Sql.replayRecords, hrecord]
        exact hreplay

/-! ## The manifest -/

section Manifest

variable {R : RecoveryHost} {source : Directory}

/-- What a joined text is made of. -/
theorem mem_intercalate {α : Type} {x c : α} {pieces : List (List α)}
    (h : c ∈ [x].intercalate pieces) : c = x ∨ ∃ piece ∈ pieces, c ∈ piece := by
  induction pieces with
  | nil => cases h
  | cons piece pieces ih =>
    cases pieces with
    | nil =>
      rw [List.intercalate_singleton] at h
      exact Or.inr ⟨piece, List.mem_cons_self, h⟩
    | cons next pieces =>
      rw [List.intercalate_cons_cons, List.mem_append, List.mem_append, List.mem_singleton] at h
      rcases h with (h | h) | h
      · exact Or.inr ⟨piece, List.mem_cons_self, h⟩
      · exact Or.inl h
      · rcases ih h with hx | ⟨found, hfound, hc⟩
        · exact Or.inl hx
        · exact Or.inr ⟨found, List.mem_cons_of_mem _ hfound, hc⟩

/-- The path of a manifest entry is split back into its components. -/
theorem split_manifestEntry {file : StoredFile} (hpath : file.path ≠ [])
    (hplain : ∀ name ∈ file.path, '/' ∉ name.toList ∧ '\\' ∉ name.toList) :
    ((manifestEntry R file).path.toList.splitOn '/').map String.ofList = file.path := by
  have hjoined : (String.intercalate "/" file.path).toList =
      ['/'].intercalate (file.path.map String.toList) := String.toList_intercalate
  have hkeep : (String.intercalate "/" file.path).toList.map
      (fun c => if c = '\\' then '/' else c) = (String.intercalate "/" file.path).toList := by
    refine (List.map_congr_left fun c hc => ?_).trans (List.map_id _)
    rw [hjoined] at hc
    have hne : c ≠ '\\' := by
      rintro rfl
      rcases mem_intercalate hc with hslash | ⟨piece, hpiece, hc⟩
      · cases hslash
      · obtain ⟨name, hname, rfl⟩ := List.mem_map.mp hpiece
        exact (hplain name hname).2 hc
    rw [if_neg hne, id]
  rw [manifestEntry, String.toList_ofList, hkeep, hjoined, List.splitOn_intercalate]
  · simp
  · intro piece hpiece
    obtain ⟨name, hname, rfl⟩ := List.mem_map.mp hpiece
    exact (hplain name hname).1
  · simpa using hpath

/-- The path of a copied file: below `base`, or one of the archive. -/
theorem path_of_backupFiles {file : StoredFile} (h : file ∈ backupFiles source) :
    (∃ name ∈ ["catalog.json", "sql_wal.log", "rustydb.db", "rustydb.wal"],
      file.path = ["base", name]) ∨
    file ∈ source ∧ file.path.head? = some "wal_archive" := by
  rw [backupFiles, List.mem_append, List.mem_append, List.mem_append, List.mem_append] at h
  rcases h with (((h | h) | h) | h) | h
  · obtain ⟨content, -, rfl⟩ := mem_copyFile.mp h
    exact Or.inl ⟨_, by simp, rfl⟩
  · obtain ⟨content, -, rfl⟩ := mem_copyFile.mp h
    exact Or.inl ⟨_, by simp, rfl⟩
  · obtain ⟨content, -, rfl⟩ := mem_copyFile.mp h
    exact Or.inl ⟨_, by simp, rfl⟩
  · obtain ⟨content, -, rfl⟩ := mem_copyFile.mp h
    exact Or.inl ⟨_, by simp, rfl⟩
  · exact Or.inr (mem_copyTree.mp h)

/-- The four files of a backup's base read as they do in the source. -/
theorem read_base {rest : Directory} {name : String}
    (hname : name ∈ ["catalog.json", "sql_wal.log", "rustydb.db", "rustydb.wal"])
    (hrest : Directory.read rest ["base", name] = none) :
    Directory.read (backupFiles source ++ rest) ["base", name] = source.read [name] := by
  simp only [backupFiles, read_append, read_copyFile, hrest]
  rw [read_copyTree_of_ne (by simp)]
  fin_cases hname <;> simp

/-- The backed-up files read as they are. -/
theorem read_backupFiles {rest : Directory} {file : StoredFile} (hnamed : Named source)
    (hrest : ∀ name, Directory.read rest ["base", name] = none)
    (hfile : file ∈ backupFiles source) :
    Directory.read (backupFiles source ++ rest) file.path = some file.content := by
  have hcopied : ∀ name ∈ ["catalog.json", "sql_wal.log", "rustydb.db", "rustydb.wal"],
      file ∈ source.copyFile [name] ["base", name] →
      Directory.read (backupFiles source ++ rest) file.path = some file.content := by
    intro name hname hmem
    obtain ⟨content, hread, rfl⟩ := mem_copyFile.mp hmem
    exact (read_base hname (hrest name)).trans hread
  have hmem := hfile
  rw [backupFiles, List.mem_append, List.mem_append, List.mem_append, List.mem_append] at hmem
  rcases hmem with (((hmem | hmem) | hmem) | hmem) | hmem
  · exact hcopied _ (by simp) hmem
  · exact hcopied _ (by simp) hmem
  · exact hcopied _ (by simp) hmem
  · exact hcopied _ (by simp) hmem
  · obtain ⟨hsource, hhead⟩ := mem_copyTree.mp hmem
    have hne : ∀ name, file.path ≠ ["base", name] := by
      intro name hpath
      rw [hpath] at hhead
      exact absurd (Option.some.inj hhead) (by decide)
    simp only [backupFiles, read_append, read_copyFile, hne, if_false, Option.none_or,
      read_copyTree hnamed.nodup hsource hhead, Option.some_or]

/-- **A backup passes its own manifest.** -/
theorem validateManifest_create {manifest : BackupManifest} {root : Root} {now : Nat}
    {rest : Directory} (hnamed : Named source)
    (hrest : ∀ name, Directory.read rest ["base", name] = none)
    (hroot : root.files = backupFiles source) (h : manifestOf R root now = .ok manifest) :
    validateManifest R (backupFiles source ++ rest) manifest = .ok () := by
  obtain ⟨⟨sqlBase, sqlTime⟩, -, h⟩ := Result.bind_eq_ok.mp h
  obtain ⟨⟨kvBase, kvTime⟩, -, h⟩ := Result.bind_eq_ok.mp h
  obtain rfl := Except.ok.inj h
  refine Result.forM_eq_ok.mpr fun entry hentry => ?_
  obtain ⟨file, hfile, rfl⟩ := List.mem_map.mp hentry
  have hmem := mem_listFiles.mp (List.mem_of_mem_filter hfile)
  rw [hroot] at hmem
  have hshape : file.path ≠ [] ∧ ∀ name ∈ file.path, '/' ∉ name.toList ∧ '\\' ∉ name.toList := by
    rcases path_of_backupFiles hmem with ⟨name, hname, hpath⟩ | ⟨hsource, hhead⟩
    · rw [hpath]
      refine ⟨by simp, fun piece hpiece => ?_⟩
      rcases List.mem_pair.mp hpiece with rfl | rfl
      · decide
      · fin_cases hname <;> decide
    · refine ⟨fun hempty => ?_, hnamed.plain file hsource⟩
      rw [hempty] at hhead
      cases hhead
  rw [split_manifestEntry hshape.1 hshape.2, read_backupFiles hnamed hrest hmem]
  simp [manifestEntry]

end Manifest

/-! ## The snapshots -/

section Snapshots

variable {R : RecoveryHost} {H : Sql.Host} {source : Directory} {disk : Kv.Disk}

theorem readSqlSnapshot_of_load {file : Option String} {loaded : Sql.Catalog}
    (h : Sql.loadCatalog H R.catalog file [] = .ok loaded) :
    ∃ time, readSqlSnapshot R (file.map utf8) = .ok (loaded.version, time) := by
  cases file with
  | none =>
    obtain rfl := Except.ok.inj h
    exact ⟨0, rfl⟩
  | some content =>
    rw [Sql.loadCatalog] at h
    simp only [Option.map_some, readSqlSnapshot, decode_utf8]
    cases hdecode : R.catalog.decode content with
    | error error =>
      rw [hdecode] at h
      cases h
    | ok snapshot =>
      simp only [hdecode] at h
      split_ifs at h
      obtain rfl := Except.ok.inj h
      exact ⟨snapshot.timestampMillis, rfl⟩

theorem KvFiles.readSnapshot (h : KvFiles R source disk) :
    ∃ time, readKvSnapshot R (source.read ["rustydb.db"]) = .ok (disk.snapshotSequence, time) := by
  cases hread : source.read ["rustydb.db"] with
  | none =>
    refine ⟨0, ?_⟩
    rw [Kv.Disk.snapshotSequence, h.missing hread]
    rfl
  | some content =>
    obtain ⟨text, file, htext, hfile, hsnapshot⟩ := h.snapshot content hread
    refine ⟨file.timestampMillis, ?_⟩
    simp only [readKvSnapshot, htext, hfile, Kv.Disk.snapshotSequence, hsnapshot]

/-- What a directory recovers to, from its snapshot and its log. -/
theorem recovered_wal (disk : Kv.Disk) (K : Kv.KvHost) :
    disk.recovered K = (Kv.Disk.recovered K { disk with wal := [] }).map
      fun m => KeyLog.replay m (Kv.walOperations K disk.wal) := by
  simp only [Kv.Disk.recovered, Kv.Disk.operations, Kv.PersistenceManager.recover,
    Kv.PersistenceManager.new]
  cases Kv.snapshotOperations disk.snapshot with
  | error error => rfl
  | ok ops =>
    have hreplay := KeyLog.replay_append (fun _ => none) ops (Kv.walOperations K disk.wal)
    simp only [Result.ok_bind, Result.pure_eq_ok, Except.map, Kv.walOperations, List.append_nil,
      hreplay]

theorem walOperations_records {K : Kv.KvHost} {records : List Kv.KvWalRecord}
    (h : ∀ r ∈ records, r.valid K = true) :
    Kv.walOperations K (records.map Kv.WalLine.record) = records.map Kv.KvWalRecord.operation := by
  induction records with
  | nil => rfl
  | cons r records ih =>
    rw [List.map_cons, Kv.walOperations, if_pos (h r List.mem_cons_self),
      ih fun s hs => h s (List.mem_cons_of_mem _ hs), List.map_cons]

/-- The texts of a log whose lines are read as these records. -/
theorem exists_texts {ls : List (Option String)} {records : List Kv.KvWalRecord}
    (h : List.Forall₂ (fun l r => ∃ text, l = some text ∧ R.kv.readLine text = .record r ∧
      r.valid R.kvHost = true) ls records) :
    ∃ texts : List String, ls = texts.map some ∧
      texts.map R.kv.readLine = records.map Kv.WalLine.record := by
  induction h with
  | nil => exact ⟨[], rfl, rfl⟩
  | cons hline _ ih =>
    obtain ⟨text, rfl, hread, -⟩ := hline
    obtain ⟨texts, rfl, hrest⟩ := ih
    exact ⟨text :: texts, rfl, by rw [List.map_cons, hread, hrest, List.map_cons]⟩

/-- What lies behind the snapshot is enough. -/
theorem KvSource.recovered_behind {records : List Kv.KvWalRecord} {m : String → Option String}
    (h : KvSource R source disk records m) (archive : List (Nat × List Kv.WalLine)) :
    Kv.Disk.recovered R.kvHost ⟨disk.snapshot, (records.filter fun r =>
        disk.snapshotSequence < r.sequence).map .record, archive⟩ =
      disk.recovered R.kvHost := by
  have hvalid : ∀ r ∈ records, r.valid R.kvHost = true := by
    intro r hr
    obtain ⟨l, -, text, -, -, hvalid, -⟩ := (mem_of_forall₂ h.log.active).2 r hr
    exact hvalid
  have hwal : disk.wal = records.map .record := by
    obtain ⟨texts, htexts, hwal⟩ := h.files.wal
    have hlines := h.log.active
    have hread : List.Forall₂ (fun l r => ∃ text, l = some text ∧
        R.kv.readLine text = .record r ∧ r.valid R.kvHost = true)
        (lines ((source.read ["rustydb.wal"]).getD [])) records := by
      refine hlines.imp fun l r hline => ?_
      obtain ⟨text, htext, hdecode, hvalid, hblank⟩ := hline
      have hdecode' : R.kv.decode text = some r := hdecode
      exact ⟨text, htext, by simp [Kv.KvCodec.readLine, hblank, hdecode'], hvalid⟩
    obtain ⟨texts', htexts', hmap⟩ := exists_texts hread
    obtain rfl : texts = texts' := by
      rw [htexts] at htexts'
      exact List.map_injective_iff.mpr (Option.some_injective _) htexts'
    rw [hwal, hmap]
  have hempty : Kv.Disk.recovered R.kvHost ⟨disk.snapshot, [], archive⟩ = .ok m := h.recovers
  have hsplit := h.log.increasing.split disk.snapshotSequence
  rw [recovered_wal disk, h.recovers, recovered_wal ⟨disk.snapshot, _, archive⟩, hempty, hwal,
    walOperations_records hvalid,
    walOperations_records fun r hr => hvalid r (List.mem_of_mem_filter hr)]
  refine congrArg Except.ok ?_
  have hnumber : (kvKind R).number = Kv.KvWalRecord.sequence := rfl
  rw [hnumber] at hsplit
  show KeyLog.replay m _ = KeyLog.replay m _
  conv_rhs => rw [hsplit]
  rw [List.map_append, KeyLog.replay_append, h.covered]

end Snapshots

/-! ## Pruning -/

/-- A directory after any number of calls of `prune`. -/
inductive Pruned (R : RecoveryHost) (source : Directory) : Directory → Prop
  | unpruned : Pruned R source source
  | prune {pruned next : Directory} (before : Int) :
      Pruned R source pruned → prune R pruned before = .ok next → Pruned R source next

section Pruning

variable {R : RecoveryHost} {H : Sql.Host} {source pruned : Directory} {disk : Kv.Disk}
  {catalog : Sql.Catalog} {base : Nat}

/-- **Only archived files go.** -/
theorem Pruned.files (h : Pruned R source pruned) :
    pruned.Sublist source ∧ ∀ path, path.head? ≠ some "wal_archive" →
      pruned.read path = source.read path := by
  induction h with
  | unpruned => exact ⟨List.Sublist.refl _, fun _ _ => rfl⟩
  | @prune pruned next before _ hprune ih =>
    obtain ⟨cutoff, -, hnext⟩ := Result.bind_eq_ok.mp hprune
    obtain rfl := Except.ok.inj hnext
    refine ⟨List.filter_sublist.trans ih.1, fun path hpath => ?_⟩
    rw [← ih.2 path hpath]
    refine read_filter (fun file _ hfile => ?_) hpath
    have hhead : (file.path.head? == some "wal_archive") = false := by simpa using hfile
    rw [hhead]
    rfl

theorem Pruned.named (h : Pruned R source pruned) (hnamed : Named source) : Named pruned :=
  ⟨(h.files.1.map _).nodup hnamed.nodup, fun file hfile =>
    hnamed.plain file (h.files.1.subset hfile)⟩

theorem Pruned.log {α : Type} {K : RecordKind α} {name : String} {records : List α}
    (h : Pruned R source pruned) (hlog : LogSource K source [name] base records)
    (hname : name ≠ "wal_archive") : LogSource K pruned [name] base records := by
  refine ⟨?_, hlog.increasing, fun file hfile => hlog.archive file (h.files.1.subset hfile)⟩
  rw [h.files.2 [name] (by simpa using hname)]
  exact hlog.active

theorem Pruned.sql {records : List Sql.WalRecord} (h : Pruned R source pruned)
    (hsql : SqlSource R H source base records catalog) :
    SqlSource R H pruned base records catalog := by
  obtain ⟨⟨disk, loaded, hfiles, hload, hversion, hopen⟩, hlog⟩ := hsql
  refine ⟨⟨disk, loaded, ⟨?_, ?_, ?_, hfiles.legacy⟩, hload, hversion, hopen⟩,
    h.log hlog (by decide)⟩
  · rw [h.files.2 _ (by decide)]
    exact hfiles.catalog
  · rw [h.files.2 _ (by decide)]
    exact hfiles.wal
  · exact fun file hfile => hfiles.tables file (h.files.1.subset hfile)

theorem Pruned.kv {records : List Kv.KvWalRecord} {m : String → Option String}
    (h : Pruned R source pruned) (hkv : KvSource R source disk records m) :
    KvSource R pruned disk records m := by
  obtain ⟨hfiles, hlog, hnumbered, hrecovers, hcovered⟩ := hkv
  refine ⟨⟨?_, ?_, ?_⟩, h.log hlog (by decide), hnumbered, hrecovers, hcovered⟩
  · rw [h.files.2 _ (by decide)]
    exact hfiles.snapshot
  · rw [h.files.2 _ (by decide)]
    exact hfiles.missing
  · rw [h.files.2 _ (by decide)]
    exact hfiles.wal

end Pruning

/-! ## The round trip -/

section RoundTrip

variable {R : RecoveryHost} {H : Sql.Host} {source backup destination : Root}
  {disk : Kv.Disk} {catalog : Sql.Catalog} {sqlBase now : Nat} {sqlRecords : List Sql.WalRecord}
  {kvRecords : List Kv.KvWalRecord} {m : String → Option String}

/-- What the log of a source replays to, and that a restore keeps enough of it. -/
theorem SqlSource.replay {directory : Directory}
    (h : SqlSource R H directory sqlBase sqlRecords catalog) :
    ∃ disk loaded, SqlFiles directory disk ∧
      Sql.loadCatalog H R.catalog disk.catalogFile [] = .ok loaded ∧ loaded.version = sqlBase ∧
      sqlLoop.Chain sqlBase (sqlRecords.filter fun r => sqlBase < r.commitVersion)
        catalog.version ∧
      Sql.replayRecords H R.sql loaded (sqlRecords.filter fun r => sqlBase < r.commitVersion) =
        .ok catalog := by
  obtain ⟨⟨disk, loaded, hfiles, hload, rfl, hopen⟩, hlog⟩ := h
  rw [hfiles.legacy] at hload
  have hreads : List.Forall₂ (Sql.ReadsAs R.sql) (lines (disk.wal.getD [])) sqlRecords := by
    have hactive := hlog.active
    rw [hfiles.wal] at hactive
    refine hactive.imp fun l r hline => ?_
    obtain ⟨text, htext, hdecode, hvalid, hblank⟩ := hline
    have hdecode' : R.sql.decode text = some r := hdecode
    exact ⟨text, htext, by simp [Sql.WalHost.readLine, hblank, hdecode'], hvalid⟩
  have hreplay : Sql.replayRecords H R.sql loaded sqlRecords = .ok catalog := by
    rw [Sql.openCatalog, hfiles.legacy, hload] at hopen
    cases hwal : disk.wal with
    | none =>
      rw [hwal] at hreads hopen
      obtain rfl := List.forall₂_nil_left_iff.mp hreads
      have hsame : (Except.ok loaded : Except Sql.OpenError Sql.Catalog) = .ok catalog := hopen
      exact congrArg Except.ok (Except.ok.inj hsame)
    | some file =>
      rw [hwal] at hreads hopen
      rw [← Sql.replayLines_records hreads]
      simp only [Except.mapError, Result.ok_bind] at hopen
      cases hlines : Sql.replayLines H R.sql loaded (lines file) with
      | error error =>
        rw [hlines] at hopen
        cases hopen
      | ok replayed =>
        rw [hlines] at hopen
        have hsame : (Except.ok replayed : Except Sql.OpenError Sql.Catalog) = .ok catalog := hopen
        exact hlines.trans (congrArg Except.ok (Except.ok.inj hsame))
  obtain ⟨hchain, hkept⟩ := replayRecords_skip hlog.increasing hreplay
  exact ⟨disk, loaded, hfiles, hload, rfl, hchain, hkept⟩

theorem sqlKind_selects : ∀ other ∈ ["catalog.json", "sql_wal.log", "rustydb.db", "rustydb.wal"],
    (sqlKind R).selects other = true → other = "sql_wal.log" := by
  show ∀ other ∈ ["catalog.json", "sql_wal.log", "rustydb.db", "rustydb.wal"],
    isSqlLog other = true → other = "sql_wal.log"
  decide

theorem kvKind_selects : ∀ other ∈ ["catalog.json", "sql_wal.log", "rustydb.db", "rustydb.wal"],
    (kvKind R).selects other = true → other = "rustydb.wal" := by
  show ∀ other ∈ ["catalog.json", "sql_wal.log", "rustydb.db", "rustydb.wal"],
    isKvLog other = true → other = "rustydb.wal"
  decide

/-- **The manifest of a backup** says what can be restored from it. -/
theorem manifestOf_source {directory : Directory}
    (hsql : SqlSource R H directory sqlBase sqlRecords catalog)
    (hkv : KvSource R directory disk kvRecords m)
    (h64 : disk.snapshotSequence + kvRecords.length < 2 ^ 64) (display : String) (now : Nat) :
    ∃ manifest, manifestOf R ⟨display, backupFiles directory⟩ now = .ok manifest ∧
      manifest.formatVersion = backupFormatVersion ∧
      manifest.basePoint = ⟨sqlBase, disk.snapshotSequence⟩ ∧
      ∃ sequence, manifest.recoveryPoint = ⟨catalog.version, sequence⟩ ∧
        kvLoop.Chain disk.snapshotSequence
          (kvRecords.filter fun r => disk.snapshotSequence < r.sequence) sequence := by
  obtain ⟨sqlDisk, loaded, hfiles, hload, rfl, hsqlChain, -⟩ := hsql.replay
  obtain ⟨sqlTime, hsqlTime⟩ := readSqlSnapshot_of_load hload
  obtain ⟨kvTime, hkvTime⟩ := hkv.files.readSnapshot
  obtain ⟨n, hn, hnumbered⟩ := hkv.numbered
  have hkvChain := chain_of_numbered (hnumbered.filter_lt hn) (Nat.lt_of_le_of_lt
    (Nat.add_le_add_left (List.length_filter_le _ _) _) h64)
  refine ⟨⟨backupFormatVersion, now, ⟨loaded.version, disk.snapshotSequence⟩,
    ⟨catalog.version, _⟩, sqlTime, kvTime, ((backupFiles directory).listFiles.filter fun file =>
      file.fileName != "manifest.json" && file.fileName != "manifest.json.tmp").map
        (manifestEntry R)⟩, ?_, rfl, rfl, _, rfl, hkvChain⟩
  have hbase : ∀ name ∈ ["catalog.json", "sql_wal.log", "rustydb.db", "rustydb.wal"],
      Directory.read (backupFiles directory) ["base", name] = directory.read [name] := by
    intro name hname
    have hread : Directory.read (backupFiles directory ++ []) ["base", name] =
        directory.read [name] := read_base hname rfl
    rwa [List.append_nil] at hread
  have hsqlMax : maxNumber (sqlKind R) ⟨display, backupFiles directory⟩ loaded.version =
      catalog.version := by
    have hholds := hsql.log.holds_files sqlKind_selects display
    refine maxNumber_eq (L := sqlLoop) rfl (fun r hr => (hholds.of_found hr).1) ?_
    rw [kept_of_source hsql.log.increasing (fun r hr => (hholds.of_found hr).2) fun r hr => ?_]
    · exact hsqlChain
    · exact hsql.log.mem_found (by simp) (show isSqlLog "sql_wal.log" = true by decide)
        (List.Subset.refl _) hr
  have hkvMax : maxNumber (kvKind R) ⟨display, backupFiles directory⟩ disk.snapshotSequence =
      disk.snapshotSequence +
        (kvRecords.filter fun r => disk.snapshotSequence < r.sequence).length := by
    have hholds := hkv.log.holds_files kvKind_selects display
    refine maxNumber_eq (L := kvLoop) rfl (fun r hr => (hholds.of_found hr).1) ?_
    rw [kept_of_source hkv.log.increasing (fun r hr => (hholds.of_found hr).2) fun r hr => ?_]
    · exact hkvChain
    · exact hkv.log.mem_found (by simp) (show isKvLog "rustydb.wal" = true by decide)
        (List.Subset.refl _) hr
  rw [← hfiles.catalog] at hsqlTime
  simp only [manifestOf, hbase _ (by simp : "catalog.json" ∈ _),
    hbase _ (by simp : "rustydb.db" ∈ _), hsqlTime, hkvTime, Result.ok_bind, hsqlMax, hkvMax,
    Result.pure_eq_ok]

/-- What `create` leaves beside the copied files. -/
def manifestFile (R : RecoveryHost) (manifest : BackupManifest) : Directory :=
  [⟨["manifest.json"], R.encodeManifest manifest⟩]

/-- A backup of a directory, with its manifest. -/
def backupOf (R : RecoveryHost) (display : String) (directory : Directory)
    (manifest : BackupManifest) : Root :=
  ⟨display, backupFiles directory ++ manifestFile R manifest⟩

section Backups

variable {display : String} {directory : Directory} {manifest : BackupManifest} {q : Plan}
  {sequence : Nat}

theorem create_eq_ok (hbackup : backup.files = [])
    (h : manifestOf R ⟨backup.path, backupFiles source.files⟩ now = .ok manifest) :
    create R source backup now =
      ⟨(backupOf R backup.path source.files manifest).files, .ok manifest⟩ := by
  simp only [create, ensureDestinationEmpty, hbackup, if_true, h, backupOf, manifestFile]

theorem read_manifestFile (name : String) :
    Directory.read (manifestFile R manifest) ["base", name] = none := by
  rw [manifestFile, read_singleton, if_neg (by simp)]

theorem selects_manifestFile {α : Type} {K : RecordKind α} (h : K.selects "manifest.json" = false) :
    ∀ file ∈ manifestFile R manifest, K.selects file.fileName = false := by
  intro file hfile
  have hname : file.fileName = "manifest.json" := by
    rw [List.mem_singleton.mp hfile]
    simp [StoredFile.fileName]
  rw [hname]
  exact h

/-- A backup that has just been created can be opened. -/
theorem openBackup_create (hnamed : Named directory) (hdestination : destination.files = [])
    (hformat : manifest.formatVersion = backupFormatVersion)
    (h : manifestOf R ⟨display, backupFiles directory⟩ now = .ok manifest)
    (hdecode : R.decodeManifest (R.encodeManifest manifest) = .ok manifest) :
    openBackup R (backupOf R display directory manifest) destination = .ok manifest := by
  have hread : Directory.read (backupFiles directory ++ manifestFile R manifest)
      ["manifest.json"] = some (R.encodeManifest manifest) := by
    simp only [backupFiles, manifestFile, read_append, read_copyFile, read_singleton]
    rw [read_copyTree_of_ne (by decide)]
    simp
  have hvalid : validateManifest R (backupFiles directory ++ manifestFile R manifest) manifest =
      .ok () := validateManifest_create hnamed read_manifestFile rfl h
  simp only [openBackup, backupOf, ensureDestinationEmpty, hdestination, if_true, Result.ok_bind,
    hread, hdecode, hformat, hvalid]
  rfl

theorem LogSource.holds_backup {α : Type} {K : RecordKind α} {name : String} {base : Nat}
    {records : List α} (R : RecoveryHost) (display : String) (manifest : BackupManifest)
    (h : LogSource K directory [name] base records)
    (hnames : ∀ other ∈ ["catalog.json", "sql_wal.log", "rustydb.db", "rustydb.wal"],
      K.selects other = true → other = name) (hmanifest : K.selects "manifest.json" = false) :
    K.Holds (fun r => K.number r ≤ base ∨ r ∈ records) [backupOf R display directory manifest] :=
  h.holds hnames (selects_manifestFile hmanifest) display

/-- The records of an engine that a restore of the latest state keeps. -/
theorem LogSource.kept {α : Type} {K : RecordKind α} {L : LoopKind α} {name : String}
    {base : Nat} {records : List α} (h : LogSource K directory [name] base records)
    (hnumber : K.number = L.number)
    (hnames : ∀ other ∈ ["catalog.json", "sql_wal.log", "rustydb.db", "rustydb.wal"],
      K.selects other = true → other = name)
    (hname : name ∈ ["catalog.json", "sql_wal.log", "rustydb.db", "rustydb.wal"])
    (hselects : K.selects name = true) (hmanifest : K.selects "manifest.json" = false) :
    Filter.kept L ⟨base, none, none⟩
        (gather K.number (K.found [backupOf R display directory manifest])) =
      records.filter fun r => base < K.number r := by
  have hholds := h.holds_backup R display manifest hnames hmanifest
  rw [kept_latest, ← hnumber]
  exact kept_of_source h.increasing (fun r hr => (hholds.of_found hr).2)
    fun r hr => h.mem_found hname hselects (List.subset_append_left _ _) hr

/-- **The restored SQL log** holds the records behind the snapshot. -/
theorem restoreSql_backup (hrewrites : (sqlKind R).Rewrites R.sql.encode sqlRecords)
    (hsql : SqlSource R H directory sqlBase sqlRecords catalog)
    (hbase : manifest.basePoint.sqlCommitVersion = sqlBase) (hcutoff : q.cutoff = none)
    (hplan : plan R manifest [backupOf R display directory manifest] .latest = .ok q) :
    (restoreSql R manifest (backupOf R display directory manifest).files .latest q).2 =
        .ok catalog.version ∧
      Sql.HoldsRecords R.sql
        (restoreSql R manifest (backupOf R display directory manifest).files .latest q).1
        (sqlRecords.filter fun r => sqlBase < r.commitVersion) := by
  have hmanifest : (sqlKind R).selects "manifest.json" = false :=
    (by decide : isSqlLog "manifest.json" = false)
  have hholds := hsql.log.holds_backup R display manifest sqlKind_selects hmanifest
  have hkept : appliedSql R manifest .latest q.cutoff
      [backupOf R display directory manifest] =
      sqlRecords.filter fun r => sqlBase < r.commitVersion := by
    rw [appliedSql, sqlFilter, hbase, hcutoff]
    exact hsql.log.kept (L := sqlLoop) rfl sqlKind_selects (by simp)
      (show isSqlLog "sql_wal.log" = true by decide) hmanifest
  obtain ⟨-, -, -, -, -, hchain, -⟩ := hsql.replay
  have hend : (restoreSql R manifest (backupOf R display directory manifest).files .latest
      q).2 = .ok catalog.version := by
    refine (@restoreSql_end R _ none .latest manifest q _ _ hholds hplan).mpr ?_
    rw [hbase]
    refine Eq.mpr (congrArg (fun rs => sqlLoop.Chain sqlBase rs catalog.version) hkept) ?_
    exact hchain
  have hrewritten : (sqlKind R).Rewrites R.sql.encode
      (appliedSql R manifest .latest q.cutoff [backupOf R display directory manifest]) := by
    rw [hkept]
    exact hrewrites.subset List.filter_sublist.subset
  have hlog := (@sqlLog_of_ok R _ none .latest manifest q _ _ hholds hplan hrewritten hend).2
  exact ⟨hend, Eq.mp (congrArg (Sql.HoldsRecords R.sql _) hkept) hlog⟩

/-- **The restored key-value log** holds the records behind the snapshot. -/
theorem restoreKv_backup (hrewrites : (kvKind R).Rewrites R.kv.encode kvRecords)
    (hkv : KvSource R directory disk kvRecords m)
    (hbase : manifest.basePoint.kvSequence = disk.snapshotSequence) (hcutoff : q.cutoff = none)
    (hchain : kvLoop.Chain disk.snapshotSequence
      (kvRecords.filter fun r => disk.snapshotSequence < r.sequence) sequence)
    (hplan : plan R manifest [backupOf R display directory manifest] .latest = .ok q) :
    (restoreKv R manifest (backupOf R display directory manifest).files .latest q).2 =
        .ok sequence ∧
      KvHoldsRecords R
        (restoreKv R manifest (backupOf R display directory manifest).files .latest q).1
        (kvRecords.filter fun r => disk.snapshotSequence < r.sequence) := by
  have hmanifest : (kvKind R).selects "manifest.json" = false :=
    (by decide : isKvLog "manifest.json" = false)
  have hholds := hkv.log.holds_backup R display manifest kvKind_selects hmanifest
  have hkept : appliedKv R manifest .latest q.cutoff
      [backupOf R display directory manifest] =
      kvRecords.filter fun r => disk.snapshotSequence < r.sequence := by
    rw [appliedKv, kvFilter, hbase, hcutoff]
    exact hkv.log.kept (L := kvLoop) rfl kvKind_selects (by simp)
      (show isKvLog "rustydb.wal" = true by decide) hmanifest
  have hend : (restoreKv R manifest (backupOf R display directory manifest).files .latest
      q).2 = .ok sequence := by
    refine (@restoreKv_end R _ none .latest manifest q _ _ hholds hplan).mpr ?_
    rw [hbase]
    refine Eq.mpr (congrArg (fun rs => kvLoop.Chain _ rs sequence) hkept) ?_
    exact hchain
  have hrewritten : (kvKind R).Rewrites R.kv.encode
      (appliedKv R manifest .latest q.cutoff [backupOf R display directory manifest]) := by
    rw [hkept]
    exact hrewrites.subset List.filter_sublist.subset
  have hlog := (@kvLog_of_ok R _ none .latest manifest q _ _ hholds hplan hrewritten hend).2
  exact ⟨hend, Eq.mp (congrArg (KvHoldsRecords R _) hkept) hlog⟩

/-- The copied snapshots. -/
theorem read_restored {sqlFile kvFile : Bytes} {name : String}
    (hname : name ∈ ["catalog.json", "rustydb.db"]) :
    Directory.read (lockFiles ++ restoreFiles (backupOf R display directory manifest).files ++
        [⟨["sql_wal.log"], sqlFile⟩] ++ [⟨["rustydb.wal"], kvFile⟩]) [name] =
      directory.read [name] := by
  have hlock : Directory.read lockFiles [name] = none := by
    fin_cases hname <;> rfl
  have hbase : Directory.read (backupOf R display directory manifest).files ["base", name] =
      directory.read [name] := by
    refine read_base ?_ (read_manifestFile name)
    fin_cases hname <;> simp
  simp only [restoreFiles, read_append, read_copyFile, read_singleton, hlock, Option.none_or]
  fin_cases hname
  · rw [read_copyTree_of_ne (by decide)]
    simpa using hbase
  · rw [read_copyTree_of_ne (by decide)]
    simpa using hbase

theorem tables_restored {sqlFile kvFile : Bytes} {file : StoredFile}
    (hfile : file ∈ lockFiles ++ restoreFiles directory ++ [⟨["sql_wal.log"], sqlFile⟩] ++
      [⟨["rustydb.wal"], kvFile⟩]) : file.path.head? ≠ some "tables" := by
  simp only [lockFiles, restoreFiles, List.mem_append, List.mem_cons, List.not_mem_nil, or_false,
    mem_copyFile, mem_copyTree] at hfile
  rcases hfile with (((rfl | rfl) | ((⟨-, -, rfl⟩ | ⟨-, -, rfl⟩) | ⟨-, hhead⟩)) | rfl) | rfl
  · simp
  · simp
  · simp
  · simp
  · rw [hhead]
    simp
  · simp
  · simp

/-- **A restore of the latest state** of a backup: what it returns, and the two engines on
what it leaves. -/
theorem restore_backup (hsqlRewrites : (sqlKind R).Rewrites R.sql.encode sqlRecords)
    (hkvRewrites : (kvKind R).Rewrites R.kv.encode kvRecords)
    (hsql : SqlSource R H directory sqlBase sqlRecords catalog)
    (hkv : KvSource R directory disk kvRecords m)
    (hopen : openBackup R (backupOf R display directory manifest) destination = .ok manifest)
    (hbase : manifest.basePoint = ⟨sqlBase, disk.snapshotSequence⟩)
    (hchain : kvLoop.Chain disk.snapshotSequence
      (kvRecords.filter fun r => disk.snapshotSequence < r.sequence) sequence) :
    ∃ restored, restore R (backupOf R display directory manifest) none destination .latest =
        ⟨restored, .ok ⟨catalog.version, sequence⟩⟩ ∧
      (∃ sqlDisk, SqlFiles restored sqlDisk ∧
        Sql.openCatalog H R.sql R.catalog sqlDisk = .ok catalog) ∧
      ∃ kvDisk, KvFiles R restored kvDisk ∧
        kvDisk.recovered R.kvHost = disk.recovered R.kvHost := by
  have hsqlHolds := hsql.log.holds_backup R display manifest sqlKind_selects
    (by decide : isSqlLog "manifest.json" = false)
  have hkvHolds := hkv.log.holds_backup R display manifest kvKind_selects
    (by decide : isKvLog "manifest.json" = false)
  obtain ⟨q, hcutoff, hplan⟩ : ∃ q, q.cutoff = none ∧
      plan R manifest [backupOf R display directory manifest] .latest = .ok q :=
    exists_plan hsqlHolds hkvHolds rfl (Or.inr (by simp)) (by simp [RecoveryTarget.requested])
  obtain ⟨hsqlEnd, hsqlLog⟩ := restoreSql_backup hsqlRewrites hsql (by rw [hbase]) hcutoff hplan
  obtain ⟨hkvEnd, hkvLog⟩ := restoreKv_backup hkvRewrites hkv (by rw [hbase]) hcutoff hchain hplan
  have hresult : (restore R (backupOf R display directory manifest) none destination
      .latest).result = .ok ⟨catalog.version, sequence⟩ :=
    restore_eq_ok.mpr ⟨manifest, hopen, q, hplan, hsqlEnd, hkvEnd,
      by simp [RecoveryTarget.requested]⟩
  have hleft := @destination_restore R _ destination none .latest manifest q _ _ hopen hplan
    hsqlEnd hkvEnd
  generalize hsqlFile : (restoreSql R manifest (backupOf R display directory manifest).files
    .latest q).1 = sqlFile at hsqlLog hleft
  generalize hkvFile : (restoreKv R manifest (backupOf R display directory manifest).files
    .latest q).1 = kvFile at hkvLog hleft
  obtain ⟨hsqlRead, hkvRead⟩ := @read_destination (backupOf R display directory manifest) sqlFile
    kvFile
  obtain ⟨sqlDisk, loaded, hfiles, hload, -, -, hreplay⟩ := hsql.replay
  refine ⟨_, ?_, ⟨⟨sqlDisk.catalogFile, none, [], some sqlFile, []⟩,
    ⟨?_, hsqlRead, fun file hfile => tables_restored hfile, rfl⟩, ?_⟩,
    ⟨disk.snapshot, _, []⟩, ⟨?_, ?_, ?_⟩, hkv.recovered_behind []⟩
  · rw [← hleft, ← hresult]
  · rw [read_restored (by simp)]
    exact hfiles.catalog
  · have hlines : Sql.replayLines H R.sql loaded (lines sqlFile) = .ok catalog := by
      rw [Sql.replayLines_records hsqlLog]
      exact hreplay
    simp only [Sql.openCatalog, hload, Except.mapError, Result.ok_bind, hlines]
  · rw [read_restored (by simp)]
    exact hkv.files.snapshot
  · rw [read_restored (by simp)]
    exact hkv.files.missing
  · obtain ⟨texts, htexts, hmap⟩ := exists_texts hkvLog
    exact ⟨texts, by rw [hkvRead]; exact htexts, hmap.symm⟩

end Backups

/-- **Pruning, backup and restore lead back to the same state.**  Take a directory that both
engines open, without tables of an older format, whose active logs hold valid records only,
with increasing numbers, and whose archive holds nothing else behind its snapshots.  The active
key-value log leaves no gap behind the snapshot, and what the snapshot covers of it leaves the
snapshot as it is; the names of the files can stand in a manifest.  Prune it as often as you
like, back it up, and restore the latest state into an empty directory.  Both calls succeed,
the point reached is the one in the manifest, and the two engines open the restored directory
with the catalog and the map of the original. -/
theorem latest_round_trip (R : RecoveryHost) (H : Sql.Host) (source backup destination : Root)
    (pruned : Directory) (now sqlBase : Nat) (sqlRecords : List Sql.WalRecord)
    (catalog : Sql.Catalog) (disk : Kv.Disk) (kvRecords : List Kv.KvWalRecord)
    (m : String → Option String) (hsqlRewrites : (sqlKind R).Rewrites R.sql.encode sqlRecords)
    (hkvRewrites : (kvKind R).Rewrites R.kv.encode kvRecords)
    (hsql : SqlSource R H source.files sqlBase sqlRecords catalog)
    (hkv : KvSource R source.files disk kvRecords m) (hnamed : Named source.files)
    (h64 : disk.snapshotSequence + kvRecords.length < 2 ^ 64)
    (hpruned : Pruned R source.files pruned) (hbackup : backup.files = [])
    (hdestination : destination.files = [])
    (hmanifest : ∀ manifest, (create R ⟨source.path, pruned⟩ backup now).result = .ok manifest →
      R.decodeManifest (R.encodeManifest manifest) = .ok manifest) :
    ∃ manifest left, create R ⟨source.path, pruned⟩ backup now = ⟨left, .ok manifest⟩ ∧
      manifest.recoveryPoint.sqlCommitVersion = catalog.version ∧
      ∃ restored, restore R ⟨backup.path, left⟩ none destination .latest =
          ⟨restored, .ok manifest.recoveryPoint⟩ ∧
        (∃ sqlDisk, SqlFiles restored sqlDisk ∧
          Sql.openCatalog H R.sql R.catalog sqlDisk = .ok catalog) ∧
        ∃ kvDisk, KvFiles R restored kvDisk ∧
          kvDisk.recovered R.kvHost = disk.recovered R.kvHost := by
  have hsqlPruned := hpruned.sql hsql
  have hkvPruned := hpruned.kv hkv
  obtain ⟨manifest, hcreated, hformat, hbase, sequence, hpoint, hchain⟩ :=
    manifestOf_source hsqlPruned hkvPruned h64 backup.path now
  have hcreate : create R ⟨source.path, pruned⟩ backup now =
      ⟨(backupOf R backup.path pruned manifest).files, .ok manifest⟩ :=
    create_eq_ok hbackup hcreated
  have hopen := openBackup_create (hpruned.named hnamed) hdestination hformat hcreated
    (hmanifest manifest (by rw [hcreate]))
  have hrestored := restore_backup hsqlRewrites hkvRewrites hsqlPruned hkvPruned hopen hbase hchain
  refine ⟨manifest, _, hcreate, by rw [hpoint], ?_⟩
  rw [hpoint]
  exact hrestored

end RoundTrip

/-! ## A directory with one commit and two writes -/

/-- The directory that `sampleBackup` is a backup of. -/
def sampleSource : Root where
  path := "data"
  files := [⟨["sql_wal.log"], line Sql.plainRecord.text⟩,
    ⟨["rustydb.wal"], kvLines [sampleKvHistory 1, sampleKvHistory 2]⟩]

/-- The key-value files of `sampleSource`. -/
def sampleKvDisk : Kv.Disk where
  wal := [.record (sampleKvHistory 1), .record (sampleKvHistory 2)]

theorem sqlSource_sample : ∃ catalog, SqlSource sampleRecovery .reference sampleSource.files 0
    [Sql.plainRecord.record] catalog := by
  have hrun : ((Sql.runStatements .reference (∅, 0) [Sql.createPlain, Sql.insertTwo]).map
      Prod.snd).toOption = some 2 := by decide +kernel
  obtain ⟨⟨tables, inserted⟩, hstatements, -⟩ :=
    Result.map_eq_ok.mp (Result.toOption_eq_some.mp hrun)
  have hrecords : Sql.HoldsRecords Sql.plainHost (line Sql.plainRecord.text)
      [Sql.plainRecord.record] :=
    Sql.holdsRecords_sample (by decide +kernel) (by decide +kernel) (by decide +kernel)
  have hparse : List.Forall₂ (fun durable statement =>
      durable.statement Sql.plainHost = .ok statement) Sql.plainRecord.record.statements
        [Sql.createPlain, Sql.insertTwo] :=
    List.Forall₂.cons rfl (List.Forall₂.cons rfl List.Forall₂.nil)
  have hopen := @Sql.openCatalog_sample .reference Sql.plainHost Sql.nullCodec _ _ _ _ _
    (fun _ _ => rfl) hrecords
    rfl (by decide) hparse hstatements
  refine ⟨_, ⟨_, _, ⟨rfl, rfl, ?_, rfl⟩, rfl, rfl, hopen⟩, ?_, ?_, ?_⟩
  · decide
  · have hplain := lawful_plainRecord.plain
    have hdecode := lawful_plainRecord.decode_encode
      (Sql.plainRecord.readable_record _)
    have htext : Sql.plainHost.encode Sql.plainRecord.record = Sql.plainRecord.text :=
      Sql.encode_ofSamples Sql.plainRecord
    rw [htext] at hplain hdecode
    have hread : (sampleSource.files.read ["sql_wal.log"]).getD [] =
        line Sql.plainRecord.text := rfl
    have hkind : (sqlKind sampleRecovery).decode = Sql.plainHost.decode := rfl
    have hvalid : (sqlKind sampleRecovery).valid Sql.plainRecord.record = true := by
      decide +kernel
    rw [hread, lines_line hplain]
    refine List.Forall₂.cons ⟨_, rfl, ?_, hvalid, by decide +kernel⟩ List.Forall₂.nil
    rw [hkind, hdecode]
  · exact List.pairwise_singleton _ _
  · intro file hfile hhead
    exact absurd hhead (by revert file; decide +kernel)

theorem kvSource_sample : ∃ m, KvSource sampleRecovery sampleSource.files sampleKvDisk
    [sampleKvHistory 1, sampleKvHistory 2] m := by
  have hmem : ∀ r ∈ [sampleKvHistory 1, sampleKvHistory 2], r ∈ Kv.sampleRecords := by
    decide +kernel
  have hread : (sampleSource.files.read ["rustydb.wal"]).getD [] =
      kvLines [sampleKvHistory 1, sampleKvHistory 2] := rfl
  have hlines := lines_kvLines hmem
  refine ⟨_, ⟨?_, fun _ => rfl, ?_⟩, ⟨?_, ?_, ?_⟩, ⟨0, Nat.le_refl 0, rfl, rfl, trivial⟩, rfl, rfl⟩
  · intro content hcontent
    cases hcontent
  · refine ⟨[Kv.recordText (sampleKvHistory 1), Kv.recordText (sampleKvHistory 2)], ?_, ?_⟩
    · rw [hread, hlines]
      rfl
    · decide +kernel
  · rw [hread, hlines]
    exact List.Forall₂.cons ⟨_, rfl, by decide +kernel⟩
      (List.Forall₂.cons ⟨_, rfl, by decide +kernel⟩ List.Forall₂.nil)
  · exact Numbered.increasing (n := 0) ⟨rfl, rfl, trivial⟩
  · intro file hfile hhead
    exact absurd hhead (by revert file; decide +kernel)

theorem sample_directory_comes_back : ∃ (catalog : Sql.Catalog) (manifest : BackupManifest)
    (left : Directory),
    create sampleRecovery sampleSource ⟨"backup", []⟩ 1700000000005 = ⟨left, .ok manifest⟩ ∧
      manifest.recoveryPoint.sqlCommitVersion = catalog.version ∧
      ∃ restored, restore sampleRecovery ⟨"backup", left⟩ none emptyRoot .latest =
          ⟨restored, .ok manifest.recoveryPoint⟩ ∧
        (∃ sqlDisk, SqlFiles restored sqlDisk ∧
          Sql.openCatalog .reference sampleRecovery.sql sampleRecovery.catalog sqlDisk =
            .ok catalog) ∧
        ∃ kvDisk, KvFiles sampleRecovery restored kvDisk ∧
          kvDisk.recovered sampleRecovery.kvHost =
            sampleKvDisk.recovered sampleRecovery.kvHost := by
  obtain ⟨catalog, hsql⟩ := sqlSource_sample
  obtain ⟨m, hkv⟩ := kvSource_sample
  have hcreated : (create sampleRecovery sampleSource ⟨"backup", []⟩
      1700000000005).result.toOption = some sampleManifest := by decide +kernel
  have hnamed : Named sampleSource.files := ⟨by decide, by decide +kernel⟩
  have hsqlRewrites : (sqlKind sampleRecovery).Rewrites sampleRecovery.sql.encode
      [Sql.plainRecord.record] := rewrites_plainHost rfl fun r hr => List.mem_singleton.mp hr
  have hkvRewrites : (kvKind sampleRecovery).Rewrites sampleRecovery.kv.encode
      [sampleKvHistory 1, sampleKvHistory 2] := rewrites_sampleCodec rfl (by decide +kernel)
  refine ⟨catalog, latest_round_trip sampleRecovery .reference sampleSource ⟨"backup", []⟩ emptyRoot
    sampleSource.files 1700000000005 0 _ catalog sampleKvDisk _ m hsqlRewrites hkvRewrites hsql hkv
    hnamed (by decide) .unpruned rfl rfl ?_⟩
  intro manifest hmanifest
  rw [Result.toOption_eq_some.mp hcreated] at hmanifest
  obtain rfl := Except.ok.inj hmanifest
  decide +kernel

end Recovery
end RustyDB
