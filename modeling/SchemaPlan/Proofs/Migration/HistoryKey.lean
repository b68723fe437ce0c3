import SchemaPlan.Proofs.Migration.Discovery
import SchemaPlan.Proofs.Migration.Status

/-!
# Keys of the history

The history knows a migration by the name in the header of its file, while migrations are ordered by
the names of their files.  Nothing compares the two.

* `headerName?` reads the name off the text of a file, and `name_of_read` says that it counts,
* `stem?_eq_some_iff` and `ascending_name` relate names to names of files and their order,
* `recorded_of_skipped`: a migration is skipped only when the record found under its name has the
  checksum of its script,
* `discover_history_keys`: what a directory makes of the names; they are those of the files exactly
  when every header says so,
* `copied_migration_skipped`: a copy under another file name has the key of the original.
-/

set_option autoImplicit false

namespace SchemaPlan

open Database Outcome Storage

/-! ## Names in headers -/

namespace MigrationFile

/-- The name that the header of a text says: that of the last line with a name. -/
def headerName? (contents : String) : Option String :=
  (Text.cutAt? ['\n', '\n'] contents.toList).bind fun parts =>
    ((Text.pieces '\n' parts.1).filterMap (valueOf? nameStart)).getLast?

/-- One line of a header changes the name if it says one. -/
theorem name_of_readLine {header next : Header} {line : List Char}
    (h : header.read line = .ok next) : next.name = (valueOf? nameStart line).or header.name := by
  unfold Header.read at h
  split at h
  · rename_i name hname
    cases h
    rw [hname]
    rfl
  · rename_i hname
    rw [hname, Option.none_or]
    split at h
    · split at h
      · cases h
        rfl
      · cases h
    · split at h
      · cases h
        rfl
      · cases h
        rfl

/-- The last line with a name counts. -/
theorem name_of_readLines {lines : List (List Char)} {header last : Header}
    (h : lines.foldlM Header.read header = .ok last) :
    last.name = ((lines.filterMap (valueOf? nameStart)).getLast?).or header.name := by
  induction lines generalizing header with
  | nil =>
    cases h
    rfl
  | cons line lines ih =>
    rw [List.foldlM_cons] at h
    obtain ⟨next, hnext, hlast⟩ := bind_eq_ok_iff.1 h
    rw [ih hlast, name_of_readLine hnext, List.filterMap_cons]
    cases valueOf? nameStart line with
    | none => rfl
    | some name =>
      rw [List.getLast?_cons]
      cases (lines.filterMap (valueOf? nameStart)).getLast? with
      | none => rfl
      | some later => rfl

theorem name_of_file {header : Header} {body : String} {file : MigrationFile}
    (h : header.file body = .ok file) : header.name = some file.name := by
  unfold Header.file at h
  split at h
  · cases h
  · cases h
  · cases h
  · rename_i hname _ _
    cases h
    exact hname

/-- A migration has the name that the header of its text says. -/
theorem name_of_read {contents : String} {file : MigrationFile}
    (h : MigrationFile.read contents = .ok file) : headerName? contents = some file.name := by
  unfold MigrationFile.read at h
  split at h
  · cases h
  · rename_i header body hparts
    obtain ⟨last, hlast, hfile⟩ := bind_eq_ok_iff.1 h
    have hname := name_of_readLines hlast
    rw [name_of_file hfile, Option.or_none] at hname
    rw [headerName?, hparts, Option.bind_some, ← hname]

end MigrationFile

/-! ## Names of files -/

/-- A script has a stem and the extension. -/
theorem stem?_eq_some_iff {fileName stem : String} :
    stem? "sql" fileName = some stem ↔ stem ≠ "" ∧ fileName = stem ++ ".sql" := by
  unfold stem?
  split
  · rename_i hrest
    have hname := Text.before?_eq_some_iff.1 hrest
    simp only [reduceCtorEq, false_iff, not_and]
    rintro hne rfl
    exact hne (by simpa using hname)
  · rename_i hnone
    simp only [reduceCtorEq, false_iff, not_and]
    rintro - rfl
    exact Text.before?_eq_none_iff.1 hnone stem.toList (by simp)
  · rename_i rest hne hrest
    have hname := Text.before?_eq_some_iff.1 hrest
    have hwhole : fileName = String.ofList rest ++ ".sql" := by
      rw [← String.toList_inj, hname]
      simp
    have hnonempty : String.ofList rest ≠ "" := fun hempty =>
      hne (by simpa using congrArg String.toList hempty)
    rw [Option.some_inj, hwhole, String.append_left_inj]
    exact ⟨fun hsame => ⟨hsame ▸ hnonempty, hsame⟩, And.right⟩

/-- Names whose characters sort behind the dot are ordered as the names of files are. -/
theorem lt_of_append_lt {a b : List Char} (ha : ∀ c ∈ a, '.' < c)
    (h : a ++ ".sql".toList < b ++ ".sql".toList) : a < b := by
  induction a generalizing b with
  | nil =>
    cases b with
    | nil => exact absurd h (List.lt_irrefl _)
    | cons d b => exact List.nil_lt_cons d b
  | cons c a ih =>
    obtain ⟨hc, ha⟩ := List.forall_mem_cons.1 ha
    cases b with
    | nil =>
      rcases List.cons_lt_cons_iff.1 h with hdot | ⟨rfl, -⟩
      · exact absurd hdot (lt_asymm hc)
      · exact absurd hc (lt_irrefl _)
    | cons d b =>
      rcases List.cons_lt_cons_iff.1 h with hcd | ⟨rfl, hrest⟩
      · exact List.cons_lt_cons_iff.2 (.inl hcd)
      · exact List.cons_lt_cons_iff.2 (.inr ⟨rfl, ih ha hrest⟩)

theorem ascending_name {files : List MigrationFile}
    (h : Order.Ascending MigrationFile.fileName files)
    (hnames : ∀ file ∈ files, ∀ c ∈ file.name.toList, '.' < c) :
    Order.Ascending MigrationFile.name files := by
  refine h.imp_of_mem fun {a b} ha _ hlt => ?_
  rw [compare_lt_iff_lt, String.lt_iff_toList_lt] at hlt ⊢
  refine lt_of_append_lt (hnames a ha) ?_
  simpa [MigrationFile.fileName] using hlt

/-! ## Skipped migrations -/

namespace Executor

variable {executor : Executor} {file : MigrationFile} {sent : List Session.Exchange}

/-- Only a record with the checksum of the header ends in skipping. -/
theorem checksum_of_applyAfter {record? : Option AppliedMigration}
    (h : (executor.applyAfter file record?).Yields sent (.ok .alreadyApplied)) :
    ∃ record, record? = some record ∧ record.checksum = file.checksum := by
  cases record? with
  | none =>
    rcases result_of_applyNew h with hresult | hresult | ⟨_, hresult⟩ <;> cases hresult
  | some record =>
    refine ⟨record, rfl, ?_⟩
    rw [applyAfter] at h
    split at h
    · assumption
    · cases (Attempt.yields_throw_iff.1 h).2

/-- The record that ends in skipping was found under the name of the migration. -/
theorem found_of_skipped
    (h : (Attempt.send (.findRecord file.name) >>= executor.applyAfter file).Yields sent
      (.ok .alreadyApplied)) :
    ∃ record, ⟨.findRecord file.name, .ok (some record)⟩ ∈ sent ∧
      record.checksum = file.checksum := by
  rcases Attempt.yields_send_then_iff.1 h with ⟨_, -, hresult⟩ | ⟨record?, rest, rfl, hrest⟩
  · cases hresult
  · obtain ⟨record, rfl, hchecksum⟩ := checksum_of_applyAfter hrest
    exact ⟨record, List.mem_cons_self, hchecksum⟩

/-- A migration is skipped only for a record with the checksum of its script. -/
theorem recorded_of_skipped (h : (executor.apply file).Yields sent (.ok .alreadyApplied)) :
    ∃ record, ⟨.findRecord file.name, .ok (some record)⟩ ∈ sent ∧
      record.checksum = Digest.Sha256.textDigest file.body := by
  have hintact : file.isIntact = true := by
    rcases Attempt.yields_ofExcept_then_iff.1 h with ⟨_, -, -, hresult⟩ | ⟨_, hverify, -⟩
    · cases hresult
    · simpa [MigrationFile.verify] using hverify
  have hdigest : Digest.Sha256.textDigest file.body = file.checksum := eq_of_beq hintact
  rw [hdigest]
  rw [apply_of_intact hintact] at h
  cases hdry : executor.dryRun with
  | false =>
    rw [record?_of_real hdry] at h
    exact found_of_skipped h
  | true =>
    rw [record?_then_of_dryRun hdry] at h
    rcases Attempt.yields_send_then_iff.1 h with ⟨_, -, hresult⟩ | ⟨ready, rest, rfl, hrest⟩
    · cases hresult
    cases ready with
    | false =>
      have hrest : (executor.applyAfter file none).Yields rest (.ok .alreadyApplied) := hrest
      obtain ⟨_, hnone, -⟩ := checksum_of_applyAfter hrest
      cases hnone
    | true =>
      obtain ⟨record, hmem, hchecksum⟩ := found_of_skipped hrest
      exact ⟨record, List.mem_cons_of_mem _ hmem, hchecksum⟩

end Executor

/-! ## Discovery -/

/-- The names of the scripts in a directory, in ascending order. -/
def scriptNames (tree : FileTree) (directory : String) : List String :=
  (tree.entries directory).filter fun name => (stem? "sql" name).isSome

/-- Whether a file has the stem of its name in its header. -/
def SaysItsStem (tree : FileTree) (directory fileName : String) : Prop :=
  ∀ contents, tree.read (join directory fileName) = .ok contents →
    MigrationFile.headerName? contents = stem? "sql" fileName

theorem ascending_scriptNames (tree : FileTree) (directory : String) :
    Order.Ascending id (scriptNames tree directory) := by
  have hentries : Order.Ascending id (tree.entries directory) := by
    unfold FileTree.entries
    split
    · exact Order.ascending_ofList _ _
    · exact List.Pairwise.nil
  exact hentries.filter _

/-- Every script is read and parsed, in order. -/
theorem load_of_discover {tree : FileTree} {directory : String} {files : List MigrationFile}
    (h : discover tree directory = .ok files) :
    List.Forall₂ (fun fileName file =>
      MigrationFile.load tree (join directory fileName) = .ok file)
      (scriptNames tree directory) files := by
  unfold discover at h
  cases hthere : tree.hasDirectory directory with
  | false => simp [hthere] at h; cases h
  | true =>
    simp only [hthere] at h
    exact mapM_eq_ok_iff.1 h

variable {tree : FileTree} {directory : String} {files : List MigrationFile}

/-- Each migration has the name in the header of its file. -/
theorem named_of_discover (h : discover tree directory = .ok files) :
    List.Forall₂ (fun fileName file => ∃ contents,
      tree.read (join directory fileName) = .ok contents ∧
        MigrationFile.headerName? contents = some file.name)
      (scriptNames tree directory) files := by
  refine (load_of_discover h).imp fun fileName file hload => ?_
  obtain ⟨contents, hcontents, hparse⟩ := bind_eq_ok_iff.1 hload
  exact ⟨contents, mapError_eq_ok_iff.1 hcontents,
    MigrationFile.name_of_read (mapError_eq_ok_iff.1 hparse)⟩

/-- Migrations named by the stems of their files have the names of these files. -/
theorem map_fileName_of_stems {names : List String}
    (h : List.Forall₂ (fun fileName file => stem? "sql" fileName = some file.name) names files) :
    files.map MigrationFile.fileName = names := by
  induction h with
  | nil => rfl
  | cons hstem _ ih =>
    rw [List.map_cons, ih, (stem?_eq_some_iff.1 hstem).2]
    rfl

theorem ascending_of_stems
    (h : List.Forall₂ (fun fileName file => stem? "sql" fileName = some file.name)
      (scriptNames tree directory) files) : Order.Ascending MigrationFile.fileName files := by
  have hordered := ascending_scriptNames tree directory
  rw [← map_fileName_of_stems h] at hordered
  exact List.pairwise_map.1 hordered

/-- Migrations of files with different names have different names. -/
theorem nodup_name (h : Order.Ascending MigrationFile.fileName files) :
    (files.map MigrationFile.name).Nodup := by
  have hfileNames : files.map MigrationFile.fileName =
      (files.map MigrationFile.name).map (· ++ ".sql") := by
    rw [List.map_map]
    rfl
  have hnodup := h.nodup_keys
  rw [hfileNames] at hnodup
  exact hnodup.of_map

/-- The names are the stems when the headers say so, and only then. -/
theorem stems_iff
    (h : List.Forall₂ (fun fileName file => ∃ contents,
      tree.read (join directory fileName) = .ok contents ∧
        MigrationFile.headerName? contents = some file.name) (scriptNames tree directory) files) :
    List.Forall₂ (fun fileName file => stem? "sql" fileName = some file.name)
        (scriptNames tree directory) files ↔
      ∀ fileName ∈ scriptNames tree directory, SaysItsStem tree directory fileName := by
  generalize scriptNames tree directory = names at h
  induction h with
  | nil => simp
  | @cons fileName file names files hfirst _ ih =>
    obtain ⟨contents, hcontents, hname⟩ := hfirst
    have hsays : SaysItsStem tree directory fileName ↔ stem? "sql" fileName = some file.name := by
      constructor
      · intro hsays
        rw [← hsays contents hcontents, hname]
      · rintro hstem other hother
        cases hcontents.symm.trans hother
        rw [hname, hstem]
    rw [List.forall₂_cons, List.forall_mem_cons, ih, hsays]

/-- What a directory makes of the names of its migrations. -/
structure HasHistoryKeys (tree : FileTree) (directory : String) (files : List MigrationFile) :
    Prop where
  /-- Each migration has the name in the header of its file. -/
  named : List.Forall₂ (fun fileName file => ∃ contents,
    tree.read (join directory fileName) = .ok contents ∧
      MigrationFile.headerName? contents = some file.name) (scriptNames tree directory) files
  ordered : Order.Ascending id (scriptNames tree directory)
  /-- The names are the stems exactly when the headers say so. -/
  stems : List.Forall₂ (fun fileName file => stem? "sql" fileName = some file.name)
      (scriptNames tree directory) files ↔
    ∀ fileName ∈ scriptNames tree directory, SaysItsStem tree directory fileName
  distinct : (∀ fileName ∈ scriptNames tree directory, SaysItsStem tree directory fileName) →
    (files.map MigrationFile.name).Nodup
  /-- Names ascend if they have only characters that sort behind the dot of the extension. -/
  ascending : (∀ fileName ∈ scriptNames tree directory, SaysItsStem tree directory fileName) →
    (∀ file ∈ files, ∀ c ∈ file.name.toList, '.' < c) → Order.Ascending MigrationFile.name files

/-- **The history key of a migration is the name in the header of its file.**  Migrations are
discovered in the order of the names of their files.  Their own names are the stems of these files
exactly when every header says so.  Then they are distinct, and they ascend if their characters sort
behind the dot.  In any case a migration is skipped only when the record under its name has the
checksum of its script. -/
theorem discover_history_keys {tree : FileTree} {directory : String} {files : List MigrationFile}
    (h : discover tree directory = .ok files) :
    HasHistoryKeys tree directory files ∧
      ∀ {σ : Type} (server : Server σ) (state : σ) (executor : Executor), ∀ file ∈ files,
        ((executor.apply file).run.run server state).result = .ok .alreadyApplied →
          ∃ record, ⟨.findRecord file.name, .ok (some record)⟩ ∈
              ((executor.apply file).run.run server state).exchanges ∧
            record.checksum = Digest.Sha256.textDigest file.body := by
  have hnamed := named_of_discover h
  refine ⟨⟨hnamed, ascending_scriptNames tree directory, stems_iff hnamed, ?_, ?_⟩, ?_⟩
  · intro hsays
    exact nodup_name (ascending_of_stems ((stems_iff hnamed).2 hsays))
  · intro hsays hchars
    exact ascending_name (ascending_of_stems ((stems_iff hnamed).2 hsays)) hchars
  · intro σ server state executor file _ hskipped
    have hyields := Session.yields_run server (executor.apply file).run state
    rw [hskipped] at hyields
    exact Executor.recorded_of_skipped hyields

/-- Two migrations with the same script, each under its own name. -/
def namedSongs : FileTree where
  files := [(["migrations", "20240101000000_songs.sql"], Executor.createSongs.render),
    (["migrations", "20250101000000_songs.sql"],
      { Executor.createSongs with name := "20250101000000_songs" }.render)]

/-- Both are discovered under their names. -/
theorem discover_history_keys_songs :
    HasHistoryKeys namedSongs "migrations"
      [Executor.createSongs, { Executor.createSongs with name := "20250101000000_songs" }] :=
  (discover_history_keys (by decide +kernel)).1

/-- A migration and a copy of its file under another name. -/
def copiedSongs : FileTree where
  files := [(["migrations", "20240101000000_songs.sql"], Executor.createSongs.render),
    (["migrations", "20250101000000_songs.sql"], Executor.createSongs.render)]

/-- The copy has the name of the original and is skipped. -/
theorem copied_migration_skipped :
    discover copiedSongs "migrations" = .ok [Executor.createSongs, Executor.createSongs] ∧
    (scriptNames copiedSongs "migrations").map (stem? "sql") =
      [some "20240101000000_songs", some "20250101000000_songs"] ∧
    Executor.createSongs.name = "20240101000000_songs" ∧
    ((Executor.applyAll {} [Executor.createSongs, Executor.createSongs]).run.run Memory.server
      Executor.emptyHistory).result = .ok [.applied, .alreadyApplied] := by
  decide +kernel

end SchemaPlan
