import SchemaPlan.Proofs.Migration.File
import SchemaPlan.Proofs.Storage.FileTree

/-!
# Written migrations are discovered

Migrations of distinct names are written into an empty directory and read back from it.  Each of them
comes back as it was and intact, and they come in the order of their names, which is the order of
the seconds in which they were made.  Nothing is asked of descriptions and scripts; only the name of a
file and its path must not be too long for the file system.

* `Holds`: a directory holds the files of some migrations, and nothing else.
* `Holds.write` for one migration and `Holds.writeAll` for a list keep it.
* `Holds.discover_eq`: what a directory holds is discovered.
* `discover_written`: the whole way.
-/

set_option autoImplicit false

namespace SchemaPlan

open Outcome Storage
open Storage.FileTree

/-- What a migration is made of. -/
structure Draft where
  description : String
  script : Script
  time : Time.Instant
deriving DecidableEq, Repr

/-- The migration of a draft. -/
def Draft.file (draft : Draft) : MigrationFile :=
  .ofScript draft.description draft.script draft.time

namespace MigrationFile

variable {file : MigrationFile} {directory : String}

/-! ## Writing -/

/-- A migration is written to a free path in a directory that was made. -/
theorem writing_eq_ok_iff {tree after : FileTree} : file.writing tree directory = ⟨after, .ok ()⟩ ↔
    ∃ made, tree.makeDirectories directory = ⟨made, .ok ()⟩ ∧
      made.has (file.pathIn directory) = false ∧
      made.write (file.pathIn directory) file.render = .ok after := by
  rw [writing, Ending.andThen_eq_ok_iff]
  refine exists_congr fun made => ?_
  rw [Ending.mapError_eq_ok_iff, Ending.ofExcept_eq_ok_iff]
  refine and_congr_right fun _ => ?_
  cases made.has (file.pathIn directory) with
  | true => simp
  | false => simp [mapError_eq_ok_iff]

theorem write_eq_ok_iff {tree after : FileTree} : file.write tree directory = .ok after ↔
    file.writing tree directory = ⟨after, .ok ()⟩ :=
  Ending.result_eq_ok_iff

/-! ## File names -/

theorem nodup_fileName {files : List MigrationFile} (h : (files.map name).Nodup) :
    (files.map fileName).Nodup := by
  have hextended : files.map fileName = (files.map name).map fun name => name ++ ".sql" := by
    rw [List.map_map]
    rfl
  rw [hextended]
  refine h.map fun a b hab => ?_
  have hlist := congrArg String.toList hab
  rw [String.toList_append, String.toList_append] at hlist
  exact String.toList_inj.1 (List.append_cancel_right hlist)

/-- The name of the file and its path are short enough for the file system. -/
structure FitsInto (file : MigrationFile) (directory : String) : Prop where
  name : file.fileName.utf8ByteSize ≤ longestName
  path : (file.pathIn directory).utf8ByteSize ≤ longestPath

instance (file : MigrationFile) (directory : String) : Decidable (file.FitsInto directory) :=
  decidable_of_iff (file.fileName.utf8ByteSize ≤ longestName ∧
    (file.pathIn directory).utf8ByteSize ≤ longestPath) ⟨fun h => ⟨h.1, h.2⟩, fun h => ⟨h.1, h.2⟩⟩

theorem not_fitsInto_of_length (h : longestName < file.fileName.toList.length) :
    ¬ file.FitsInto directory := by
  have hbytes (s : List Char) : s.length ≤ String.utf8Len s := by
    induction s with
    | nil => exact Nat.le_refl _
    | cons c s ih =>
      have hc := c.utf8Size_pos
      rw [List.length_cons, String.utf8Len_cons]
      omega
  intro hfits
  have hname := hbytes file.fileName.toList
  rw [← String.utf8ByteSize_ofList, String.ofList_toList] at hname
  exact absurd (Nat.le_trans hname hfits.name) (Nat.not_le.2 h)

/-- A file that can stand in a directory and be read back from it. -/
structure BelongsTo (file : MigrationFile) (directory : String) : Prop where
  wellFormed : file.WellFormed
  year : file.generatedAt.HasPlainYear
  isEntryName : IsEntryName file.fileName
  isScript : (stem? "sql" file.fileName).isSome = true
  fits : file.FitsInto directory

theorem BelongsTo.checked (h : file.BelongsTo directory) :
    checkPath (join directory file.fileName) = .ok () :=
  (checkPath_join h.isEntryName directory).trans (if_neg (Nat.not_lt.2 h.fits.path))

theorem BelongsTo.short (h : file.BelongsTo directory) : isTooLong file.fileName = false :=
  decide_eq_false (Nat.not_lt.2 h.fits.name)

theorem IsStamped.ne_empty {name stamp slug : String} (h : IsStamped name stamp slug) :
    name ≠ "" := by
  rintro rfl
  have hempty := congrArg String.toList h.whole
  simp at hempty

theorem isScript_fileName (h : file.name ≠ "") : (stem? "sql" file.fileName).isSome = true := by
  have hstem : Text.before? ('.' :: "sql".toList) file.fileName.toList = some file.name.toList :=
    Text.before?_eq_some_iff.2 String.toList_append
  have hne : file.name.toList ≠ [] := fun hnil => h (String.toList_eq_nil_iff.1 hnil)
  rw [stem?, hstem]
  cases hname : file.name.toList with
  | nil => exact absurd hname hne
  | cons c r => rfl

/-- The name of the file of a script is that of an entry. -/
theorem isEntryName_ofScript (description : String) (script : Script) (time : Time.Instant) :
    IsEntryName (ofScript description script time).fileName := by
  have htext : (ofScript description script time).fileName.toList =
      time.stamp.toList ++ '_' :: ((slug description).toList ++ ".sql".toList) := by
    simp [fileName, ofScript]
  have hlength : 4 < (ofScript description script time).fileName.toList.length := by
    rw [htext]
    simp
    omega
  have hlong {short : String} (hshort : short.toList.length ≤ 4) :
      (ofScript description script time).fileName ≠ short := by
    rintro rfl
    omega
  refine ⟨hlong (by decide), fun hslash => ?_, hlong (by decide), hlong (by decide)⟩
  rw [htext, List.mem_append, List.mem_cons, List.mem_append] at hslash
  rcases hslash with hslash | hslash | hslash | hslash
  · exact time.slash_not_mem_stamp hslash
  · exact absurd hslash (by decide)
  · exact absurd ((isSlug_slug description).chars _ hslash) (by decide)
  · exact absurd hslash (by decide)

end MigrationFile

namespace Draft

variable {draft : Draft} {tree : FileTree} {directory : String}

/-- The migration of a draft can stand in every directory that has place for it. -/
theorem belongsTo (hyear : draft.time.HasPlainYear) (hfits : draft.file.FitsInto directory) :
    draft.file.BelongsTo directory where
  wellFormed := MigrationFile.wellFormed_ofScript _ _ _
  year := hyear
  isEntryName := MigrationFile.isEntryName_ofScript _ _ _
  isScript := MigrationFile.isScript_fileName
    (MigrationFile.isStamped_ofScript draft.description draft.script hyear).ne_empty
  fits := hfits

/-- What does not fit is not there, and can not be written. -/
theorem refused_of_not_fitsInto (hdirectory : tree.hasDirectory directory = true)
    (hfits : ¬ draft.file.FitsInto directory) :
    tree.has (draft.file.pathIn directory) = false ∧
      tree.write (draft.file.pathIn directory) draft.file.render = .error .nameTooLong := by
  obtain ⟨way, hreaches⟩ := hasDirectory_iff.1 hdirectory
  have hlong : longestName < draft.file.fileName.utf8ByteSize ∨
      longestPath < (join directory draft.file.fileName).utf8ByteSize := by
    by_contra hshort
    rw [not_or, Nat.not_lt, Nat.not_lt] at hshort
    exact hfits ⟨hshort.1, hshort.2⟩
  exact hreaches.write_join_eq_error (MigrationFile.isEntryName_ofScript _ _ _) hlong
    draft.file.render

/-- What does not fit is refused. -/
theorem write_eq_error (hdirectory : tree.hasDirectory directory = true)
    (hfits : ¬ draft.file.FitsInto directory) :
    draft.file.write tree directory = .error (.file .nameTooLong) := by
  obtain ⟨hhas, hwrite⟩ := refused_of_not_fitsInto hdirectory hfits
  obtain ⟨way, hreaches⟩ := hasDirectory_iff.1 hdirectory
  rw [MigrationFile.write, MigrationFile.writing, hreaches.makeDirectories]
  simp [Ending.mapError, Ending.andThen, Ending.ofExcept, Ending.result, hhas, hwrite,
    Except.mapError, Except.map]

/-- A description of so many letters makes a name that is too long. -/
theorem not_fitsInto_of_letters {n : Nat} (h : longestName < n) (script : Script)
    (time : Time.Instant) (directory : String) :
    ¬ (Draft.mk (String.ofList (List.replicate n 'a')) script time).file.FitsInto directory := by
  refine MigrationFile.not_fitsInto_of_length ?_
  have hslug : MigrationFile.slug (String.ofList (List.replicate n 'a')) =
      String.ofList (List.replicate n 'a') := by
    refine MigrationFile.slug_of_letters ?_ fun c hc => ?_
    · rw [Ne, List.replicate_eq_nil_iff]
      exact (Nat.zero_lt_of_lt h).ne'
    · rw [List.eq_of_mem_replicate hc]
      decide
  simp only [Draft.file, MigrationFile.ofScript, MigrationFile.fileName, hslug,
    String.toList_append, String.toList_ofList, List.length_append, List.length_replicate]
  omega

/-- A file whose name comes first was not made in a later second. -/
theorem not_later {a b : Draft} (ha : a.time.HasPlainYear) (hb : b.time.HasPlainYear)
    (h : compare a.file.fileName b.file.fileName = .lt) :
    compare b.time.wholeSecond a.time.wholeSecond ≠ .lt := by
  have hname (draft : Draft) : draft.file.fileName =
      draft.time.stamp ++ ("_" ++ MigrationFile.slug draft.description ++ ".sql") := by
    simp [Draft.file, MigrationFile.ofScript, MigrationFile.fileName, String.append_assoc]
  have hlength : a.time.stamp.toList.length = b.time.stamp.toList.length := by
    rw [Time.Instant.length_stamp ha, Time.Instant.length_stamp hb]
  rw [hname, hname, Text.compare_append hlength] at h
  rw [← Time.Instant.compare_stamp hb ha]
  intro hearlier
  rw [Std.OrientedCmp.gt_of_lt hearlier] at h
  cases h

end Draft

/-! ## The directory -/

variable {tree : FileTree} {directory : String} {way : List String} {files : List MigrationFile}

/-- A directory holds the files of some migrations, and nothing else. -/
structure Holds (tree : FileTree) (directory : String) (way : List String)
    (files : List MigrationFile) : Prop where
  reaches : tree.Reaches directory way
  names : ∀ name, name ∈ tree.namesBelow way ↔ name ∈ files.map MigrationFile.fileName
  contents : ∀ file ∈ files, tree.content? (way ++ [file.fileName]) = some file.render

/-- A migration of a new name is added. -/
theorem Holds.write {file : MigrationFile} (h : Holds tree directory way files)
    (hfile : file.BelongsTo directory) (hnew : file.fileName ∉ files.map MigrationFile.fileName) :
    ∃ next, file.write tree directory = .ok next ∧ Holds next directory way (file :: files) := by
  have hfree : file.fileName ∉ tree.namesBelow way := fun hlisted =>
    hnew ((h.names file.fileName).1 hlisted)
  refine ⟨tree.put (way ++ [file.fileName]) file.render, ?_, ?_⟩
  · refine MigrationFile.write_eq_ok_iff.2 (MigrationFile.writing_eq_ok_iff.2
      ⟨tree, h.reaches.makeDirectories, ?_, ?_⟩)
    · exact h.reaches.has_join hfile.isEntryName hfile.checked hfile.short hfree
    · exact h.reaches.write_join hfile.isEntryName hfile.checked hfile.short hfree file.render
  · refine ⟨h.reaches.put _ _, fun name => ?_, fun other hother => ?_⟩
    · rw [mem_namesBelow_put, h.names, List.map_cons, List.mem_cons]
    · rw [content?_put]
      rcases List.mem_cons.1 hother with rfl | hother
      · rw [if_pos rfl]
      · have hne : way ++ [other.fileName] ≠ way ++ [file.fileName] := by
          intro hsame
          have hname : other.fileName = file.fileName := by simpa using hsame
          exact hnew (hname ▸ List.mem_map_of_mem hother)
        rw [if_neg hne, h.contents other hother]

/-- Migrations of new names are added one after the other. -/
theorem Holds.writeAll (h : Holds tree directory way files) {new : List MigrationFile}
    (hnew : ∀ file ∈ new, file.BelongsTo directory)
    (hnodup : ((new.reverse ++ files).map MigrationFile.fileName).Nodup) :
    ∃ written, new.foldlM (fun tree file => file.write tree directory) tree = .ok written ∧
      Holds written directory way (new.reverse ++ files) := by
  induction new generalizing tree files with
  | nil => exact ⟨tree, rfl, h⟩
  | cons file new ih =>
    obtain ⟨hfile, hnew⟩ := List.forall_mem_cons.1 hnew
    rw [List.reverse_cons, List.append_assoc, List.singleton_append] at hnodup ⊢
    have hfresh : file.fileName ∉ files.map MigrationFile.fileName := by
      rw [List.map_append] at hnodup
      exact (List.nodup_cons.1 (List.nodup_append.1 hnodup).2.1).1
    obtain ⟨next, hwrite, hnext⟩ := h.write hfile hfresh
    obtain ⟨written, hrun, hwritten⟩ := ih hnext hnew hnodup
    refine ⟨written, ?_, hwritten⟩
    rw [List.foldlM_cons]
    exact bind_eq_ok_iff.2 ⟨next, hwrite, hrun⟩

/-- **What a directory holds is discovered**, in the order of the file names. -/
theorem Holds.discover_eq (h : Holds tree directory way files)
    (hfiles : ∀ file ∈ files, file.BelongsTo directory)
    (hnodup : (files.map MigrationFile.fileName).Nodup) :
    discover tree directory = .ok (Order.ofList MigrationFile.fileName files) := by
  have hperm : (Order.ofList MigrationFile.fileName files).Perm files := Order.ofList_perm hnodup
  have hsorted : Order.Ascending MigrationFile.fileName (Order.ofList MigrationFile.fileName files) :=
    Order.ascending_ofList _ _
  have hentries : tree.entries directory =
      (Order.ofList MigrationFile.fileName files).map MigrationFile.fileName := by
    rw [entries, h.reaches.locate]
    have hnames : Order.Ascending id (tree.namesBelow way) := Order.ascending_ofList _ _
    have hascending : Order.Ascending id
        ((Order.ofList MigrationFile.fileName files).map MigrationFile.fileName) :=
      List.pairwise_map.2 hsorted
    refine hnames.eq_of_perm hascending
      ((List.perm_ext_iff_of_nodup hnames.nodup hascending.nodup).2 fun name => ?_)
    rw [h.names, (hperm.map _).mem_iff]
  have hall : ((Order.ofList MigrationFile.fileName files).map MigrationFile.fileName).filter
      (fun name => (stem? "sql" name).isSome) =
        (Order.ofList MigrationFile.fileName files).map MigrationFile.fileName := by
    refine List.filter_eq_self.2 fun name hname => ?_
    obtain ⟨file, hfile, rfl⟩ := List.mem_map.1 hname
    exact (hfiles file (hperm.mem_iff.1 hfile)).isScript
  have hthere : tree.hasDirectory directory = true := hasDirectory_iff.2 ⟨way, h.reaches⟩
  rw [discover]
  simp only [hthere, hentries, hall]
  refine mapM_eq_ok_iff.2 (List.forall₂_map_left_iff.2 (List.forall₂_same.2 fun file hfile => ?_))
  have hmem := hperm.mem_iff.1 hfile
  have hbelongs := hfiles file hmem
  refine bind_eq_ok_iff.2 ⟨file.render, mapError_eq_ok_iff.2 ?_, mapError_eq_ok_iff.2 ?_⟩
  · exact h.reaches.read_join hbelongs.isEntryName hbelongs.checked hbelongs.short
      (h.contents file hmem)
  · exact hbelongs.wellFormed.read_render_iff.2 hbelongs.year

/-! ## The whole way -/

/-- What is discovered when some migrations were written. -/
structure IsDiscovery (files found : List MigrationFile) : Prop where
  perm : found.Perm files
  ascending : Order.Ascending MigrationFile.fileName found
  intact : ∀ file ∈ found, file.verify = .ok ()
  ordered : found.Pairwise fun earlier later =>
    compare later.generatedAt.wholeSecond earlier.generatedAt.wholeSecond ≠ .lt
  named : ∀ file ∈ found, ∃ stamp slug, MigrationFile.IsStamped file.name stamp slug

/-- **Written migrations are discovered**: all of them and nothing else, as they were written, in
the order of their seconds. -/
theorem discover_written {drafts : List Draft} (hdirectory : tree.hasDirectory directory = true)
    (hempty : tree.entries directory = []) (hyears : ∀ draft ∈ drafts, draft.time.HasPlainYear)
    (hnames : (drafts.map fun draft => draft.file.name).Nodup)
    (hfit : ∀ draft ∈ drafts, draft.file.FitsInto directory) :
    ∃ written found,
      (drafts.map Draft.file).foldlM (fun tree file => file.write tree directory) tree =
        .ok written ∧
      discover written directory = .ok found ∧ IsDiscovery (drafts.map Draft.file) found := by
  obtain ⟨way, hreaches⟩ := hasDirectory_iff.1 hdirectory
  have hnothing : tree.namesBelow way = [] := by
    rwa [entries, hreaches.locate] at hempty
  have hstart : Holds tree directory way [] := ⟨hreaches, by simp [hnothing], by simp⟩
  have hbelongs : ∀ file ∈ drafts.map Draft.file, file.BelongsTo directory := by
    intro file hfile
    obtain ⟨draft, hdraft, rfl⟩ := List.mem_map.1 hfile
    exact Draft.belongsTo (hyears draft hdraft) (hfit draft hdraft)
  have hnodup : ((drafts.map Draft.file).reverse.map MigrationFile.fileName).Nodup := by
    rw [List.map_reverse, List.nodup_reverse]
    exact MigrationFile.nodup_fileName (by rwa [List.map_map])
  obtain ⟨written, hrun, hwritten⟩ := hstart.writeAll hbelongs (by rwa [List.append_nil])
  rw [List.append_nil] at hwritten
  have hperm := (Order.ofList_perm hnodup).trans (List.reverse_perm _)
  have hascending : Order.Ascending MigrationFile.fileName
      (Order.ofList MigrationFile.fileName (drafts.map Draft.file).reverse) :=
    Order.ascending_ofList _ _
  have hdraft : ∀ file ∈ Order.ofList MigrationFile.fileName (drafts.map Draft.file).reverse,
      ∃ draft ∈ drafts, draft.file = file :=
    fun file hfile => List.mem_map.1 (hperm.mem_iff.1 hfile)
  refine ⟨written, _, hrun, hwritten.discover_eq (fun file hfile =>
    hbelongs file (List.mem_reverse.1 hfile)) hnodup, hperm, hascending, ?_, ?_, ?_⟩
  · intro file hfile
    obtain ⟨draft, -, rfl⟩ := hdraft file hfile
    exact MigrationFile.verify_ofScript _ _ _
  · refine hascending.imp_of_mem fun hearlier hlater hlt => ?_
    obtain ⟨a, ha, rfl⟩ := hdraft _ hearlier
    obtain ⟨b, hb, rfl⟩ := hdraft _ hlater
    exact Draft.not_later (hyears a ha) (hyears b hb) hlt
  · intro file hfile
    obtain ⟨draft, hmem, rfl⟩ := hdraft file hfile
    exact ⟨_, _, MigrationFile.isStamped_ofScript _ _ (hyears draft hmem)⟩

/-- Two migrations, the later one first, one with a blank line in a script and one that is empty. -/
theorem discover_written_two : ∃ written found,
    ([Draft.mk "Größe & Maß!" ⟨["SELECT 1\n\n", "SELECT 2"]⟩
          ⟨⟨2026, 10, 18, by decide, by decide⟩, 720, 0, 5⟩,
        Draft.mk "" ⟨[]⟩ ⟨⟨987, 6, 5, by decide, by decide⟩, 0, 59, 0⟩].map Draft.file).foldlM
      (fun tree file => file.write tree "out/migrations/")
      { directories := [["out", "migrations"], ["out"]] } = .ok written ∧
    discover written "out/migrations/" = .ok found ∧
    IsDiscovery ([Draft.mk "Größe & Maß!" ⟨["SELECT 1\n\n", "SELECT 2"]⟩
          ⟨⟨2026, 10, 18, by decide, by decide⟩, 720, 0, 5⟩,
        Draft.mk "" ⟨[]⟩ ⟨⟨987, 6, 5, by decide, by decide⟩, 0, 59, 0⟩].map Draft.file) found :=
  discover_written (by decide) (by decide) (by decide) (by decide) (by decide)

/-- A description of 300 letters is too long for the file system. -/
theorem long_description_not_written :
    ([Draft.mk (String.ofList (List.replicate 300 'a')) ⟨["SELECT 1"]⟩
        ⟨⟨2026, 10, 18, by decide, by decide⟩, 720, 0, 0⟩].map Draft.file).foldlM
      (fun tree file => file.write tree "migrations") { directories := [["migrations"]] } =
        .error (.file .nameTooLong) := by
  rw [List.map_cons, List.foldlM_cons]
  exact bind_eq_error_iff.2 (.inl (Draft.write_eq_error (by decide)
    (Draft.not_fitsInto_of_letters (by decide) _ _ _)))

end SchemaPlan
