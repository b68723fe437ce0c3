import SchemaPlan.Proofs.Storage.FileTree

/-!
# One more file

What a tree has gained when a file was written where nothing was.  Directories that are made for it
change no file, and every path that could be read before is read as before.

* `Widens`: directories may have been made, files are the same.
* `widens_makeDirectories`: making a directory, and those that its path leads through, does no more,
  also when it fails halfway.
* `hasPlaceFor_iff`: a file can be written into a directory exactly when there is place for it.
* `exists_put_of_write`: a file that is written at a free path is put at one way, which had nothing.
* `AddsFile`: exactly one file was added, and everything else stayed.
* `addsFile_of_write`: so it is when directories are made and a free path is written.
-/

set_option autoImplicit false

namespace SchemaPlan.Storage.FileTree

open Outcome

variable {tree before after : FileTree} {path text : String} {way : List String}

/-! ## Making directories -/

/-- Directories may have been made, and nothing else was done. -/
structure Widens (before after : FileTree) : Prop where
  files : after.files = before.files
  includes : after.Includes before

theorem Widens.refl (tree : FileTree) : tree.Widens tree :=
  ⟨rfl, .refl tree⟩

theorem Widens.trans {middle : FileTree} (h : before.Widens middle) (h' : middle.Widens after) :
    before.Widens after :=
  ⟨h'.files.trans h.files, h.includes.trans h'.includes⟩

theorem widens_directory (tree : FileTree) (way : List String) :
    tree.Widens { tree with directories := way :: tree.directories } := by
  have hdirectory (other : List String) (h : tree.isDirectory other = true) :
      ({ tree with directories := way :: tree.directories } : FileTree).isDirectory other =
        true := by
    rw [isDirectory_iff] at h ⊢
    rcases h with hup | hroot | hmade | hleads
    · exact .inl hup
    · exact .inr (.inl hroot)
    · exact .inr (.inr (.inl (List.mem_cons_of_mem way hmade)))
    · exact .inr (.inr (.inr hleads))
  refine ⟨rfl, hdirectory, fun other h => ?_⟩
  rw [contains, Bool.or_eq_true] at h ⊢
  exact h.imp (hdirectory other) id

theorem widens_makeDirectory (h : before.makeDirectory path = .ok after) :
    before.Widens after := by
  obtain ⟨⟨directory, last?⟩, -, hmake⟩ := bind_eq_ok_iff.1 h
  cases last? with
  | none => cases hmake
  | some name =>
    dsimp only at hmake
    split at hmake
    · cases hmake
    split at hmake
    · cases hmake
    · cases hmake
      exact widens_directory before _

theorem widens_ensureDirectory (h : before.ensureDirectory path = .ok after) :
    before.Widens after := by
  unfold ensureDirectory at h
  split at h
  · rename_i made hmade
    cases h
    exact widens_makeDirectory hmade
  · split at h
    · cases h
      exact .refl _
    · cases h

/-- What an operation leaves that does nothing when it fails. -/
theorem widens_ofExcept {ε : Type} {attempt : Except ε FileTree}
    (h : ∀ after, attempt = .ok after → before.Widens after) :
    before.Widens (Ending.ofExcept before attempt).tree := by
  cases attempt with
  | ok after => exact h after rfl
  | error fault => exact .refl before

/-- What an operation of two steps leaves, whichever of them fails. -/
theorem widens_andThen {ε : Type} {ending : Ending ε} {next : FileTree → Ending ε}
    (h : before.Widens ending.tree)
    (hnext : ending.andThen next = next ending.tree →
      ending.tree.Widens (next ending.tree).tree) :
    before.Widens (ending.andThen next).tree := by
  rw [Ending.andThen] at hnext ⊢
  split
  · rename_i hok
    exact h.trans (hnext (by rw [hok]))
  · exact h

theorem widens_makeChain (paths : List String) : before.Widens (before.makeChain paths).tree := by
  induction paths with
  | nil => exact .refl before
  | cons path ancestors ih =>
    rw [makeChain]
    split
    · exact widens_andThen ih fun _ => widens_ofExcept fun _ => widens_ensureDirectory
    · exact widens_ofExcept fun _ => widens_ensureDirectory

/-- Making a directory changes no file, whether it succeeds or not. -/
theorem widens_makeDirectories (before : FileTree) (path : String) :
    before.Widens (before.makeDirectories path).tree := by
  unfold makeDirectories
  split
  · exact .refl before
  · exact widens_makeChain _

/-! ## Writing a file -/

/-- The names of a path lead where they led. -/
theorem Includes.followToDirectory (h : after.Includes before) {start names : List String}
    (hfollow : before.followToDirectory start names = .ok way) :
    after.followToDirectory start names = .ok way := by
  obtain ⟨reached, hreached, hend⟩ := bind_eq_ok_iff.1 hfollow
  split at hend
  · rename_i hdirectory
    cases hend
    refine bind_eq_ok_iff.2 ⟨way, h.follow hreached, ?_⟩
    rw [if_pos (h.isDirectory way hdirectory)]
    rfl
  · cases hend

/-- A path leads where it led. -/
theorem Includes.locate (h : after.Includes before) (hlocate : before.locate path = .ok way) :
    after.locate path = .ok way := by
  obtain ⟨hchecked, hlocate⟩ := then_eq_ok_iff.1 hlocate
  refine then_eq_ok_iff.2 ⟨hchecked, ?_⟩
  split at hlocate
  · rw [if_pos ‹_›]
    exact h.followToDirectory hlocate
  · rw [if_neg ‹_›]
    exact h.follow hlocate

/-- A place for an entry stays one. -/
theorem Includes.slot (h : after.Includes before) {place : List String × Option String}
    (hslot : before.slot path = .ok place) : after.slot path = .ok place := by
  obtain ⟨hchecked, hslot⟩ := then_eq_ok_iff.1 hslot
  obtain ⟨directory, hfollow, hplace⟩ := bind_eq_ok_iff.1 hslot
  refine then_eq_ok_iff.2 ⟨hchecked, bind_eq_ok_iff.2 ⟨directory, ?_, hplace⟩⟩
  exact h.followToDirectory hfollow

/-- The names of a path with a place for an entry lead one step on from its directory. -/
theorem follow_of_slot {name : String} (h : tree.slot path = .ok (way, some name)) :
    checkPath path = .ok () ∧ (name ≠ hereName ∧ name ≠ upName) ∧
      tree.follow (startOf path) (pathNames path) = tree.step way name := by
  obtain ⟨hchecked, h⟩ := then_eq_ok_iff.1 h
  obtain ⟨directory, hfollow, hslot⟩ := bind_eq_ok_iff.1 h
  obtain ⟨rfl, hlast⟩ := Prod.mk.inj (Except.ok.inj hslot)
  obtain ⟨hlast, hdots⟩ := Option.filter_eq_some_iff.1 hlast
  obtain ⟨reached, hreached, hend⟩ := bind_eq_ok_iff.1 hfollow
  split at hend
  · rename_i hdirectory
    cases hend
    refine ⟨hchecked, of_decide_eq_true hdots, ?_⟩
    rw [← List.dropLast_append_getLast? name hlast, follow_append, hreached]
    change tree.follow directory [name] = _
    rw [follow, if_pos hdirectory]
    cases tree.step directory name with
    | ok next => rfl
    | error fault => rfl
  · cases hend

/-- A path with a place for an entry leads to the entry, if it is there. -/
theorem locate_of_slot {name : String} (h : tree.slot path = .ok (way, some name))
    (hslash : endsInSlash path = false) (hshort : isTooLong name = false) :
    tree.locate path =
      if tree.contains (way ++ [name]) then .ok (way ++ [name]) else .error .notFound := by
  obtain ⟨hchecked, ⟨hhere, hup⟩, hfollow⟩ := follow_of_slot h
  rw [FileTree.locate, hchecked, hslash]
  change tree.follow (startOf path) (pathNames path) = _
  rw [hfollow, step_of_short hhere hup hshort]

/-- A file can be written to a free place. -/
theorem write_of_slot {name : String} (h : tree.slot path = .ok (way, some name))
    (hslash : endsInSlash path = false) (hshort : isTooLong name = false)
    (hfree : tree.has path = false) (text : String) :
    tree.write path text = .ok (tree.put (way ++ [name]) text) := by
  have hnothing : tree.contains (way ++ [name]) = false := by
    by_contra hthere
    rw [has, locate_of_slot h hslash hshort, if_pos (Bool.of_not_eq_false hthere)] at hfree
    cases hfree
  rw [contains, Bool.or_eq_false_iff] at hnothing
  refine bind_eq_ok_iff.2 ⟨_, h, ?_⟩
  simp only [hslash, hshort, hnothing.1]
  rfl

/-- A file that is written at a free path is put at one way, which had nothing. -/
theorem exists_put_of_write (h : before.write path text = .ok after)
    (hfree : before.has path = false) :
    ∃ way, before.contains way = false ∧ after = before.put way text ∧
      after.locate path = .ok way := by
  obtain ⟨⟨directory, last?⟩, hslot, hwrite⟩ := bind_eq_ok_iff.1 h
  cases last? with
  | none => cases hwrite
  | some name =>
    dsimp only at hwrite
    split at hwrite
    · cases hwrite
    split at hwrite
    · cases hwrite
    split at hwrite
    · cases hwrite
    rename_i hslash hshort _
    cases hwrite
    rw [Bool.not_eq_true] at hslash hshort
    refine ⟨directory ++ [name], ?_, rfl, ?_⟩
    · by_contra hthere
      rw [has, locate_of_slot hslot hslash hshort, if_pos (Bool.of_not_eq_false hthere)] at hfree
      cases hfree
    · have hput :
          (before.put (directory ++ [name]) text).contains (directory ++ [name]) = true := by
        rw [contains, Bool.or_eq_true]
        exact .inr (isFile_iff.2 (mem_files_put.2 (.inl rfl)))
      rw [locate_of_slot ((before.includes_put _ text).slot hslot) hslash hshort, if_pos hput]

/-! ## Entries of a directory that was made -/

/-- A directory that was made is there. -/
theorem exists_reaches_of_makeDirectory (h : before.makeDirectory path = .ok after) :
    ∃ way, after.Reaches path way := by
  have hwidens := widens_makeDirectory h
  obtain ⟨⟨directory, last?⟩, hslot, hmake⟩ := bind_eq_ok_iff.1 h
  cases last? with
  | none => cases hmake
  | some name =>
    dsimp only at hmake
    split at hmake
    · cases hmake
    rename_i hshort
    rw [Bool.not_eq_true] at hshort
    split at hmake
    · cases hmake
    cases hmake
    obtain ⟨hchecked, ⟨hhere, hup⟩, hfollow⟩ := follow_of_slot (hwidens.includes.slot hslot)
    have hthere : ({ before with
        directories := (directory ++ [name]) :: before.directories } : FileTree).isDirectory
          (directory ++ [name]) = true :=
      isDirectory_iff.2 (.inr (.inr (.inl List.mem_cons_self)))
    refine ⟨directory ++ [name], hchecked, ?_, hthere⟩
    rw [hfollow, step_of_short hhere hup hshort, if_pos]
    rw [contains, hthere, Bool.true_or]

theorem exists_reaches_of_ensureDirectory (h : before.ensureDirectory path = .ok after) :
    ∃ way, after.Reaches path way := by
  unfold ensureDirectory at h
  split at h
  · rename_i made hmade
    cases h
    exact exists_reaches_of_makeDirectory hmade
  · split at h
    · rename_i hthere
      cases h
      exact hasDirectory_iff.1 hthere
    · cases h

theorem exists_reaches_of_makeDirectories (hne : path ≠ "")
    (h : before.makeDirectories path = ⟨after, .ok ()⟩) : ∃ way, after.Reaches path way := by
  rw [makeDirectories, if_neg hne, makeChain] at h
  split at h
  · obtain ⟨made, -, hensure⟩ := Ending.andThen_eq_ok_iff.1 h
    exact exists_reaches_of_ensureDirectory (Ending.ofExcept_eq_ok_iff.1 hensure)
  · exact exists_reaches_of_ensureDirectory (Ending.ofExcept_eq_ok_iff.1 h)

/-- In a directory that was made there is a place for an entry. -/
theorem exists_slot_join {directory name : String}
    (h : before.makeDirectories directory = ⟨after, .ok ()⟩) (hname : IsEntryName name)
    (hchecked : checkPath (join directory name) = .ok ()) :
    ∃ way, after.slot (join directory name) = .ok (way, some name) := by
  by_cases hne : directory = ""
  · subst hne
    have hjoin : join "" name = name := by
      rw [join, if_pos (.inl rfl), String.empty_append]
    rw [hjoin] at hchecked ⊢
    refine ⟨startOf name, then_eq_ok_iff.2 ⟨hchecked, bind_eq_ok_iff.2 ⟨startOf name, ?_, ?_⟩⟩⟩
    · rw [hname.pathNames_eq]
      refine bind_eq_ok_iff.2 ⟨startOf name, rfl, ?_⟩
      rw [if_pos (after.isDirectory_startOf name)]
      rfl
    · rw [hname.pathNames_eq]
      simp [Option.filter, hname.ne_here, hname.ne_up]
      rfl
  · obtain ⟨way, hreaches⟩ := exists_reaches_of_makeDirectories hne h
    exact ⟨way, hreaches.slot_join hname hchecked⟩

/-- Whether a file of a name can be added to a directory: the directory is there or can be made, the
name is free then, and name and path are short enough for the file system. -/
structure HasPlaceFor (tree : FileTree) (directory name : String) : Prop where
  free : ∃ made, tree.makeDirectories directory = ⟨made, .ok ()⟩ ∧
    made.has (join directory name) = false
  shortName : name.utf8ByteSize ≤ longestName
  shortPath : (join directory name).utf8ByteSize ≤ longestPath

/-- What is written to the path of an entry has a name and a path that are short enough. -/
theorem short_of_write {directory name : String} (hname : IsEntryName name)
    (h : tree.write (join directory name) text = .ok after) :
    name.utf8ByteSize ≤ longestName ∧ (join directory name).utf8ByteSize ≤ longestPath := by
  obtain ⟨⟨reached, last?⟩, hslot, hwrite⟩ := bind_eq_ok_iff.1 h
  obtain ⟨hchecked, hplace⟩ := then_eq_ok_iff.1 hslot
  obtain ⟨_, -, hlast⟩ := bind_eq_ok_iff.1 hplace
  have hlast : some name = last? := by
    have hlast := (Prod.mk.inj (Except.ok.inj hlast)).2
    rw [pathNames_join hname, List.getLast?_concat] at hlast
    rw [← hlast]
    simp [Option.filter, hname.ne_here, hname.ne_up]
  subst hlast
  rw [checkPath_join hname] at hchecked
  constructor
  · dsimp only at hwrite
    split at hwrite
    · cases hwrite
    split at hwrite
    · cases hwrite
    · rename_i hshort
      exact Nat.not_lt.1 fun hlong => hshort (decide_eq_true hlong)
  · split at hchecked
    · cases hchecked
    · exact Nat.not_lt.1 ‹_›

/-- **A file can be added to a directory exactly when there is place for it.** -/
theorem hasPlaceFor_iff {directory name : String} (hname : IsEntryName name) (text : String) :
    tree.HasPlaceFor directory name ↔ ∃ made after,
      tree.makeDirectories directory = ⟨made, .ok ()⟩ ∧ made.has (join directory name) = false ∧
        made.write (join directory name) text = .ok after := by
  constructor
  · rintro ⟨⟨made, hmade, hfree⟩, hshort, hpath⟩
    have hchecked : checkPath (join directory name) = .ok () :=
      (checkPath_join hname directory).trans (if_neg (Nat.not_lt.2 hpath))
    obtain ⟨way, hslot⟩ := exists_slot_join hmade hname hchecked
    exact ⟨made, _, hmade, hfree, write_of_slot hslot (endsInSlash_join hname)
      (decide_eq_false (Nat.not_lt.2 hshort)) hfree text⟩
  · rintro ⟨made, after, hmade, hfree, hwrite⟩
    obtain ⟨hshort, hpath⟩ := short_of_write hname hwrite
    exact ⟨⟨made, hmade, hfree⟩, hshort, hpath⟩

/-! ## What was gained -/

/-- Where only directories were made, files are read as before. -/
theorem Widens.read (h : before.Widens after) (hread : before.read path = .ok text) :
    after.read path = .ok text := by
  obtain ⟨reached, hreached, hcontent⟩ := bind_eq_ok_iff.1 hread
  refine bind_eq_ok_iff.2 ⟨reached, h.includes.locate hreached, ?_⟩
  rwa [content?, h.files]

/-- Exactly one file was added, at a path where nothing was, and all others stayed. -/
structure AddsFile (before after : FileTree) (path text : String) : Prop where
  free : before.has path = false
  reads : after.read path = .ok text
  one : ∃ way, before.content? way = none ∧
    ∀ other, after.content? other = if other = way then some text else before.content? other
  kept : ∀ other content, before.read other = .ok content → after.read other = .ok content

/-- When directories are made and a file is written at a free path, one file is added. -/
theorem addsFile_of_write {middle : FileTree} (hmade : before.Widens middle)
    (hfree : middle.has path = false) (h : middle.write path text = .ok after) :
    before.AddsFile after path text := by
  obtain ⟨way, hnothing, rfl, hlocate⟩ := exists_put_of_write h hfree
  have hcontent (other : List String) : middle.content? other = before.content? other := by
    rw [content?, hmade.files, content?]
  have hincludes : (middle.put way text).Includes before :=
    hmade.includes.trans (middle.includes_put way text)
  rw [contains, Bool.or_eq_false_iff, isFile, Option.isSome_eq_false_iff, Option.isNone_iff_eq_none,
    hcontent] at hnothing
  have hone (other : List String) : (middle.put way text).content? other =
      if other = way then some text else before.content? other := by
    rw [content?_put, hcontent]
  refine ⟨?_, ?_, ⟨way, hnothing.2, hone⟩, fun other content hread => ?_⟩
  · cases hthere : before.locate path with
    | error fault =>
      rw [has, hthere]
      rfl
    | ok reached =>
      rw [has, hmade.includes.locate hthere] at hfree
      cases hfree
  · refine bind_eq_ok_iff.2 ⟨way, hlocate, ?_⟩
    rw [hone, if_pos rfl]
    rfl
  · obtain ⟨reached, hreached, hread⟩ := bind_eq_ok_iff.1 hread
    refine bind_eq_ok_iff.2 ⟨reached, hincludes.locate hreached, ?_⟩
    have hother : reached ≠ way := by
      rintro rfl
      rw [hnothing.2] at hread
      cases hread
    rw [hone, if_neg hother]
    exact hread

end SchemaPlan.Storage.FileTree
