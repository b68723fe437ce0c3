import SchemaPlan.Proofs.Order.Sorted
import SchemaPlan.Proofs.Outcome
import SchemaPlan.Storage.FileTree

/-!
# Files of one directory

What is written into a directory and read from it, when the names are plain ones.  A path that leads to
a directory goes on leading there while files are added, and a name that the directory does not list is
free.

* `Reaches`: the path leads to the directory at the end of a way.
* `Reaches.write_join` and `Reaches.read_join`: a file is written under a free name and read back.
* `Reaches.write_join_eq_error`: a name that is too long is refused.
* `Includes`: in a tree that has what another has, paths lead where they led.
* `Reaches.put` and `mem_namesBelow_put`: what adding a file changes.
* `Reaches.makeDirectories`: a directory that is there is not made again.
* `Ending.andThen_eq_ok_iff`: an operation of several steps succeeds when all of them do.
-/

set_option autoImplicit false

namespace SchemaPlan.Storage

open Outcome

/-! ## Endings -/

namespace Ending

variable {ε δ : Type} {tree after : FileTree} {ending : Ending ε} {next : FileTree → Ending ε}

theorem ofExcept_eq_ok_iff {attempt : Except ε FileTree} :
    ofExcept tree attempt = ⟨after, .ok ()⟩ ↔ attempt = .ok after := by
  cases attempt <;> simp [ofExcept]

/-- An operation that failed did nothing. -/
theorem tree_ofExcept_of_error {attempt : Except ε FileTree} {fault : ε}
    (h : (ofExcept tree attempt).result = .error fault) : (ofExcept tree attempt).tree = tree := by
  cases attempt with
  | ok after => cases h
  | error _ => rfl

/-- An operation of two steps succeeds when both do. -/
theorem andThen_eq_ok_iff : ending.andThen next = ⟨after, .ok ()⟩ ↔
    ∃ made, ending = ⟨made, .ok ()⟩ ∧ next made = ⟨after, .ok ()⟩ := by
  obtain ⟨made, outcome⟩ := ending
  cases outcome <;> simp [andThen]

theorem mapError_eq_ok_iff {f : ε → δ} :
    ending.mapError f = ⟨after, .ok ()⟩ ↔ ending = ⟨after, .ok ()⟩ := by
  obtain ⟨made, outcome⟩ := ending
  cases outcome <;> simp [mapError, Except.mapError]

theorem result_eq_ok_iff : ending.result = .ok after ↔ ending = ⟨after, .ok ()⟩ := by
  obtain ⟨made, outcome⟩ := ending
  cases outcome <;> simp [result, Except.map]

end Ending

/-- Whether a text can name an entry of a directory. -/
structure IsEntryName (name : String) : Prop where
  ne_empty : name ≠ ""
  no_slash : '/' ∉ name.toList
  ne_here : name ≠ hereName
  ne_up : name ≠ upName

/-! ## Paths of entries -/

section Paths

variable {directory name : String}

theorem pieces_append_cons (c : Char) (a b : List Char) :
    Text.pieces c (a ++ c :: b) = Text.pieces c a ++ Text.pieces c b := by
  induction a with
  | nil => simp [Text.pieces]
  | cons d a ih =>
    rw [List.cons_append, Text.pieces, Text.pieces, ih]
    split
    · rfl
    · obtain ⟨p, ps, hp⟩ := List.exists_cons_of_ne_nil (Text.pieces_ne_nil c a)
      rw [hp]
      rfl

theorem pathNames_append_cons {path : String} {a b : List Char} (h : path.toList = a ++ '/' :: b) :
    pathNames path = pathNames (String.ofList a) ++ pathNames (String.ofList b) := by
  simp only [pathNames, h, String.toList_ofList, pieces_append_cons, List.map_append,
    List.filter_append]

theorem pathNames_empty : pathNames "" = [] := by
  decide

theorem IsEntryName.pathNames_eq (h : IsEntryName name) : pathNames name = [name] := by
  simp [pathNames, Text.pieces_of_not_mem h.no_slash, h.ne_empty]

/-- The names of a path to an entry are those of the directory and its own. -/
theorem pathNames_join (h : IsEntryName name) :
    pathNames (join directory name) = pathNames directory ++ [name] := by
  have hname : pathNames (String.ofList name.toList) = [name] := by
    rw [String.ofList_toList, h.pathNames_eq]
  unfold join
  split
  · rename_i hend
    rcases hend with rfl | hslash
    · rw [String.empty_append, h.pathNames_eq, pathNames_empty, List.nil_append]
    · obtain ⟨a, ha⟩ := List.getLast?_eq_some_iff.1 (beq_iff_eq.1 hslash)
      have hjoined : (directory ++ name).toList = a ++ '/' :: name.toList := by simp [ha]
      have hempty : pathNames (String.ofList []) = [] := pathNames_empty
      rw [pathNames_append_cons hjoined, pathNames_append_cons ha, hname, hempty, List.append_nil]
  · have hjoined : (directory ++ "/" ++ name).toList = directory.toList ++ '/' :: name.toList := by
      simp
    rw [pathNames_append_cons hjoined, hname, String.ofList_toList]

theorem exists_toList_join (directory name : String) :
    ∃ slash, (join directory name).toList = directory.toList ++ slash ++ name.toList := by
  unfold join
  split
  · exact ⟨[], by simp⟩
  · exact ⟨['/'], by simp⟩

theorem startOf_join (h : directory ≠ "") (name : String) :
    startOf (join directory name) = startOf directory := by
  obtain ⟨slash, hjoin⟩ := exists_toList_join directory name
  obtain ⟨c, r, hdirectory⟩ :=
    List.exists_cons_of_ne_nil fun hnil => h (String.toList_eq_nil_iff.1 hnil)
  simp [startOf, isAbsolute, hjoin, hdirectory]

/-- The path of an entry does not end in a slash. -/
theorem endsInSlash_join (h : IsEntryName name) : endsInSlash (join directory name) = false := by
  obtain ⟨slash, hjoin⟩ := exists_toList_join directory name
  obtain ⟨start, last, hname⟩ := (List.eq_nil_or_concat name.toList).resolve_left fun hnil =>
    h.ne_empty (String.toList_eq_nil_iff.1 hnil)
  have hlast : last ≠ '/' := by
    rintro rfl
    exact h.no_slash (by simp [hname])
  simp [endsInSlash, hjoin, hname, hlast]

/-- The path of an entry is refused only for its length. -/
theorem checkPath_join (h : IsEntryName name) (directory : String) :
    checkPath (join directory name) =
      if longestPath < (join directory name).utf8ByteSize then .error .nameTooLong else .ok () := by
  obtain ⟨slash, hjoin⟩ := exists_toList_join directory name
  have hne : join directory name ≠ "" := by
    intro hempty
    rw [hempty] at hjoin
    exact h.ne_empty (String.toList_eq_nil_iff.1 (List.append_eq_nil_iff.1 hjoin.symm).2)
  rw [checkPath, if_neg hne]

end Paths

namespace FileTree

variable {tree : FileTree} {directory name : String} {way : List String}

/-- A path leads to the directory at the end of a way. -/
structure Reaches (tree : FileTree) (directory : String) (way : List String) : Prop where
  checked : checkPath directory = .ok ()
  followed : tree.follow (startOf directory) (pathNames directory) = .ok way
  isDirectory : tree.isDirectory way = true

theorem Reaches.locate (h : tree.Reaches directory way) : tree.locate directory = .ok way := by
  refine then_eq_ok_iff.2 ⟨h.checked, ?_⟩
  split
  · refine bind_eq_ok_iff.2 ⟨way, h.followed, ?_⟩
    rw [if_pos h.isDirectory]
    rfl
  · exact h.followed

theorem hasDirectory_iff :
    tree.hasDirectory directory = true ↔ ∃ way, tree.Reaches directory way := by
  constructor
  · intro h
    unfold hasDirectory at h
    split at h
    · rename_i way hlocate
      obtain ⟨hchecked, hfollow⟩ := then_eq_ok_iff.1 hlocate
      refine ⟨way, hchecked, ?_, h⟩
      split at hfollow
      · obtain ⟨reached, hreached, hend⟩ := bind_eq_ok_iff.1 hfollow
        split at hend
        · cases hend
          exact hreached
        · cases hend
      · exact hfollow
    · cases h
  · rintro ⟨way, h⟩
    rw [hasDirectory, h.locate]
    exact h.isDirectory

theorem Reaches.ne_empty (h : tree.Reaches directory way) : directory ≠ "" := by
  rintro rfl
  cases h.checked

/-! ## Following a path -/

theorem follow_append (tree : FileTree) (way xs ys : List String) :
    tree.follow way (xs ++ ys) = tree.follow way xs >>= fun reached => tree.follow reached ys := by
  induction xs generalizing way with
  | nil => rfl
  | cons name rest ih =>
    rw [List.cons_append, follow, follow]
    split
    · split
      · exact ih _
      · rfl
    · rfl

/-- The path of an entry leads one step on from its directory. -/
theorem Reaches.locate_join (h : tree.Reaches directory way) (hname : IsEntryName name)
    (hchecked : checkPath (join directory name) = .ok ()) :
    tree.locate (join directory name) = tree.step way name := by
  rw [FileTree.locate, hchecked, endsInSlash_join hname]
  show tree.follow (startOf (join directory name)) (pathNames (join directory name)) = _
  rw [startOf_join h.ne_empty, pathNames_join hname, follow_append, h.followed]
  show tree.follow way [name] = _
  rw [follow, if_pos h.isDirectory]
  cases tree.step way name with
  | ok next => rfl
  | error fault => rfl

/-- A name leads to an entry if the directory has it. -/
theorem step_of_short (hhere : name ≠ hereName) (hup : name ≠ upName)
    (hshort : isTooLong name = false) : tree.step way name =
      if tree.contains (way ++ [name]) then .ok (way ++ [name]) else .error .notFound := by
  rw [step, if_neg hhere, if_neg hup, hshort]
  rfl

theorem step_entry (h : IsEntryName name) (hshort : isTooLong name = false) :
    tree.step way name =
      if tree.contains (way ++ [name]) then .ok (way ++ [name]) else .error .notFound :=
  step_of_short h.ne_here h.ne_up hshort

theorem step_eq_error (h : IsEntryName name) (hlong : isTooLong name = true) :
    tree.step way name = .error .nameTooLong := by
  rw [step, if_neg h.ne_here, if_neg h.ne_up, if_pos hlong]

theorem Reaches.slot_join (h : tree.Reaches directory way) (hname : IsEntryName name)
    (hchecked : checkPath (join directory name) = .ok ()) :
    tree.slot (join directory name) = .ok (way, some name) := by
  refine then_eq_ok_iff.2 ⟨hchecked, bind_eq_ok_iff.2 ⟨way, ?_, ?_⟩⟩
  · rw [startOf_join h.ne_empty, pathNames_join hname, List.dropLast_concat]
    refine bind_eq_ok_iff.2 ⟨way, h.followed, ?_⟩
    rw [if_pos h.isDirectory]
    rfl
  · rw [pathNames_join hname, List.getLast?_concat]
    simp [Option.filter, hname.ne_here, hname.ne_up]
    rfl

/-! ## Entries -/

theorem nameBelow?_eq_some_iff {other : List String} :
    nameBelow? way other = some name ↔ ∃ rest, other = way ++ name :: rest := by
  unfold nameBelow?
  split
  · rename_i hprefix
    obtain ⟨below, rfl⟩ := List.isPrefixOf_iff_prefix.1 hprefix
    rw [List.getElem?_append_right (Nat.le_refl _), Nat.sub_self]
    cases below with
    | nil => simp
    | cons first rest => simp
  · rename_i hprefix
    simp only [reduceCtorEq, false_iff]
    rintro ⟨rest, rfl⟩
    exact hprefix (List.isPrefixOf_iff_prefix.2 (List.prefix_append _ _))

theorem mem_namesBelow_iff : name ∈ tree.namesBelow way ↔
    ∃ rest, way ++ name :: rest ∈ tree.files.map Prod.fst ++ tree.directories := by
  simp only [namesBelow, Order.mem_setOf_iff, List.mem_filterMap, nameBelow?_eq_some_iff]
  constructor
  · rintro ⟨_, hmem, rest, rfl⟩
    exact ⟨rest, hmem⟩
  · rintro ⟨rest, hmem⟩
    exact ⟨_, hmem, rest, rfl⟩

theorem isFile_iff {other : List String} :
    tree.isFile other = true ↔ other ∈ tree.files.map Prod.fst := by
  rw [isFile, content?, Option.isSome_iff_ne_none, Ne, List.lookup_eq_none_iff]
  simp

theorem isDirectory_iff : tree.isDirectory way = true ↔
    (∀ name ∈ way, name = upName) ∨ way = [rootName] ∨ way ∈ tree.directories ∨
      ∃ name rest, way ++ name :: rest ∈ tree.files.map Prod.fst := by
  have hleads : (tree.files.any fun file => leadsTo way file.1) = true ↔
      ∃ name rest, way ++ name :: rest ∈ tree.files.map Prod.fst := by
    simp only [List.any_eq_true, leadsTo, Bool.and_eq_true, decide_eq_true_eq,
      List.isPrefixOf_iff_prefix, List.mem_map]
    constructor
    · rintro ⟨file, hfile, ⟨below, hbelow⟩, hlength⟩
      cases below with
      | nil => simp [← hbelow] at hlength
      | cons name rest => exact ⟨name, rest, file, hfile, hbelow.symm⟩
    · rintro ⟨name, rest, file, hfile, heq⟩
      exact ⟨file, hfile, ⟨name :: rest, heq.symm⟩, by simp [heq]⟩
  rw [isDirectory, Bool.or_eq_true, Bool.or_eq_true, Bool.or_eq_true, hleads, or_assoc, or_assoc]
  simp

/-- What is there is listed. -/
theorem mem_namesBelow_of_contains (hname : IsEntryName name)
    (h : tree.contains (way ++ [name]) = true) : name ∈ tree.namesBelow way := by
  rw [contains, Bool.or_eq_true, isDirectory_iff, isFile_iff] at h
  rw [mem_namesBelow_iff]
  rcases h with (hup | hroot | hmade | ⟨first, rest, hleads⟩) | hfile
  · exact absurd (hup name (by simp)) hname.ne_up
  · have hslash : name = rootName := by
      simpa using congrArg List.getLast? hroot
    exact absurd (by simp [hslash, rootName]) hname.no_slash
  · exact ⟨[], List.mem_append_right _ hmade⟩
  · refine ⟨first :: rest, List.mem_append_left _ ?_⟩
    simpa using hleads
  · exact ⟨[], List.mem_append_left _ hfile⟩

/-! ## Larger trees -/

/-- A tree has what another has, at the same places. -/
structure Includes (larger tree : FileTree) : Prop where
  isDirectory : ∀ way, tree.isDirectory way = true → larger.isDirectory way = true
  contains : ∀ way, tree.contains way = true → larger.contains way = true

namespace Includes

variable {larger largest : FileTree}

theorem refl (tree : FileTree) : tree.Includes tree :=
  ⟨fun _ => id, fun _ => id⟩

theorem trans (h : larger.Includes tree) (h' : largest.Includes larger) : largest.Includes tree :=
  ⟨fun way hway => h'.isDirectory way (h.isDirectory way hway),
    fun way hway => h'.contains way (h.contains way hway)⟩

theorem step (h : larger.Includes tree) {start reached : List String}
    (hstep : tree.step start name = .ok reached) : larger.step start name = .ok reached := by
  unfold FileTree.step at hstep ⊢
  split
  · rwa [if_pos ‹_›] at hstep
  split
  · rwa [if_neg ‹_›, if_pos ‹_›] at hstep
  rw [if_neg ‹_›, if_neg ‹_›] at hstep
  split at hstep
  · cases hstep
  · rw [if_neg ‹_›]
    split at hstep
    · rwa [if_pos (h.contains _ ‹_›)]
    · cases hstep

/-- A path leads where it led. -/
theorem follow (h : larger.Includes tree) {start reached names : List String}
    (hfollow : tree.follow start names = .ok reached) :
    larger.follow start names = .ok reached := by
  induction names generalizing start with
  | nil => exact hfollow
  | cons name rest ih =>
    rw [FileTree.follow] at hfollow ⊢
    split at hfollow
    · rename_i hstart
      split at hfollow
      · rename_i next hnext
        rw [if_pos (h.isDirectory _ hstart), h.step hnext]
        exact ih hfollow
      · cases hfollow
    · cases hfollow

theorem reaches (h : larger.Includes tree) (hreaches : tree.Reaches directory way) :
    larger.Reaches directory way :=
  ⟨hreaches.checked, h.follow hreaches.followed, h.isDirectory _ hreaches.isDirectory⟩

end Includes

/-! ## Adding a file -/

section Put

variable {text : String} {other : List String}

theorem lookup_filter_ne (h : other ≠ way) (files : List (List String × String)) :
    (files.filter fun file => file.1 ≠ way).lookup other = files.lookup other := by
  induction files with
  | nil => rfl
  | cons file files ih =>
    rw [List.filter_cons]
    split
    · rw [List.lookup_cons, List.lookup_cons, ih]
    · rename_i hfile
      have hskipped : (other == file.1) = false := by
        rw [of_not_not fun hne => hfile (decide_eq_true hne)]
        exact beq_eq_false_iff_ne.2 h
      rw [List.lookup_cons, hskipped, ih]

theorem content?_put : (tree.put way text).content? other =
    if other = way then some text else tree.content? other := by
  rw [content?, put, List.lookup_cons]
  split
  · rename_i hsame
    rw [if_pos (beq_iff_eq.1 hsame)]
  · rename_i hother
    rw [if_neg (beq_eq_false_iff_ne.1 hother), lookup_filter_ne (beq_eq_false_iff_ne.1 hother),
      content?]

theorem mem_files_put : other ∈ (tree.put way text).files.map Prod.fst ↔
    other = way ∨ other ∈ tree.files.map Prod.fst := by
  simp only [put, List.map_cons, List.mem_cons, List.mem_map, List.mem_filter, decide_eq_true_eq]
  constructor
  · rintro (h | ⟨file, ⟨hfile, -⟩, rfl⟩)
    · exact .inl h
    · exact .inr ⟨file, hfile, rfl⟩
  · rintro (h | ⟨file, hfile, rfl⟩)
    · exact .inl h
    · by_cases hway : file.1 = way
      · exact .inl hway
      · exact .inr ⟨file, ⟨hfile, hway⟩, rfl⟩

/-- Where a file is put, the directories stay. -/
theorem isDirectory_put (h : tree.isDirectory other = true) :
    (tree.put way text).isDirectory other = true := by
  rw [isDirectory_iff] at h ⊢
  rcases h with hup | hroot | hmade | ⟨name, rest, hleads⟩
  · exact .inl hup
  · exact .inr (.inl hroot)
  · exact .inr (.inr (.inl hmade))
  · exact .inr (.inr (.inr ⟨name, rest, mem_files_put.2 (.inr hleads)⟩))

theorem contains_put (h : tree.contains other = true) :
    (tree.put way text).contains other = true := by
  rw [contains, Bool.or_eq_true, isFile_iff] at h ⊢
  exact h.imp isDirectory_put fun hfile => mem_files_put.2 (.inr hfile)

theorem includes_put (tree : FileTree) (way : List String) (text : String) :
    (tree.put way text).Includes tree :=
  ⟨fun _ => isDirectory_put, fun _ => contains_put⟩

theorem Reaches.put (h : tree.Reaches directory way) (other : List String) (text : String) :
    (tree.put other text).Reaches directory way :=
  (tree.includes_put other text).reaches h

/-- The directory lists the new file, too. -/
theorem mem_namesBelow_put {new : String} : name ∈ (tree.put (way ++ [new]) text).namesBelow way ↔
    name = new ∨ name ∈ tree.namesBelow way := by
  simp only [mem_namesBelow_iff, List.mem_append, mem_files_put]
  constructor
  · rintro ⟨rest, (hnew | hfile) | hmade⟩
    · simp only [List.append_cancel_left_eq, List.cons.injEq] at hnew
      exact .inl hnew.1
    · exact .inr ⟨rest, .inl hfile⟩
    · exact .inr ⟨rest, .inr hmade⟩
  · rintro (rfl | ⟨rest, hfile | hmade⟩)
    · exact ⟨[], .inl (.inl rfl)⟩
    · exact ⟨rest, .inl (.inr hfile)⟩
    · exact ⟨rest, .inr hmade⟩

end Put

/-! ## Operations -/

theorem isDirectory_startOf (tree : FileTree) (path : String) :
    tree.isDirectory (startOf path) = true := by
  rw [isDirectory_iff, startOf]
  split
  · exact .inr (.inl rfl)
  · exact .inl fun _ hname => absurd hname List.not_mem_nil

theorem contains_of_step {start reached : List String} (hstep : tree.step start name = .ok reached)
    (hhere : name ≠ hereName) (hup : name ≠ upName) : tree.contains (start ++ [name]) = true := by
  rw [step, if_neg hhere, if_neg hup] at hstep
  split at hstep
  · cases hstep
  · split at hstep
    · assumption
    · cases hstep

/-- The path of a directory ends in dots or in the name of something that is there. -/
theorem Reaches.slot (h : tree.Reaches directory way) :
    ∃ parent last?, tree.slot directory = .ok (parent, last?) ∧
      ∀ last ∈ last?, tree.contains (parent ++ [last]) = true := by
  have hslot {parent : List String}
      (hparent : tree.follow (startOf directory) (pathNames directory).dropLast = .ok parent)
      (hthere : tree.isDirectory parent = true) :
      tree.slot directory = .ok (parent, (pathNames directory).getLast?.filter fun name =>
        name ≠ hereName ∧ name ≠ upName) := by
    refine then_eq_ok_iff.2 ⟨h.checked, bind_eq_ok_iff.2 ⟨parent, ?_, rfl⟩⟩
    refine bind_eq_ok_iff.2 ⟨parent, hparent, ?_⟩
    rw [if_pos hthere]
    rfl
  rcases List.eq_nil_or_concat (pathNames directory) with hnames | ⟨init, last, hnames⟩
  · refine ⟨startOf directory, _, hslot ?_ (tree.isDirectory_startOf directory), ?_⟩
    · rw [hnames]
      rfl
    · simp [hnames]
  · have hfollowed := h.followed
    rw [hnames, List.concat_eq_append, follow_append] at hfollowed
    obtain ⟨parent, hparent, hlast⟩ := bind_eq_ok_iff.1 hfollowed
    rw [follow] at hlast
    split at hlast
    · rename_i hthere
      split at hlast
      · rename_i next hnext
        refine ⟨parent, _, hslot (by simpa [hnames] using hparent) hthere, ?_⟩
        intro name hname
        rw [hnames, List.concat_eq_append, List.getLast?_concat, Option.mem_def,
          Option.filter_eq_some_iff] at hname
        obtain ⟨hname, hdots⟩ := hname
        obtain rfl := Option.some.inj hname
        obtain ⟨hhere, hup⟩ := of_decide_eq_true hdots
        exact contains_of_step hnext hhere hup
      · cases hlast
    · cases hlast

/-- A directory that is there can not be made. -/
theorem Reaches.makeDirectory (h : tree.Reaches directory way) :
    ∃ fault, tree.makeDirectory directory = .error fault ∧ fault ≠ .notFound := by
  obtain ⟨parent, last?, hslot, hthere⟩ := h.slot
  rw [FileTree.makeDirectory, hslot]
  cases last? with
  | none => exact ⟨_, rfl, by decide⟩
  | some last =>
    simp only [bind, Except.bind, hthere last rfl]
    split
    · exact ⟨_, rfl, by decide⟩
    · exact ⟨_, rfl, by decide⟩

/-- A directory that is there is not made again. -/
theorem Reaches.makeDirectories (h : tree.Reaches directory way) :
    tree.makeDirectories directory = ⟨tree, .ok ()⟩ := by
  obtain ⟨fault, hfault, hthere⟩ := h.makeDirectory
  have hensure : tree.ensureDirectory directory = .ok tree := by
    rw [ensureDirectory, hfault]
    exact if_pos (hasDirectory_iff.2 ⟨way, h⟩)
  rw [FileTree.makeDirectories, if_neg h.ne_empty, makeChain, hfault]
  cases fault <;> first
    | exact Ending.ofExcept_eq_ok_iff.2 hensure
    | exact absurd rfl hthere

section Entry

variable {text : String} (h : tree.Reaches directory way) (hname : IsEntryName name)
  (hchecked : checkPath (join directory name) = .ok ()) (hshort : isTooLong name = false)

include h hname hchecked hshort

/-- A path is free when the directory does not list its name. -/
theorem Reaches.has_join (hfree : name ∉ tree.namesBelow way) :
    tree.has (join directory name) = false := by
  rw [has, h.locate_join hname hchecked, step_entry hname hshort,
    if_neg fun hthere => hfree (mem_namesBelow_of_contains hname hthere)]
  rfl

/-- A file is put under a free name. -/
theorem Reaches.write_join (hfree : name ∉ tree.namesBelow way) (text : String) :
    tree.write (join directory name) text = .ok (tree.put (way ++ [name]) text) := by
  have hnothing : tree.isDirectory (way ++ [name]) = false :=
    Bool.eq_false_iff.2 fun hthere =>
      hfree (mem_namesBelow_of_contains hname (by rw [contains, hthere, Bool.true_or]))
  refine bind_eq_ok_iff.2 ⟨_, h.slot_join hname hchecked, ?_⟩
  simp only [endsInSlash_join hname, hshort, hnothing]
  rfl

/-- A file is read under its name. -/
theorem Reaches.read_join (htext : tree.content? (way ++ [name]) = some text) :
    tree.read (join directory name) = .ok text := by
  have hthere : tree.contains (way ++ [name]) = true := by
    rw [contains, isFile, htext, Option.isSome_some, Bool.or_true]
  have hlocate := h.locate_join hname hchecked
  rw [step_entry hname hshort, if_pos hthere] at hlocate
  refine bind_eq_ok_iff.2 ⟨_, hlocate, ?_⟩
  rw [htext]
  rfl

end Entry

/-- Nothing is written under a name that is too long. -/
theorem Reaches.write_join_eq_error (h : tree.Reaches directory way) (hname : IsEntryName name)
    (hlong : longestName < name.utf8ByteSize ∨ longestPath < (join directory name).utf8ByteSize)
    (text : String) :
    tree.has (join directory name) = false ∧
      tree.write (join directory name) text = .error .nameTooLong := by
  have hchecked := checkPath_join hname directory
  split at hchecked
  · refine ⟨?_, bind_eq_error_iff.2 (.inl (bind_eq_error_iff.2 (.inl hchecked)))⟩
    rw [has, FileTree.locate, hchecked]
    rfl
  · have htoo : isTooLong name = true := decide_eq_true (hlong.resolve_right ‹_›)
    refine ⟨?_, bind_eq_error_iff.2 (.inr ⟨_, h.slot_join hname hchecked, ?_⟩)⟩
    · rw [has, h.locate_join hname hchecked, step_eq_error hname htoo]
      rfl
    · simp only [endsInSlash_join hname, htoo]
      rfl

end FileTree

end SchemaPlan.Storage
