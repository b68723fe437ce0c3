import SchemaPlan.Order.Sorted
import SchemaPlan.Storage.Path

/-!
# File trees

The files of a working directory, as a value.  A directory exists when it was made or holds something;
the directories above the working directory exist, too, and nothing is known of what they hold.
A path is followed name by name, and the first fault ends the way: every name but the last must name a
directory, also before a step up, and a slash at the end asks for a directory.

* `FileTree.locate` follows a path to what exists there, `FileTree.slot` to where something may be put,
* `FileTree.read`, `FileTree.write`, `FileTree.makeDirectories` and `FileTree.entries` are the
  operations,
* `Ending` is how an operation of several steps ended, with the tree that it left,
* `FileError.text` is the message of the system.
-/

set_option autoImplicit false

namespace SchemaPlan.Storage

/-- Why a file can not be read or written. -/
inductive FileError where
  | notFound
  | alreadyThere
  | notDirectory
  | isDirectory
  | nameTooLong
deriving DecidableEq, Repr

/-- The message of the system. -/
def FileError.text : FileError → String
  | notFound => "No such file or directory (os error 2)"
  | alreadyThere => "File exists (os error 17)"
  | notDirectory => "Not a directory (os error 20)"
  | isDirectory => "Is a directory (os error 21)"
  | nameTooLong => "File name too long (os error 36)"

/-- Files with their contents, and the directories that were made.  Both are given by the names on
the way. -/
structure FileTree where
  files : List (List String × String) := []
  directories : List (List String) := []
deriving DecidableEq, Repr

/-- How an operation on a tree ended.  What was done before a fault stays done. -/
structure Ending (ε : Type) where
  tree : FileTree
  outcome : Except ε Unit

namespace Ending

variable {ε δ : Type}

/-- The end of an operation that did nothing if it failed. -/
def ofExcept (tree : FileTree) : Except ε FileTree → Ending ε
  | .ok after => ⟨after, .ok ()⟩
  | .error fault => ⟨tree, .error fault⟩

/-- Goes on with the tree, unless there was a fault. -/
def andThen (ending : Ending ε) (next : FileTree → Ending ε) : Ending ε :=
  match ending.outcome with
  | .ok () => next ending.tree
  | .error _ => ending

/-- The same end with another error. -/
def mapError (f : ε → δ) (ending : Ending ε) : Ending δ :=
  ⟨ending.tree, ending.outcome.mapError f⟩

/-- The tree of an operation that succeeded. -/
def result (ending : Ending ε) : Except ε FileTree :=
  ending.outcome.map fun _ => ending.tree

end Ending

/-- The number of bytes that a name may have. -/
def longestName : Nat := 255

/-- Whether a name has too many bytes. -/
def isTooLong (name : String) : Bool :=
  longestName < name.utf8ByteSize

/-- The number of bytes that a path may have. -/
def longestPath : Nat := 4095

/-- Refuses texts that can not be paths. -/
def checkPath (path : String) : Except FileError Unit :=
  if path = "" then .error .notFound
  else if longestPath < path.utf8ByteSize then .error .nameTooLong
  else .ok ()

namespace FileTree

/-- The content of the file at the end of a way. -/
def content? (tree : FileTree) (way : List String) : Option String :=
  tree.files.lookup way

/-- Whether a file is at the end of a way. -/
def isFile (tree : FileTree) (way : List String) : Bool :=
  (tree.content? way).isSome

/-- Whether something lies on the way to another. -/
def leadsTo (way other : List String) : Bool :=
  way.isPrefixOf other && way.length < other.length

/-- Whether a directory is at the end of a way. -/
def isDirectory (tree : FileTree) (way : List String) : Bool :=
  way.all (· = upName) || way = [rootName] || tree.directories.contains way ||
    tree.files.any fun file => leadsTo way file.1

/-- Whether something is at the end of a way. -/
def contains (tree : FileTree) (way : List String) : Bool :=
  tree.isDirectory way || tree.isFile way

/-! ## Following paths -/

/-- The way that a name leads on from a directory. -/
def step (tree : FileTree) (way : List String) (name : String) : Except FileError (List String) :=
  if name = hereName then .ok way
  else if name = upName then .ok (stepUp way)
  else if isTooLong name then .error .nameTooLong
  else if tree.contains (way ++ [name]) then .ok (way ++ [name])
  else .error .notFound

/-- Follows names; each of them must start from a directory. -/
def follow (tree : FileTree) (way : List String) : List String → Except FileError (List String)
  | [] => .ok way
  | name :: rest =>
    if tree.isDirectory way then
      match tree.step way name with
      | .ok next => tree.follow next rest
      | .error fault => .error fault
    else .error .notDirectory

/-- Follows names to a directory. -/
def followToDirectory (tree : FileTree) (way rest : List String) :
    Except FileError (List String) := do
  let reached ← tree.follow way rest
  if tree.isDirectory reached then pure reached else throw .notDirectory

/-- The way to what exists at a path. -/
def locate (tree : FileTree) (path : String) : Except FileError (List String) := do
  checkPath path
  if endsInSlash path then tree.followToDirectory (startOf path) (pathNames path)
  else tree.follow (startOf path) (pathNames path)

/-- The directory in which a path names something, and the name, when it is not one of dots only. -/
def slot (tree : FileTree) (path : String) :
    Except FileError (List String × Option String) := do
  checkPath path
  let directory ← tree.followToDirectory (startOf path) (pathNames path).dropLast
  pure (directory, (pathNames path).getLast?.filter fun name => name ≠ hereName ∧ name ≠ upName)

/-! ## Operations -/

/-- Whether a path names a directory. -/
def hasDirectory (tree : FileTree) (path : String) : Bool :=
  match tree.locate path with
  | .ok way => tree.isDirectory way
  | .error _ => false

/-- Whether a path names a file or a directory. -/
def has (tree : FileTree) (path : String) : Bool :=
  (tree.locate path).toBool

/-- The content of a file. -/
def read (tree : FileTree) (path : String) : Except FileError String := do
  let way ← tree.locate path
  match tree.content? way with
  | some text => pure text
  | none => throw .isDirectory

/-- The tree with one file written. -/
def put (tree : FileTree) (way : List String) (text : String) : FileTree :=
  { tree with files := (way, text) :: tree.files.filter fun file => file.1 ≠ way }

/-- Writes a file into a directory that exists, over an old one if there is one. -/
def write (tree : FileTree) (path text : String) : Except FileError FileTree := do
  match ← tree.slot path with
  | (_, none) => throw .isDirectory
  | (directory, some name) =>
    if endsInSlash path then throw .isDirectory
    if isTooLong name then throw .nameTooLong
    let way := directory ++ [name]
    if tree.isDirectory way then throw .isDirectory
    pure (tree.put way text)

/-- Makes one directory inside another. -/
def makeDirectory (tree : FileTree) (path : String) : Except FileError FileTree := do
  match ← tree.slot path with
  | (_, none) => throw .alreadyThere
  | (directory, some name) =>
    if isTooLong name then throw .nameTooLong
    let way := directory ++ [name]
    if tree.contains way then throw .alreadyThere
    pure { tree with directories := way :: tree.directories }

/-- Makes one directory, unless it is there. -/
def ensureDirectory (tree : FileTree) (path : String) : Except FileError FileTree :=
  match tree.makeDirectory path with
  | .ok made => .ok made
  | .error fault => if tree.hasDirectory path then .ok tree else .error fault

/-- Makes the directory of the first path; when there is no place for it, the others are made first,
from the last on, as far as they are missing. -/
def makeChain (tree : FileTree) : List String → Ending FileError
  | [] => ⟨tree, .ok ()⟩
  | path :: ancestors =>
    match tree.makeDirectory path with
    | .error .notFound =>
      (tree.makeChain ancestors).andThen fun made => .ofExcept made (made.ensureDirectory path)
    | _ => .ofExcept tree (tree.ensureDirectory path)

/-- Makes a directory and those that its path leads through, as far as they are missing. -/
def makeDirectories (tree : FileTree) (path : String) : Ending FileError :=
  if path = "" then ⟨tree, .ok ()⟩ else tree.makeChain (path :: ancestors path)

/-- The name directly below a directory on a way through it. -/
def nameBelow? (directory way : List String) : Option String :=
  if directory.isPrefixOf way then way[directory.length]? else none

/-- The names directly behind a way, in ascending order. -/
def namesBelow (tree : FileTree) (way : List String) : List String :=
  Order.setOf ((tree.files.map Prod.fst ++ tree.directories).filterMap (nameBelow? way))

/-- The names of the entries of a directory, in ascending order. -/
def entries (tree : FileTree) (directory : String) : List String :=
  match tree.locate directory with
  | .ok way => tree.namesBelow way
  | .error _ => []

/-- The tree with one more file, in a directory that is made if needed; a file for which there is no
place is left out. -/
def add (tree : FileTree) (path text : String) : FileTree :=
  let tree := ((tree.makeChain (ancestors path)).result.toOption).getD tree
  ((tree.write path text).toOption).getD tree

/-- The tree of some files. -/
def ofFiles (files : List (String × String)) : FileTree :=
  files.foldl (fun tree file => tree.add file.1 file.2) {}

end FileTree

end SchemaPlan.Storage
