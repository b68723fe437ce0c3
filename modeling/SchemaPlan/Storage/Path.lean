import SchemaPlan.Text.Split

/-!
# Paths

Paths name files below the working directory, or below the root of all.  A path is a text: it keeps
the spelling of its author when names are joined to it.  A way is where a path leads, as a list of
names: from the working directory down, from `rootName` down, or first some steps up and then down.

* `pathNames` and `startOf` take a path apart, `pathOf` is the path of a way,
* `stepUp` is the step of two dots,
* `ancestors` lists the paths of the directories that a path leads through.
-/

set_option autoImplicit false

namespace SchemaPlan.Storage

/-- The name of the root of all files. -/
def rootName : String := "/"

/-- The name that leads nowhere else. -/
def hereName : String := "."

/-- The name that leads one step up. -/
def upName : String := ".."

/-- The names between the slashes of a path; an empty one says nothing. -/
def pathNames (path : String) : List String :=
  ((Text.pieces '/' path.toList).map String.ofList).filter (· ≠ "")

/-- Whether a path starts at the root. -/
def isAbsolute (path : String) : Bool :=
  path.toList.head? == some '/'

/-- Whether a path can only name a directory, because a slash is behind its last name. -/
def endsInSlash (path : String) : Bool :=
  path.toList.getLast? == some '/'

/-- The way from which the names of a path lead on. -/
def startOf (path : String) : List String :=
  if isAbsolute path then [rootName] else []

/-- One step up.  The root has no way up; above the working directory the steps up are counted. -/
def stepUp (way : List String) : List String :=
  if way = [rootName] then way
  else if way.all (· = upName) then way ++ [upName]
  else way.dropLast

/-- The path of a way. -/
def pathOf : List String → String
  | first :: rest =>
    if first = rootName then rootName ++ Text.join "/" rest else Text.join "/" (first :: rest)
  | [] => hereName

/-- The paths of the directories that a path leads through, the nearest first; dots are left out. -/
def ancestors (path : String) : List String :=
  let way := (pathNames path).filter (· ≠ hereName)
  ((List.range way.length).drop 1).reverse.map fun n => pathOf (startOf path ++ way.take n)

/-- The path of a name in a directory. -/
def join (directory name : String) : String :=
  if directory = "" ∨ endsInSlash directory then directory ++ name
  else directory ++ "/" ++ name

/-- The part of a file name before its extension, when that is the given one. -/
def stem? (extension name : String) : Option String :=
  match Text.before? ('.' :: extension.toList) name.toList with
  | some [] | none => none
  | some stem => some (String.ofList stem)

end SchemaPlan.Storage
