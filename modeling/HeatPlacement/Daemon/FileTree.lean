/-!
# Directories and files

A directory with the files and directories in it, as far as the daemon touches them.

* `FileTree`: a directory with what is in it, under their paths
* `FileTree.readFile`, `FileTree.makeDirectories`, `FileTree.makeFile`: what the daemon does with it
* `FileError`: why that fails
-/

namespace HeatPlacement

/-- Why a file cannot be read or made. -/
inductive FileError where
  | notFound
  | alreadyExists
  | notADirectory
  | isADirectory
  /-- Any other reason. -/
  | other (message : String)
  deriving DecidableEq, Repr, Inhabited

/-- The wording of an error. -/
def FileError.message : FileError → String
  | .notFound => "No such file or directory (os error 2)"
  | .alreadyExists => "File exists (os error 17)"
  | .notADirectory => "Not a directory (os error 20)"
  | .isADirectory => "Is a directory (os error 21)"
  | .other message => message

/-- What a path leads to. -/
inductive FileEntry where
  | file (text : String)
  | directory
  deriving DecidableEq, Repr, Inhabited

/-- The names on the way to a file, from the directory on. -/
abbrev FilePath := List String

/-- A directory, which is the working directory, with what is in it. -/
structure FileTree where
  /-- The path of the directory itself. -/
  root : String
  entries : List (FilePath × FileEntry)
  deriving DecidableEq, Repr, Inhabited

namespace FileTree

/-- The entry at a path. -/
def kind? (tree : FileTree) (path : FilePath) : Option FileEntry :=
  if path.isEmpty then some .directory else tree.entries.lookup path

/-- Put an entry at a path. -/
def put (tree : FileTree) (path : FilePath) (entry : FileEntry) : FileTree :=
  { tree with entries := (path, entry) :: tree.entries }

/-- The names in a path, without the empty ones and the dots. -/
def namesOf (path : String) : FilePath :=
  (path.splitOn "/").filter fun name => !name.isEmpty && name != "."

/-- The names on the way to a path, if it lies in the directory. -/
def locate? (tree : FileTree) (path : String) : Option FilePath :=
  let names := namesOf path
  let root := namesOf tree.root
  if root.isPrefixOf names then some (names.drop root.length)
  else if path.startsWith "/" then none
  else some names

/-- Follow names from a directory that has been reached. -/
def follow (tree : FileTree) : (reached : FilePath) → FilePath → Except FileError FilePath
  | reached, [] => .ok reached
  | reached, name :: rest =>
    match tree.kind? reached with
    | none => .error .notFound
    | some (.file _) => .error .notADirectory
    | some .directory =>
      if name = ".." then follow tree reached.dropLast rest
      else follow tree (reached ++ [name]) rest

/-- The text of a file. Outside the directory there is none. -/
def readFile (tree : FileTree) (path : String) : Except FileError String :=
  match tree.locate? path with
  | none => .error .notFound
  | some names => do
    let reached ← tree.follow [] names
    match tree.kind? reached with
    | none => throw .notFound
    | some .directory => throw .isADirectory
    | some (.file text) => return text

/-- Make the directories on a way that are missing. -/
def makeMissing (tree : FileTree) : (reached : FilePath) → FilePath → Except FileError FileTree
  | _, [] => .ok tree
  | reached, name :: rest =>
    let next := if name = ".." then reached.dropLast else reached ++ [name]
    match tree.kind? next with
    | none => makeMissing (tree.put next .directory) next rest
    | some .directory => makeMissing tree next rest
    | some (.file _) => .error (if rest.isEmpty then .alreadyExists else .notADirectory)

/-- Make a directory with all directories on the way to it. Outside nothing is seen of that. -/
def makeDirectories (tree : FileTree) (path : String) : Except FileError FileTree :=
  match tree.locate? path with
  | none => .ok tree
  | some names => tree.makeMissing [] names

/-- Make a file in a directory that is there, unless there is one. -/
def makeFile (tree : FileTree) (path : String) : Except FileError FileTree :=
  match tree.locate? path with
  | none => .ok tree
  | some names => do
    let reached ← tree.follow [] names
    match tree.kind? reached with
    | none => return tree.put reached (.file "")
    | some (.file _) => return tree
    | some .directory => throw .isADirectory

end FileTree

end HeatPlacement
