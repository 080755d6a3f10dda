/-! # File trees

    A tree of files and folders in memory, on which reading and writing work as on a disk. It
    stands in for the disk where a command is run without one.

    A path that does not lead from the root leads from the folder in which one works. A slash at
    its end asks for a folder.
-/

namespace SeriesBroker

/-! ## Faults of the file system

    Why a file could not be read or written, in the words of the operating system, which come
    with a number for most faults.
-/

/-- Why a file could not be read or written. -/
inductive FileFault where
  | notFound
  | denied
  | alreadyExists
  /-- Something on the way is no folder. -/
  | notFolder
  | isFolder
  | nameTooLong
  /-- The bytes of the file are no text. -/
  | notText
  | reported (text : String)
  deriving DecidableEq

def FileFault.message : FileFault → String
  | .notFound => "No such file or directory (os error 2)"
  | .denied => "Permission denied (os error 13)"
  | .alreadyExists => "File exists (os error 17)"
  | .notFolder => "Not a directory (os error 20)"
  | .isFolder => "Is a directory (os error 21)"
  | .nameTooLong => "File name too long (os error 36)"
  | .notText => "stream did not contain valid UTF-8"
  | .reported text => text

/-! ## Paths

    A path is a text: names that are parted by slashes, after one more slash if it leads from
    the root.
-/

/-- Whether a path leads from the root. -/
def isAbsolutePath (path : String) : Bool := path.toList.head? == some '/'

/-- A path below another one. -/
def joinPath (above below : String) : String :=
  if above.isEmpty then below
  else if above.toList.getLast? = some '/' then above ++ below
  else above ++ "/" ++ below

/-- The parts of a path, of which some may be empty. -/
def pathParts (path : String) : List String := path.splitOn "/"

/-- The parts of a path that name something. -/
def pathNames (path : String) : List String :=
  (pathParts path).filter fun part => part != "" && part != "."

/-- The path of the folder in which a path names something. -/
def parentPath (path : String) : String :=
  let above := String.intercalate "/" (pathNames path).dropLast
  if isAbsolutePath path then "/" ++ above else above

/-! ## Trees -/

/-- The names of the folders on the way from the root, and a name in the last one. -/
abbrev Place := List String

/-- What a place holds. -/
inductive Node where
  | folder
  | file (text : String)
  deriving DecidableEq

structure FileTree where
  /-- What is there besides the root. -/
  nodes : List (Place × Node)
  /-- The folder in which one works. -/
  working : Place

namespace FileTree

/-- What a place holds. The root is always a folder. -/
def node? (t : FileTree) (place : Place) : Option Node :=
  if place.isEmpty then some .folder else t.nodes.lookup place

def isFolder (t : FileTree) (place : Place) : Bool := t.node? place == some .folder

def put (t : FileTree) (place : Place) (node : Node) : FileTree :=
  { t with nodes := (place, node) :: t.nodes.filter (·.1 != place) }

/-- The place in which a path starts. -/
def start (t : FileTree) (path : String) : Place := if isAbsolutePath path then [] else t.working

/-- The greatest length of a name in bytes. -/
def nameLimit : Nat := 255

/-- Follow the parts of a path. All but the last part have to lead to folders; the last one may
    name something that is not there. -/
def follow (t : FileTree) : Place → List String → Except FileFault Place
  | here, [] => .ok here
  | here, part :: rest =>
    match t.node? here with
    | none => .error .notFound
    | some (.file _) => .error .notFolder
    | some .folder =>
      if part = "" ∨ part = "." then t.follow here rest
      else if part = ".." then t.follow here.dropLast rest
      else if nameLimit < part.utf8ByteSize then .error .nameTooLong
      else t.follow (here ++ [part]) rest

def find (t : FileTree) (path : String) : Except FileFault Place :=
  if path.isEmpty then .error .notFound else t.follow (t.start path) (pathParts path)

/-! ## Reading -/

def isThere (t : FileTree) (path : String) : Bool :=
  match t.find path with
  | .ok place => (t.node? place).isSome
  | .error _ => false

def read (t : FileTree) (path : String) : Except FileFault String := do
  let place ← t.find path
  match t.node? place with
  | none => .error .notFound
  | some .folder => .error .isFolder
  | some (.file text) => .ok text

/-! ## Writing -/

/-- Make a folder under its last name, the names being given in reverse. -/
def makeFolder (t : FileTree) (start : Place) (reversed : List String) :
    Except FileFault FileTree := do
  let place ← t.follow start reversed.reverse
  if (t.node? place).isSome then .error .alreadyExists else .ok (t.put place .folder)

/-- Make a folder and those on the way to it, as far as they are not there. -/
def makeFolders (t : FileTree) (start : Place) : List String → Except FileFault FileTree
  | [] => .ok t
  | name :: above =>
    match t.makeFolder start (name :: above) with
    | .ok t => .ok t
    | .error .notFound => do
      let t ← t.makeFolders start above
      match t.makeFolder start (name :: above) with
      | .ok t => .ok t
      | .error .alreadyExists => .ok t
      | .error fault => .error fault
    | .error fault =>
      match t.follow start (name :: above).reverse with
      | .ok place => if t.isFolder place then .ok t else .error fault
      | .error _ => .error fault

/-- Write a file at a path, in a folder that is there. A path with a slash at its end never
    names a file. -/
def writeIn (t : FileTree) (path text : String) : Except FileFault FileTree := do
  let place ← t.follow (t.start path) ((pathParts path).filter (· != ""))
  if t.isFolder place || (pathParts path).getLast? == some "" then .error .isFolder
  else .ok (t.put place (.file text))

/-- Write a file at a path, making the folders on the way to it. -/
def write (t : FileTree) (path text : String) : Except FileFault FileTree := do
  if path.isEmpty then .error .notFound
  else
    let t ← t.makeFolders (t.start path) (pathNames path).reverse.tail
    t.writeIn path text

end FileTree

end SeriesBroker
