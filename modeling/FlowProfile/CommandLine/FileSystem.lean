/-
Opening files for writing

What happens when a path is opened in order to write a file there. A path is walked name by
name from the root, or from the working directory; every name but the last has to lead to
a directory. The walk ends at a place: paths that end at the same place mean the same file.
A file that is not there is created, unless its name ends in a slash, which only a directory
could have. Lengths are in bytes.

Of the tree only that part is kept which decides about openings: the directories, and the
files that do not behave as new ones do. Links are kept as far as they lead to directories;
a link to a file is known by what the file does.
-/

namespace FlowProfile

/-- Why something cannot be written. -/
inductive FileFault
  | notFound
  | inputOutput
  | noSuchDevice
  | permissionDenied
  | notDirectory
  | isDirectory
  | invalidArgument
  | busy
  | noSpace
  | nameTooLong
  deriving DecidableEq, Repr

namespace FileFault

/-- The number of a fault. -/
def code : FileFault → Nat
  | notFound => 2
  | inputOutput => 5
  | noSuchDevice => 6
  | permissionDenied => 13
  | notDirectory => 20
  | isDirectory => 21
  | invalidArgument => 22
  | busy => 26
  | noSpace => 28
  | nameTooLong => 36

/-- A fault in words. -/
def words : FileFault → String
  | notFound => "No such file or directory"
  | inputOutput => "Input/output error"
  | noSuchDevice => "No such device or address"
  | permissionDenied => "Permission denied"
  | notDirectory => "Not a directory"
  | isDirectory => "Is a directory"
  | invalidArgument => "Invalid argument"
  | busy => "Text file busy"
  | noSpace => "No space left on device"
  | nameTooLong => "File name too long"

/-- A fault as it stands in messages. -/
def text (fault : FileFault) : String :=
  fault.words ++ " (os error " ++ toString fault.code ++ ")"

end FileFault

/-- What comes of opening a path for writing. `full` opens but takes nothing in, and
`output` is where the output of the program itself goes. Reasons are as in messages. -/
inductive Opening
  | file
  | output
  | full (reason : String)
  | refused (reason : String)
  deriving DecidableEq, Repr

/-- What stands at a place of the tree. Nothing can be created in a sealed directory, and a
link leads to the directory at another place. -/
inductive FileNode
  | directory
  | sealed (fault : FileFault)
  | link (place : List String)
  | entry (opening : Opening)
  deriving DecidableEq, Repr

/-- The places of a tree, each given by the names on the way from the root, and the place
of the working directory. -/
structure FileSystem where
  nodes : List (List String × FileNode)
  working : List String

namespace FileSystem

/-- The longest name of a file. -/
def nameLimit : Nat := 255

/-- The length from which on a path is too long. -/
def pathLimit : Nat := 4096

/-- The names between the slashes of a path, empty ones included. -/
def splitSlash : List Char → List (List Char)
  | [] => [[]]
  | c :: rest =>
      if c = '/' then [] :: splitSlash rest
      else
        match splitSlash rest with
        | [] => [[c]]
        | first :: others => (c :: first) :: others

/-- The names on the way that a path describes. -/
def names (path : List Char) : List String :=
  ((splitSlash path).filter (· ≠ [])).map String.ofList

/-- What stands at a place. The root is always a directory. -/
def node? (system : FileSystem) (place : List String) : Option FileNode :=
  if place = [] then some .directory else system.nodes.lookup place

/-- Go from a directory into another. -/
def enter (system : FileSystem) (place : List String) (name : String) :
    Except FileFault (List String) :=
  if name = "." then .ok place
  else if name = ".." then .ok place.dropLast
  else if nameLimit < name.utf8ByteSize then .error .nameTooLong
  else
    match system.node? (place ++ [name]) with
    | some .directory | some (.sealed _) => .ok (place ++ [name])
    | some (.link target) => .ok target
    | some (.entry _) => .error .notDirectory
    | none => .error .notFound

/-- The place of a file that is to be created in a directory. -/
def create (system : FileSystem) (place : List String) (name : String) :
    Except FileFault (List String) :=
  match system.node? place with
  | some (.sealed fault) => .error fault
  | some .directory | some (.link _) | some (.entry _) | none => .ok (place ++ [name])

/-- The place of the file of a name in a directory, which may have to be created. -/
def placeIn (system : FileSystem) (place : List String) (name : String) :
    Except FileFault (List String) :=
  if name = "." ∨ name = ".." then .error .isDirectory
  else if nameLimit < name.utf8ByteSize then .error .nameTooLong
  else
    match system.node? (place ++ [name]) with
    | some .directory | some (.sealed _) | some (.link _) => .error .isDirectory
    | some (.entry _) => .ok (place ++ [name])
    | none => system.create place name

/-- The place of the file that is reached by names from a directory. -/
def walk (system : FileSystem) (onlyDirectory : Bool) (place : List String) :
    List String → Except FileFault (List String)
  | [] => .error .isDirectory
  | [name] => if onlyDirectory then .error .isDirectory else system.placeIn place name
  | name :: rest =>
      match system.enter place name with
      | .error fault => .error fault
      | .ok place => system.walk onlyDirectory place rest

/-- The place of the file that a path means. -/
def resolve (system : FileSystem) (path : String) : Except FileFault (List String) :=
  if path = "" then .error .notFound
  else if pathLimit ≤ path.utf8ByteSize then .error .nameTooLong
  else
    let chars := path.toList
    let start := if chars.head? = some '/' then [] else system.working
    system.walk (chars.getLast? = some '/') start (names chars)

/-- Open a path for writing. -/
def opening (system : FileSystem) (path : String) : Opening :=
  match system.resolve path with
  | .error fault => .refused fault.text
  | .ok place =>
      match system.node? place with
      | some (.entry opening) => opening
      | some .directory | some (.sealed _) | some (.link _) | none => .file

/-- Whether two paths mean the same file, which can be opened. -/
def sameFile (system : FileSystem) (first second : String) : Bool :=
  match system.resolve first, system.resolve second with
  | .ok place, .ok other => place == other
  | .error _, _ | _, .error _ => false

end FileSystem

end FlowProfile
