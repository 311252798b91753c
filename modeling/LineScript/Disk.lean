import LineScript.IoError
import LineScript.Text.Line

namespace LineScript

-- `sink` takes every write and `full` takes none. Both read as empty files: the endless zeros that
-- a real full device gives are left out.
inductive Node where
  | file (content : Text.Bytes)
  | directory
  | sink
  | full
deriving DecidableEq, Repr

-- The components from the root on, without `.` and `..`.
abbrev Path := List String

-- Every directory is an entry of its own; the root needs none.
structure Disk where
  entries : List (Path × Node)
  workingDirectory : Path
deriving Repr

namespace Disk

def node? (disk : Disk) (path : Path) : Option Node :=
  if path = [] then some .directory else disk.entries.lookup path

def replace (path : Path) (node : Node) : List (Path × Node) → List (Path × Node)
  | [] => [(path, node)]
  | entry :: rest =>
      if entry.1 = path then (path, node) :: rest else entry :: replace path node rest

def insert (disk : Disk) (path : Path) (node : Node) : Disk :=
  { disk with entries := replace path node disk.entries }

def content (disk : Disk) (path : Path) : Text.Bytes :=
  match disk.node? path with
  | some (.file bytes) => bytes
  | _ => #[]

-- Adds to the end of a file. The two devices hold nothing.
def append (disk : Disk) (path : Path) (bytes : Text.Bytes) : Except IoError Disk :=
  match disk.node? path with
  | some (.file content) => .ok (disk.insert path (.file (content ++ bytes)))
  | some .sink => .ok disk
  | some .full => .error .noSpace
  | some .directory => .error .isADirectory
  | none => .error .notFound

-- The directories down to a path, the path itself left out.
def parents (path : Path) : List Path := (List.range path.length).map path.take

-- An empty working directory beside the devices.
def emptyAt (workingDirectory : Path) : Disk where
  entries :=
    [(["dev"], .directory), (["dev", "null"], .sink), (["dev", "full"], .full)] ++
      (parents workingDirectory ++ [workingDirectory]).map (·, .directory)
  workingDirectory := workingDirectory

def empty : Disk := emptyAt ["tmp", "work"]

-- The components as they are written, empty ones included.
def splitName (name : String) : List String :=
  let pieces := Text.splitOn '/' name.toList
  (pieces.1 :: pieces.2).map String.ofList

def longestComponent : Nat := 255

-- One byte of the limit belongs to the terminator.
def longestName : Nat := 4095

-- Goes from a directory to what a component names there.
def enter (disk : Disk) (directory : Path) (component : String) : Except IoError Path :=
  match disk.node? directory with
  | none => .error .notFound
  | some .directory =>
      if component = "" ∨ component = "." then .ok directory
      else if component = ".." then .ok directory.dropLast
      else if longestComponent < component.utf8ByteSize then .error .nameTooLong
      else .ok (directory ++ [component])
  | some _ => .error .notADirectory

def walk (disk : Disk) (start : Path) (components : List String) : Except IoError Path :=
  components.foldlM disk.enter start

-- A name that can be looked up at all, with where to start.
def components (disk : Disk) (name : String) : Except IoError (Path × List String) :=
  if '\x00' ∈ name.toList then .error .nulInName
  else if name = "" then .error .notFound
  else if longestName < name.utf8ByteSize then .error .nameTooLong
  else
    .ok (if name.toList.head? = some '/' then [] else disk.workingDirectory,
      splitName name)

-- What a name stands for when it is opened for reading. A slash at the end asks for a directory.
def find (disk : Disk) (name : String) : Except IoError Path :=
  (disk.components name).bind fun (start, components) =>
    (disk.walk start components).bind fun path =>
      if (disk.node? path).isSome then .ok path else .error .notFound

-- What a name stands for when it is opened for writing; the last component may be new. A slash at
-- the end asks for a directory, which cannot be written.
def findOrCreate (disk : Disk) (name : String) : Except IoError (Disk × Path) :=
  (disk.components name).bind fun (start, components) =>
    let named := components.filter (· ≠ "")
    let last := named.getLastD "."
    (disk.walk start (named.dropLast ++ ["."])).bind fun directory =>
      if last = "." ∨ last = ".." ∨ components.getLast? = some "" then .error .isADirectory
      else
        (disk.enter directory last).bind fun path =>
          match disk.node? path with
          | some .directory => .error .isADirectory
          | some _ => .ok (disk, path)
          | none => .ok (disk.insert path (.file #[]), path)

-- Puts a node where a name points to, with the directories on the way to it.
def place (disk : Disk) (name : String) (node : Node) : Disk :=
  let start := if name.toList.head? = some '/' then [] else disk.workingDirectory
  let path := start ++ (splitName name).filter (· ≠ "")
  let ready := (parents path).foldl
    (fun disk directory =>
      if (disk.node? directory).isSome then disk else disk.insert directory .directory) disk
  ready.insert path node

-- The regular files below the working directory, by their names from there.
def files (disk : Disk) : List (String × Text.Bytes) :=
  disk.entries.filterMap fun (path, node) =>
    match node with
    | .file content =>
        if disk.workingDirectory.isPrefixOf path then
          some ("/".intercalate (path.drop disk.workingDirectory.length), content)
        else none
    | _ => none

end Disk

end LineScript
