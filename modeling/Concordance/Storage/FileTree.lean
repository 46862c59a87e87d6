import Concordance.Json.Basic
import Concordance.Storage.Files

/-!
A file system in memory.  A place in the tree is written as the names that lead to it from the root,
joined by slashes; the empty place is the root.  A path leads to a place from the root or from the
current directory.
-/

namespace Concordance

inductive FileNode where
  | file (bytes : Bytes)
  | directory
  deriving DecidableEq, Repr

/-- Files and directories at their places, and the place of the current directory. -/
structure FileTree where
  nodes : Named FileNode := ∅
  current : String := ""

namespace FileTree

def nameLimit : Nat := 255

def pathLimit : Nat := 4095

def child (place name : String) : String :=
  if place.isEmpty then name else place ++ "/" ++ name

def parent (place : String) : String :=
  String.ofList ((place.toList.reverse.dropWhile (· != '/')).drop 1).reverse

def nameOf (place : String) : String :=
  String.ofList (place.toList.reverse.takeWhile (· != '/')).reverse

def within (names : List String) : FileTree :=
  names.foldl (fun t name =>
    let place := child t.current name
    ⟨t.nodes.insert place .directory, place⟩) {}

def node? (t : FileTree) (place : String) : Option FileNode :=
  if place.isEmpty then some .directory else t.nodes[place]?

def lookup (t : FileTree) (place name : String) : Except FileFault (String × FileNode) :=
  if name == "." then .ok (place, .directory)
  else if name == ".." then .ok (parent place, .directory)
  else if nameLimit < name.utf8ByteSize then .error .refused
  else
    match t.node? (child place name) with
    | some node => .ok (child place name, node)
    | none => .error .notFound

def enter (t : FileTree) (place name : String) : Except FileFault String :=
  match t.lookup place name with
  | .ok (place, .directory) => .ok place
  | .ok (_, .file _) => .error .refused
  | .error fault => .error fault

def checkPath (path : String) : Except FileFault Unit :=
  if path.isEmpty then .error .notFound
  else if pathLimit < path.utf8ByteSize || path.toList.contains '\x00' then .error .refused
  else .ok ()

/-- The directory in which the last name of a path is to be found, and that name; none for the
root. -/
def approach (t : FileTree) (path : String) : Except FileFault (String × Option String) := do
  checkPath path
  let names := Path.names path
  let start := if Path.isAbsolute path then "" else t.current
  return (← names.dropLast.foldlM t.enter start, names.getLast?)

def find (t : FileTree) (path : String) : Except FileFault (String × FileNode) := do
  match ← t.approach path with
  | (place, none) => return (place, .directory)
  | (place, some name) =>
    if Path.endsInSlash path then return (← t.enter place name, .directory)
    else t.lookup place name

def slot (t : FileTree) (path : String) : Except FileFault String := do
  match ← t.approach path with
  | (place, some name) =>
    match t.lookup place name with
    | .ok (found, .file _) => return found
    | .ok (_, .directory) => throw .directory
    | .error .notFound => return child place name
    | .error fault => throw fault
  | (_, none) => throw .directory

def fileSlot (t : FileTree) (path : String) : Except FileFault String := do
  let place ← t.slot path
  if Path.endsInSlash path then throw .directory else return place

def findFile (t : FileTree) (path : String) : Except FileFault (String × Bytes) := do
  match ← t.find path with
  | (place, .file bytes) => return (place, bytes)
  | (_, .directory) => throw .directory

def put (t : FileTree) (place : String) (node : FileNode) : FileTree :=
  { t with nodes := t.nodes.insert place node }

def erase (t : FileTree) (place : String) : FileTree := { t with nodes := t.nodes.erase place }

def perform (t : FileTree) : FileStep → Except FileFault FileTree
  | .makeDir path => do
    let place ← t.slot path
    if (t.node? place).isSome then throw .refused else return t.put place .directory
  | .create path => do return t.put (← t.fileSlot path) (.file [])
  | .append path bytes => do
    let (place, start) ← t.findFile path
    return t.put place (.file (start ++ bytes))
  | .sync path => do
    let _ ← t.findFile path
    return t
  | .rename source target => do
    let (place, bytes) ← t.findFile source
    return (t.erase place).put (← t.fileSlot target) (.file bytes)
  | .remove path => do
    let (place, _) ← t.findFile path
    return t.erase place

def fileNames (t : FileTree) (path : String) : Except FileFault (List String) := do
  match ← t.find path with
  | (_, .file _) => throw .refused
  | (place, .directory) =>
    return t.nodes.toList.filterMap fun (found, node) =>
      match node with
      | .file _ => if parent found == place then some (nameOf found) else none
      | .directory => none

def isDirectory (t : FileTree) (path : String) : Bool :=
  match t.find path with
  | .ok (_, .directory) => true
  | _ => false

def files : Files (StateM FileTree) where
  perform step := do
    match (← get).perform step with
    | .ok t =>
      set t
      return .ok ()
    | .error fault => return .error fault
  read path := return ((← get).findFile path).map Prod.snd
  isFile path := return ((← get).findFile path).isOk
  isDirectory path := return (← get).isDirectory path
  names path := return (← get).fileNames path

end FileTree

end Concordance
