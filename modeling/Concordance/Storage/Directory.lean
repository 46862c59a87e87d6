import Concordance.Storage.Files

namespace Concordance

/-- A directory that keeps byte strings; `sync` says whether a write waits for the disk. -/
structure Directory where
  path : String
  sync : Bool := true
  deriving DecidableEq, Repr

def FileFault.error : FileFault → Error
  | .notFound => .io "not found"
  | .directory => .io "is a directory"
  | .refused => .io "refused"

namespace Directory

def tempSuffix : String := ".tmp"

/-- Whether a key may name a file: not empty, no path, and not temporary. -/
def isKey (key : String) : Bool :=
  !key.isEmpty && key != "." && key != ".." && !key.toList.contains '/' &&
    !key.toList.contains '\\' && !(tempSuffix.toList.isSuffixOf key.toList)

def join (d : Directory) (name : String) : String :=
  if d.path.isEmpty then name
  else if ['/'].isSuffixOf d.path.toList then d.path ++ name
  else d.path ++ "/" ++ name

def temporary (d : Directory) (key : String) : String := d.join (key ++ tempSuffix)

def path? (d : Directory) (key : String) : Result String :=
  if isKey key then .ok (d.join key) else .error (.storage (.invalidKey key))

variable {m : Type → Type} [Monad m]

def make (files : Files m) (path : String) (sync : Bool) : m (Result Directory) := do
  match ← files.makeDirs path with
  | .ok () => return .ok ⟨path, sync⟩
  | .error fault => return .error fault.error

def writeSteps (d : Directory) (key : String) (bytes : Bytes) : List FileStep :=
  [.create (d.temporary key), .append (d.temporary key) bytes] ++
    (if d.sync then [.sync (d.temporary key)] else [])

/-- Writes the temporary file, then gives it its own name. -/
def save (files : Files m) (d : Directory) (key : String) (bytes : Bytes) : m (Result Unit) :=
  match d.path? key with
  | .error e => pure (.error e)
  | .ok path => do
    match ← files.performAll (d.writeSteps key bytes) with
    | .error fault => return .error fault.error
    | .ok () =>
      match ← files.perform (.rename (d.temporary key) path) with
      | .error _ => return .error (.storage (.renameFailed key))
      | .ok () => return .ok ()

def load (files : Files m) (d : Directory) (key : String) : m (Result Bytes) :=
  match d.path? key with
  | .error e => pure (.error e)
  | .ok path => do
    match ← files.read path with
    | .ok bytes => return .ok bytes
    | .error .notFound => return .error (.storage (.notFound key))
    | .error fault => return .error fault.error

def has (files : Files m) (d : Directory) (key : String) : m Bool :=
  match d.path? key with
  | .error _ => pure false
  | .ok path => files.isFile path

def delete (files : Files m) (d : Directory) (key : String) : m (Result Unit) :=
  match d.path? key with
  | .error e => pure (.error e)
  | .ok path => do
    match ← files.perform (.remove path) with
    | .ok () => return .ok ()
    | .error .notFound => return .ok ()
    | .error fault => return .error fault.error

def keys (files : Files m) (d : Directory) : m (Result (List String)) := do
  match ← files.names d.path with
  | .error fault => return .error fault.error
  | .ok names =>
    return .ok ((names.filter fun name => !(tempSuffix.toList.isSuffixOf name.toList)).mergeSort)

def storage (files : Files m) (d : Directory) : Storage m where
  save := d.save files
  load := d.load files
  has := d.has files
  delete := d.delete files
  keys := d.keys files

end Directory

end Concordance
