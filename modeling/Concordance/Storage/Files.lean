import Concordance.Storage.Basic
import Concordance.Text.Path

namespace Concordance

inductive FileFault where
  | notFound
  | directory
  | refused
  deriving DecidableEq, Repr

inductive FileStep where
  | makeDir (path : String)
  | create (path : String)
  | append (path : String) (bytes : Bytes)
  | sync (path : String)
  | rename (source target : String)
  | remove (path : String)
  deriving DecidableEq, Repr

structure Files (m : Type → Type) where
  perform : FileStep → m (Except FileFault Unit)
  read : String → m (Except FileFault Bytes)
  isFile : String → m Bool
  isDirectory : String → m Bool
  names : String → m (Except FileFault (List String))

namespace Files

variable {m : Type → Type} [Monad m]

def performAll (files : Files m) : List FileStep → m (Except FileFault Unit)
  | [] => pure (.ok ())
  | step :: rest => do
    match ← files.perform step with
    | .ok () => performAll files rest
    | .error fault => return .error fault

def makeDir (files : Files m) (path : String) : m (Except FileFault Unit) := do
  match ← files.perform (.makeDir path) with
  | .ok () => return .ok ()
  | .error fault => return if ← files.isDirectory path then .ok () else .error fault

/-- Makes a directory at the first of some paths.  If what lies above it is missing, then the
directories at the other paths are made before, and stay even if the first is refused. -/
def makeFirst (files : Files m) : List String → m (Except FileFault Unit)
  | [] => pure (.ok ())
  | path :: above => do
    match ← files.makeDir path with
    | .error .notFound =>
      match ← makeFirst files above with
      | .ok () => files.makeDir path
      | .error fault => return .error fault
    | outcome => return outcome

/-- Makes a directory and those above it, unless they are there.  The empty path names none. -/
def makeDirs (files : Files m) (path : String) : m (Except FileFault Unit) :=
  if path.isEmpty then pure (.ok ()) else files.makeFirst (path :: Path.above path)

end Files

end Concordance
