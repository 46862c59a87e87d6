import Concordance.Engine.Snapshot
import Concordance.Storage.Basic

namespace Concordance

/-- Where to save, with which settings, after how many additions, and how many have been counted
since the last attempt. -/
structure AutoSave where
  key : String
  config : SavedConfig
  interval : Nat := 1
  pending : Nat := 0

namespace AutoSave

def every (a : AutoSave) (interval : Nat) : Result AutoSave :=
  if interval == 0 then .error (.config .intervalZero) else .ok { a with interval }

variable {m : Type → Type} [Monad m]

def write (storage : Storage m) (a : AutoSave) (index : Index) (history : History) :
    m (Result Unit) :=
  storage.save a.key (Snapshot.mk index a.config (some history)).encode

/-- Counts an addition, and saves when enough have been counted; the count starts again whether or
not the save succeeds. -/
def react (storage : Storage m) (a : AutoSave) (change : Change) : m (AutoSave × Result Unit) :=
  if a.pending + 1 < a.interval then pure ({ a with pending := a.pending + 1 }, .ok ())
  else do
    let outcome ← a.write storage change.index change.history
    return ({ a with pending := 0 }, outcome)

end AutoSave

end Concordance
