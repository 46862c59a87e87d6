import Concordance.Corpus.Signal
import Concordance.Index.Inverted

namespace Concordance

abbrev History := Named (List String)

structure Change where
  id : String
  index : Index
  history : History

abbrev React (m : Type → Type) (β : Type) := β → Change → m (β × Result Unit)

structure Corpus (β : Type) where
  index : Index := {}
  history : History := ∅
  signal : Signal β := {}

namespace Corpus

variable {β : Type}

def tokens (c : Corpus β) (id : String) : List String := c.history.getD id []

/-- Adds a document to the index and to the history, and tells no one. -/
def record (c : Corpus β) (id : String) (tokens : List String) (metadata : Record) :
    Result (Corpus β) :=
  (c.index.add id tokens metadata).map fun index =>
    { c with index, history := c.history.insert id tokens }

/-- Adds a document and tells the subscribers.  A document that is refused leaves all as it was; a
fault of a subscriber does not take the document back. -/
def add {m : Type → Type} [Monad m] (react : React m β) (c : Corpus β) (id : String)
    (tokens : List String) (metadata : Record) : m (Corpus β × Result Unit) :=
  match c.record id tokens metadata with
  | .error e => pure (c, .error e)
  | .ok grown => do
    let (signal, outcome) ← grown.signal.emit fun subscriber =>
      react subscriber ⟨id, grown.index, grown.history⟩
    return ({ grown with signal }, outcome)

def subscribe (c : Corpus β) (subscriber : β) : Corpus β × Nat :=
  let (signal, id) := c.signal.subscribe subscriber
  ({ c with signal }, id)

def unsubscribe (c : Corpus β) (id : Nat) : Corpus β × Bool :=
  let (signal, removed) := c.signal.unsubscribe id
  ({ c with signal }, removed)

end Corpus

end Concordance
