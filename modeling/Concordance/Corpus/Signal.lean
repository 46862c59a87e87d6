import Concordance.Error

/-!
Subscriptions: who is told of a change, in the order of subscription.  Each subscriber answers a
change with its next state and with success or a fault; every one is told, whatever the others
answer.
-/

namespace Concordance

structure Signal (β : Type) where
  nextId : Nat := 0
  subscribers : List (Nat × β) := []

namespace Signal

variable {β : Type}

def subscribe (s : Signal β) (subscriber : β) : Signal β × Nat :=
  (⟨s.nextId + 1, s.subscribers ++ [(s.nextId, subscriber)]⟩, s.nextId)

def unsubscribe (s : Signal β) (id : Nat) : Signal β × Bool :=
  let kept := s.subscribers.filter fun entry => entry.1 != id
  (⟨s.nextId, kept⟩, kept.length != s.subscribers.length)

def size (s : Signal β) : Nat := s.subscribers.length

def summary (s : Signal β) : String :=
  "Signal \x7b next_id: " ++ toString s.nextId ++ ", subscribers: \"<" ++ toString s.size ++
    " callbacks>\" \x7d"

def firstFault : Result Unit → Result Unit → Result Unit
  | .error e, _ => .error e
  | .ok (), later => later

/-- Tells subscribers one after another and answers with their next states and the first fault. -/
def tell {m : Type → Type} [Monad m] (react : β → m (β × Result Unit)) :
    List (Nat × β) → m (List (Nat × β) × Result Unit)
  | [] => pure ([], .ok ())
  | (id, subscriber) :: rest => do
    let (subscriber, outcome) ← react subscriber
    let (rest, later) ← tell react rest
    return ((id, subscriber) :: rest, firstFault outcome later)

def emit {m : Type → Type} [Monad m] (s : Signal β) (react : β → m (β × Result Unit)) :
    m (Signal β × Result Unit) := do
  let (subscribers, outcome) ← tell react s.subscribers
  return (⟨s.nextId, subscribers⟩, outcome)

end Signal

end Concordance
