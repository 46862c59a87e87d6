import Concordance.Error

namespace Concordance

abbrev Bytes := List UInt8

structure Storage (m : Type → Type) where
  save : String → Bytes → m (Result Unit)
  load : String → m (Result Bytes)
  has : String → m Bool
  delete : String → m (Result Unit)
  keys : m (Result (List String))

def Storage.lift {m n : Type → Type} (f : {α : Type} → m α → n α) (s : Storage m) :
    Storage n where
  save key bytes := f (s.save key bytes)
  load key := f (s.load key)
  has key := f (s.has key)
  delete key := f (s.delete key)
  keys := f s.keys

end Concordance
