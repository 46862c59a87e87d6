import Concordance.Json.Basic
import Concordance.Storage.Basic

namespace Concordance

structure Memory where
  entries : Named Bytes := ∅
  writes : Nat := 0

namespace Memory

def save (s : Memory) (key : String) (bytes : Bytes) : Memory :=
  ⟨s.entries.insert key bytes, s.writes + 1⟩

def load (s : Memory) (key : String) : Result Bytes :=
  match s.entries[key]? with
  | some bytes => .ok bytes
  | none => .error (.storage (.notFound key))

def delete (s : Memory) (key : String) : Memory := { s with entries := s.entries.erase key }

def clear (s : Memory) : Memory := { s with entries := ∅ }

def totalSize (s : Memory) : Nat := s.entries.foldl (fun size _ bytes => size + bytes.length) 0

def storage : Storage (StateM Memory) where
  save key bytes := modifyGet fun s => (.ok (), s.save key bytes)
  load key := return (← get).load key
  has key := return (← get).entries.contains key
  delete key := modifyGet fun s => (.ok (), s.delete key)
  keys := return .ok (← get).entries.keys

end Memory

end Concordance
