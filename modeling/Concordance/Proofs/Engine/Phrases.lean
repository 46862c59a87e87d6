import Concordance.Proofs.Engine.Found
import Concordance.Proofs.Engine.Stored
import Concordance.Proofs.Query.Rendering

namespace Concordance

section Run

variable {run : List String}

theorem StopWords.filter_eq_self {s : StopWords} (h : ∀ word ∈ run, s.contains word = false) :
    s.filter run = run :=
  List.filter_eq_self.2 fun word hw => by simp [h word hw]

end Run

namespace Engine

variable {β σ : Type} {react : React (StateM σ) β} {e : Engine β}

end Engine

end Concordance
