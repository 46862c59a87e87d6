import Concordance.Text.Character

namespace Concordance

structure RunScan where
  isOpen : Bool
  found : List (List Char)
  deriving DecidableEq, Repr

/-- Reads one more character on the left: a character of the class `p` joins the open run or opens
a new one, any other closes it. -/
def RunScan.push (p : Char → Bool) (c : Char) (scan : RunScan) : RunScan :=
  if p c then
    match scan with
    | ⟨true, run :: rest⟩ => ⟨true, (c :: run) :: rest⟩
    | ⟨_, rest⟩ => ⟨true, [c] :: rest⟩
  else ⟨false, scan.found⟩

/-- The maximal non-empty runs of characters in the class `p`, in order. -/
def runs (p : Char → Bool) (cs : List Char) : List (List Char) :=
  (cs.foldr (RunScan.push p) ⟨false, []⟩).found

def trimBoth (p : Char → Bool) (cs : List Char) : List Char :=
  ((cs.dropWhile p).reverse.dropWhile p).reverse

def blankWords (s : String) : List String :=
  (runs (fun c => !isBlank c) s.toList).map String.ofList

def trimBlank (s : String) : String :=
  String.ofList (trimBoth isBlank s.toList)

theorem mem_class_of_mem_runs {p : Char → Bool} {cs run : List Char} (h : run ∈ runs p cs) :
    run ≠ [] ∧ ∀ c ∈ run, p c = true := by
  unfold runs at h
  induction cs generalizing run with
  | nil => simp at h
  | cons c cs ih =>
    rw [List.foldr_cons] at h
    revert h ih
    generalize cs.foldr (RunScan.push p) ⟨false, []⟩ = scan
    intro ih h
    unfold RunScan.push at h
    split at h
    case isFalse => exact ih h
    case isTrue hc =>
      split at h
      · rcases List.mem_cons.1 h with rfl | h
        · refine ⟨by simp, fun d hd => ?_⟩
          rcases List.mem_cons.1 hd with rfl | hd
          · exact hc
          · exact (ih (List.mem_cons_self ..)).2 d hd
        · exact ih (List.mem_cons_of_mem _ h)
      · rcases List.mem_cons.1 h with rfl | h
        · simpa using hc
        · exact ih h

end Concordance
