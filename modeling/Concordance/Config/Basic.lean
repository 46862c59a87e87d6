import Concordance.Analysis.StopWords
import Concordance.Error

namespace Concordance

inductive RecordPolicy where
  | skip
  | fail
  deriving DecidableEq, Repr

structure Config where
  fields : Option (List String) := none
  ngram : Option Nat := none
  weights : Named Float := ∅
  stopWords : StopWords := .standard
  policy : RecordPolicy := .skip

/-- A weight rounded to a whole number of repetitions: once below one and a half, and at most
a thousand times. -/
def weightRepeats (weight : Float) : Nat :=
  match Exact.ofFloat? weight with
  | none => 1
  | some e =>
    if e.negative || 2 * e.numerator < 3 * e.denominator then 1
    else min 1000 (roundDiv .up e.numerator e.denominator)

namespace Config

def defaultField : String := "text"

/-- The fields to index: those listed, else those with a weight, else the default one. -/
def effectiveFields (c : Config) : List String :=
  match c.fields with
  | some fields => fields
  | none => if c.weights.isEmpty then [defaultField] else c.weights.keys

def repeatCount (c : Config) (field : String) : Nat :=
  match c.weights[field]? with
  | some weight => weightRepeats weight
  | none => 1

def weightLimit : Float := 1000

/-- Weights are limited; the first field in order that exceeds the limit is named. -/
def check (c : Config) : Result Unit :=
  match c.weights.toList.find? fun (_, weight) => weightLimit < weight with
  | some (field, weight) => .error (.config (.weightTooLarge field weight))
  | none => .ok ()

end Config

def RecordPolicy.name : RecordPolicy → String
  | .skip => "skip"
  | .fail => "fail"

/-- A policy is written as its name, or as an object with its name and null. -/
def RecordPolicy.ofDraft? : Json.Draft → Option RecordPolicy
  | .str (some name) => named? name
  | .obj [(some name, .null)] => named? name
  | _ => none
where
  named? (name : String) : Option RecordPolicy :=
    if name == "skip" then some .skip else if name == "fail" then some .fail else none

def Json.ofNames? : Option (List String) → Json
  | none => .null
  | some names => .arr (names.map .str)

def Json.ofCount? : Option Nat → Json
  | none => .null
  | some n => .int n

def Config.toJson (c : Config) : Json :=
  .obj [
    ("fields", .ofNames? c.fields),
    ("ngram", .ofCount? c.ngram),
    ("field_weights", .ofNamed .double c.weights),
    ("stopwords", c.stopWords.toJson),
    ("record_policy", .str c.policy.name)]

def Config.ofDraft? (d : Json.Draft) : Option Config := do
  let f ← Json.Fields.read? ["fields", "ngram", "field_weights", "stopwords", "record_policy"] d
  let fields ← f.mayBeNull? 0 (·.list? (·.text?))
  let ngram ← f.mayBeNull? 1 (·.count?)
  let weights ← f.need? 2 (·.named? (·.float?))
  let stopWords ← f.need? 3 StopWords.ofDraft?
  let policy ← f.need? 4 RecordPolicy.ofDraft?
  return { fields, ngram, weights, stopWords, policy }

theorem weightRepeats_bounds (weight : Float) :
    1 ≤ weightRepeats weight ∧ weightRepeats weight ≤ 1000 := by
  unfold weightRepeats
  split
  · simp
  · rename_i e _
    split
    · simp
    · rename_i h
      have reach : ¬ 2 * e.numerator < 3 * e.denominator := by
        intro low; simp [low] at h
      have near := (roundDiv_near .up e.numerator e.denominator_pos).1
      refine ⟨?_, Nat.min_le_left ..⟩
      rcases Nat.eq_zero_or_pos (roundDiv .up e.numerator e.denominator) with zero | pos
      · rw [zero] at near
        have := e.denominator_pos
        omega
      · omega

theorem Config.repeatCount_bounds (c : Config) (field : String) :
    1 ≤ c.repeatCount field ∧ c.repeatCount field ≤ 1000 := by
  unfold repeatCount
  split
  · exact weightRepeats_bounds _
  · simp

end Concordance
