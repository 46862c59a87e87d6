import Concordance.Proofs.Corpus.Growth
import Concordance.Proofs.Index.Restored
import Concordance.Proofs.Result

namespace Concordance

variable {β σ : Type}

structure Call (β : Type) where
  subscriber : β
  change : Change
  outcome : Result Unit

/-- The same reactions, with every call written down. -/
def React.traced {m : Type → Type} [Monad m] (react : React m β) :
    React (StateT (List (Call β)) m) β := fun subscriber change => do
  let (next, outcome) ← StateT.lift (react subscriber change)
  modify (· ++ [⟨subscriber, change, outcome⟩])
  return (next, outcome)

/-- Each subscriber was called once, in order and with this change, and the first fault among the
answers is what came out. -/
structure Told (subscribers : List (Nat × β)) (change : Change) (calls : List (Call β))
    (outcome : Result Unit) : Prop where
  once : calls.map (fun call => (call.subscriber, call.change)) =
    subscribers.map (fun entry => (entry.2, change))
  ok : outcome = .ok () ↔ ∀ call ∈ calls, call.outcome = .ok ()
  fault : ∀ fault, outcome = .error fault ↔ ∃ before call after, calls = before ++ call :: after ∧
    (∀ earlier ∈ before, earlier.outcome = .ok ()) ∧ call.outcome = .error fault

namespace Told

variable {subscribers : List (Nat × β)} {change : Change} {calls : List (Call β)}
  {outcome : Result Unit}

theorem nil (change : Change) : Told ([] : List (Nat × β)) change [] (.ok ()) where
  once := rfl
  ok := by simp
  fault fault := by simp

theorem cons (h : Told subscribers change calls outcome) (number : Nat) (subscriber : β)
    (first : Result Unit) : Told ((number, subscriber) :: subscribers) change
      (⟨subscriber, change, first⟩ :: calls) (Signal.firstFault first outcome) where
  once := by rw [List.map_cons, List.map_cons, h.once]
  ok := by
    rw [List.forall_mem_cons, ← h.ok]
    cases first <;> simp [Signal.firstFault]
  fault fault := by
    rw [exists_split_cons]
    simp only [List.forall_mem_cons, List.not_mem_nil, false_implies, implies_true, true_and]
    cases first with
    | error other => simp [Signal.firstFault]
    | ok done => simpa [Signal.firstFault] using h.fault fault

end Told

section Erase

variable {τ α : Type}

/-- A computation that does what another does and keeps a trace besides. -/
def Erases (x : StateT τ (StateM σ) α) (y : StateM σ α) : Prop :=
  ∀ trace s, (fun done : (α × τ) × σ => (done.1.1, done.2)) ((x.run trace).run s) = y.run s

namespace Erases

protected theorem pure (a : α) : Erases (pure a : StateT τ (StateM σ) α) (pure a) := fun _ _ => rfl

protected theorem lift (y : StateM σ α) : Erases (StateT.lift y : StateT τ (StateM σ) α) y :=
  fun _ _ => rfl

protected theorem bind {α' : Type} {x : StateT τ (StateM σ) α} {y : StateM σ α}
    {f : α → StateT τ (StateM σ) α'} {g : α → StateM σ α'} (hx : Erases x y)
    (hf : ∀ a, Erases (f a) (g a)) : Erases (x >>= f) (y >>= g) := by
  intro trace s
  have hy := hx trace s
  have hz := hf ((x.run trace).run s).1.1 ((x.run trace).run s).1.2 ((x.run trace).run s).2
  show _ = (g (y.run s).1).run (y.run s).2
  rw [← hy]
  exact hz

theorem tell {react : β → StateT τ (StateM σ) (β × Result Unit)}
    {plain : β → StateM σ (β × Result Unit)} (h : ∀ b, Erases (react b) (plain b))
    (subscribers : List (Nat × β)) :
    Erases (Signal.tell react subscribers) (Signal.tell plain subscribers) := by
  induction subscribers with
  | nil => exact .pure _
  | cons entry rest ih => exact (h entry.2).bind fun _ => ih.bind fun _ => .pure _

variable {react : React (StateT τ (StateM σ)) β} {plain : React (StateM σ) β}
  (h : ∀ b change, Erases (react b change) (plain b change))
include h

theorem add (c : Corpus β) (id : String) (tokens : List String) (metadata : Record) :
    Erases (c.add react id tokens metadata) (c.add plain id tokens metadata) := by
  unfold Corpus.add
  cases c.record id tokens metadata with
  | error fault => exact .pure _
  | ok grown => exact ((tell (fun b => h b _) _).bind fun _ => .pure _).bind fun _ => .pure _

theorem handle (c : Corpus β) (event : CorpusEvent β) :
    Erases (c.handle react event) (c.handle plain event) := by
  cases event with
  | add d => exact (add h c d.id d.tokens d.metadata).bind fun _ => .pure _
  | subscribe subscriber => exact .pure _
  | unsubscribe id => exact .pure _

theorem run (c : Corpus β) (events : List (CorpusEvent β)) :
    Erases (c.run react events) (c.run plain events) := by
  induction events generalizing c with
  | nil => exact .pure _
  | cons event rest ih => exact (handle h c event).bind fun next => ih next

end Erases

end Erase

theorem React.run_traced (react : React (StateM σ) β) (subscriber : β) (change : Change)
    (log : List (Call β)) (s : σ) :
    ((react.traced subscriber change).run log).run s =
      let answered := (react subscriber change).run s
      ((answered.1, log ++ [⟨subscriber, change, answered.1.2⟩]), answered.2) := rfl

namespace Signal

theorem run_tell_cons (react : β → StateM σ (β × Result Unit)) (number : Nat) (subscriber : β)
    (rest : List (Nat × β)) (s : σ) :
    (tell react ((number, subscriber) :: rest)).run s =
      let first := (react subscriber).run s
      let later := (tell react rest).run first.2
      (((number, first.1.1) :: later.1.1, firstFault first.1.2 later.1.2), later.2) := rfl

theorem run_tell_trace_cons {τ : Type} (react : β → StateT τ (StateM σ) (β × Result Unit))
    (number : Nat) (subscriber : β) (rest : List (Nat × β)) (trace : τ) (s : σ) :
    ((tell react ((number, subscriber) :: rest)).run trace).run s =
      let first := ((react subscriber).run trace).run s
      let later := ((tell react rest).run first.1.2).run first.2
      ((((number, first.1.1.1) :: later.1.1.1, firstFault first.1.1.2 later.1.1.2), later.1.2),
        later.2) := rfl

theorem run_tell_traced (react : React (StateM σ) β) (change : Change)
    (subscribers : List (Nat × β)) (log : List (Call β)) (s : σ) :
    let told := (tell (fun b => react b change) subscribers).run s
    ∃ calls : List (Call β),
      ((tell (fun b => react.traced b change) subscribers).run log).run s =
        ((told.1, log ++ calls), told.2) ∧
      Told subscribers change calls told.1.2 := by
  induction subscribers generalizing log s with
  | nil => exact ⟨[], by rw [List.append_nil]; rfl, .nil change⟩
  | cons entry rest ih =>
    obtain ⟨number, subscriber⟩ := entry
    obtain ⟨calls, hrun, htold⟩ := ih
      (log ++ [⟨subscriber, change, ((react subscriber change).run s).1.2⟩])
      ((react subscriber change).run s).2
    refine ⟨⟨subscriber, change, ((react subscriber change).run s).1.2⟩ :: calls, ?_, ?_⟩
    · rw [run_tell_trace_cons, run_tell_cons, React.run_traced]
      simp only [hrun, List.append_assoc, List.singleton_append]
    · rw [run_tell_cons]
      exact htold.cons number subscriber _

end Signal

namespace Corpus

structure Includes (c : Corpus β) (d : Document) : Prop where
  metadata : c.index.metadata? d.id = some d.metadata
  length : c.index.docLength? d.id = some d.tokens.length
  tokens : c.history[d.id]? = some d.tokens
  contains : ∀ token ∈ d.tokens, c.index.contains d.id token = true

theorem includes_of_record {c grown : Corpus β} {d : Document}
    (h : c.record d.id d.tokens d.metadata = .ok grown) : grown.Includes d := by
  obtain ⟨-, rfl⟩ := record_eq_ok h
  refine ⟨?_, ?_, Std.ExtTreeMap.getElem?_insert_self, fun token ht => ?_⟩
  · rw [Index.metadata?, Index.insert_documents, Std.ExtTreeMap.getElem?_insert_self]
  · rw [Index.docLength?, Index.insert_lengths, Std.ExtTreeMap.getElem?_insert_self]
  · exact (Index.contains_insert c.index d token d.id).2 (.inr ⟨rfl, ht⟩)

theorem Includes.signal {c : Corpus β} {d : Document} (h : c.Includes d)
    (signal : Signal β) : Includes { c with signal } d :=
  ⟨h.metadata, h.length, h.tokens, h.contains⟩

/-- A document that is taken in is there before the first subscriber is called. -/
theorem add_eq_tell {m : Type → Type} [Monad m] [LawfulMonad m] (react : React m β)
    {c grown : Corpus β} {id : String} {tokens : List String} {metadata : Record}
    (h : c.record id tokens metadata = .ok grown) :
    c.add react id tokens metadata =
      (fun told => ({ grown with signal := ⟨c.signal.nextId, told.1⟩ }, told.2)) <$>
        Signal.tell (fun b => react b ⟨id, grown.index, grown.history⟩) c.signal.subscribers := by
  obtain ⟨-, rfl⟩ := record_eq_ok h
  rw [add, h, map_eq_pure_bind]
  simp only [Signal.emit, bind_assoc, pure_bind]

theorem run_handle_add {τ : Type} (react : React (StateT τ (StateM σ)) β) {c grown : Corpus β}
    {d : Document} (h : c.record d.id d.tokens d.metadata = .ok grown) (trace : τ) (s : σ) :
    ((c.handle react (.add d)).run trace).run s =
      let change : Change := ⟨d.id, grown.index, grown.history⟩
      let told := ((Signal.tell (fun b => react b change) c.signal.subscribers).run trace).run s
      (({ grown with signal := ⟨c.signal.nextId, told.1.1.1⟩ }, told.1.2), told.2) := by
  rw [handle, add_eq_tell react h]
  rfl

theorem run_add_traced (react : React (StateM σ) β) {c grown : Corpus β} {id : String}
    {tokens : List String} {metadata : Record} (h : c.record id tokens metadata = .ok grown)
    (log : List (Call β)) (s : σ) :
    let added := (c.add react id tokens metadata).run s
    ∃ calls : List (Call β),
      ((c.add react.traced id tokens metadata).run log).run s =
        ((added.1, log ++ calls), added.2) ∧
      Told c.signal.subscribers ⟨id, grown.index, grown.history⟩ calls added.1.2 := by
  obtain ⟨calls, hrun, htold⟩ := Signal.run_tell_traced react ⟨id, grown.index, grown.history⟩
    c.signal.subscribers log s
  refine ⟨calls, ?_, ?_⟩
  · rw [add_eq_tell react.traced h, add_eq_tell react h]
    rw [StateT.run_map, StateT.run_map, StateT.run_map, hrun]
    rfl
  · rw [add_eq_tell react h]
    exact htold

def recordAll (c : Corpus β) (docs : List Document) : Corpus β :=
  docs.foldl (fun c d => (c.record d.id d.tokens d.metadata).toOption.getD c) c

def changes (c : Corpus β) : List Document → List Change
  | [] => []
  | d :: rest =>
    match c.record d.id d.tokens d.metadata with
    | .error _ => c.changes rest
    | .ok grown => ⟨d.id, grown.index, grown.history⟩ :: grown.changes rest

theorem changes_append (c : Corpus β) (docs more : List Document) :
    c.changes (docs ++ more) = c.changes docs ++ (c.recordAll docs).changes more := by
  induction docs generalizing c with
  | nil => rfl
  | cons d rest ih =>
    rw [List.cons_append, changes, changes, recordAll, List.foldl_cons]
    cases c.record d.id d.tokens d.metadata with
    | error fault => exact ih c
    | ok grown => exact congrArg _ (ih grown)

theorem recordAll_concat (c : Corpus β) (docs : List Document) (d : Document) :
    c.recordAll (docs ++ [d]) =
      ((c.recordAll docs).record d.id d.tokens d.metadata).toOption.getD (c.recordAll docs) := by
  rw [recordAll, List.foldl_append]
  rfl

theorem run_concat {m : Type → Type} [Monad m] [LawfulMonad m] (react : React m β) (c : Corpus β)
    (events : List (CorpusEvent β)) (event : CorpusEvent β) :
    c.run react (events ++ [event]) =
      c.run react events >>= fun grown => grown.handle react event := by
  rw [run, List.foldlM_append]
  simp only [List.foldlM_cons, List.foldlM_nil, bind_pure]
  rfl

end Corpus

end Concordance
