import Concordance.Proofs.Corpus.Notice

/-!
Subscriptions over a whole run.  The log of a run says which subscriptions are live, and the
subscribers are these at every time, in the order of subscription, whatever they have answered.
-/

namespace Concordance

inductive SignalEvent (β : Type) where
  | subscribe (subscriber : β)
  | unsubscribe (id : Nat)
  | emit (change : Change)

inductive SignalAnswer (β : Type) where
  | subscribed (id : Nat)
  | unsubscribed (found : Bool)
  | emitted (calls : List (Call β)) (outcome : Result Unit)

abbrev SignalLog (β : Type) := List (SignalEvent β × SignalAnswer β)

def React.labelled {m : Type → Type} [Monad m] {ι γ : Type}
    (react : ι → γ → Change → m (γ × Result Unit)) : React m (ι × γ) := fun subscriber change => do
  let (next, outcome) ← react subscriber.1 subscriber.2 change
  return ((subscriber.1, next), outcome)

namespace Signal

variable {β : Type} {m : Type → Type} [Monad m]

def handle (react : React m β) (s : Signal β) : SignalEvent β → m (Signal β × SignalAnswer β)
  | .subscribe subscriber =>
    let (s, id) := s.subscribe subscriber
    return (s, .subscribed id)
  | .unsubscribe id =>
    let (s, found) := s.unsubscribe id
    return (s, .unsubscribed found)
  | .emit change => do
    let ((s, outcome), calls) ← (s.emit fun subscriber => react.traced subscriber change).run []
    return (s, .emitted calls outcome)

def run (react : React m β) (s : Signal β) : List (SignalEvent β) → m (Signal β × SignalLog β)
  | [] => return (s, [])
  | event :: rest => do
    let (s, answer) ← s.handle react event
    let (s, log) ← s.run react rest
    return (s, (event, answer) :: log)

end Signal

def SignalEvent.ends {β : Type} (id : Nat) : SignalEvent β → Bool
  | .unsubscribe other => other == id
  | _ => false

namespace SignalLog

variable {ι γ : Type}

def started : SignalEvent (ι × γ) × SignalAnswer (ι × γ) → Option (Nat × ι)
  | (.subscribe subscriber, .subscribed id) => some (id, subscriber.1)
  | _ => none

def handed (log : SignalLog (ι × γ)) : List Nat :=
  log.filterMap fun entry => (started entry).map Prod.fst

/-- The subscriptions in their order that have not been taken back since. -/
def live : SignalLog (ι × γ) → List (Nat × ι)
  | [] => []
  | entry :: later =>
    (started entry).toList.filter (fun subscription =>
      !later.any fun event => event.1.ends subscription.1) ++ live later

theorem handed_concat (log : SignalLog (ι × γ)) (entry : SignalEvent (ι × γ) × SignalAnswer (ι × γ)) :
    handed (log ++ [entry]) = handed log ++ ((started entry).map Prod.fst).toList := by
  rw [handed, List.filterMap_append]
  cases h : started entry <;> simp [handed, h]

theorem live_concat (log : SignalLog (ι × γ)) (entry : SignalEvent (ι × γ) × SignalAnswer (ι × γ)) :
    live (log ++ [entry]) =
      (live log).filter (fun subscription => !entry.1.ends subscription.1) ++
        (started entry).toList := by
  induction log with
  | nil => simp [live]
  | cons first later ih =>
    simp only [List.cons_append, live, ih, List.filter_append, List.append_assoc,
      List.filter_filter, List.any_append, List.any_cons, List.any_nil, Bool.or_false, Bool.not_or]
    simp only [Bool.and_comm]

def Given (log : SignalLog (ι × γ)) (id : Nat) : Prop :=
  ∃ before entry after, log = before ++ entry :: after ∧
    (started entry).map Prod.fst = some id ∧ ∀ later ∈ after, later.1.ends id = false

theorem given_cons {entry : SignalEvent (ι × γ) × SignalAnswer (ι × γ)}
    {log : SignalLog (ι × γ)} {id : Nat} : Given (entry :: log) id ↔
      ((started entry).map Prod.fst = some id ∧ ∀ later ∈ log, later.1.ends id = false) ∨
        Given log id := by
  constructor
  · rintro ⟨before, other, after, hs, hp⟩
    cases before with
    | nil =>
      cases hs
      exact .inl hp
    | cons first before =>
      cases hs
      exact .inr ⟨before, other, after, rfl, hp⟩
  · rintro (hp | ⟨before, other, after, rfl, hp⟩)
    · exact ⟨[], entry, log, rfl, hp⟩
    · exact ⟨entry :: before, other, after, rfl, hp⟩

theorem mem_live {log : SignalLog (ι × γ)} {id : Nat} :
    id ∈ (live log).map Prod.fst ↔ Given log id := by
  induction log with
  | nil => simp [live, Given]
  | cons entry later ih =>
    rw [live, List.map_append, List.mem_append, ih, given_cons]
    refine or_congr_left ?_
    rcases started entry with - | ⟨number, label⟩
    · simp
    · by_cases he : number = id
      · subst he
        simp
      · simp [Ne.symm he, he]

/-- What a run has to answer to an event after what is in the log. -/
inductive Answers (log : SignalLog (ι × γ)) :
    SignalEvent (ι × γ) → SignalAnswer (ι × γ) → Prop
  | subscribe (subscriber : ι × γ) {id : Nat} : (∀ earlier ∈ handed log, earlier < id) →
      Answers log (.subscribe subscriber) (.subscribed id)
  | unsubscribe {id : Nat} {found : Bool} : (found = true ↔ Given log id) →
      Answers log (.unsubscribe id) (.unsubscribed found)
  | emit {subscribers : List (Nat × (ι × γ))} {change : Change} {calls : List (Call (ι × γ))}
      {outcome : Result Unit} :
      subscribers.map (fun entry => (entry.1, entry.2.1)) = live log →
      Told subscribers change calls outcome → Answers log (.emit change) (.emitted calls outcome)

/-- The log says what the state of the subscriptions is. -/
structure Tracked (log : SignalLog (ι × γ)) (s : Signal (ι × γ)) : Prop where
  handed : handed log = List.range s.nextId
  subscribers : s.subscribers.map (fun entry => (entry.1, entry.2.1)) = live log

end SignalLog

namespace Signal

variable {ι γ σ : Type}

theorem run_emit_traced {β : Type} (react : React (StateM σ) β) (s : Signal β) (change : Change)
    (w : σ) :
    let emitted := (s.emit fun subscriber => react subscriber change).run w
    ∃ calls : List (Call β),
      ((s.emit fun subscriber => react.traced subscriber change).run []).run w =
        ((emitted.1, calls), emitted.2) ∧
      Told s.subscribers change calls emitted.1.2 := by
  obtain ⟨calls, hrun, htold⟩ := run_tell_traced react change s.subscribers [] w
  refine ⟨calls, ?_, htold⟩
  rw [emit, StateT.run_bind, StateT.run_bind, hrun]
  rfl

theorem run_tell_labelled (react : ι → γ → Change → StateM σ (γ × Result Unit)) (change : Change)
    (subscribers : List (Nat × (ι × γ))) (w : σ) :
    (((tell (fun subscriber => React.labelled react subscriber change) subscribers).run w).1.1).map
      (fun entry => (entry.1, entry.2.1)) = subscribers.map fun entry => (entry.1, entry.2.1) := by
  induction subscribers generalizing w with
  | nil => rfl
  | cons entry rest ih =>
    obtain ⟨number, subscriber⟩ := entry
    rw [run_tell_cons, List.map_cons, List.map_cons]
    exact congrArg _ (ih _)

theorem run_run_nil {β : Type} (react : React (StateM σ) β) (s : Signal β) (w : σ) :
    (s.run react []).run w = ((s, []), w) := rfl

theorem run_run_cons {β : Type} (react : React (StateM σ) β) (s : Signal β) (event : SignalEvent β)
    (rest : List (SignalEvent β)) (w : σ) :
    (s.run react (event :: rest)).run w =
      let answered := (s.handle react event).run w
      let ran := (answered.1.1.run react rest).run answered.2
      ((ran.1.1, (event, answered.1.2) :: ran.1.2), ran.2) := rfl

theorem unsubscribe_eq_true {β : Type} (s : Signal β) (id : Nat) :
    (s.unsubscribe id).2 = true ↔ ∃ entry ∈ s.subscribers, entry.1 = id := by
  have hlt := List.length_filter_lt_length_iff_exists
    (l := s.subscribers) (p := fun entry => entry.1 != id)
  have hle := List.length_filter_le (fun entry => entry.1 != id) s.subscribers
  unfold unsubscribe
  simp only [bne_iff_ne, ne_eq, not_not] at hlt ⊢
  rw [← hlt]
  omega

end Signal

namespace SignalLog.Tracked

variable {ι γ σ : Type} {log : SignalLog (ι × γ)} {s : Signal (ι × γ)}
  (react : ι → γ → Change → StateM σ (γ × Result Unit))

theorem subscribe (h : Tracked log s) (subscriber : ι × γ) :
    Tracked (log ++ [(.subscribe subscriber, .subscribed (s.subscribe subscriber).2)])
      (s.subscribe subscriber).1 where
  handed := by
    rw [handed_concat, h.handed]
    simp [started, Signal.subscribe, List.range_succ]
  subscribers := by
    rw [live_concat, ← h.subscribers]
    simp [started, Signal.subscribe, SignalEvent.ends]

theorem unsubscribe (h : Tracked log s) (id : Nat) :
    Tracked (log ++ [(.unsubscribe id, .unsubscribed (s.unsubscribe id).2)])
      (s.unsubscribe id).1 where
  handed := by
    rw [handed_concat, h.handed]
    simp [started, Signal.unsubscribe]
  subscribers := by
    rw [live_concat, ← h.subscribers, List.filter_map]
    simp only [started, Option.toList_none, List.append_nil, Signal.unsubscribe]
    refine congrArg _ (List.filter_congr fun entry _ => ?_)
    show (entry.1 != id) = !(id == entry.1)
    rw [bne, Bool.beq_comm]

theorem emit (h : Tracked log s) (change : Change) (calls : List (Call (ι × γ))) (w : σ) :
    let emitted := (s.emit fun subscriber => React.labelled react subscriber change).run w
    Tracked (log ++ [(.emit change, .emitted calls emitted.1.2)]) emitted.1.1 where
  handed := by
    rw [handed_concat, h.handed]
    exact List.append_nil _
  subscribers := by
    rw [live_concat, ← h.subscribers]
    simp only [started, SignalEvent.ends, Bool.not_false, List.filter_true, Option.toList_none,
      List.append_nil]
    exact Signal.run_tell_labelled react change s.subscribers w

theorem handle (h : Tracked log s) (event : SignalEvent (ι × γ)) (w : σ) :
    let answered := (s.handle (React.labelled react) event).run w
    log.Answers event answered.1.2 ∧
      Tracked (log ++ [(event, answered.1.2)]) answered.1.1 := by
  cases event with
  | subscribe subscriber =>
    refine ⟨.subscribe subscriber fun earlier he => ?_, h.subscribe subscriber⟩
    rw [h.handed, List.mem_range] at he
    exact he
  | unsubscribe id =>
    have hfound : (s.unsubscribe id).2 = true ↔ Given log id := by
      rw [← mem_live, ← h.subscribers, Signal.unsubscribe_eq_true]
      simp
    exact ⟨.unsubscribe hfound, h.unsubscribe id⟩
  | emit change =>
    obtain ⟨calls, hrun, htold⟩ := Signal.run_emit_traced (React.labelled react) s change w
    rw [Signal.handle, StateT.run_bind, hrun]
    exact ⟨.emit h.subscribers htold, h.emit react change calls w⟩

theorem run (h : Tracked log s) (events : List (SignalEvent (ι × γ))) (w : σ) :
    let ran := (s.run (React.labelled react) events).run w
    ran.1.2.map Prod.fst = events ∧ Tracked (log ++ ran.1.2) ran.1.1 ∧
      ∀ before event answer after, ran.1.2 = before ++ (event, answer) :: after →
        Answers (log ++ before) event answer := by
  induction events generalizing log s w with
  | nil =>
    rw [Signal.run_run_nil]
    exact ⟨rfl, by simpa using h, by simp⟩
  | cons event rest ih =>
    obtain ⟨hanswer, htracked⟩ := h.handle react event w
    obtain ⟨hevents, hlast, hanswers⟩ := ih htracked ((s.handle (React.labelled react) event).run w).2
    rw [Signal.run_run_cons]
    refine ⟨congrArg _ hevents, by simpa using hlast, fun before event' answer after hs => ?_⟩
    cases before with
    | nil =>
      cases hs
      simpa using hanswer
    | cons first before =>
      obtain ⟨rfl, htail⟩ := List.cons.inj hs
      simpa using hanswers before event' answer after htail

end SignalLog.Tracked

namespace Signal

/-- In a run from the start numbers are given out in order and never twice, an answer to an event is
right by the log before it, and the subscribers are the live subscriptions. -/
theorem run_answers {ι γ σ : Type} (react : ι → γ → Change → StateM σ (γ × Result Unit))
    (events : List (SignalEvent (ι × γ))) (w : σ) :
    let ran := (({} : Signal (ι × γ)).run (React.labelled react) events).run w
    let log : SignalLog (ι × γ) := ran.1.2
    log.map Prod.fst = events ∧
      log.handed.Pairwise (· < ·) ∧ (∀ id ∈ log.handed, id < log.handed.length) ∧
      (∀ before event answer after, log = before ++ (event, answer) :: after →
        SignalLog.Answers before event answer) ∧
      ran.1.1.subscribers.map (fun entry => (entry.1, entry.2.1)) = log.live ∧
      ran.1.1.size = log.live.length := by
  have hempty : SignalLog.Tracked [] ({} : Signal (ι × γ)) := ⟨rfl, rfl⟩
  obtain ⟨hevents, htracked, hanswers⟩ := hempty.run react events w
  rw [List.nil_append] at htracked
  refine ⟨hevents, ?_, ?_, hanswers, htracked.subscribers, ?_⟩
  · rw [htracked.handed]
    exact List.pairwise_lt_range
  · rw [htracked.handed, List.length_range]
    exact fun id => List.mem_range.1
  · rw [← htracked.subscribers, List.length_map]
    rfl

end Signal

end Concordance
