import Concordance.Engine.AutoSave
import Concordance.Engine.Basic
import Concordance.Proofs.Corpus.Notice
import Concordance.Storage.Memory

/-!
Saving on schedule.  A saver among other subscribers attempts to save at every so many additions
that are accepted, whatever the others do and whether or not its attempts succeed.  What it writes
is the corpus as it is right after the addition.
-/

namespace Concordance

variable {β γ σ : Type}

structure Attempt where
  key : String
  bytes : Bytes
  outcome : Result Unit

def Storage.traced {m : Type → Type} [Monad m] (storage : Storage m) :
    Storage (StateT (List Attempt) m) :=
  { storage.lift StateT.lift with
    save := fun key bytes => do
      let outcome ← StateT.lift (storage.save key bytes)
      modify (· ++ [⟨key, bytes, outcome⟩])
      return outcome }

def Attempt.written (attempt : Attempt) : String × Bytes := (attempt.key, attempt.bytes)

/-- What is stored after attempts: the bytes of the last one that succeeded, or what was there
before. -/
def Attempt.kept (attempts : List Attempt) (before : Option Bytes) : Option Bytes :=
  ((attempts.filter (·.outcome.isOk)).getLast?.map Attempt.bytes).or before

/-- A store in which a save that succeeds puts bytes under the key, and one that fails leaves there
what was there. -/
structure Storage.Keeps (storage : Storage (StateM σ)) (key : String) (stored : σ → Option Bytes) :
    Prop where
  saved : ∀ bytes s, ((storage.save key bytes).run s).1 = .ok () →
    stored ((storage.save key bytes).run s).2 = some bytes
  failed : ∀ bytes s fault, ((storage.save key bytes).run s).1 = .error fault →
    stored ((storage.save key bytes).run s).2 = stored s

/-- The items at the places that `n` divides, the first place being one. -/
def everyNth {α : Type} (n : Nat) (items : List α) : List α :=
  ((items.zipIdx 1).filter fun numbered => n ∣ numbered.2).map Prod.fst

theorem everyNth_concat {α : Type} (n : Nat) (items : List α) (item : α) :
    everyNth n (items ++ [item]) =
      everyNth n items ++ if n ∣ items.length + 1 then [item] else [] := by
  rw [everyNth, List.zipIdx_append, List.filter_append, List.map_append, Nat.add_comm 1]
  by_cases h : n ∣ items.length + 1 <;> simp [h, everyNth]

theorem Attempt.kept_append (attempts more : List Attempt) (before : Option Bytes) :
    kept (attempts ++ more) before = kept more (kept attempts before) := by
  rw [kept, List.filter_append, List.getLast?_append, Option.map_or, Option.or_assoc]
  rfl

namespace AutoSave

def among {m : Type → Type} [Monad m] (storage : Storage m) (other : React m γ) :
    React m (AutoSave ⊕ γ)
  | .inl saver, change => do
    let (saver, outcome) ← saver.react storage change
    return (.inl saver, outcome)
  | .inr subscriber, change => do
    let (subscriber, outcome) ← other subscriber change
    return (.inr subscriber, outcome)

def after (key : String) (config : Config) (n count : Nat) : AutoSave where
  key := key
  config := .ofConfig config
  interval := n
  pending := count % n

def bytesAt (config : Config) (change : Change) : Bytes :=
  (Snapshot.mk change.index (.ofConfig config) (some change.history)).encode

theorem count_of_dvd {n count : Nat} (h : n ∣ count + 1) :
    ¬ count % n + 1 < n ∧ (count + 1) % n = 0 := by
  rw [Nat.dvd_iff_mod_eq_zero] at h
  refine ⟨fun hlt => ?_, h⟩
  rw [← Nat.mod_add_mod, Nat.mod_eq_of_lt hlt] at h
  cases h

theorem count_of_not_dvd {n count : Nat} (hn : 1 ≤ n) (h : ¬ n ∣ count + 1) :
    count % n + 1 < n ∧ (count + 1) % n = count % n + 1 := by
  have hlt : count % n < n := Nat.mod_lt _ hn
  rw [Nat.dvd_iff_mod_eq_zero, ← Nat.mod_add_mod] at h
  have hne : count % n + 1 ≠ n := fun he => h (by rw [he, Nat.mod_self])
  have hnext : count % n + 1 < n := by omega
  exact ⟨hnext, by rw [← Nat.mod_add_mod, Nat.mod_eq_of_lt hnext]⟩

def tracedAmong (storage : Storage (StateM σ)) (other : React (StateM σ) γ) :
    React (StateT (List Attempt) (StateM σ)) (AutoSave ⊕ γ) :=
  among storage.traced fun subscriber change => StateT.lift (other subscriber change)

theorem erases_tracedAmong (storage : Storage (StateM σ)) (other : React (StateM σ) γ)
    (subscriber : AutoSave ⊕ γ) (change : Change) :
    Erases (tracedAmong storage other subscriber change)
      (among storage other subscriber change) := by
  cases subscriber with
  | inr subscriber => exact (Erases.lift _).bind fun _ => .pure _
  | inl saver =>
    refine Erases.bind ?_ fun _ => .pure _
    unfold react
    split
    · exact .pure _
    · exact Erases.bind (fun _ _ => rfl) fun _ => .pure _

def Others (subscribers : List (Nat × (AutoSave ⊕ γ))) : Prop :=
  ∀ entry ∈ subscribers, ∃ other, entry.2 = .inr other

inductive Attached (number : Nat) (saver : AutoSave) : List (Nat × (AutoSave ⊕ γ)) → Prop
  | here {rest : List (Nat × (AutoSave ⊕ γ))} :
      Others rest → Attached number saver ((number, .inl saver) :: rest)
  | there {rest : List (Nat × (AutoSave ⊕ γ))} (earlier : Nat) (other : γ) :
      Attached number saver rest → Attached number saver ((earlier, .inr other) :: rest)

section Subscribers

variable {number : Nat} {saver : AutoSave} {subscribers : List (Nat × (AutoSave ⊕ γ))}

theorem Others.filter (h : Others subscribers) (p : Nat × (AutoSave ⊕ γ) → Bool) :
    Others (subscribers.filter p) :=
  fun entry he => h entry (List.mem_filter.1 he).1

theorem Others.concat (h : Others subscribers) (later : Nat) (other : γ) :
    Others (subscribers ++ [(later, .inr other)]) := by
  intro entry he
  rcases List.mem_append.1 he with he | he
  · exact h entry he
  · rw [List.mem_singleton.1 he]
    exact ⟨other, rfl⟩

theorem Others.attached (h : Others subscribers) (number : Nat) (saver : AutoSave) :
    Attached number saver (subscribers ++ [(number, .inl saver)]) := by
  induction subscribers with
  | nil => exact .here (by simp [Others])
  | cons entry rest ih =>
    obtain ⟨hentry, hrest⟩ := List.forall_mem_cons.1 h
    obtain ⟨earlier, subscriber⟩ := entry
    obtain ⟨other, rfl⟩ := hentry
    exact .there earlier other (ih hrest)

theorem Attached.concat (h : Attached number saver subscribers) (later : Nat) (other : γ) :
    Attached number saver (subscribers ++ [(later, .inr other)]) := by
  induction h with
  | here h => exact .here (h.concat later other)
  | there earlier first _ ih => exact .there earlier first ih

theorem Attached.filter (h : Attached number saver subscribers) {id : Nat} (hid : id ≠ number) :
    Attached number saver (subscribers.filter fun entry => entry.1 != id) := by
  induction h with
  | here h =>
    rw [List.filter_cons_of_pos (by simpa using hid.symm)]
    exact .here (h.filter _)
  | there earlier other _ ih =>
    rw [List.filter_cons]
    split
    · exact .there earlier other ih
    · exact ih

end Subscribers

/-- Attempts to save the corpus at each of some changes, and what is stored after them. -/
structure Writes (key : String) (config : Config) (stored : σ → Option Bytes) (start : σ)
    (changes : List Change) (attempts : List Attempt) (s : σ) : Prop where
  written : attempts.map Attempt.written = changes.map fun change => (key, bytesAt config change)
  stored : stored s = Attempt.kept attempts (stored start)

section Tell

variable {key : String} {config : Config} {stored : σ → Option Bytes} {start s s' : σ}

theorem Writes.nil (h : stored s = stored start) : Writes key config stored start [] [] s :=
  ⟨rfl, h⟩

theorem Writes.append {changes more : List Change} {attempts later : List Attempt}
    (h : Writes key config stored start changes attempts s)
    (h' : Writes key config stored s more later s') :
    Writes key config stored start (changes ++ more) (attempts ++ later) s' := by
  refine ⟨?_, ?_⟩
  · rw [List.map_append, List.map_append, h.written, h'.written]
  · rw [h'.stored, h.stored, Attempt.kept_append]

variable {storage : Storage (StateM σ)} (hs : storage.Keeps key stored)

include hs in
theorem Writes.save (config : Config) (change : Change) (s : σ) :
    let bytes := bytesAt config change
    let saved := (storage.save key bytes).run s
    Writes key config stored s [change] [⟨key, bytes, saved.1⟩] saved.2 := by
  intro bytes saved
  refine ⟨rfl, ?_⟩
  cases ho : saved.1 with
  | ok done => simpa [Attempt.kept, Except.isOk, Except.toBool] using hs.saved bytes s ho
  | error fault =>
    simpa [Attempt.kept, Except.isOk, Except.toBool] using hs.failed bytes s fault ho

variable (other : React (StateM σ) γ) (change : Change) (log : List Attempt)

include hs in
theorem run_saver {n : Nat} (hn : 1 ≤ n) (count : Nat) (s : σ) :
    let told := ((tracedAmong storage other (.inl (after key config n count)) change).run log).run s
    told.1.1.1 = .inl (after key config n (count + 1)) ∧
      ∃ attempts : List Attempt, told.1.2 = log ++ attempts ∧
        Writes key config stored s (if n ∣ count + 1 then [change] else []) attempts told.2 := by
  intro told
  by_cases h : n ∣ count + 1
  · obtain ⟨hlt, hmod⟩ := count_of_dvd h
    have hreact : (after key config n count).react storage.traced change = do
        let outcome ← storage.traced.save key (bytesAt config change)
        return (after key config n (count + 1), outcome) := by
      rw [react, if_neg (by exact hlt), after, after, hmod]
      rfl
    simp only [told, tracedAmong, among, hreact, if_pos h]
    exact ⟨rfl, _, rfl, .save hs config change s⟩
  · obtain ⟨hlt, hmod⟩ := count_of_not_dvd hn h
    have hreact : (after key config n count).react storage.traced change =
        pure (after key config n (count + 1), .ok ()) := by
      rw [react, if_pos (by exact hlt), after, after, hmod]
    simp only [told, tracedAmong, among, hreact, if_neg h]
    exact ⟨rfl, [], (List.append_nil log).symm, .nil rfl⟩

variable (ho : ∀ subscriber change s, stored ((other subscriber change).run s).2 = stored s)

include ho in
theorem Others.run_tell {subscribers : List (Nat × (AutoSave ⊕ γ))} (h : Others subscribers)
    (s : σ) :
    let told := ((Signal.tell (fun subscriber => tracedAmong storage other subscriber change)
      subscribers).run log).run s
    Others told.1.1.1 ∧ told.1.2 = log ∧ stored told.2 = stored s := by
  induction subscribers generalizing s with
  | nil => exact ⟨h, rfl, rfl⟩
  | cons entry rest ih =>
    obtain ⟨hentry, hrest⟩ := List.forall_mem_cons.1 h
    obtain ⟨number, subscriber⟩ := entry
    obtain ⟨subscriber, rfl⟩ := hentry
    obtain ⟨hothers, hlog, hstored⟩ := ih hrest ((other subscriber change).run s).2
    rw [Signal.run_tell_trace_cons]
    exact ⟨List.forall_mem_cons.2 ⟨⟨_, rfl⟩, hothers⟩, hlog, hstored.trans (ho subscriber change s)⟩

include hs ho in
/-- Wherever the saver stands among its subscribers, a corpus tells it of an addition once. -/
theorem Attached.run_tell {n count number : Nat} (hn : 1 ≤ n)
    {subscribers : List (Nat × (AutoSave ⊕ γ))}
    (h : Attached number (after key config n count) subscribers) (s : σ) :
    let told := ((Signal.tell (fun subscriber => tracedAmong storage other subscriber change)
      subscribers).run log).run s
    Attached number (after key config n (count + 1)) told.1.1.1 ∧
      ∃ attempts : List Attempt, told.1.2 = log ++ attempts ∧
        Writes key config stored s (if n ∣ count + 1 then [change] else []) attempts told.2 := by
  generalize hsaver : after key config n count = saver at h
  induction h generalizing s with
  | here h =>
    subst hsaver
    obtain ⟨hnext, attempts, hlog, hwrites⟩ := run_saver hs other change log hn count s
    obtain ⟨hothers, hlater, hstored⟩ := h.run_tell other change _ ho _
    rw [Signal.run_tell_trace_cons]
    refine ⟨?_, attempts, hlater.trans hlog, hwrites.written, hstored.trans hwrites.stored⟩
    dsimp only
    rw [hnext]
    exact .here hothers
  | there earlier first _ ih =>
    obtain ⟨hnext, attempts, hlog, hwrites⟩ := ih ((other first change).run s).2
    rw [Signal.run_tell_trace_cons]
    refine ⟨.there earlier _ hnext, attempts, hlog, hwrites.written, ?_⟩
    rw [← ho first change s]
    exact hwrites.stored

end Tell

/-- Where a saver at an interval of `n` and its corpus are once documents have been added. -/
structure Follows (key : String) (config : Config) (n number : Nat) (stored : σ → Option Bytes)
    (c : Corpus (AutoSave ⊕ γ)) (start : σ) (docs : List Document)
    (ran : (Corpus (AutoSave ⊕ γ) × List Attempt) × σ) : Prop where
  index : ran.1.1.index = (c.recordAll docs).index
  history : ran.1.1.history = (c.recordAll docs).history
  attached : Attached number (after key config n (c.changes docs).length)
    ran.1.1.signal.subscribers
  writes : Writes key config stored start (everyNth n (c.changes docs)) ran.1.2 ran.2

section Run

variable {key : String} {config : Config} {stored : σ → Option Bytes} {start : σ}
  {storage : Storage (StateM σ)} (hs : storage.Keeps key stored) {other : React (StateM σ) γ}
  (ho : ∀ subscriber change s, stored ((other subscriber change).run s).2 = stored s)
  {n number : Nat} (hn : 1 ≤ n) {c : Corpus (AutoSave ⊕ γ)} {docs : List Document}
  {ran : (Corpus (AutoSave ⊕ γ) × List Attempt) × σ}

theorem Follows.changes_refused (h : Follows key config n number stored c start docs ran)
    {d : Document} (hd : ran.1.1.index.hasDocument d.id = true) :
    c.recordAll (docs ++ [d]) = c.recordAll docs ∧ c.changes (docs ++ [d]) = c.changes docs := by
  rw [h.index] at hd
  rw [Corpus.recordAll_concat, Corpus.changes_append, Corpus.changes, Corpus.record_eq, if_pos hd]
  exact ⟨rfl, List.append_nil _⟩

theorem Follows.changes_accepted (h : Follows key config n number stored c start docs ran)
    {d : Document} {grown : Corpus (AutoSave ⊕ γ)}
    (hr : ran.1.1.record d.id d.tokens d.metadata = .ok grown) :
    grown.index = (c.recordAll (docs ++ [d])).index ∧
      grown.history = (c.recordAll (docs ++ [d])).history ∧
      c.changes (docs ++ [d]) = c.changes docs ++ [⟨d.id, grown.index, grown.history⟩] := by
  obtain ⟨hd, rfl⟩ := Corpus.record_eq_ok hr
  rw [h.index] at hd
  rw [Corpus.recordAll_concat, Corpus.changes_append, Corpus.changes, Corpus.record_eq, if_neg hd,
    h.index, h.history]
  exact ⟨rfl, rfl, rfl⟩

theorem run_handle_refused {d : Document} (hd : ran.1.1.index.hasDocument d.id = true) :
    ((ran.1.1.handle (tracedAmong storage other) (.add d)).run ran.1.2).run ran.2 = ran := by
  rw [Corpus.handle, Corpus.add, Corpus.record_eq, if_pos hd]
  rfl

include hs ho hn in
theorem Follows.accepted (h : Follows key config n number stored c start docs ran) {d : Document}
    (hd : ran.1.1.index.hasDocument d.id = false) :
    let next := ((ran.1.1.handle (tracedAmong storage other) (.add d)).run ran.1.2).run ran.2
    let change : Change := ⟨d.id, next.1.1.index, next.1.1.history⟩
    Follows key config n number stored c start (docs ++ [d]) next ∧ next.1.1.Includes d ∧
      c.changes (docs ++ [d]) = c.changes docs ++ [change] ∧
      ∃ more : List Attempt, next.1.2 = ran.1.2 ++ more ∧ more.map Attempt.written =
        if n ∣ (c.changes docs).length + 1 then [(key, bytesAt config change)] else [] := by
  obtain ⟨grown, hr⟩ : ∃ grown, ran.1.1.record d.id d.tokens d.metadata = .ok grown := by
    rw [Corpus.record_eq, if_neg (by simp [hd])]
    exact ⟨_, rfl⟩
  obtain ⟨hindex, hhistory, hchanges⟩ := h.changes_accepted hr
  obtain ⟨hattached, more, hlog, hwrites⟩ :=
    h.attached.run_tell hs other ⟨d.id, grown.index, grown.history⟩ ran.1.2 ho hn ran.2
  intro next change
  have hnext : next = _ := Corpus.run_handle_add (tracedAmong storage other) hr ran.1.2 ran.2
  have hchange : change = ⟨d.id, grown.index, grown.history⟩ := by
    simp only [change, hnext]
  have hincludes : next.1.1.Includes d := by
    rw [hnext]
    exact (Corpus.includes_of_record hr).signal _
  have hmore : next.1.2 = ran.1.2 ++ more := by
    rw [hnext]
    exact hlog
  have hattempts : Writes key config stored start (everyNth n (c.changes (docs ++ [d])))
      next.1.2 next.2 := by
    rw [hmore, hchanges, everyNth_concat, hnext]
    exact h.writes.append hwrites
  refine ⟨⟨?_, ?_, ?_, hattempts⟩, hincludes, by rw [hchange, hchanges], more, hmore, ?_⟩
  · rw [hnext]
    exact hindex
  · rw [hnext]
    exact hhistory
  · rw [hnext, hchanges, List.length_append]
    exact hattached
  · rw [hwrites.written, hchange]
    split <;> rfl

/-- Others than a saver may come and go, and documents be added. -/
def Spares (number : Nat) : CorpusEvent (AutoSave ⊕ γ) → Prop
  | .add _ => True
  | .subscribe subscriber => ∃ other, subscriber = .inr other
  | .unsubscribe id => id ≠ number

include hs ho hn in
theorem Follows.handle (h : Follows key config n number stored c start docs ran)
    {event : CorpusEvent (AutoSave ⊕ γ)} (he : Spares number event) :
    Follows key config n number stored c start (docs ++ event.document?.toList)
      (((ran.1.1.handle (tracedAmong storage other) event).run ran.1.2).run ran.2) := by
  cases event with
  | add d =>
    show Follows key config n number stored c start (docs ++ [d]) _
    cases hd : ran.1.1.index.hasDocument d.id with
    | false => exact (h.accepted hs ho hn hd).1
    | true =>
      obtain ⟨hrecord, hchanges⟩ := h.changes_refused hd
      rw [run_handle_refused hd]
      refine ⟨by rw [hrecord, h.index], by rw [hrecord, h.history], ?_, ?_⟩
      · rw [hchanges]
        exact h.attached
      · rw [hchanges]
        exact h.writes
  | subscribe subscriber =>
    obtain ⟨subscriber, rfl⟩ := he
    show Follows key config n number stored c start (docs ++ []) _
    rw [List.append_nil]
    exact ⟨h.index, h.history, h.attached.concat _ subscriber, h.writes⟩
  | unsubscribe id =>
    show Follows key config n number stored c start (docs ++ []) _
    rw [List.append_nil]
    exact ⟨h.index, h.history, h.attached.filter he, h.writes⟩

include hs ho hn in
theorem Follows.run (h : Follows key config n number stored c start docs ran)
    {events : List (CorpusEvent (AutoSave ⊕ γ))} (he : ∀ event ∈ events, Spares number event) :
    Follows key config n number stored c start (docs ++ events.filterMap CorpusEvent.document?)
      (((ran.1.1.run (tracedAmong storage other) events).run ran.1.2).run ran.2) := by
  induction events generalizing docs ran with
  | nil =>
    rw [List.filterMap_nil, List.append_nil]
    exact h
  | cons event rest ih =>
    obtain ⟨hevent, hrest⟩ := List.forall_mem_cons.1 he
    have hlater := ih (h.handle hs ho hn hevent) hrest
    rw [List.append_assoc] at hlater
    cases event <;> exact hlater

end Run

theorem save_eq_bytesAt {storage : Storage (StateM σ)} {key : String} {config : Config}
    {e : Engine β} {c : Corpus β} (he : e.documents = .corpus c) (hc : e.config = config)
    (id : String) :
    e.save storage key = storage.save key (bytesAt config ⟨id, c.index, c.history⟩) := by
  subst hc
  rw [Engine.save, Engine.snapshot, Engine.index, Engine.corpus?, he]
  rfl

def runTraced (storage : Storage (StateM σ)) (other : React (StateM σ) γ)
    (c : Corpus (AutoSave ⊕ γ)) (events : List (CorpusEvent (AutoSave ⊕ γ))) (start : σ) :
    (Corpus (AutoSave ⊕ γ) × List Attempt) × σ :=
  ((c.run (tracedAmong storage other) events).run []).run start

theorem runTraced_concat (storage : Storage (StateM σ)) (other : React (StateM σ) γ)
    (c : Corpus (AutoSave ⊕ γ)) (events : List (CorpusEvent (AutoSave ⊕ γ)))
    (event : CorpusEvent (AutoSave ⊕ γ)) (start : σ) :
    let ran := runTraced storage other c events start
    runTraced storage other c (events ++ [event]) start =
      ((ran.1.1.handle (tracedAmong storage other) event).run ran.1.2).run ran.2 := by
  show ((c.run (tracedAmong storage other) (events ++ [event])).run []).run start = _
  rw [Corpus.run_concat]
  rfl

/-- A saver at an interval of `n` attempts to save at every `n`-th addition that is accepted,
counted from when it was attached, and writes what an engine over the corpus as it then is saves.
What is stored is what the last attempt that succeeded wrote. -/
theorem run_saves_on_schedule {storage : Storage (StateM σ)} {key : String}
    {stored : σ → Option Bytes} (hs : storage.Keeps key stored) {other : React (StateM σ) γ}
    (ho : ∀ subscriber change s, stored ((other subscriber change).run s).2 = stored s)
    (config : Config) {n : Nat} (hn : 1 ≤ n) {c : Corpus (AutoSave ⊕ γ)}
    (hc : Others c.signal.subscribers) (start : σ) :
    ∃ saver : AutoSave, ({ key, config := .ofConfig config } : AutoSave).every n = .ok saver ∧
      let attached := c.subscribe (.inl saver)
      ∀ events : List (CorpusEvent (AutoSave ⊕ γ)), (∀ event ∈ events, Spares attached.2 event) →
        let ran := runTraced storage other attached.1 events start
        let docs := events.filterMap CorpusEvent.document?
        (attached.1.run (among storage other) events).run start = (ran.1.1, ran.2) ∧
          ran.1.2.map Attempt.written = (everyNth n (c.changes docs)).map
            (fun change => (key, bytesAt config change)) ∧
          stored ran.2 = Attempt.kept ran.1.2 (stored start) ∧
          ∀ d : Document,
            let next := runTraced storage other attached.1 (events ++ [.add d]) start
            let change : Change := ⟨d.id, next.1.1.index, next.1.1.history⟩
            (ran.1.1.index.hasDocument d.id = true →
              next = ran ∧ c.changes (docs ++ [d]) = c.changes docs) ∧
            (ran.1.1.index.hasDocument d.id = false →
              next.1.1.Includes d ∧ c.changes (docs ++ [d]) = c.changes docs ++ [change] ∧
                (∀ e : Engine (AutoSave ⊕ γ), e.documents = .corpus next.1.1 → e.config = config →
                  e.save storage key = storage.save key (bytesAt config change)) ∧
                ∃ more : List Attempt, next.1.2 = ran.1.2 ++ more ∧ more.map Attempt.written =
                  if n ∣ (c.changes docs).length + 1 then [(key, bytesAt config change)]
                  else []) := by
  have hevery : ({ key, config := .ofConfig config } : AutoSave).every n =
      .ok (after key config n 0) := by
    have hz : (n == 0) = false := by simp [Nat.ne_of_gt hn]
    rw [every, hz, after, Nat.zero_mod]
    rfl
  refine ⟨after key config n 0, hevery, ?_⟩
  intro attached events he ran docs
  have hstart : Follows key config n attached.2 stored c start [] ((attached.1, []), start) :=
    ⟨rfl, rfl, hc.attached _ _, .nil rfl⟩
  have h : Follows key config n attached.2 stored c start docs ran := hstart.run hs ho hn he
  refine ⟨?_, h.writes.written, h.writes.stored, fun d => ?_⟩
  · exact (Erases.run (erases_tracedAmong storage other) attached.1 events [] start).symm
  · rw [runTraced_concat]
    refine ⟨fun hd => ⟨run_handle_refused hd, (h.changes_refused hd).2⟩, fun hd => ?_⟩
    obtain ⟨-, hincludes, hchanges, hmore⟩ := h.accepted hs ho hn hd
    exact ⟨hincludes, hchanges, fun e he hcfg => save_eq_bytesAt he hcfg d.id, hmore⟩

def stubborn : Storage (StateM Memory) :=
  { Memory.storage with
    save := fun key bytes => modifyGet fun s =>
      if s.writes = 0 then (.error (.io "disk full"), { s with writes := 1 })
      else (.ok (), s.save key bytes) }

theorem run_stubborn (key : String) (bytes : Bytes) (s : Memory) :
    (stubborn.save key bytes).run s =
      if s.writes = 0 then (.error (.io "disk full"), { s with writes := 1 })
      else (.ok (), s.save key bytes) := rfl

theorem stubborn_keeps (key : String) : stubborn.Keeps key fun s => s.entries[key]? where
  saved bytes s h := by
    rw [run_stubborn] at h ⊢
    split at h
    · cases h
    next hw =>
      rw [if_neg hw]
      exact Std.ExtTreeMap.getElem?_insert_self
  failed bytes s fault h := by
    rw [run_stubborn] at h ⊢
    split at h
    next hw => rw [if_pos hw]
    · cases h

theorem run_saves_on_schedule_stubborn :
    let other : React (StateM Memory) Unit := fun _ _ => pure ((), .error (.subscriber "boom"))
    let c : Corpus (AutoSave ⊕ Unit) := { signal := ⟨1, [(0, .inr ())]⟩ }
    let events : List (CorpusEvent (AutoSave ⊕ Unit)) := [.add ⟨"1", ["fox"], ∅⟩,
      .subscribe (.inr ()), .add ⟨"1", ["dog"], ∅⟩, .add ⟨"2", ["hen"], ∅⟩, .unsubscribe 0,
      .add ⟨"3", ["owl"], ∅⟩, .add ⟨"4", ["red", "fox"], ∅⟩]
    let docs := events.filterMap CorpusEvent.document?
    stubborn.Keeps "k" (fun s => s.entries["k"]?) ∧ Others c.signal.subscribers ∧
      (everyNth 2 (c.changes docs)).map Change.id = ["2", "4"] ∧
      ∃ saver : AutoSave, ({ key := "k", config := .ofConfig {} } : AutoSave).every 2 = .ok saver ∧
        let ran := runTraced stubborn other (c.subscribe (.inl saver)).1 events {}
        ran.1.2.map Attempt.written =
            (everyNth 2 (c.changes docs)).map (fun change => ("k", bytesAt {} change)) ∧
          ran.2.entries["k"]? = Attempt.kept ran.1.2 none := by
  intro other c events docs
  have hc : Others c.signal.subscribers := by simp [Others, c]
  have ho : ∀ subscriber change s,
      ((other subscriber change).run s).2.entries["k"]? = s.entries["k"]? := fun _ _ _ => rfl
  obtain ⟨saver, hsaver, h⟩ :=
    run_saves_on_schedule (stubborn_keeps "k") ho {} (n := 2) (by decide) hc {}
  obtain ⟨-, hattempts, hstored, -⟩ := h events
    (by simp [events, Spares, Corpus.subscribe, Signal.subscribe, c])
  have hdue : ((everyNth 2 (c.changes docs)).map Change.id == ["2", "4"]) = true := by
    decide +kernel
  exact ⟨stubborn_keeps "k", hc, by simpa using hdue, saver, hsaver, hattempts, hstored⟩

end AutoSave

end Concordance
