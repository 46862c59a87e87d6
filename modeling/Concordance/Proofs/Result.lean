import Concordance.Error
import Mathlib.Data.List.Basic

namespace Concordance

section Places

variable {α : Type} {P : List α → α → Prop} {items : List α} {item : α}

theorem exists_split_cons :
    (∃ before other after, item :: items = before ++ other :: after ∧ P before other) ↔
      P [] item ∨ ∃ before other after, items = before ++ other :: after ∧ P (item :: before) other := by
  constructor
  · rintro ⟨before, other, after, hs, hp⟩
    cases before with
    | nil =>
      cases hs
      exact .inl hp
    | cons first before =>
      cases hs
      exact .inr ⟨before, other, after, rfl, hp⟩
  · rintro (hp | ⟨before, other, after, rfl, hp⟩)
    · exact ⟨[], item, items, rfl, hp⟩
    · exact ⟨item :: before, other, after, rfl, hp⟩

theorem exists_split_concat :
    (∃ before other after, items ++ [item] = before ++ other :: after ∧ P before other) ↔
      (∃ before other after, items = before ++ other :: after ∧ P before other) ∨ P items item := by
  constructor
  · rintro ⟨before, other, after, hs, hp⟩
    rcases List.eq_nil_or_concat after with rfl | ⟨after, last, rfl⟩
    · obtain ⟨rfl, rfl⟩ : items = before ∧ item = other := by simpa using hs
      exact .inr hp
    · rw [List.concat_eq_append, ← List.cons_append, ← List.append_assoc] at hs
      exact .inl ⟨before, other, after, (List.append_inj' hs rfl).1, hp⟩
  · rintro (⟨before, other, after, rfl, hp⟩ | hp)
    · exact ⟨before, other, after ++ [item], by simp, hp⟩
    · exact ⟨items, item, [], rfl, hp⟩

end Places

theorem Result.exists_of_any {α : Type} {result : Result α} {p : α → Bool}
    (h : result.toOption.any p = true) : ∃ a, result = .ok a ∧ p a = true := by
  cases result with
  | error fault => cases h
  | ok a => exact ⟨a, rfl, h⟩

theorem mapM_eq_ok {α β : Type} {f : α → Result β} {P : α → Prop} {g : α → β}
    (h : ∀ a b, f a = .ok b ↔ P a ∧ b = g a) {items : List α} {results : List β} :
    items.mapM f = .ok results ↔ (∀ a ∈ items, P a) ∧ results = items.map g := by
  induction items generalizing results with
  | nil => simp [pure, Except.pure, eq_comm]
  | cons a items ih =>
    rw [List.mapM_cons]
    constructor
    · intro hr
      obtain ⟨b, hb, hr⟩ := Result.bind_eq_ok.1 hr
      obtain ⟨rest, hrest, hr⟩ := Result.bind_eq_ok.1 hr
      cases hr
      obtain ⟨ha, rfl⟩ := (h a b).1 hb
      obtain ⟨hitems, rfl⟩ := ih.1 hrest
      exact ⟨by simpa using ⟨ha, hitems⟩, rfl⟩
    · rintro ⟨hp, rfl⟩
      rw [(h a _).2 ⟨hp a (by simp), rfl⟩, ih.2 ⟨fun b hb => hp b (by simp [hb]), rfl⟩]
      rfl

theorem mapM_eq_error {α β : Type} {f : α → Result β} {items : List α} {fault : Error} :
    items.mapM f = .error fault ↔ ∃ before a after, items = before ++ a :: after ∧
      (∀ b ∈ before, ∃ result, f b = .ok result) ∧ f a = .error fault := by
  induction items with
  | nil => simp [pure, Except.pure]
  | cons first rest ih =>
    rw [List.mapM_cons, exists_split_cons]
    simp only [List.forall_mem_cons, List.not_mem_nil, false_implies, implies_true, true_and]
    cases hf : f first with
    | error other => simp [bind, Except.bind]
    | ok result =>
      have hrest : (Except.ok result >>= fun r => rest.mapM f >>= fun rs => pure (r :: rs) :
          Result (List β)) = .error fault ↔ rest.mapM f = .error fault := by
        cases rest.mapM f <;> simp [bind, Except.bind, pure, Except.pure]
      rw [hrest, ih]
      simp

section Items

variable {α : Type} {items : List (Result α)}

theorem mapM_id_eq_ok {values : List α} : items.mapM id = .ok values ↔ items = values.map .ok := by
  induction items generalizing values with
  | nil => simp [pure, Except.pure, eq_comm]
  | cons item items ih =>
    rw [List.mapM_cons, Result.bind_eq_ok]
    simp only [id_eq, Result.bind_eq_ok, ih]
    constructor
    · rintro ⟨value, rfl, others, rfl, hv⟩
      cases hv
      rfl
    · intro h
      cases values with
      | nil => cases h
      | cons value others =>
        obtain ⟨hi, ho⟩ := List.cons.inj h
        exact ⟨value, hi, others, ho, rfl⟩

theorem mapM_id_eq_error {fault : Error} : items.mapM id = .error fault ↔
    ∃ (values : List α) (rest : List (Result α)),
      items = values.map .ok ++ .error fault :: rest := by
  have hok : ∀ before : List (Result α), (∀ item ∈ before, ∃ value, id item = .ok value) ↔
      ∃ values : List α, before = values.map .ok := by
    intro before
    induction before with
    | nil => simp
    | cons item before ih =>
      rw [List.forall_mem_cons, ih]
      constructor
      · rintro ⟨⟨value, rfl⟩, values, rfl⟩
        exact ⟨value :: values, rfl⟩
      · rintro ⟨values, h⟩
        cases values with
        | nil => cases h
        | cons value values =>
          obtain ⟨hi, hb⟩ := List.cons.inj h
          exact ⟨⟨value, hi⟩, values, hb⟩
  rw [mapM_eq_error]
  constructor
  · rintro ⟨before, item, rest, rfl, hb, hi⟩
    obtain ⟨values, rfl⟩ := (hok before).1 hb
    exact ⟨values, rest, by rw [← hi]; rfl⟩
  · rintro ⟨values, rest, rfl⟩
    exact ⟨_, _, rest, rfl, (hok _).2 ⟨values, rfl⟩, rfl⟩

end Items

end Concordance
