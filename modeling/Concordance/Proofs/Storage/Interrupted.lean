import Concordance.Proofs.Storage.Answers

/-!
Steps that stop.  On a file system whose steps may fail, a run of steps performs some of them and
stops in the next one, of which no more is left than a part of the bytes that it was to write.
-/

namespace Concordance

namespace FileTree

/-- What a step leaves behind that stops: all as it was, or a part of the bytes written. -/
inductive Stopped (t : FileTree) : FileStep → FileTree → Prop
  | untouched (step : FileStep) : Stopped t step t
  | partly {path : String} {bytes written : Bytes} {t' : FileTree} : written <+: bytes →
      t.perform (.append path written) = .ok t' → Stopped t (.append path bytes) t'

/-- What steps leave behind: some have been performed, and the next one, if any, has stopped. -/
inductive Left (t : FileTree) (done : List FileStep) : List FileStep → FileTree → Prop
  | complete {t' : FileTree} : t.performAll done = .ok t' → Left t done [] t'
  | stopped {t₁ t' : FileTree} {step : FileStep} (rest : List FileStep) :
      t.performAll done = .ok t₁ → t₁.Stopped step t' → Left t done (step :: rest) t'

theorem Left.cons {t t₁ t' : FileTree} {step : FileStep} {done rest : List FileStep}
    (hs : t.perform step = .ok t₁) (h : Left t₁ done rest t') : Left t (step :: done) rest t' := by
  cases h with
  | complete h => exact .complete (performAll_cons_eq_ok.2 ⟨_, hs, h⟩)
  | stopped rest h hstop => exact .stopped rest (performAll_cons_eq_ok.2 ⟨_, hs, h⟩) hstop

theorem Left.append {t t₁ t' : FileTree} {steps done rest : List FileStep}
    (hs : t.performAll steps = .ok t₁) (h : Left t₁ done rest t') :
    Left t (steps ++ done) rest t' := by
  induction steps generalizing t with
  | nil =>
    obtain rfl := performAll_nil_eq_ok.1 hs
    exact h
  | cons step steps ih =>
    obtain ⟨t₂, hstep, hsteps⟩ := performAll_cons_eq_ok.1 hs
    exact (ih hsteps).cons hstep

theorem Left.more {t t' : FileTree} {done rest : List FileStep} (h : Left t done rest t')
    (hr : rest ≠ []) (more : List FileStep) : Left t done (rest ++ more) t' := by
  cases h with
  | complete h => exact absurd rfl hr
  | stopped rest h hstop => exact .stopped (rest ++ more) h hstop

end FileTree

/-- A file system over a tree whose steps may fail. A write that fails leaves a part of its bytes,
and any other step that fails leaves nothing. -/
structure Files.Fallible {σ : Type} (files : Files (StateM σ)) (tree : σ → FileTree) : Prop where
  performed : ∀ step s s', (files.perform step).run s = (.ok (), s') →
    (tree s).perform step = .ok (tree s')
  stopped : ∀ step s s' fault, (files.perform step).run s = (.error fault, s') →
    (tree s).Stopped step (tree s')

theorem FileTree.files_fallible : FileTree.files.Fallible id where
  performed step t t' h := by
    rw [run_perform] at h
    split at h
    next hs =>
      cases h
      exact hs
    · cases h
  stopped step t t' fault h := by
    rw [run_perform] at h
    split at h
    · cases h
    · cases h
      exact .untouched step

namespace Files.Fallible

variable {σ : Type} {files : Files (StateM σ)} {tree : σ → FileTree} (hf : files.Fallible tree)
include hf

theorem left_perform (step : FileStep) (s : σ) :
    let ran := (files.perform step).run s
    ∃ done rest, [step] = done ++ rest ∧ (tree s).Left done rest (tree ran.2) ∧
      (ran.1 = .ok () ↔ rest = []) := by
  rcases hp : (files.perform step).run s with ⟨outcome, s'⟩
  cases outcome with
  | ok done =>
    have hs := FileTree.performAll_cons_eq_ok.2
      ⟨_, hf.performed step s s' hp, FileTree.performAll_nil_eq_ok.2 rfl⟩
    exact ⟨[step], [], rfl, .complete hs, by simp⟩
  | error fault =>
    exact ⟨[], [step], rfl, .stopped [] rfl (hf.stopped step s s' fault hp), by simp⟩

theorem left_performAll (steps : List FileStep) (s : σ) :
    let ran := (files.performAll steps).run s
    ∃ done rest, steps = done ++ rest ∧ (tree s).Left done rest (tree ran.2) ∧
      (ran.1 = .ok () ↔ rest = []) := by
  induction steps generalizing s with
  | nil => exact ⟨[], [], rfl, .complete rfl, by simp [Files.performAll, pure, StateT.pure, StateT.run]⟩
  | cons step steps ih =>
    rcases hp : (files.perform step).run s with ⟨outcome, s'⟩
    rw [Files.performAll, StateT.run_bind, hp]
    cases outcome with
    | ok done =>
      obtain ⟨done, rest, rfl, hl, hr⟩ := ih s'
      exact ⟨step :: done, rest, rfl, hl.cons (hf.performed step s s' hp), hr⟩
    | error fault =>
      refine ⟨[], step :: steps, rfl, .stopped steps rfl (hf.stopped step s s' fault hp), ?_⟩
      show (Except.error fault : Except FileFault Unit) = .ok () ↔ _
      simp

theorem left_save (d : Directory) {key : String} (hk : Directory.isKey key = true) (bytes : Bytes)
    (s : σ) :
    let saved := (d.save files key bytes).run s
    ∃ done rest, d.saveSteps key bytes = done ++ rest ∧ (tree s).Left done rest (tree saved.2) ∧
      (saved.1 = .ok () ↔ rest = []) := by
  obtain ⟨done, rest, hs, hl, hr⟩ := hf.left_performAll (d.writeSteps key bytes) s
  rw [Directory.run_save_eq files hk, Directory.saveSteps]
  rcases hw : (files.performAll (d.writeSteps key bytes)).run s with ⟨fault | written, s₁⟩
  · rw [hw] at hl hr
    have hne : rest ≠ [] := fun he => by simp [he] at hr
    exact ⟨done, _, by rw [hs, List.append_assoc], hl.more hne _, by simp⟩
  rw [hw] at hl hr
  obtain rfl := hr.1 rfl
  have hperformed : (tree s).performAll done = .ok (tree s₁) := by
    cases hl
    assumption
  obtain ⟨done', rest, hs', hl', hr'⟩ :=
    hf.left_perform (.rename (d.temporary key) (d.join key)) s₁
  refine ⟨done ++ done', rest, by rw [hs, hs', List.append_nil, List.append_assoc], ?_⟩
  dsimp only
  rcases hp : (files.perform (.rename (d.temporary key) (d.join key))).run s₁
    with ⟨fault | renamed, s₂⟩
  · rw [hp] at hl' hr'
    exact ⟨hl'.append hperformed, by simpa using hr'⟩
  · rw [hp] at hl' hr'
    exact ⟨hl'.append hperformed, by simpa using hr'⟩

end Files.Fallible

end Concordance
