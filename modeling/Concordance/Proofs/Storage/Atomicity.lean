import Concordance.Proofs.Storage.Interrupted

/-!
What readers see of a save.  Until the temporary file is renamed they see what they saw before,
wherever the save stops, and from then on the new bytes.
-/

namespace Concordance

namespace FileTree

variable {t t' : FileTree} {d : Directory} {place key : String} {bytes : Bytes}

theorem performAll_fills {name : String} (ho : t.find d.path = .ok (place, .directory))
    (hn : PlainName name) {steps : List FileStep} (hs : ∀ step ∈ steps, step.Fills (d.join name))
    (h : t.performAll steps = .ok t') : AlikeBut place [name] t t' := by
  induction steps generalizing t with
  | nil =>
    obtain rfl := performAll_nil_eq_ok.1 h
    exact .refl place _ t
  | cons step steps ih =>
    obtain ⟨t₁, hstep, hrest⟩ := performAll_cons_eq_ok.1 h
    have h₁ := perform_fills ho hn (hs step (by simp)) hstep
    exact h₁.trans (ih (h₁.find ho) (fun step hm => hs step (by simp [hm])) hrest)

theorem Stopped.alikeBut {name : String} (ho : t.find d.path = .ok (place, .directory))
    (hn : PlainName name) {step : FileStep}
    (hs : step.Fills (d.join name) ∨ ∃ source target, step = .rename source target)
    (h : t.Stopped step t') : AlikeBut place [name] t t' := by
  cases h with
  | untouched => exact .refl place _ t
  | partly _ hp =>
    rcases hs with hs | ⟨_, _, he⟩
    · cases hs
      exact perform_fills ho hn (.append _) hp
    · cases he

theorem left_partly (ho : t.find d.path = .ok (place, .directory))
    (hk : Directory.isKey key = true) (hw : d.Writable t place key) {written : Bytes}
    (hp : written <+: bytes) :
    t.Left [.create (d.temporary key)] (.append (d.temporary key) bytes ::
      ((if d.sync then [.sync (d.temporary key)] else []) ++
        [.rename (d.temporary key) (d.join key)]))
      (t.put (child place (key ++ Directory.tempSuffix)) (.file written)) := by
  have hn := Directory.plainName_temporary (Directory.plainName_of_isKey hk)
  have hc := (perform_create ho hn).2 ⟨hw.temporary, hw.no_temporary, rfl⟩
  have ho₁ := (alikeBut_put hw.no_temporary []).find ho
  have ha : (t.put (child place (key ++ Directory.tempSuffix)) (.file [])).perform
      (.append (d.temporary key) written) =
        .ok (t.put (child place (key ++ Directory.tempSuffix)) (.file written)) :=
    (perform_append ho₁ hn).2 ⟨hw.temporary, [], under?_put .., put_put ..⟩
  exact .stopped _ (performAll_cons_eq_ok.2 ⟨_, hc, performAll_nil_eq_ok.2 rfl⟩) (.partly hp ha)

theorem Left.unfinished (ho : t.find d.path = .ok (place, .directory))
    (hk : Directory.isKey key = true) {done rest : List FileStep}
    (hs : d.saveSteps key bytes = done ++ rest) (hr : rest ≠ []) (h : t.Left done rest t') :
    AlikeBut place [key ++ Directory.tempSuffix] t t' := by
  have hn := Directory.plainName_temporary (Directory.plainName_of_isKey hk)
  -- The renaming is the last step of all and not done yet: what is done fills the temporary file,
  -- and what has stopped was to fill it, or was the renaming, which leaves nothing when it stops.
  obtain ⟨front, last, rfl⟩ := List.eq_nil_or_concat rest |>.resolve_left hr
  rw [Directory.saveSteps, List.concat_eq_append, ← List.append_assoc] at hs
  obtain ⟨hw, hl⟩ := List.append_inj' hs rfl
  have hfills : ∀ step ∈ done ++ front, step.Fills (d.join (key ++ Directory.tempSuffix)) :=
    fun step hm => Directory.fills_of_mem_writeSteps (hw ▸ hm)
  generalize hc : front.concat last = rest at h
  cases h with
  | complete => simp at hc
  | @stopped t₁ _ step more hp hstop =>
    have hdone := performAll_fills ho hn (fun step hm => hfills step (by simp [hm])) hp
    refine hdone.trans (hstop.alikeBut (hdone.find ho) hn ?_)
    have hm : step ∈ front ++ [last] := by simp [← List.concat_eq_append, hc]
    rcases List.mem_append.1 hm with hm | hm
    · exact .inl (hfills step (by simp [hm]))
    · rw [← hl] at hm
      exact .inr ⟨_, _, List.mem_singleton.1 hm⟩

end FileTree

namespace Directory

open FileTree

def loaded (d : Directory) (t : FileTree) (key : String) : Result Bytes :=
  ((d.load FileTree.files key).run t).1

def present (d : Directory) (t : FileTree) (key : String) : Bool :=
  ((d.has FileTree.files key).run t).1

def listed (d : Directory) (t : FileTree) : Result (List String) :=
  ((d.keys FileTree.files).run t).1

section Readers

variable {d : Directory} {t t' : FileTree} {place key : String} {bytes : Bytes}

theorem loaded_eq_of_under? (ho : t.find d.path = .ok (place, .directory))
    (ho' : t'.find d.path = .ok (place, .directory))
    (he : isKey key = true → t'.under? place key = t.under? place key) :
    d.loaded t' key = d.loaded t key ∧ d.present t' key = d.present t key := by
  unfold loaded present
  cases hk : isKey key with
  | false => simp [load, has, path?_eq_error hk, StateT.run, pure, StateT.pure]
  | true =>
    have hn := plainName_of_isKey hk
    have hf : t'.findFile (d.join key) = t.findFile (d.join key) := by
      rw [findFile_join ho hn, findFile_join ho' hn, he hk]
    simp only [run_load hk, run_has hk, hf, and_self]

theorem loaded_eq_ok (ho : t.find d.path = .ok (place, .directory)) (hk : isKey key = true)
    (ha : d.admits key = .ok ()) (he : t.under? place key = some (.file bytes)) :
    d.loaded t key = .ok bytes ∧ d.present t key = true := by
  have hf : t.findFile (d.join key) = .ok (child place key, bytes) := by
    rw [findFile_join ho (plainName_of_isKey hk), ha, he]
    rfl
  simp [loaded, present, run_load hk, run_has hk, hf, Except.isOk, Except.toBool]

theorem listed_eq (ho : t.find d.path = .ok (place, .directory)) :
    d.listed t = .ok (keysIn t place).mergeSort := by
  rw [listed, run_keys ho]

theorem mem_keysIn_congr (ht : t.WellFormed) (ht' : t'.WellFormed) {name : String}
    (he : PlainName name → ¬ tempSuffix.toList <:+ name.toList →
      t'.under? place name = t.under? place name) :
    name ∈ keysIn t' place ↔ name ∈ keysIn t place := by
  rw [mem_keysIn ht, mem_keysIn ht']
  refine and_congr_right fun hn => and_congr_right fun hs => ?_
  rw [he hn hs]

theorem Writable.congr {names : List String} (h : AlikeBut place names t t') :
    d.Writable t' place key ↔ d.Writable t place key := by
  have hd : ∀ name, t'.under? place name ≠ some .directory ↔ t.under? place name ≠ some .directory :=
    fun name => not_congr (h.directory name)
  constructor
  · exact fun hw => ⟨hw.temporary, hw.own, (hd _).1 hw.no_temporary, (hd _).1 hw.no_own⟩
  · exact fun hw => ⟨hw.temporary, hw.own, (hd _).2 hw.no_temporary, (hd _).2 hw.no_own⟩

/-- A save succeeds exactly if the file system takes both names and no directory has one. -/
theorem run_save_eq_ok (ho : t.find d.path = .ok (place, .directory)) (hk : isKey key = true)
    (bytes : Bytes) :
    ((d.save FileTree.files key bytes).run t).1 = .ok () ↔ d.Writable t place key := by
  constructor
  · intro h
    obtain ⟨done, rest, hs, hl, hr⟩ := files_fallible.left_save d hk bytes t
    obtain rfl := hr.1 h
    rw [List.append_nil] at hs
    cases hl with
    | complete hl =>
      rw [← hs] at hl
      exact ((performAll_saveSteps ho hk bytes).1 hl).1
  · intro hw
    rw [run_save hk bytes ((performAll_saveSteps ho hk bytes).2 ⟨hw, rfl⟩)]

end Readers

/-- What readers see when a save has ended or stopped, with or without the renaming. -/
structure Seen (d : Directory) (place key : String) (bytes : Bytes) (renamed : Prop)
    (t t' : FileTree) : Prop where
  before : ¬ renamed → d.loaded t' key = d.loaded t key ∧ d.present t' key = d.present t key ∧
    d.listed t' = d.listed t
  after : renamed → d.loaded t' key = .ok bytes ∧ d.present t' key = true ∧
    ∃ names, d.listed t = .ok names ∧ d.listed t' = .ok (names.insert key).mergeSort
  others : ∀ other, other ≠ key →
    d.loaded t' other = d.loaded t other ∧ d.present t' other = d.present t other
  later : ∀ bytes', let saved := (d.save FileTree.files key bytes').run t'
    (saved.1 = .ok () ↔ d.Writable t place key) ∧
      (saved.1 = .ok () → d.loaded saved.2 key = .ok bytes')

section Seen

variable {d : Directory} {t t' : FileTree} {place key : String} {bytes : Bytes}
  (ht : t.WellFormed) (ho : t.find d.path = .ok (place, .directory)) (hk : isKey key = true)
include ho hk

theorem loaded_save (bytes : Bytes)
    (h : ((d.save FileTree.files key bytes).run t).1 = .ok ()) :
    d.loaded ((d.save FileTree.files key bytes).run t).2 key = .ok bytes := by
  have hw := (run_save_eq_ok ho hk bytes).1 h
  have hp := (performAll_saveSteps ho hk bytes).2 ⟨hw, rfl⟩
  have hs := saves_of_performAll ho hk bytes hp
  rw [run_save hk bytes hp]
  exact (loaded_eq_ok (hs.alike.find ho) hk hw.own hs.own).1

include ht

theorem seen_of_unfinished (h : AlikeBut place [key ++ tempSuffix] t t') :
    Seen d place key bytes False t t' := by
  have hp : ∀ name ∈ [key ++ tempSuffix], PlainName name := by
    simpa using plainName_temporary (plainName_of_isKey hk)
  have ho' := h.find ho
  have hentry : ∀ {name}, PlainName name → ¬ tempSuffix.toList <:+ name.toList →
      t'.under? place name = t.under? place name :=
    fun hn hs => h.under? hp hn (by simpa using ne_temporary key hs)
  have hread : ∀ name, d.loaded t' name = d.loaded t name ∧ d.present t' name = d.present t name :=
    fun name => loaded_eq_of_under? ho ho' fun hname =>
      hentry (plainName_of_isKey hname) (isKey_iff.1 hname).2.2
  have ht' := h.wellFormed ht hp
  refine ⟨fun _ => ⟨(hread key).1, (hread key).2, ?_⟩, False.elim, fun other _ => hread other, ?_⟩
  · rw [listed_eq ho, listed_eq ho', mergeSort_congr (nodup_keysIn ht' place)
      (nodup_keysIn ht place) fun name => mem_keysIn_congr ht ht' hentry]
  · intro bytes'
    exact ⟨(run_save_eq_ok ho' hk bytes').trans (Writable.congr h), loaded_save ho' hk bytes'⟩

theorem seen_of_saves (hw : d.Writable t place key) (h : Saves place key bytes t t') :
    Seen d place key bytes True t t' := by
  have ho' := h.alike.find ho
  have hentry : ∀ {name}, PlainName name → ¬ tempSuffix.toList <:+ name.toList → name ≠ key →
      t'.under? place name = t.under? place name :=
    fun hn hs hne => h.alike.under? (plainName_of_mem hk) hn (by simp [hne, ne_temporary key hs])
  have ht' := h.alike.wellFormed ht (plainName_of_mem hk)
  have hl := loaded_eq_ok ho' hk hw.own h.own
  refine ⟨fun hf => absurd trivial hf, fun _ => ⟨hl.1, hl.2, _, listed_eq ho, ?_⟩, ?_, ?_⟩
  · rw [listed_eq ho', mergeSort_congr (nodup_keysIn ht' place)]
    · exact ((List.mergeSort_perm _ _).nodup_iff.2 (nodup_keysIn ht place)).insert
    · intro name
      rw [List.mem_insert_iff, List.mem_mergeSort]
      by_cases hne : name = key
      · subst hne
        simpa [mem_keysIn ht', h.own] using (isKey_iff.1 hk).imp_right And.right
      · rw [mem_keysIn_congr ht ht' fun hn hs => hentry hn hs hne]
        simp [hne]
  · exact fun other hne => loaded_eq_of_under? ho ho' fun hother =>
      hentry (plainName_of_isKey hother) (isKey_iff.1 hother).2.2 hne
  · intro bytes'
    exact ⟨(run_save_eq_ok ho' hk bytes').trans (Writable.congr h.alike), loaded_save ho' hk bytes'⟩

theorem seen_of_left {done rest : List FileStep} (hs : d.saveSteps key bytes = done ++ rest)
    (h : t.Left done rest t') : Seen d place key bytes (rest = []) t t' := by
  by_cases hr : rest = []
  · subst hr
    rw [List.append_nil] at hs
    cases h with
    | complete h =>
      rw [← hs] at h
      have hw := ((performAll_saveSteps ho hk bytes).1 h).1
      simpa using seen_of_saves ht ho hk hw (saves_of_performAll ho hk bytes h)
  · simpa [hr] using seen_of_unfinished ht ho hk (h.unfinished ho hk hs hr)

end Seen

/-- A save is atomic for readers: wherever its steps stop, and whatever fails. -/
theorem save_atomic {t : FileTree} (ht : t.WellFormed) {d : Directory} {place : String}
    (ho : t.find d.path = .ok (place, .directory)) {key : String} (hk : isKey key = true)
    (bytes : Bytes) :
    (∀ done rest t', d.saveSteps key bytes = done ++ rest → t.Left done rest t' →
      Seen d place key bytes (rest = []) t t') ∧
    ∀ {σ : Type} (files : Files (StateM σ)) (tree : σ → FileTree), files.Fallible tree →
      ∀ s, tree s = t →
        let saved := (d.save files key bytes).run s
        Seen d place key bytes (saved.1 = .ok ()) t (tree saved.2) := by
  refine ⟨fun done rest t' hs hl => seen_of_left ht ho hk hs hl, ?_⟩
  rintro σ files tree hf s rfl
  obtain ⟨done, rest, hs, hl, hr⟩ := hf.left_save d hk bytes s
  simpa only [hr] using seen_of_left ht ho hk hs hl

theorem save_atomic_partly :
    let d : Directory := ⟨"store", true⟩
    let t := ((({} : FileTree).put "store" .directory).put "store/a" (.file [1, 2])).put
      "store/a.tmp" (.file [9])
    let t' := t.put (child "store" ("a" ++ tempSuffix)) (.file [7])
    t.WellFormed ∧ t.find d.path = .ok ("store", .directory) ∧ isKey "a" = true ∧
      t.Left [.create (d.temporary "a")] [.append (d.temporary "a") [7, 8],
        .sync (d.temporary "a"), .rename (d.temporary "a") (d.join "a")] t' ∧
      d.loaded t' "a" = .ok [1, 2] ∧ d.listed t' = d.listed t ∧ FileTree.files.Fallible id ∧
      d.loaded ((d.save FileTree.files "a" [7, 8]).run t).2 "a" = .ok [7, 8] := by
  intro d t t'
  have hn : PlainName "a" := ⟨by decide, by decide, by decide, by decide⟩
  have ht : PlainName "a.tmp" := ⟨by decide, by decide, by decide, by decide⟩
  have hw : t.WellFormed :=
    ((wellFormed_empty.put ⟨by decide, by decide, by decide, by decide⟩ "" .directory).put
      hn "store" (.file [1, 2])).put ht "store" (.file [9])
  have ho : t.find d.path = .ok ("store", .directory) := by decide
  have hk : isKey "a" = true := by decide
  have hwritable : d.Writable t "store" "a" := ⟨by decide, by decide, by decide, by decide⟩
  have hbefore : d.loaded t "a" = .ok [1, 2] ∧ d.present t "a" = true :=
    loaded_eq_ok ho hk hwritable.own (by decide)
  have hok := (run_save_eq_ok ho hk [7, 8]).2 hwritable
  have hl := left_partly ho hk hwritable (⟨[8], rfl⟩ : ([7] : Bytes) <+: [7, 8])
  clear_value t
  have hatomic := save_atomic hw ho hk [7, 8]
  have hseen := (hatomic.1 [.create (d.temporary "a")] _ t' rfl hl).before (by simp)
  have hsaved := (hatomic.2 FileTree.files id files_fallible t rfl).after hok
  exact ⟨hw, ho, hk, hl, hseen.1.trans hbefore.1, hseen.2.2, files_fallible, hsaved.1⟩

end Directory

end Concordance
